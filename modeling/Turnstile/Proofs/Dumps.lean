import Turnstile.Proofs.Frames

/-!
# What a dump shows

A dump reads the logs of a region and shows a schedule (`Region.dumped?`), unless a count overflows
on the way. What can fail besides is that the log or the schedule is to be written where nothing can
be written. That depends on the region and on the directories alone, so a dump that succeeded
succeeds again, with the same schedule, as long as these stay the same.

A job is taken apart backwards, from what its workplace is to be at its end (`Job.Completes`).
-/

set_option autoImplicit false
set_option relaxedAutoImplicit false

namespace Turnstile

/-- The schedule that a dump makes of a region, unless a count overflows. -/
def Region.dumped? (r : Region) (slot : Option Nat) : Option Schedule :=
  let (recorder, fresh) := (Recorder.start.drain r).value
  fresh.map fun _ ↦ slot.elim recorder.finish recorder.finish.only

/-- A command has succeeded and shown a schedule, in a file if one was named. -/
structure Outcome.Shows (o : Outcome) (output : Option String) (s : Schedule) : Prop where
  code : o.code = some 0
  printed : output = none → o.out = s.text ++ "\n"
  saved : ∀ path ∈ output, ∃ name, o.disk.place path = .ok name ∧
    (Device.ofName? name = none → o.disk.file name = .ofBytes s.document) ∧
    (Device.ofName? name = some .output → o.out = lossyText s.document)

/-! ### Where something can be written -/

namespace Disk

variable {d next : Disk} {path : String} {bytes : List UInt8} {written : Disk × String}

/-- Bytes can be written at a path. -/
def Takes (d : Disk) (path : String) (bytes : List UInt8) : Prop :=
  ∃ name, d.place path = .ok name ∧ (Device.ofName? name).all (·.takes bytes)

theorem takes_iff (hdirectories : next.directories = d.directories) :
    next.Takes path bytes ↔ d.Takes path bytes := by
  simp only [Takes, place_eq_ok_iff hdirectories]

theorem exists_write_iff : (∃ written, d.write path bytes = .ok written) ↔ d.Takes path bytes := by
  unfold write Takes store
  simp only [bind_eq_ok_iff]
  constructor
  · rintro ⟨written, name, hplace, next, hstore, -⟩
    split_ifs at hstore with htakes
    exact ⟨name, hplace, htakes⟩
  · rintro ⟨name, hplace, htakes⟩
    exact ⟨_, name, hplace, _, if_pos htakes, rfl⟩

theorem file_of_write (h : d.write path bytes = .ok written)
    (hfile : Device.ofName? written.2 = none) : written.1.file written.2 = .ofBytes bytes := by
  have hdevice : isDevice written.2 = false := by rw [isDevice, hfile, Option.isSome_none]
  rw [(write_eq_ok h).2, file_put, if_pos ⟨rfl, hdevice⟩, file_put, if_pos ⟨rfl, hdevice⟩]
  rfl

/-- A region that is the same can still be opened. -/
theorem Within.openRegion {name : String}
    (h : d.Within name (fun r next ↦ next = r) next) (hopen : d.openRegion path = .ok name) :
    next.openRegion path = .ok name := by
  obtain ⟨hfind, hregion⟩ := openRegion_eq_ok_iff.1 hopen
  obtain ⟨hplace, hholds⟩ := find_eq_ok_iff.1 hfind
  have hfile : next.file name = d.file name := congrArg₂ File.mk h.length h.image
  rw [openRegion_eq_ok_iff, hfile, find_eq_ok_iff]
  exact ⟨⟨(place_eq_ok_iff h.directories).2 hplace, h.held hholds⟩, hregion⟩

end Disk

namespace Job

variable {α β : Type} {w : Workplace} {b : Bounds}

/-! ### Jobs that come to their end -/

/-- A job that is begun in a workplace comes to its end, with a result and in a workplace that have
a property. -/
def Completes (job : Job α) (w : Workplace) (Q : α → Workplace → Prop) : Prop :=
  ∃ a next, job.runIn w = (.ok a, next) ∧ Q a next

variable {Q : α → Workplace → Prop} {S : β → Workplace → Prop}

theorem completes_of_run {job : Job α} {a : α} {next : Workplace}
    (h : job.runIn w = (.ok a, next)) : job.Completes w Q ↔ Q a next := by
  simp [Completes, h]

theorem completes_bind {x : Job α} {f : α → Job β} :
    (x >>= f).Completes w S ↔ x.Completes w fun a next ↦ (f a).Completes next S := by
  unfold Completes
  obtain ⟨result, next, hrun⟩ : ∃ result next, x.runIn w = (result, next) := ⟨_, _, rfl⟩
  rw [runIn_bind, hrun]
  cases result <;> simp

theorem completes_throw (t : Halt) : ¬ Completes (throw t) w Q := by
  rintro ⟨a, next, hrun, -⟩
  cases hrun

theorem completes_succeeding {ε : Type} (trouble : ε → Trouble) {x : Except ε α} :
    (succeeding trouble x).Completes w Q ↔ ∃ a, x = .ok a ∧ Q a w := by
  cases x <;> simp [Completes, runIn_succeeding, Except.mapError]

theorem completes_save {trouble : PathRefusal → Trouble} {path : String} {bytes : List UInt8}
    {Q : Unit → Workplace → Prop} : (save trouble path bytes).Completes w Q ↔
      ∃ written, w.disk.write path bytes = .ok written ∧
        Q () (match Device.ofName? written.2 with
          | some .output => { w with disk := written.1, out := w.out ++ lossyText bytes }
          | some .errors => { w with disk := written.1, err := w.err ++ lossyText bytes }
          | _ => { w with disk := written.1 }) := by
  have hdisk : disk.runIn w = (.ok w.disk, w) := rfl
  unfold save
  simp only [completes_bind, completes_of_run hdisk, completes_succeeding]
  refine exists_congr fun written ↦ and_congr_right fun _ ↦ ?_
  exact completes_of_run rfl

/-- A job without a result comes to its end, and then it is where it has led to. -/
theorem completes_iff_runIn {job : Job Unit} {Q : Unit → Workplace → Prop} :
    job.Completes w Q ↔ job.Completes w (fun _ _ ↦ True) ∧ Q () (job.runIn w).2 := by
  unfold Completes
  obtain ⟨result, next, hrun⟩ : ∃ result next, job.runIn w = (result, next) := ⟨_, _, rfl⟩
  rw [hrun]
  cases result <;> simp [Unique.exists_iff]

/-! ### What was printed so far -/

variable {P P' : Workplace → Prop} {out : String}

theorem Upholds.and {job : Job α} {R R' : α → Prop} (h : job.Upholds P R)
    (h' : job.Upholds P' R') : job.Upholds (fun w ↦ P w ∧ P' w) fun a ↦ R a ∧ R' a :=
  fun w hw ↦ ⟨⟨(h w hw.1).1, (h' w hw.2).1⟩,
    fun a ha ↦ ⟨(h w hw.1).2 a ha, (h' w hw.2).2 a ha⟩⟩

/-- The log is no result. -/
theorem upholdsOut_log (n : Notice) : (log n).Upholds (·.out = out) fun _ ↦ True := by
  intro w hw
  obtain hrun | hrun | ⟨path, name, f, -, -, hrun⟩ := log_cases n w <;> rw [hrun] <;>
    exact ⟨hw, fun _ _ ↦ trivial⟩

theorem upholdsOut_openLog : openLog.Upholds (·.out = out) fun _ ↦ True := by
  refine upholds_get.bind fun w hw ↦ ?_
  cases hfile : w.logFile with
  | none => exact upholds_pure trivial
  | some path =>
    refine (upholds_get.bind fun _ _ ↦ upholds_pure (Q := fun _ ↦ True) trivial).bind fun d _ ↦ ?_
    refine (upholds_succeeding (Q := fun _ ↦ True) _ fun _ _ ↦ trivial).bind fun written _ ↦ ?_
    refine upholds_modify fun w hw ↦ ?_
    have hempty : lossyText [] = "" := by decide
    dsimp only
    split <;> simp [hempty, hw]

/-! ### The parts of a dump -/

/-- The end of a dump: the schedule is printed or saved. -/
def deliver (output : Option String) (s : Schedule) : Job Unit :=
  match output with
  | none => print s.text
  | some file => do
    save (.saving file) file s.document
    let wrote ← paint .greenBold "Wrote"
    remark (wrote ++ " " ++ toString s.events.length ++ " events to " ++ file)

/-- Word that events were overwritten before they were read, if some were. -/
def warn (lost : UInt64) : Job Unit := do
  if 0 < lost then
    let warning ← paint .yellowBold "WARNING:"
    remark (warning ++ " " ++ toString lost.toNat ++
      " events were overwritten before they could be read")

theorem dumpLogs_eq (path : String) (output : Option String) (slot : Option Nat) :
    dumpLogs path output slot = (do
      let (_, r) ← openRegion path
      let (recorder, fresh) ← noted (Recorder.start.drain r)
      if fresh.isNone then throw .crash
      warn recorder.lost
      deliver output (slot.elim recorder.finish recorder.finish.only)) := by
  unfold dumpLogs warn
  refine bind_congr fun x ↦ bind_congr fun y ↦ ?_
  obtain ⟨recorder, fresh⟩ := y
  cases fresh with
  | none => by_cases hlost : 0 < recorder.lost <;> simp [hlost]
  | some n => by_cases hlost : 0 < recorder.lost <;> cases output <;> simp [hlost, deliver]

theorem upholds_warn (lost : UInt64) : (warn lost).Upholds b.Holds fun _ ↦ True := by
  unfold warn
  split_ifs
  · exact (upholds_paint _ _).bind fun _ _ ↦ upholds_remark _
  · exact upholds_pure trivial

theorem upholdsOut_warn (lost : UInt64) : (warn lost).Upholds (·.out = out) fun _ ↦ True := by
  unfold warn
  split_ifs
  · exact (upholds_paint _ _).bind fun _ _ ↦ upholds_modify fun _ hw ↦ hw
  · exact upholds_pure trivial

theorem avoids_warn (lost : UInt64) (t : Halt) : (warn lost).Avoids t := by
  unfold warn
  split_ifs
  · exact (avoids_paint _ _ _).bind fun _ ↦ avoids_modify _ _
  · exact avoids_pure _ _

theorem upholds_deliver {output : Option String} (houtput : ∀ path ∈ output, b.Avoids path)
    (s : Schedule) : (deliver output s).Upholds b.Holds fun _ ↦ True := by
  cases output with
  | none => exact upholds_print _
  | some path =>
    refine (upholds_save _ (houtput path rfl) _).bind fun _ _ ↦ ?_
    exact (upholds_paint _ _).bind fun _ _ ↦ upholds_remark _

/-- A dump changes nothing but what it writes, and that is elsewhere. -/
theorem upholds_dumpLogs (hlog : ∀ path ∈ b.logFile, b.Avoids path) {output : Option String}
    (houtput : ∀ path ∈ output, b.Avoids path) (path : String) (slot : Option Nat) :
    (dumpLogs path output slot).Upholds b.Holds fun _ ↦ True := by
  rw [dumpLogs_eq]
  refine (upholds_openRegion path).bind fun x _ ↦ (upholds_noted hlog _).bind ?_
  rintro ⟨recorder, fresh⟩ -
  have hend := (upholds_warn recorder.lost).bind fun _ _ ↦
    upholds_deliver houtput (slot.elim recorder.finish recorder.finish.only)
  cases fresh with
  | none => exact (upholds_throw (Q := fun _ ↦ True) _).bind fun _ _ ↦ hend
  | some n => exact hend

/-! ### When a dump comes to its end -/

/-- A job that never ends early leads somewhere. -/
theorem Upholds.exists_run {job : Job α} {R : α → Prop} (h : job.Upholds P R)
    (hsure : ∀ t, job.Avoids t) (hw : P w) :
    ∃ a next, job.runIn w = (.ok a, next) ∧ R a ∧ P next := by
  obtain ⟨hnext, hresult⟩ := h w hw
  obtain ⟨result, next, hrun⟩ : ∃ result next, job.runIn w = (result, next) := ⟨_, _, rfl⟩
  rw [hrun] at hnext hresult
  cases result with
  | error t => exact absurd (congrArg Prod.fst hrun) (hsure t w)
  | ok a => exact ⟨a, next, hrun, hresult a rfl, hnext⟩

theorem upholdsOut_remarks (remarks : List String) :
    Upholds (·.out = out) (remarks.forM remark) fun _ ↦ True :=
  upholds_forM (f := remark) (fun _ ↦ upholds_modify fun _ hw ↦ hw) remarks

theorem avoids_remarks (remarks : List String) (t : Halt) :
    Avoids (remarks.forM remark) t := by
  induction remarks with
  | nil => exact avoids_pure _ t
  | cons s remarks ih => exact (avoids_modify _ t).bind fun _ ↦ ih

theorem upholdsOut_noted (x : Noted α) : (noted x).Upholds (·.out = out) fun _ ↦ True :=
  (upholds_forM upholdsOut_log x.notices).bind fun _ _ ↦ upholds_pure trivial

/-- The log needs a place. -/
theorem completes_openLog (hw : b.Holds w) {Q : Unit → Workplace → Prop} :
    openLog.Completes w Q ↔
      (∀ path ∈ b.logFile, b.start.Takes path []) ∧ Q () (openLog.runIn w).2 := by
  have hget : (get : Job Workplace).runIn w = (.ok w, w) := rfl
  rw [completes_iff_runIn]
  refine and_congr_left fun _ ↦ ?_
  unfold openLog
  rw [completes_bind, completes_of_run hget, ← hw.logFile]
  cases w.logFile with
  | none => exact iff_of_true ((completes_of_run rfl).2 trivial) (by simp)
  | some path =>
    simp only [completes_save, and_true, Disk.exists_write_iff, Disk.takes_iff hw.disk.directories,
      Option.mem_some, forall_eq']

/-- The part of a dump that follows the reading of the logs. -/
theorem completes_concluded {output : Option String} {fresh : Option Nat} {lost : UInt64}
    {s : Schedule} {last : Workplace} {Q : Unit → Workplace → Prop}
    (hwarn : (warn lost).runIn w = (.ok (), last)) :
    Completes (do
      if fresh.isNone then throw .crash
      warn lost
      deliver output s) w Q ↔ fresh.isSome ∧ (deliver output s).Completes last Q := by
  cases fresh with
  | none => exact iff_of_false (fun h ↦ completes_throw _ (completes_bind.1 h)) (by simp)
  | some n =>
    have hend := (completes_bind.trans (completes_of_run hwarn) :
      (warn lost >>= fun _ ↦ deliver output s).Completes w Q ↔ _)
    simpa using hend

theorem completes_dumpLogs (hlog : ∀ path ∈ b.logFile, b.Avoids path)
    (hsame : ∀ r next, b.allowed r next → next = r) {path : String} (output : Option String)
    (slot : Option Nat) (hw : b.Holds w) (hopen : w.disk.openRegion path = .ok b.name) :
    ∃ last, b.Holds last ∧ last.out = w.out ∧ ∀ Q, ((dumpLogs path output slot).Completes w Q ↔
      ∃ s, b.image.dumped? slot = some s ∧ (deliver output s).Completes last Q) := by
  have hread : (openRegion path).runIn w = (.ok (b.name, b.image), w) := by
    rw [runIn_openRegion, hopen]
    dsimp only
    rw [hsame _ _ hw.disk.image]
    rfl
  obtain ⟨⟨recorder, fresh⟩, noting, hnoted, ⟨hx, -⟩, hnoting, hout⟩ :=
    ((upholds_noted hlog (Recorder.start.drain b.image)).and (upholdsOut_noted _)).exists_run
      (avoids_noted _) ⟨hw, rfl⟩
  obtain ⟨⟨⟩, last, hwarn, -, hlast⟩ :=
    ((upholds_warn recorder.lost).and (upholdsOut_warn _)).exists_run (avoids_warn _)
      ⟨hnoting, hout⟩
  have hdumped : b.image.dumped? slot =
      fresh.map fun _ ↦ slot.elim recorder.finish recorder.finish.only := by
    rw [Region.dumped?, ← hx]
  refine ⟨last, hlast.1, hlast.2, fun Q ↦ ?_⟩
  rw [dumpLogs_eq, completes_bind, completes_of_run hread, completes_bind, completes_of_run hnoted,
    hdumped]
  refine (completes_concluded hwarn).trans ?_
  cases fresh <;> simp

theorem takes_of_deliver {output : Option String} {s : Schedule} {Q : Unit → Workplace → Prop}
    (h : (deliver output s).Completes w Q) : ∀ path ∈ output, w.disk.Takes path s.document := by
  rintro path rfl
  rw [deliver, completes_bind, completes_save] at h
  obtain ⟨written, hwrite, -⟩ := h
  exact Disk.exists_write_iff.1 ⟨written, hwrite⟩

/-- A schedule that is delivered is shown. -/
theorem shows_of_deliver {output : Option String} {s : Schedule} (hout : w.out = "")
    (h : ∀ path ∈ output, w.disk.Takes path s.document) :
    (deliver output s).Completes w fun _ next ↦
      (Outcome.ofJob (.ok ()) next).Shows output s := by
  cases output with
  | none =>
    refine (completes_of_run rfl).2 ⟨rfl, fun _ ↦ ?_, by simp⟩
    simp [Outcome.ofJob, hout]
  | some path =>
    obtain ⟨written, hwrite⟩ := Disk.exists_write_iff.2 (h path rfl)
    obtain ⟨hfound, heq⟩ := Disk.write_eq_ok hwrite
    have hdirectories : written.1.directories = w.disk.directories := by
      rw [heq, Disk.directories_put, Disk.directories_put]
    have hplace : written.1.place path = .ok written.2 := Disk.place_eq_ok hdirectories hfound
    rw [deliver, completes_bind, completes_save]
    refine ⟨written, hwrite, (completes_of_run rfl).2 ⟨rfl, by simp, ?_⟩⟩
    simp only [Option.mem_some, forall_eq']
    cases hdevice : Device.ofName? written.2 with
    | none =>
      exact ⟨written.2, hplace, fun _ ↦ Disk.file_of_write hwrite hdevice, by simp [hdevice]⟩
    | some device =>
      cases device with
      | output =>
        exact ⟨written.2, hplace, by simp [hdevice], fun _ ↦ by simp [Outcome.ofJob, hout]⟩
      | null | zeros | full | input | errors =>
        exact ⟨written.2, hplace, by simp [hdevice], by simp [hdevice]⟩

end Job

/-! ### Dumps of a file -/

/-- What a dump of the region in a file needs to succeed: a place for the log, logs that can be
read, and a place for the schedule. -/
structure Disk.Affords (d : Disk) (name : String) (logFile output : Option String)
    (slot : Option Nat) (s : Schedule) : Prop where
  log : ∀ path ∈ logFile, d.Takes path []
  dumped : (d.file name).image.dumped? slot = some s
  output : ∀ path ∈ output, d.Takes path s.document

theorem Disk.Affords.of_same {d next : Disk} {name : String} {logFile output : Option String}
    {slot : Option Nat} {s : Schedule} (h : d.Affords name logFile output slot s)
    (hdirectories : next.directories = d.directories)
    (himage : (next.file name).image = (d.file name).image) :
    next.Affords name logFile output slot s :=
  ⟨fun path hpath ↦ (takes_iff hdirectories).2 (h.log path hpath), himage.symm ▸ h.dumped,
    fun path hpath ↦ (takes_iff hdirectories).2 (h.output path hpath)⟩

namespace Command

variable {env : Options.Environment} {args : List String} {i : Invocation} {terminal : Bool}
  {d : Disk} {name path : String} {output : Option String} {slot : Option Nat} {s : Schedule}

theorem completes_of_dump (env : Options.Environment) (terminal : Bool)
    (hdump : i.command = .dump path output slot)
    (hlog : ∀ path ∈ i.logFile, d.place path ≠ .ok name) (hopen : d.openRegion path = .ok name) :
    ∃ last, last.disk.directories = d.directories ∧ last.out = "" ∧
      ∀ Q, ((i.job env).Completes (i.workplace env terminal d) Q ↔
        (∀ path ∈ i.logFile, d.Takes path []) ∧ ∃ s, (d.file name).image.dumped? slot = some s ∧
          (Job.deliver output s).Completes last Q) := by
  -- nothing is allowed to become of the file
  let b : Bounds := ⟨d, i.logFile, name, fun r next ↦ next = r⟩
  have hstart : b.Holds (i.workplace env terminal d) := ⟨.refl d fun _ ↦ rfl, rfl⟩
  obtain ⟨hbegun, -⟩ := ((Job.upholds_openLog hlog).and Job.upholdsOut_openLog) _ ⟨hstart, rfl⟩
  obtain ⟨⟨⟩, next, hremarks, -, hnext, hout⟩ :=
    ((Job.upholds_forM Job.upholds_remark
      (LogFilter.remarks ((env.lookup "RUST_LOG").getD ""))).and
        (Job.upholdsOut_remarks _)).exists_run (Job.avoids_remarks _) hbegun
  obtain ⟨last, hlast, hlastOut, hdumped⟩ := Job.completes_dumpLogs hlog
    (fun _ _ hallowed ↦ hallowed) output slot hnext (hnext.disk.openRegion hopen)
  refine ⟨last, hlast.disk.directories, hlastOut.trans hout, fun Q ↦ ?_⟩
  rw [Invocation.job, Job.completes_bind, Job.completes_openLog hstart, Job.completes_bind,
    Job.completes_of_run hremarks, hdump]
  exact and_congr_right fun _ ↦ hdumped Q

theorem code_eq_zero_iff (hread : Invocation.read env args = .ok i) :
    (run env terminal args d).code = some 0 ↔
      (i.job env).Completes (i.workplace env terminal d) fun _ _ ↦ True := by
  rw [run_of_read hread, Job.Completes]
  obtain ⟨result, next, hrun⟩ : ∃ result next,
      (i.job env).runIn (i.workplace env terminal d) = (result, next) := ⟨_, _, rfl⟩
  rw [hrun]
  rcases result with (t | _ | _) | _ <;> simp [Outcome.ofJob]

theorem exists_affords (hread : Invocation.read env args = .ok i)
    (hdump : i.command = .dump path output slot)
    (hlog : ∀ path ∈ i.logFile, d.place path ≠ .ok name) (hopen : d.openRegion path = .ok name)
    (hcode : (run env terminal args d).code = some 0) :
    ∃ s, d.Affords name i.logFile output slot s := by
  obtain ⟨last, hdirectories, -, hlast⟩ := completes_of_dump env terminal hdump
    hlog hopen
  obtain ⟨hopened, s, hdumped, hdelivered⟩ := (hlast _).1 ((code_eq_zero_iff hread).1 hcode)
  exact ⟨s, hopened, hdumped, fun path hpath ↦
    (Disk.takes_iff hdirectories).1 (Job.takes_of_deliver hdelivered path hpath)⟩

theorem shows_of_affords (hread : Invocation.read env args = .ok i)
    (hdump : i.command = .dump path output slot)
    (hlog : ∀ path ∈ i.logFile, d.place path ≠ .ok name) (hopen : d.openRegion path = .ok name)
    (h : d.Affords name i.logFile output slot s) : (run env terminal args d).Shows output s := by
  obtain ⟨last, hdirectories, hout, hlast⟩ := completes_of_dump env terminal hdump
    hlog hopen
  have hdelivered := Job.shows_of_deliver hout fun path hpath ↦
    (Disk.takes_iff hdirectories).2 (h.output path hpath)
  obtain ⟨⟨⟩, next, hrun, hshows⟩ := (hlast _).2 ⟨h.log, s, h.dumped, hdelivered⟩
  rw [run_of_read hread, hrun]
  exact hshows

end Command

end Turnstile
