import Turnstile.Proofs.Inspections

/-!
# What a job can do to a file

A job is followed with a property of its workplace that every step upholds (`Job.Upholds`), one rule
for each way to put steps together. The property is that the disk has the directories that it had
before, and under one name a file of the same length whose region differs from the one before in
allowed ways only (`Disk.Within`). Steps that write elsewhere uphold it whatever they write. The
log is written elsewhere if its path does not lead to the file, and where a path leads is told by
the directories alone (`Disk.place_eq_ok_iff`), so it cannot come to lead there later.

A job that keeps a region in the file itself upholds the property if the region differs in allowed
ways from the one at the start.
-/

set_option autoImplicit false
set_option relaxedAutoImplicit false

namespace Turnstile

namespace Disk

variable {d next : Disk} {path name : String}

/-- What may have become of a disk: it has the same directories, and what it held under a name is
still there, as long as before, with a region that has changed in allowed ways. -/
structure Within (d : Disk) (name : String) (allowed : Region → Region → Prop) (next : Disk) :
    Prop where
  directories : next.directories = d.directories
  held : d.holds name → next.holds name
  length : (next.file name).length = (d.file name).length
  image : allowed (d.file name).image (next.file name).image

namespace Within

variable {allowed : Region → Region → Prop} {name' : String}

theorem refl (d : Disk) (hrefl : ∀ r, allowed r r) : d.Within name allowed d :=
  ⟨rfl, id, rfl, hrefl _⟩

theorem put_of_ne (h : d.Within name allowed next) (hne : name' ≠ name) (f : File) :
    d.Within name allowed (next.put name' f) := by
  have hfile : (next.put name' f).file name = next.file name := by
    rw [file_put, if_neg fun hname ↦ hne hname.1.symm]
  refine ⟨(directories_put _ _ _).trans h.directories, fun hheld ↦ holds_put (h.held hheld) _ _,
    ?_, ?_⟩ <;> rw [hfile]
  · exact h.length
  · exact h.image

/-- A region is kept in a file, which need not be the one that is looked at. -/
theorem put_image (h : d.Within name allowed next) {r : Region}
    (hr : name' = name → allowed (d.file name).image r) :
    d.Within name allowed (next.put name' { next.file name' with image := r }) := by
  by_cases hname : name' = name
  · subst hname
    refine ⟨(directories_put _ _ _).trans h.directories,
      fun hheld ↦ holds_put (h.held hheld) _ _, ?_, ?_⟩ <;> rw [file_put] <;> split_ifs
    · exact h.length
    · exact h.length
    · exact hr rfl
    · exact h.image
  · exact h.put_of_ne hname _

theorem write (h : d.Within name allowed next) (hplace : d.place path ≠ .ok name)
    {bytes : List UInt8} {written : Disk × String} (hwrite : next.write path bytes = .ok written) :
    d.Within name allowed written.1 := by
  obtain ⟨hwritten, heq⟩ := write_eq_ok hwrite
  have hne : written.2 ≠ name := by
    intro hname
    rw [place_eq_ok_iff h.directories, hname] at hwritten
    exact hplace hwritten
  rw [heq]
  exact (h.put_of_ne hne _).put_of_ne hne _

end Within

end Disk

/-! ### Properties that jobs uphold -/

namespace Job

variable {α β : Type} {P : Workplace → Prop} {Q : α → Prop} {S : β → Prop}

/-- A job that is begun in a workplace with a property ends in one, however it ends; and its result,
if it has one, has a property of its own. -/
def Upholds (P : Workplace → Prop) (job : Job α) (Q : α → Prop) : Prop :=
  ∀ w, P w → P (job.runIn w).2 ∧ ∀ a, (job.runIn w).1 = .ok a → Q a

theorem Upholds.bind {x : Job α} {f : α → Job β} (hx : x.Upholds P Q)
    (hf : ∀ a, Q a → (f a).Upholds P S) : (x >>= f).Upholds P S := by
  intro w hw
  obtain ⟨hnext, hresult⟩ := hx w hw
  rw [runIn_bind]
  obtain ⟨result, next, hrun⟩ : ∃ result next, x.runIn w = (result, next) := ⟨_, _, rfl⟩
  rw [hrun] at hnext hresult ⊢
  cases result with
  | error t => exact ⟨hnext, by rintro b ⟨⟩⟩
  | ok a => exact hf a (hresult a rfl) next hnext

theorem upholds_pure {a : α} (ha : Q a) : Upholds P (pure a) Q :=
  fun _ hw ↦ ⟨hw, by rintro b ⟨⟩; exact ha⟩

theorem upholds_throw (t : Halt) : Upholds P (throw t) Q := fun _ hw ↦ ⟨hw, by rintro b ⟨⟩⟩

theorem upholds_get : Upholds P (get : Job Workplace) P :=
  fun _ hw ↦ ⟨hw, by rintro b ⟨⟩; exact hw⟩

theorem upholds_modify {f : Workplace → Workplace} (hf : ∀ w, P w → P (f w)) :
    Upholds P (modify f : Job Unit) fun _ ↦ True :=
  fun w hw ↦ ⟨hf w hw, fun _ _ ↦ trivial⟩

theorem upholds_succeeding {ε : Type} (trouble : ε → Trouble) {x : Except ε α}
    (hx : ∀ a, x = .ok a → Q a) : (succeeding trouble x).Upholds P Q := by
  cases x with
  | ok a => exact upholds_pure (hx a rfl)
  | error e => exact upholds_throw _

theorem upholds_waitUntil (unlocked : Bool) :
    (waitUntil unlocked).Upholds P fun _ ↦ unlocked := by
  unfold waitUntil
  cases unlocked with
  | false => exact upholds_throw _
  | true => exact upholds_pure rfl

theorem upholds_paint (p : Paint) (s : String) : (paint p s).Upholds P fun _ ↦ True :=
  upholds_get.bind fun _ _ ↦ upholds_pure trivial

/-- A notice is passed over, or shown, or added to the file of the log. -/
theorem log_cases (n : Notice) (w : Workplace) :
    (log n).runIn w = (.ok (), w) ∨
      (log n).runIn w = (.ok (), { w with err := w.err ++ logLine n ++ "\n" }) ∨
      ∃ path name f, w.logFile = some path ∧ w.disk.find path = .ok name ∧
        (log n).runIn w = (.ok (), { w with disk := w.disk.put name f }) := by
  have hget : (get : Job Workplace).runIn w = (.ok w, w) := rfl
  unfold log
  rw [runIn_bind, hget]
  obtain ⟨d, out, err, colored, level, logFile⟩ := w
  dsimp only
  split_ifs
  · cases logFile with
    | none => exact .inr (.inl rfl)
    | some path =>
      cases hfound : d.find path with
      | error e =>
        simp only [hfound]
        exact .inl rfl
      | ok name =>
        simp only [hfound]
        exact .inr (.inr ⟨path, name, _, rfl, hfound, rfl⟩)
  · exact .inl rfl

theorem upholds_forM {f : α → Job Unit} (hf : ∀ a, (f a).Upholds P fun _ ↦ True) (as : List α) :
    Upholds P (as.forM f) fun _ ↦ True := by
  induction as with
  | nil => exact upholds_pure trivial
  | cons a as ih => exact (hf a).bind fun _ _ ↦ ih

theorem upholds_forIn {f : α → Unit → Job (ForInStep Unit)}
    (hf : ∀ a u, (f a u).Upholds P fun _ ↦ True) (as : List α) :
    Upholds P (forIn as () f) fun _ ↦ True := by
  induction as with
  | nil => exact upholds_pure trivial
  | cons a as ih =>
    rw [List.forIn_cons]
    refine (hf a ()).bind fun step _ ↦ ?_
    cases step with
    | done u => exact upholds_pure trivial
    | yield u => exact ih

theorem upholds_slotNumbers (slot : Option Nat) :
    (slotNumbers slot).Upholds P fun numbers ↦ ∀ n ∈ numbers, ∀ m ∈ slot, n = m := by
  unfold slotNumbers
  cases slot with
  | none => exact upholds_pure (by simp)
  | some n =>
    dsimp only
    split_ifs
    · exact upholds_pure (by simp)
    · exact upholds_throw _

end Job

/-! ### Jobs that spare a file -/

/-- What may become of a file while a job is done: its region differs from the one on the disk at
the start in allowed ways only. -/
structure Bounds where
  start : Disk
  logFile : Option String
  name : String
  allowed : Region → Region → Prop

namespace Bounds

/-- The region in the file at the start. -/
def image (b : Bounds) : Region := (b.start.file b.name).image

/-- A workplace whose disk is within the bounds, with the log that it had. -/
structure Holds (b : Bounds) (w : Workplace) : Prop where
  disk : b.start.Within b.name b.allowed w.disk
  logFile : w.logFile = b.logFile

/-- A path does not lead to the file. -/
def Avoids (b : Bounds) (path : String) : Prop := b.start.place path ≠ .ok b.name

end Bounds

namespace Job

variable {α : Type} {b : Bounds}

theorem upholds_print (s : String) : (print s).Upholds b.Holds fun _ ↦ True :=
  upholds_modify fun _ hw ↦ ⟨hw.disk, hw.logFile⟩

theorem upholds_remark (s : String) : (remark s).Upholds b.Holds fun _ ↦ True :=
  upholds_modify fun _ hw ↦ ⟨hw.disk, hw.logFile⟩

theorem upholds_disk : disk.Upholds b.Holds fun d ↦ b.start.Within b.name b.allowed d :=
  upholds_get.bind fun _ hw ↦ upholds_pure hw.disk

theorem upholds_setDisk {d : Disk} (hd : b.start.Within b.name b.allowed d) :
    (setDisk d).Upholds b.Holds fun _ ↦ True :=
  upholds_modify fun _ hw ↦ ⟨hd, hw.logFile⟩

/-- The log is kept elsewhere. -/
theorem upholds_log (hlog : ∀ path ∈ b.logFile, b.Avoids path) (n : Notice) :
    (log n).Upholds b.Holds fun _ ↦ True := by
  intro w hw
  obtain hrun | hrun | ⟨path, name, f, hfile, hfound, hrun⟩ := log_cases n w
  · rw [hrun]
    exact ⟨hw, fun _ _ ↦ trivial⟩
  · rw [hrun]
    exact ⟨⟨hw.disk, hw.logFile⟩, fun _ _ ↦ trivial⟩
  · rw [hrun]
    refine ⟨⟨hw.disk.put_of_ne ?_ f, hw.logFile⟩, fun _ _ ↦ trivial⟩
    rintro rfl
    have hplace := (Disk.find_eq_ok_iff.1 hfound).1
    rw [Disk.place_eq_ok_iff hw.disk.directories] at hplace
    exact hlog path (hw.logFile ▸ hfile) hplace

theorem upholds_noted (hlog : ∀ path ∈ b.logFile, b.Avoids path) (x : Noted α) :
    (noted x).Upholds b.Holds fun a ↦ a = x.value :=
  (upholds_forM (upholds_log hlog) x.notices).bind fun _ _ ↦ upholds_pure rfl

/-- What is saved elsewhere. -/
theorem upholds_save (trouble : PathRefusal → Trouble) {path : String} (hpath : b.Avoids path)
    (bytes : List UInt8) : (save trouble path bytes).Upholds b.Holds fun _ ↦ True := by
  refine upholds_disk.bind fun d hd ↦ ?_
  refine (upholds_succeeding trouble fun written hwritten ↦ hd.write hpath hwritten).bind ?_
  rintro ⟨d', name⟩ hd'
  refine upholds_modify fun w hw ↦ ?_
  dsimp only
  split <;> exact ⟨hd', hw.logFile⟩

theorem upholds_openLog (hlog : ∀ path ∈ b.logFile, b.Avoids path) :
    openLog.Upholds b.Holds fun _ ↦ True := by
  refine upholds_get.bind fun w hw ↦ ?_
  cases hfile : w.logFile with
  | none => exact upholds_pure trivial
  | some path => exact upholds_save _ (hlog path (hw.logFile ▸ hfile)) []

/-- If it is the file that is opened, its region is within the bounds. -/
theorem upholds_openRegion (path : String) :
    (openRegion path).Upholds b.Holds fun x ↦ x.1 = b.name → b.allowed b.image x.2 := by
  refine upholds_disk.bind fun d hd ↦ ?_
  refine (upholds_succeeding (Q := fun _ ↦ True) _ fun _ _ ↦ trivial).bind fun name _ ↦ ?_
  refine upholds_pure ?_
  rintro rfl
  exact hd.image

/-- A region that is kept in the file has to be within the bounds. -/
theorem upholds_keep {name : String} {r : Region} (hr : name = b.name → b.allowed b.image r) :
    (keep name r).Upholds b.Holds fun _ ↦ True :=
  upholds_disk.bind fun _ hd ↦ upholds_setDisk (hd.put_image hr)

theorem upholds_loadSchedule (path : String) :
    (loadSchedule path).Upholds b.Holds fun _ ↦ True := by
  refine upholds_disk.bind fun d _ ↦ ?_
  refine (upholds_succeeding (Q := fun _ ↦ True) _ fun _ _ ↦ trivial).bind fun name _ ↦ ?_
  exact upholds_succeeding _ fun _ _ ↦ trivial

end Job

namespace Invocation

/-- What a command line comes to once it has been read. -/
def job (env : Options.Environment) (i : Invocation) : Job Unit := do
  Job.openLog
  (LogFilter.remarks ((env.lookup "RUST_LOG").getD "")).forM Job.remark
  i.command.job

/-- The workplace in which a command line is run. -/
def workplace (env : Options.Environment) (terminal : Bool) (d : Disk) (i : Invocation) :
    Workplace :=
  ⟨d, "", "", Command.isColored env terminal, i.level, i.logFile⟩

end Invocation

theorem Command.run_of_read {env : Options.Environment} {args : List String}
    {i : Invocation} (hread : Invocation.read env args = .ok i) (terminal : Bool) (d : Disk) :
    run env terminal args d = .ofJob ((i.job env).runIn (i.workplace env terminal d)).1
      ((i.job env).runIn (i.workplace env terminal d)).2 := by
  unfold run
  rw [hread]
  rfl

end Turnstile
