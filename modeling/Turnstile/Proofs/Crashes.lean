import Turnstile.Proofs.Damage
import Turnstile.Proofs.Tools

/-!
# What the tools do with a region in any condition

If the locks of a region are free, a command that inspects it or dumps its logs does not wait, but
it does not survive a count that overflows. `Command.reading_finishes_iff` says when that happens:
an inspection needs the coverage of the slots that it shows, and a dump what a first reading needs.
Neither gets that far if there is no place for its log.

A sequence of jobs ends early for a given reason (`Job.EndsWith`) if its first part does so, or if
that comes to its end (`Job.Completes`) and the rest does so. Parts that never end for this reason
drop out (`Job.endsWith_bind_of_run`, `Job.endsWith_bind_of_avoids`).
-/

set_option autoImplicit false
set_option relaxedAutoImplicit false

namespace Turnstile

/-! ### Slots that are shown -/

namespace Slot

variable {s : Slot}

theorem canLook_of_free (hfree : s.IsFree) : s.canLook := by
  simp [canLook, isUnlocked, hfree.lock, hfree.callLock]

/-- There is something to show if there is a coverage. -/
theorem isSome_inspect_iff (i : SlotIndex) (withTasks : Bool) :
    (s.inspect i withTasks).2.isSome ↔ s.IsCountable := by
  rw [← isSome_coverage?_iff, inspect]
  cases s.coverage? <;> exact Iff.rfl

end Slot

/-- An inspection of a region does not survive a number of a slot after which there is none, nor a
slot to be shown in which the hits of some block overflow. -/
def Region.BreaksInspection (r : Region) (slot : Option Nat) : Prop :=
  (∃ n ∈ slot, 2 ^ 64 ≤ n + 1) ∨ ∃ i : SlotIndex, (∀ n ∈ slot, i.val = n) ∧ ¬ (r.slot i).IsCountable

theorem Region.breaksInspection_some {r : Region} {n : Nat} (hn : n + 1 < 2 ^ 64) :
    r.BreaksInspection (some n) ↔ ∃ i : SlotIndex, i.val = n ∧ ¬ (r.slot i).IsCountable := by
  simp only [BreaksInspection, Option.mem_some, forall_eq', exists_eq_left', Nat.not_le.2 hn,
    false_or]

namespace Job

variable {α β : Type} {w next : Workplace} {t : Halt} {x : Job α} {f : α → Job β}

/-! ### Jobs that end early -/

/-- A job that is begun in a workplace ends early, for a certain reason. -/
def EndsWith (job : Job α) (w : Workplace) (t : Halt) : Prop := (job.runIn w).1 = .error t

theorem endsWith_bind : (x >>= f).EndsWith w t ↔
    x.EndsWith w t ∨ x.Completes w fun a next ↦ (f a).EndsWith next t := by
  unfold EndsWith Completes
  obtain ⟨result, next, hrun⟩ : ∃ result next, x.runIn w = (result, next) := ⟨_, _, rfl⟩
  rw [runIn_bind, hrun]
  cases result <;> simp

theorem endsWith_bind_of_run {a : α} (hrun : x.runIn w = (.ok a, next)) :
    (x >>= f).EndsWith w t ↔ (f a).EndsWith next t := by
  rw [endsWith_bind, completes_of_run hrun, EndsWith, hrun]
  simp

theorem endsWith_bind_of_avoids (hf : ∀ a, (f a).Avoids t) :
    (x >>= f).EndsWith w t ↔ x.EndsWith w t := by
  rw [endsWith_bind, or_iff_left_iff_imp]
  rintro ⟨a, next, -, hrest⟩
  exact absurd hrest (hf a next)

theorem endsWith_throw_bind (u : Halt) : ((throw u : Job α) >>= f).EndsWith w t ↔ t = u := by
  rw [EndsWith, runIn_bind]
  constructor
  · rintro ⟨⟩
    rfl
  · rintro rfl
    rfl

theorem avoids_forIn {f : α → Unit → Job (ForInStep Unit)} (hf : ∀ a u, (f a u).Avoids t)
    (as : List α) : Avoids (forIn as () f) t := by
  induction as with
  | nil => exact avoids_pure () t
  | cons a as ih =>
    rw [List.forIn_cons]
    refine (hf a ()).bind fun step ↦ ?_
    cases step with
    | done u => exact avoids_pure u t
    | yield u => exact ih

/-! ### Jobs that end early, but do not fail -/

theorem avoids_save (ht : ∀ e, .failure e ≠ t) (trouble : PathRefusal → Trouble) (path : String)
    (bytes : List UInt8) : (save trouble path bytes).Avoids t :=
  ((avoids_get t).bind fun _ ↦ avoids_pure _ t).bind fun _ ↦
    (avoids_succeeding (fun _ ↦ ht _) _).bind fun _ ↦ avoids_modify _ t

theorem avoids_openLog (ht : ∀ e, .failure e ≠ t) : openLog.Avoids t := by
  refine (avoids_get t).bind fun w ↦ ?_
  cases w.logFile with
  | none => exact avoids_pure () t
  | some path => exact avoids_save ht _ path []

theorem avoids_deliver (ht : ∀ e, .failure e ≠ t) (output : Option String) (s : Schedule) :
    (deliver output s).Avoids t := by
  cases output with
  | none => exact avoids_modify _ t
  | some path =>
    exact (avoids_save ht _ path _).bind fun _ ↦ (avoids_paint _ _ t).bind fun _ ↦
      avoids_modify _ t

/-! ### Inspections -/

/-- Slots with free locks are looked at, and the region is left as it was, unless there is one in
which the hits of some block overflow. -/
theorem inspectSlots_cases {r : Region} (hfree : r.IsFree) (withTasks : Bool)
    (order : List SlotIndex) (w : Workplace) :
    (∀ i ∈ order, (r.slot i).IsCountable) ∧ (∃ states,
        (inspectSlots withTasks (order.map (·.val)) r).runIn w = (.ok (r, states), w)) ∨
      (∃ i ∈ order, ¬ (r.slot i).IsCountable) ∧
        (inspectSlots withTasks (order.map (·.val)) r).runIn w = (.error .crash, w) := by
  -- whoever has looked at a slot has left it as it was, so the rest starts from the same region
  induction order with
  | nil => exact .inl ⟨by simp, [], rfl⟩
  | cons i order ih =>
    have hindex : Region.slotIndex i.val = .ok i := dif_pos i.isLt
    have hlook : (waitUntil (r.slot i).canLook).runIn w = (.ok (), w) := by
      rw [Slot.canLook_of_free (hfree i)]
      rfl
    have hsame := Slot.inspect_of_free (hfree i) i withTasks
    have hsome := (r.slot i).isSome_inspect_iff i withTasks
    obtain ⟨s, state, heq⟩ : ∃ s state, (r.slot i).inspect i withTasks = (s, state) := ⟨_, _, rfl⟩
    rw [heq] at hsame hsome
    obtain rfl : s = r.slot i := hsame
    rw [List.map_cons, inspectSlots, runIn_bind, runIn_succeeding, hindex]
    simp only [Except.mapError, heq]
    cases state with
    | none => exact .inr ⟨⟨i, List.mem_cons_self, fun h ↦ by simpa using hsome.2 h⟩, rfl⟩
    | some state =>
      have hcountable : (r.slot i).IsCountable := hsome.1 rfl
      simp only [runIn_bind, hlook, Region.setSlot_slot]
      obtain ⟨hrest, states, hrun⟩ | ⟨⟨j, hj, hmany⟩, hrun⟩ := ih
      · rw [hrun]
        exact .inl ⟨List.forall_mem_cons.2 ⟨hcountable, hrest⟩, _, rfl⟩
      · rw [hrun]
        exact .inr ⟨⟨j, List.mem_cons_of_mem i hj, hmany⟩, rfl⟩

theorem endsWith_inspectSlots {r : Region} (hfree : r.IsFree) (withTasks : Bool)
    (order : List SlotIndex) : (inspectSlots withTasks (order.map (·.val)) r).EndsWith w t ↔
      t = .crash ∧ ∃ i ∈ order, ¬ (r.slot i).IsCountable := by
  unfold EndsWith
  obtain ⟨hall, states, hrun⟩ | ⟨hmany, hrun⟩ := inspectSlots_cases hfree withTasks order w
  · rw [hrun]
    exact iff_of_false (by rintro ⟨⟩) fun ⟨_, i, hi, hmany⟩ ↦ hmany (hall i hi)
  · rw [hrun]
    constructor
    · rintro ⟨⟩
      exact ⟨rfl, hmany⟩
    · rintro ⟨rfl, -⟩
      rfl

/-- No slot is shown that there is not. -/
theorem avoids_inspectSlots (ht : ∀ e, .failure e ≠ t) (withTasks : Bool) {n : Nat}
    (hn : Limits.slots ≤ n) (r : Region) : (inspectSlots withTasks [n] r).Avoids t := by
  intro w
  have hindex : Region.slotIndex n = .error (.slotOutOfRange n) := dif_neg (Nat.not_lt.2 hn)
  rw [inspectSlots, runIn_bind, runIn_succeeding, hindex]
  rintro ⟨⟩
  exact ht _ rfl

/-- The end of an inspection: the slots are shown. -/
def display (json : Bool) (states : List SlotState) : Job Unit := do
  if json then print (Json.array (states.map SlotState.toJson)).pretty
  else
    let colored := (← get).colored
    for line in states.flatMap (·.lines colored) do print line

theorem avoids_display (json : Bool) (states : List SlotState) (t : Halt) :
    (display json states).Avoids t := by
  cases json with
  | true => exact avoids_modify _ t
  | false =>
    refine (avoids_get t).bind fun w ↦ (avoids_forIn (fun line _ ↦ ?_) _).bind fun _ ↦
      avoids_pure () t
    exact (avoids_modify _ t).bind fun _ ↦ avoids_pure _ t

theorem inspectRegion_eq (path : String) (slot : Option Nat) (withTasks json : Bool) :
    inspectRegion path slot withTasks json = (do
      let (name, r) ← openRegion path
      let numbers ← slotNumbers slot
      let (r, states) ← inspectSlots withTasks numbers r
      keep name r
      display json states) := rfl

/-- Once the region is open and the numbers of its slots are known, only looking at them can end an
inspection early. -/
theorem endsWith_inspectRegion_of_run {path name : String} {r : Region} {slot : Option Nat}
    {numbers : List Nat} (hopen : (openRegion path).runIn w = (.ok (name, r), w))
    (hnumbers : (slotNumbers slot).runIn w = (.ok numbers, w)) (withTasks json : Bool) :
    (inspectRegion path slot withTasks json).EndsWith w t ↔
      (inspectSlots withTasks numbers r).EndsWith w t := by
  rw [inspectRegion_eq, endsWith_bind_of_run hopen]
  refine (endsWith_bind_of_run hnumbers).trans (endsWith_bind_of_avoids fun x ↦ ?_)
  exact (avoids_keep name x.1 t).bind fun _ ↦ avoids_display json x.2 t

/-- An inspection does not wait, and it crashes only if a slot that it shows has no coverage, or if
it needs a number that there is not. -/
theorem endsWith_inspectRegion (ht : ∀ e, .failure e ≠ t) {path name : String} {r : Region}
    (hfree : r.IsFree) (hopen : (openRegion path).runIn w = (.ok (name, r), w))
    (slot : Option Nat) (withTasks json : Bool) :
    (inspectRegion path slot withTasks json).EndsWith w t ↔
      t = .crash ∧ r.BreaksInspection slot := by
  cases slot with
  | none =>
    have hall : List.range Limits.slots = (List.finRange Limits.slots).map (·.val) :=
      List.map_coe_finRange_eq_range.symm
    rw [endsWith_inspectRegion_of_run hopen rfl, hall, endsWith_inspectSlots hfree]
    simp [Region.BreaksInspection]
  | some n =>
    by_cases hlast : n + 1 < UInt64.size
    · have hnumbers : (slotNumbers (some n)).runIn w = (.ok [n], w) := by
        rw [slotNumbers, if_pos hlast]
        rfl
      rw [endsWith_inspectRegion_of_run hopen hnumbers, Region.breaksInspection_some hlast]
      by_cases hslot : n < Limits.slots
      · have hone : [n] = [(⟨n, hslot⟩ : SlotIndex)].map (·.val) := rfl
        rw [hone, endsWith_inspectSlots hfree]
        simp [← Fin.ext_iff (b := ⟨n, hslot⟩)]
      · -- there is no such slot, which is a failure
        refine iff_of_false (avoids_inspectSlots ht withTasks (Nat.not_lt.1 hslot) r w) ?_
        rintro ⟨-, i, rfl, -⟩
        exact hslot i.isLt
    · have hcrash : slotNumbers (some n) = throw .crash := by
        rw [slotNumbers, if_neg hlast]
      rw [inspectRegion_eq, endsWith_bind_of_run hopen]
      dsimp only
      rw [hcrash, endsWith_throw_bind]
      exact (and_iff_left (.inl ⟨n, rfl, Nat.not_lt.1 hlast⟩)).symm

/-! ### Dumps -/

/-- A dump neither waits nor crashes, but for a count that overflows. -/
theorem endsWith_dumpLogs (ht : ∀ e, .failure e ≠ t) {path name : String} {r : Region}
    (hopen : (openRegion path).runIn w = (.ok (name, r), w)) (output : Option String)
    (slot : Option Nat) : (dumpLogs path output slot).EndsWith w t ↔
      t = .crash ∧ ¬ (Recorder.start.drain r).value.2.isSome := by
  obtain ⟨next, hnoted⟩ := exists_runIn_noted (Recorder.start.drain r) w
  rw [dumpLogs_eq, endsWith_bind_of_run hopen]
  refine (endsWith_bind_of_run hnoted).trans ?_
  obtain ⟨recorder, fresh⟩ := (Recorder.start.drain r).value
  cases fresh with
  | none =>
    refine (endsWith_throw_bind (f := fun _ ↦ _) .crash).trans ?_
    simp
  | some n =>
    refine iff_of_false ?_ (by simp)
    exact ((avoids_warn _ t).bind fun _ ↦ avoids_deliver ht output _) next

end Job

namespace Command

variable {env : Options.Environment} {args : List String} {i : Invocation} {terminal : Bool}
  {d : Disk} {name path : String} {t : Halt}

theorem code_eq_some_101_iff (hread : Invocation.read env args = .ok i) :
    (run env terminal args d).code = some 101 ↔
      (i.job env).EndsWith (i.workplace env terminal d) .crash := by
  rw [run_of_read hread, Job.EndsWith]
  rcases ((i.job env).runIn (i.workplace env terminal d)).1 with (t | _ | _) | _ <;>
    simp [Outcome.ofJob]

theorem code_eq_none_iff (hread : Invocation.read env args = .ok i) :
    (run env terminal args d).code = none ↔
      (i.job env).EndsWith (i.workplace env terminal d) .blocked := by
  rw [run_of_read hread, Job.EndsWith]
  rcases ((i.job env).runIn (i.workplace env terminal d)).1 with (t | _ | _) | _ <;>
    simp [Outcome.ofJob]

/-- A command line waits or crashes if its command does, once the log has been begun; and the region
is then as it was before. -/
theorem endsWith_job (ht : ∀ e, .failure e ≠ t) (env : Options.Environment) (terminal : Bool)
    (hlog : ∀ path ∈ i.logFile, d.place path ≠ .ok name) (hopen : d.openRegion path = .ok name) :
    ∃ next, (Job.openRegion path).runIn next = (.ok (name, (d.file name).image), next) ∧
      ((i.job env).EndsWith (i.workplace env terminal d) t ↔
        (∀ path ∈ i.logFile, d.Takes path []) ∧ i.command.job.EndsWith next t) := by
  -- nothing is allowed to become of the file
  let b : Bounds := ⟨d, i.logFile, name, fun r next ↦ next = r⟩
  have hstart : b.Holds (i.workplace env terminal d) := ⟨.refl d fun _ ↦ rfl, rfl⟩
  obtain ⟨hbegun, -⟩ := Job.upholds_openLog hlog _ hstart
  obtain ⟨⟨⟩, next, hremarks, -, hnext⟩ :=
    (Job.upholds_forM Job.upholds_remark
      (LogFilter.remarks ((env.lookup "RUST_LOG").getD ""))).exists_run
        (Job.avoids_remarks _) hbegun
  have hsame : (next.disk.file name).image = (d.file name).image := hnext.disk.image
  refine ⟨next, ?_, ?_⟩
  · rw [Job.runIn_openRegion, hnext.disk.openRegion hopen, ← hsame]
  · have hopened : ¬ Job.openLog.EndsWith (i.workplace env terminal d) t := Job.avoids_openLog ht _
    rw [Invocation.job, Job.endsWith_bind, or_iff_right hopened, Job.completes_openLog hstart,
      Job.endsWith_bind_of_run hremarks]

/-- When the readers of a region come to their end. The region can be opened and its locks are free;
what else is in it does not matter.

Nothing is looked for outside of its tables, and nothing overflows but two sums: the hits of rows
with one id, and the losses of all logs. The coverage of a slot needs the former, a first reading
needs both, for all slots. A dump needs the same, and an inspection needs the coverage of the slots
that it shows, and that its slot does not have the last number there is. Otherwise they crash, if
their log could be begun. They never wait. -/
theorem reading_finishes_iff (hopen : d.openRegion path = .ok name)
    (hfree : (d.file name).image.IsFree) :
    let r := (d.file name).image
    (∀ j, (r.slot j).InRange ∧ ((r.slot j).coverage?.isSome ↔ (r.slot j).IsCountable)) ∧
      ((Recorder.start.drain r).value.2.isSome ↔
        r.missed < 2 ^ 64 ∧ ∀ j, (r.slot j).IsCountable) ∧
      ∀ (env : Options.Environment) (args : List String) (i : Invocation) (terminal : Bool),
        Invocation.read env args = .ok i → (∀ path ∈ i.logFile, d.place path ≠ .ok name) →
        let o := run env terminal args d
        (∀ slot withTasks json, i.command = .inspect path slot withTasks json →
          o.code ≠ none ∧ (o.code = some 101 ↔
            (∀ path ∈ i.logFile, d.Takes path []) ∧ r.BreaksInspection slot)) ∧
        ∀ output slot, i.command = .dump path output slot →
          o.code ≠ none ∧ (o.code = some 101 ↔ (∀ path ∈ i.logFile, d.Takes path []) ∧
            ¬ (r.missed < 2 ^ 64 ∧ ∀ j, (r.slot j).IsCountable)) := by
  intro r
  refine ⟨fun j ↦ ⟨(r.slot j).inRange, Slot.isSome_coverage?_iff⟩,
    Recorder.isSome_drain_start_iff r, fun env args i terminal hread hlog ↦ ?_⟩
  obtain ⟨waiting, hwaiting, hblocked⟩ := endsWith_job (t := .blocked) (by simp) env terminal hlog
    hopen
  obtain ⟨working, hworking, hcrashed⟩ := endsWith_job (t := .crash) (by simp) env terminal hlog
    hopen
  constructor
  · intro slot withTasks json hinspect
    rw [Ne, code_eq_none_iff hread, hblocked, code_eq_some_101_iff hread, hcrashed, hinspect, job,
      Job.endsWith_inspectRegion (by simp) hfree hwaiting,
      Job.endsWith_inspectRegion (by simp) hfree hworking]
    simp [r]
  · intro output slot hdump
    rw [Ne, code_eq_none_iff hread, hblocked, code_eq_some_101_iff hread, hcrashed, hdump, job,
      Job.endsWith_dumpLogs (by simp) hwaiting, Job.endsWith_dumpLogs (by simp) hworking,
      Recorder.isSome_drain_start_iff]
    simp [r]

/-- A region in which rows share an id can be opened, and neither an inspection nor a dump survives
it. -/
theorem reading_breaks_down_doubled :
    let d := Disk.keeping (.uniform .doubled)
    d.openRegion "r" = .ok "r" ∧ (d.file "r").image.IsFree ∧
      (run [] false ["inspect", "r"] d).code = some 101 ∧
      (run [] false ["dump", "r"] d).code = some 101 := by
  intro d
  have hopen : d.openRegion "r" = .ok "r" :=
    Disk.openRegion_keeping (Region.checkLayout_uniform rfl)
  have himage : (d.file "r").image = .uniform .doubled := congrArg File.image Disk.file_keeping
  have hfree : (d.file "r").image.IsFree := himage ▸ Region.isFree_uniform ⟨rfl, rfl⟩
  have hmany (j : SlotIndex) : ¬ ((d.file "r").image.slot j).IsCountable := by
    rw [himage, Region.slot_uniform]
    exact Slot.not_isCountable_doubled
  have hinspect : Invocation.read [] ["inspect", "r"] =
      .ok ⟨.warn, none, .inspect "r" none false false⟩ := by decide +kernel
  have hdump : Invocation.read [] ["dump", "r"] = .ok ⟨.warn, none, .dump "r" none none⟩ := by
    decide +kernel
  obtain ⟨-, -, hruns⟩ := reading_finishes_iff hopen hfree
  refine ⟨hopen, hfree, ?_, ?_⟩
  · have hcode := ((hruns [] _ _ false hinspect (by simp)).1 none false false rfl).2
    exact hcode.2 ⟨by simp, .inr ⟨0, by simp, hmany 0⟩⟩
  · have hcode := ((hruns [] _ _ false hdump (by simp)).2 none none rfl).2
    exact hcode.2 ⟨by simp, fun h ↦ hmany 0 (h.2 0)⟩

end Command

end Turnstile
