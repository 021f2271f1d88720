import Turnstile.Proofs.Locks
import Turnstile.Proofs.Selection

/-!
# The locks of slots that are inspected

A command that inspects a region looks at its slots one after another, each under its locks, and
writes the region back once it has been through all of them. It may end early, at a number that no
slot has, at coverage that overflows, or at a lock that somebody else holds; then nothing is written
back. Either way no lock is left behind in any file (`Command.keepsFree_run_of_inspect`), also where
the log of the command is kept in a file that is emptied first.

What a job does is followed along its parts. Most of them leave the disk alone (`Job.LeavesDisk`).
-/

set_option autoImplicit false
set_option relaxedAutoImplicit false

namespace Turnstile

namespace Disk

theorem keepsFree_write_nil {d : Disk} {path : String} {written : Disk × String}
    (h : d.write path [] = .ok written) : d.KeepsFree written.1 := by
  unfold write at h
  cases hplace : d.place path with
  | error e =>
    rw [hplace] at h
    cases h
  | ok name =>
    have hempty : d.KeepsFree (d.put name .empty) :=
      keepsFree_put fun i ↦ (Region.isFree_zero i).keepsFree _
    simp only [hplace, store, bind, Except.bind] at h
    split_ifs at h
    cases h
    exact hempty.trans (keepsFree_put (Region.keepsFree_refl _))

end Disk

namespace Job

variable {α β : Type} {w : Workplace}

/-- Locks that are free before a job are free after it, however it ends. -/
def KeepsFreeFrom (w : Workplace) (job : Job α) : Prop := w.disk.KeepsFree (job.runIn w).2.disk

/-- A job does nothing to the disk. -/
def LeavesDisk (job : Job α) : Prop := ∀ w, (job.runIn w).2.disk = w.disk

theorem LeavesDisk.keepsFree {job : Job α} (h : job.LeavesDisk) (w : Workplace) :
    job.KeepsFreeFrom w := by
  unfold KeepsFreeFrom
  rw [h w]
  exact w.disk.keepsFree_refl

theorem KeepsFreeFrom.bind {x : Job α} {f : α → Job β} (hx : x.KeepsFreeFrom w)
    (hf : ∀ a next, x.runIn w = (.ok a, next) → (f a).KeepsFreeFrom next) :
    (x >>= f).KeepsFreeFrom w := by
  unfold KeepsFreeFrom at hx ⊢
  rw [runIn_bind]
  obtain ⟨result, next, hrun⟩ : ∃ result next, x.runIn w = (result, next) := ⟨_, _, rfl⟩
  rw [hrun] at hx ⊢
  cases result with
  | error t => exact hx
  | ok a => exact hx.trans (hf a next hrun)

theorem LeavesDisk.bind {x : Job α} {f : α → Job β} (hx : x.LeavesDisk)
    (hf : ∀ a, (f a).LeavesDisk) : (x >>= f).LeavesDisk := by
  intro w
  have hfirst := hx w
  rw [runIn_bind]
  obtain ⟨result, next, hrun⟩ : ∃ result next, x.runIn w = (result, next) := ⟨_, _, rfl⟩
  rw [hrun] at hfirst ⊢
  cases result with
  | error t => exact hfirst
  | ok a => exact (hf a next).trans hfirst

theorem leavesDisk_pure (a : α) : LeavesDisk (pure a) := fun _ ↦ rfl

theorem leavesDisk_throw (t : Halt) : LeavesDisk (throw t : Job α) := fun _ ↦ rfl

theorem leavesDisk_get : LeavesDisk (get : Job Workplace) := fun _ ↦ rfl

theorem leavesDisk_disk : disk.LeavesDisk := leavesDisk_get.bind fun _ ↦ leavesDisk_pure _

theorem leavesDisk_slotNumbers (slot : Option Nat) : (slotNumbers slot).LeavesDisk := by
  unfold slotNumbers
  split
  · exact leavesDisk_pure _
  · split_ifs
    · exact leavesDisk_pure _
    · exact leavesDisk_throw _

theorem leavesDisk_print (s : String) : (print s).LeavesDisk := fun _ ↦ rfl

theorem leavesDisk_forM {f : α → Job Unit} (hf : ∀ a, (f a).LeavesDisk) (as : List α) :
    LeavesDisk (as.forM f) := by
  induction as with
  | nil => exact leavesDisk_pure ()
  | cons a as ih => exact (hf a).bind fun _ ↦ ih

theorem leavesDisk_forIn {f : α → Unit → Job (ForInStep Unit)} (hf : ∀ a u, (f a u).LeavesDisk)
    (as : List α) : LeavesDisk (forIn as () f) := by
  induction as with
  | nil => exact leavesDisk_pure ()
  | cons a as ih =>
    rw [List.forIn_cons]
    refine (hf a ()).bind fun step ↦ ?_
    cases step with
    | done u => exact leavesDisk_pure u
    | yield u => exact ih

/-- Slots that are looked at one after another keep their locks free, and nothing is written before
all of them have been. -/
theorem inspectSlots_spec (withTasks : Bool) (numbers : List Nat) (r : Region) (w : Workplace) :
    ((inspectSlots withTasks numbers r).runIn w).2.disk = w.disk ∧
      ∀ r' states, ((inspectSlots withTasks numbers r).runIn w).1 = .ok (r', states) →
        r.KeepsFree r' := by
  -- the region is handed on from slot to slot, with the slots so far as they were left
  induction numbers generalizing r w with
  | nil =>
    refine ⟨rfl, fun r' states h ↦ ?_⟩
    cases h
    exact r.keepsFree_refl
  | cons n numbers ih =>
    rw [inspectSlots, runIn_bind, runIn_succeeding]
    cases Region.slotIndex n with
    | error e => exact ⟨rfl, by rintro r' states ⟨⟩⟩
    | ok i =>
      have hinspect := (r.slot i).keepsFree_inspect i withTasks
      obtain ⟨s, state, heq⟩ : ∃ s state, (r.slot i).inspect i withTasks = (s, state) :=
        ⟨_, _, rfl⟩
      rw [heq] at hinspect
      simp only [Except.mapError, heq]
      cases state with
      | none => exact ⟨rfl, by rintro r' states ⟨⟩⟩
      | some state =>
        cases (r.slot i).canLook with
        | false => exact ⟨rfl, by rintro r' states ⟨⟩⟩
        | true =>
          obtain ⟨hdisk, hfree⟩ := ih (r.setSlot i s) w
          have hwait : (waitUntil true).runIn w = (.ok (), w) := rfl
          simp only [runIn_bind, hwait]
          obtain ⟨result, next, hrest⟩ : ∃ result next,
              (inspectSlots withTasks numbers (r.setSlot i s)).runIn w = (result, next) :=
            ⟨_, _, rfl⟩
          rw [hrest] at hdisk hfree ⊢
          cases result with
          | error t => exact ⟨hdisk, by rintro r' states ⟨⟩⟩
          | ok x =>
            refine ⟨hdisk, ?_⟩
            rintro r' states ⟨⟩
            exact (Region.keepsFree_setSlot hinspect).trans (hfree x.1 x.2 rfl)

/-- A file that is emptied has no locks. -/
theorem keepsFree_save_nil (trouble : PathRefusal → Trouble) (path : String) (w : Workplace) :
    (save trouble path []).KeepsFreeFrom w := by
  unfold save
  refine (leavesDisk_disk.keepsFree w).bind fun d next hrun ↦ ?_
  cases hrun
  unfold KeepsFreeFrom
  rw [runIn_bind, runIn_succeeding]
  cases hwrite : w.disk.write path [] with
  | error e => exact w.disk.keepsFree_refl
  | ok written =>
    have hdisk : w.disk.KeepsFree written.1 := Disk.keepsFree_write_nil hwrite
    have hfinal : ∀ f : Workplace → Workplace, (modify f : Job Unit).runIn w = (.ok (), f w) :=
      fun _ ↦ rfl
    simp only [Except.mapError, hfinal]
    split <;> exact hdisk

theorem keepsFree_openLog (w : Workplace) : openLog.KeepsFreeFrom w := by
  refine KeepsFreeFrom.bind (leavesDisk_get.keepsFree w) fun found next hrun ↦ ?_
  cases hrun
  cases w.logFile with
  | none => exact (leavesDisk_pure ()).keepsFree w
  | some path => exact keepsFree_save_nil _ path w

theorem keepsFree_inspectRegion (path : String) (slot : Option Nat) (withTasks json : Bool)
    (w : Workplace) : (inspectRegion path slot withTasks json).KeepsFreeFrom w := by
  have hshow : ∀ states : List SlotState, LeavesDisk (do
      if json then print (Json.array (states.map SlotState.toJson)).pretty
      else
        let colored := (← get).colored
        for line in states.flatMap (·.lines colored) do print line) := by
    intro states
    cases json with
    | true => exact leavesDisk_print _
    | false =>
      refine leavesDisk_get.bind fun w ↦ (leavesDisk_forIn (fun line _ ↦ ?_) _).bind fun _ ↦
        leavesDisk_pure ()
      exact (leavesDisk_print line).bind fun _ ↦ leavesDisk_pure _
  unfold inspectRegion KeepsFreeFrom
  rw [runIn_bind, runIn_openRegion]
  cases w.disk.openRegion path with
  | error e => exact w.disk.keepsFree_refl
  | ok name =>
    refine KeepsFreeFrom.bind ((leavesDisk_slotNumbers slot).keepsFree w) fun numbers next hrun ↦ ?_
    have hnumbers : next.disk = w.disk := by
      have hkept := leavesDisk_slotNumbers slot w
      rwa [hrun] at hkept
    obtain ⟨hdisk, hfree⟩ := inspectSlots_spec withTasks numbers (w.disk.file name).image next
    unfold KeepsFreeFrom
    rw [runIn_bind]
    obtain ⟨result, last, hrest⟩ : ∃ result last,
        (inspectSlots withTasks numbers (w.disk.file name).image).runIn next = (result, last) :=
      ⟨_, _, rfl⟩
    rw [hrest] at hdisk hfree ⊢
    cases result with
    | error t =>
      rw [← hdisk]
      exact last.disk.keepsFree_refl
    | ok x =>
      have hregion : (last.disk.file name).image.KeepsFree x.1 := by
        rw [hdisk, hnumbers]
        exact hfree x.1 x.2 rfl
      rw [← hdisk]
      refine KeepsFreeFrom.bind (w := last) ?_ fun _ later _ ↦ (hshow x.2).keepsFree later
      exact Disk.keepsFree_put hregion

end Job

namespace Command

theorem disk_ofJob (result : Except Halt Unit) (w : Workplace) :
    (Outcome.ofJob result w).disk = w.disk := by
  rcases result with (t | _ | _) | _ <;> rfl

/-- A command that inspects leaves no lock behind. -/
theorem keepsFree_run_of_inspect {env : Options.Environment} {args : List String}
    {invocation : Invocation} {path : String} {slot : Option Nat} {withTasks json : Bool}
    (hread : Invocation.read env args = .ok invocation)
    (hinspect : invocation.command = .inspect path slot withTasks json) (terminal : Bool)
    (d : Disk) : d.KeepsFree (run env terminal args d).disk := by
  have hjob : ∀ (remarks : List String) (w : Workplace), Job.KeepsFreeFrom w (do
      Job.openLog
      remarks.forM Job.remark
      job invocation.command) := by
    intro remarks w
    rw [hinspect]
    refine (Job.keepsFree_openLog w).bind fun _ next _ ↦ ?_
    refine ((Job.leavesDisk_forM (fun _ _ ↦ rfl) remarks).keepsFree next).bind fun _ last _ ↦ ?_
    exact Job.keepsFree_inspectRegion path slot withTasks json last
  unfold run
  simp only [hread, disk_ofJob]
  exact hjob _ ⟨d, "", "", _, _, _⟩

end Command

end Turnstile
