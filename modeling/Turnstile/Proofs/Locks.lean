import Turnstile.Command.Inspection
import Turnstile.Proofs.Arena
import Turnstile.Proofs.Consultations
import Turnstile.Proofs.Engagement
import Turnstile.Proofs.Paths
import Turnstile.Session.Scheduling

/-!
# What becomes of the locks of a slot

A slot has two locks. Whatever either side does to a slot, a lock that was free before is free
afterwards (`Slot.KeepsFree`): the reporter that reports, is held up or polls, and the scheduler
that selects a mode, looks at the slot or grants a task, also where the grant overflows or the
policy breaks down. The relation is closed under composition. It is stated for slots in any
condition, of which nothing else is known: the mode word and the tables may hold anything.

Regions (`Region.KeepsFree`), disks and sessions (`Session.World.KeepsFree`) follow slot by slot. A
session writes a region back at the place where it was found, so all that matters there is that
nothing is written anywhere else (`Session.World.region_setRegion`).
-/

set_option autoImplicit false
set_option relaxedAutoImplicit false

namespace Turnstile

/-! ### Slots -/

namespace Slot

variable {s next last : Slot}

/-- Nobody holds a lock of the slot. -/
structure IsFree (s : Slot) : Prop where
  lock : s.lock = 0
  callLock : s.callLock = 0

/-- A lock that is free before is free after. -/
structure KeepsFree (s next : Slot) : Prop where
  lock : s.lock = 0 → next.lock = 0
  callLock : s.callLock = 0 → next.callLock = 0

theorem keepsFree_refl (s : Slot) : s.KeepsFree s := ⟨id, id⟩

theorem KeepsFree.trans (h : s.KeepsFree next) (hlater : next.KeepsFree last) :
    s.KeepsFree last :=
  ⟨fun hlock ↦ hlater.lock (h.lock hlock), fun hlock ↦ hlater.callLock (h.callLock hlock)⟩

theorem IsFree.of_keepsFree (hfree : s.IsFree) (h : s.KeepsFree next) : next.IsFree :=
  ⟨h.lock hfree.lock, h.callLock hfree.callLock⟩

/-- From a slot that is free in any case, nothing can go wrong. -/
theorem IsFree.keepsFree (h : next.IsFree) (s : Slot) : s.KeepsFree next :=
  ⟨fun _ ↦ h.lock, fun _ ↦ h.callLock⟩

/-- What neither takes a lock nor lets go of one. -/
theorem keepsFree_of_eq (hlock : next.lock = s.lock) (hcall : next.callLock = s.callLock) :
    s.KeepsFree next :=
  ⟨hlock.trans, hcall.trans⟩

/-- The lock under which something is done to a slot is free afterwards, whatever is done. -/
theorem keepsFree_guarded {α : Type} {body : Slot → Slot × α}
    (hbody : s.acquire.KeepsFree (body s.acquire).1) : s.KeepsFree (s.guarded body).1 :=
  ⟨fun _ ↦ rfl, hbody.callLock⟩

theorem keepsFree_blockingCall (s : Slot) : s.KeepsFree s.blockingCall.1 := ⟨id, fun _ ↦ rfl⟩

theorem keepsFree_grant (s : Slot) (t : Task) : s.KeepsFree (s.grant t).1 := by
  unfold grant
  by_cases hadvance : s.canAdvance
  · simp only [hadvance, if_true]
    exact keepsFree_of_eq rfl rfl
  · simp only [hadvance]
    exact keepsFree_of_eq rfl rfl

theorem keepsFree_select (s : Slot) (m : ControlMode) : s.KeepsFree (s.select m).1 := by
  refine keepsFree_guarded ?_
  cases s.acquire.mode with
  | error e => exact keepsFree_refl _
  | ok old =>
    dsimp only
    split_ifs
    · exact keepsFree_of_eq rfl rfl
    · exact keepsFree_refl _

theorem keepsFree_afterChoice (s : Slot) (choice : Choice) :
    s.KeepsFree (s.afterChoice choice) := by
  cases choice with
  | wait | breakdown => exact ⟨fun _ ↦ rfl, id⟩
  | grant t =>
    unfold afterChoice
    split_ifs <;> exact ⟨fun _ ↦ rfl, id⟩

theorem keepsFree_finish (h : s.finish = .ok next) : s.KeepsFree next := by
  unfold finish at h
  cases hmode : s.mode with
  | error e =>
    rw [hmode] at h
    cases h
  | ok m =>
    by_cases hcontrolled : m.isControlled
    · simp only [hmode, bind, Except.bind, hcontrolled, if_true, pure, Except.pure] at h
      cases h
      exact keepsFree_of_eq rfl rfl
    · simp only [hmode, bind, Except.bind, hcontrolled] at h
      cases h

theorem keepsFree_look (s : Slot) (i : SlotIndex) (withTasks : Bool) (blocks : Nat) :
    s.KeepsFree (s.look i withTasks blocks).1 :=
  keepsFree_guarded (keepsFree_blockingCall _)

theorem keepsFree_inspect (s : Slot) (i : SlotIndex) (withTasks : Bool) :
    s.KeepsFree (s.inspect i withTasks).1 := by
  unfold inspect
  cases s.coverage? with
  | none => exact keepsFree_refl s
  | some c => exact s.keepsFree_look i withTasks c.blocks

theorem keepsFree_poll (s : Slot) : s.KeepsFree s.poll.1 := by
  refine keepsFree_guarded ?_
  unfold takeAnswer
  cases s.acquire.answer? with
  | none => exact keepsFree_refl _
  | some answer => exact keepsFree_of_eq rfl rfl

theorem keepsFree_enter (s : Slot) : s.KeepsFree s.enter.1 := by
  unfold enter
  split <;> exact keepsFree_of_eq rfl rfl

end Slot

/-! ### Reports -/

namespace Reporter

variable {s : Slot}

theorem keepsFree_poll (r : Reporter) (s : Slot) (pace : Backoff) :
    s.KeepsFree (r.poll s pace).slot := by
  unfold poll
  split_ifs
  · have hpoll := s.keepsFree_poll
    cases h : s.poll with
    | mk next answer =>
      rw [h] at hpoll
      cases answer <;> exact hpoll
  · exact s.keepsFree_refl

theorem keepsFree_polled {x : Reported} (h : s.KeepsFree x.slot) : s.KeepsFree x.polled.slot := by
  unfold Reported.polled
  split
  · exact h.trans (keepsFree_poll _ _ _)
  · exact h

theorem keepsFree_request (r : Reporter) (s : Slot) (pace : Backoff) :
    s.KeepsFree (r.request s pace).slot := by
  unfold request
  split_ifs
  · exact ⟨fun _ ↦ rfl, id⟩
  · exact s.keepsFree_refl

theorem keepsFree_proceed (r : Reporter) (s : Slot) (kind : EventKind) :
    s.KeepsFree (r.proceed s kind).slot := by
  have henter := s.keepsFree_enter
  unfold proceed
  cases h : s.enter with
  | mk next mode =>
    rw [h] at henter
    cases mode with
    | error e => exact henter
    | ok m =>
      have hadvance : s.KeepsFree
          (if m = .recordActive ∧ kind = .schedule then next.advance else next) := by
        refine henter.trans ?_
        split_ifs <;> exact Slot.keepsFree_of_eq rfl rfl
      dsimp only
      by_cases hwaits : (r.enforcing && m.suspends) = true
      · rw [if_pos hwaits]
        exact hadvance.trans (keepsFree_request _ _ _)
      · rw [if_neg hwaits]
        exact hadvance

theorem keepsFree_publish (r : Reporter) (s : Slot) (t : Task) (kind : EventKind)
    (pace : Backoff) : s.KeepsFree (r.publish s t kind pace).slot := by
  unfold publish
  split_ifs
  · have hshown : s.KeepsFree (s.publish t) := ⟨id, fun _ ↦ rfl⟩
    exact hshown.trans (keepsFree_proceed _ _ _)
  · exact s.keepsFree_refl

theorem keepsFree_report (r : Reporter) (s : Slot) (id : Int64) (payload : Payload)
    (stamp : UInt64) : s.KeepsFree (r.report s id payload stamp).slot := by
  refine keepsFree_polled ?_
  unfold announce
  cases s.task? id with
  | none => exact s.keepsFree_refl
  | some t =>
    have hlogged : s.KeepsFree (s.record (r.event s t payload stamp)) :=
      Slot.keepsFree_of_eq rfl rfl
    exact hlogged.trans (keepsFree_publish _ _ _ _ _)

theorem keepsFree_resume (r : Reporter) (s : Slot) (w : Wait) :
    s.KeepsFree (r.resume s w).slot := by
  unfold resume
  cases w.phase with
  | publishing t kind => exact keepsFree_polled (keepsFree_publish _ _ _ _ _)
  | requesting => exact keepsFree_polled (keepsFree_request _ _ _)
  | polling => exact keepsFree_poll _ _ _

theorem keepsFree_spawn (r : Reporter) (s : Slot) (id : Int64) (site : UInt64) (label : String) :
    s.KeepsFree (r.spawn s id site label).value.2.1 := Slot.keepsFree_of_eq rfl rfl

theorem slot_spawn (r : Reporter) (s : Slot) (id : Int64) (site : UInt64) (label : String) :
    (r.spawn s id site label).value.1.slot = r.slot := rfl

theorem keepsFree_reportBlock (r : Reporter) (s : Slot) (id : String) :
    s.KeepsFree (r.reportBlock s id).value.2 := by
  unfold reportBlock
  cases r.rows[id]? with
  | some row => exact Slot.keepsFree_of_eq rfl rfl
  | none =>
    by_cases hroom : r.rows.size < Limits.blocks
    · simp only [hroom, if_true]
      exact Slot.keepsFree_of_eq rfl rfl
    · simp only [hroom, if_false]
      exact s.keepsFree_refl

theorem slot_reportBlock (r : Reporter) (s : Slot) (id : String) :
    (r.reportBlock s id).value.1.slot = r.slot := by
  unfold reportBlock
  cases r.rows[id]? with
  | some row => rfl
  | none =>
    by_cases hroom : r.rows.size < Limits.blocks
    · simp only [hroom, if_true]
      rfl
    · simp only [hroom, if_false]

theorem keepsFree_setStatus {r : Reporter} {id : Int64} {status : StatusWord} {next : Slot}
    {t : Task} (h : (r.setStatus s id status).value = .ok (next, t)) : s.KeepsFree next := by
  unfold setStatus at h
  cases htask : s.task? id with
  | none =>
    rw [htask] at h
    cases h
  | some t =>
    rw [htask] at h
    cases h
    exact Slot.keepsFree_of_eq rfl rfl

theorem slot_report (r : Reporter) (s : Slot) (id : Int64) (payload : Payload) (stamp : UInt64) :
    (r.report s id payload stamp).reporter.slot = r.slot := by
  obtain h | h := r.keeps_announce s id payload stamp <;> exact (keeps_polled h).slot

theorem slot_resume (r : Reporter) (s : Slot) (w : Wait) :
    (r.resume s w).reporter.slot = r.slot := by
  unfold resume
  cases w.phase with
  | publishing t kind =>
    obtain h | h := r.keeps_publish s t kind w.pace <;> exact (keeps_polled h).slot
  | requesting => exact (keeps_polled (r.keeps_request s w.pace)).slot
  | polling => exact (r.keeps_poll s w.pace).slot

end Reporter

/-! ### Regions -/

namespace Region

variable {r next last : Region} {σ : Type}

/-- Nobody holds a lock of a slot. -/
def IsFree (r : Region) : Prop := ∀ i, (r.slot i).IsFree

/-- Locks that are free before are free after. -/
def KeepsFree (r next : Region) : Prop := ∀ i, (r.slot i).KeepsFree (next.slot i)

theorem keepsFree_refl (r : Region) : r.KeepsFree r := fun i ↦ (r.slot i).keepsFree_refl

theorem KeepsFree.trans (h : r.KeepsFree next) (hlater : next.KeepsFree last) : r.KeepsFree last :=
  fun i ↦ (h i).trans (hlater i)

theorem IsFree.of_keepsFree (hfree : r.IsFree) (h : r.KeepsFree next) : next.IsFree :=
  fun i ↦ (hfree i).of_keepsFree (h i)

theorem keepsFree_setSlot {i : SlotIndex} {s : Slot} (h : (r.slot i).KeepsFree s) :
    r.KeepsFree (r.setSlot i s) := by
  intro j
  by_cases hj : j = i
  · subst hj
    rwa [slot_setSlot_self]
  · rw [slot_setSlot_of_ne r hj]
    exact (r.slot j).keepsFree_refl

theorem isFree_zero : zero.IsFree := fun i ↦ by
  have hslot : zero.slot i = Slot.zero := by simp [slot, zero]
  rw [hslot]
  exact ⟨rfl, rfl⟩

theorem isFree_fresh : fresh.IsFree := fun i ↦ by
  rw [slot_fresh]
  exact ⟨rfl, rfl⟩

theorem keepsFree_endReplay (r : Region) : r.KeepsFree r.endReplay := fun i ↦ by
  rw [slot_endReplay]
  exact Slot.keepsFree_of_eq rfl rfl

theorem keepsFree_select (r : Region) (i : SlotIndex) (m : ControlMode) :
    r.KeepsFree (r.select i m).1 := keepsFree_setSlot ((r.slot i).keepsFree_select m)

theorem keepsFree_selectIn (r : Region) (m : ControlMode) (order : List SlotIndex) :
    r.KeepsFree (r.selectIn m order).1 := by
  induction order generalizing r with
  | nil => exact r.keepsFree_refl
  | cons i order ih =>
    have hfirst := r.keepsFree_select i m
    unfold selectIn
    cases hselect : r.select i m with
    | mk r' previous =>
      rw [hselect] at hfirst
      cases previous with
      | ok old => exact hfirst.trans (ih r')
      | error e => exact hfirst

theorem keepsFree_selectAll (r : Region) (m : ControlMode) : r.KeepsFree (r.selectAll m).1 :=
  r.keepsFree_selectIn m _

/-- A round leaves no lock behind, whatever the policy is and wherever it breaks down. -/
theorem keepsFree_roundOver (policy : Policy σ) (order : List SlotIndex) (summary : RoundSummary)
    (r : Region) (state : σ) :
    r.KeepsFree (roundOver policy order summary r state).value.region := by
  induction order generalizing summary r state with
  | nil => exact r.keepsFree_refl
  | cons i order ih =>
    by_cases hoffered : (r.slot i).isOffered
    · obtain ⟨next, choice, hchoice⟩ : ∃ next choice,
          (policy.choose state i (r.slot i).acquire).value = (next, choice) := ⟨_, _, rfl⟩
      have hfirst : r.KeepsFree (r.setSlot i ((r.slot i).afterChoice choice)) :=
        keepsFree_setSlot ((r.slot i).keepsFree_afterChoice choice)
      rw [roundOver_of_offered hoffered hchoice]
      cases choice.outcome (r.slot i) with
      | granted t | waits => exact hfirst.trans (ih _ _ _)
      | broken => exact hfirst
    · rw [roundOver_of_unoffered hoffered]
      exact ih _ _ _

end Region

/-! ### Disks and sessions -/

namespace Disk

variable {d next last : Disk} {name : String} {f : File}

/-- Locks in files that are free before are free after. -/
def KeepsFree (d next : Disk) : Prop := ∀ name, (d.file name).image.KeepsFree (next.file name).image

theorem keepsFree_refl (d : Disk) : d.KeepsFree d := fun _ ↦ Region.keepsFree_refl _

theorem KeepsFree.trans (h : d.KeepsFree next) (hlater : next.KeepsFree last) : d.KeepsFree last :=
  fun name ↦ (h name).trans (hlater name)

theorem keepsFree_put (h : (d.file name).image.KeepsFree f.image) : d.KeepsFree (d.put name f) := by
  intro name'
  rw [file_put]
  split_ifs with hname
  · rwa [hname.1]
  · exact Region.keepsFree_refl _

end Disk

namespace Session

namespace World

variable {w next last : World} {place : Place} {r : Region}

/-- Whether a region can be kept at a place. -/
def keeps (w : World) : Place → Bool
  | .memory => true
  | .file name => w.disk.isSome && !Disk.isDevice name

/-- A region that is kept at a place is found there, if it can be kept there, and nowhere else. -/
theorem region_setRegion (w : World) (r : Region) (place place' : Place) :
    (w.setRegion r place).region place' =
      if place' = place ∧ w.keeps place then r else w.region place' := by
  cases place with
  | memory => cases place' <;> simp [setRegion, region, keeps]
  | file name =>
    cases hdisk : w.disk with
    | none => simp [setRegion, keeps, hdisk]
    | some d =>
      cases place' with
      | memory => simp [setRegion, region, hdisk]
      | file name' =>
        simp only [setRegion, region, keeps, hdisk, Option.getD_some, Disk.file_put,
          Option.isSome_some, Place.file.injEq, Bool.true_and, Bool.not_eq_true']
        split_ifs <;> rfl

theorem held_setRegion (w : World) (r : Region) (place : Place) :
    (w.setRegion r place).held = w.held := by
  cases place with
  | memory => rfl
  | file name =>
    unfold setRegion
    cases w.disk <;> rfl

theorem isSome_disk_setRegion (w : World) (r : Region) (place : Place) :
    (w.setRegion r place).disk.isSome = w.disk.isSome := by
  cases place with
  | memory => rfl
  | file name =>
    unfold setRegion
    cases hdisk : w.disk with
    | none => simp [hdisk]
    | some d => simp

/-- Locks that are free before are free after, at any place, and the scheduler holds the ones that
it held. -/
structure KeepsFree (w next : World) : Prop where
  held : next.held = w.held
  disk : next.disk.isSome = w.disk.isSome
  regions : ∀ place, (w.region place).KeepsFree (next.region place)

theorem keepsFree_refl (w : World) : w.KeepsFree w :=
  ⟨rfl, rfl, fun _ ↦ Region.keepsFree_refl _⟩

theorem KeepsFree.trans (h : w.KeepsFree next) (hlater : next.KeepsFree last) : w.KeepsFree last :=
  ⟨hlater.held.trans h.held, hlater.disk.trans h.disk,
    fun place ↦ (h.regions place).trans (hlater.regions place)⟩

theorem KeepsFree.keeps (h : w.KeepsFree next) (place : Place) :
    next.keeps place = w.keeps place := by
  cases place with
  | memory => rfl
  | file name => simp only [World.keeps, h.disk]

/-- What leaves the regions and the locks that are held alone. -/
theorem keepsFree_of_eq (hheld : next.held = w.held) (hmemory : next.memory = w.memory)
    (hdisk : next.disk = w.disk) : w.KeepsFree next := by
  refine ⟨hheld, by rw [hdisk], fun place ↦ ?_⟩
  have hregion : next.region place = w.region place := by
    cases place with
    | memory => exact hmemory
    | file name => simp only [region, hdisk]
  rw [hregion]
  exact Region.keepsFree_refl _

theorem keepsFree_setRegion (h : (w.region place).KeepsFree r) :
    w.KeepsFree (w.setRegion r place) := by
  refine ⟨w.held_setRegion r place, w.isSome_disk_setRegion r place, fun place' ↦ ?_⟩
  rw [region_setRegion]
  split_ifs with hplace
  · rwa [hplace.1]
  · exact Region.keepsFree_refl _

theorem keepsFree_setDisk {d d' : Disk} (hdisk : w.disk = some d) (h : d.KeepsFree d') :
    w.KeepsFree { w with disk := some d' } := by
  refine ⟨rfl, by rw [hdisk]; rfl, fun place ↦ ?_⟩
  cases place with
  | memory => exact Region.keepsFree_refl _
  | file name =>
    simp only [region, hdisk, Option.getD_some]
    exact h name

end World

end Session

end Turnstile
