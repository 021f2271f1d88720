import Turnstile.Proofs.Inspections
import Turnstile.Session.Filing
import Turnstile.Session.Recording

/-!
# No lock is left behind

What the agents and the scheduler of a session do leaves the locks free that it finds free, however
it ends (`Session.Act.KeepsFreeFrom`). An act that only looks leaves the session as it is
(`Session.Act.Reads`); one that writes finds a slot, does something to it that keeps its locks free,
and writes it back where it was. So the proof for an act follows its parts, and an act that fails on
its way has done what the parts before the failure did.

The two exceptions are made on purpose: the scheduler takes a lock and holds it, until it lets go of
it. Then a lock that is not free is one that the scheduler holds (`Session.World.Tended`). All this
is `Session.World.free_through`, for pieces of a session in any number and any order, from any
region with free locks on.
-/

set_option autoImplicit false
set_option relaxedAutoImplicit false

namespace Turnstile

namespace Session

namespace Act

variable {α β : Type} {w next : World} {who : String}

/-- Locks that are free before an act are free after it, however it ends. -/
def KeepsFreeFrom (w : World) (act : Act α) : Prop := w.KeepsFree (act.final w)

theorem KeepsFreeFrom.bind {x : Act α} {f : α → Act β} (hx : x.KeepsFreeFrom w)
    (hf : ∀ a next, (x.runIn w).value = (.ok a, next) → (f a).KeepsFreeFrom next) :
    (x >>= f).KeepsFreeFrom w :=
  final_bind_of (fun h hlater ↦ h.trans hlater) hx hf

theorem Reads.keepsFree {act : Act α} (h : act.Reads) (w : World) : act.KeepsFreeFrom w := by
  unfold KeepsFreeFrom
  rw [h w]
  exact w.keepsFree_refl

/-- A look after an act leaves the locks as the act has left them. -/
theorem KeepsFreeFrom.bind_reads {x : Act α} {f : α → Act β} (hx : x.KeepsFreeFrom w)
    (hf : ∀ a, (f a).Reads) : (x >>= f).KeepsFreeFrom w :=
  hx.bind fun a next _ ↦ (hf a).keepsFree next

/-- What follows an act that only looks starts from where that act did. -/
theorem Reads.bind_keepsFree {x : Act α} {f : α → Act β} (hx : x.Reads)
    (hf : ∀ a, (x.runIn w).value = (.ok a, w) → (f a).KeepsFreeFrom w) :
    (x >>= f).KeepsFreeFrom w := by
  refine (hx.keepsFree w).bind fun a next hrun ↦ ?_
  obtain rfl : next = w := (congrArg Prod.snd hrun).symm.trans (hx w)
  exact hf a hrun

theorem reads_slotIndex (n : Nat) : Reads (slotIndex n) := reads_controlled _

theorem reads_slot (i : SlotIndex) : Reads (slot i) := reads_openRegion.bind fun _ ↦ reads_pure _

theorem reads_checkUnlocked (n : Nat) : Reads (checkUnlocked n) := by
  refine reads_get.bind fun w ↦ ?_
  split_ifs
  · exact reads_throw _
  · exact reads_pure _

theorem reads_checkAllUnlocked : Reads checkAllUnlocked := by
  refine reads_get.bind fun w ↦ ?_
  split_ifs
  · exact reads_pure _
  · exact reads_throw _

/-- What an act ends with that looks first comes after the look. -/
theorem Reads.exists_of_bind {x : Act α} {f : α → Act β} {b : β} (hx : x.Reads)
    (h : ((x >>= f).runIn w).value = (.ok b, next)) :
    ∃ a, (x.runIn w).value = (.ok a, w) ∧ ((f a).runIn w).value = (.ok b, next) := by
  obtain ⟨a, hrun⟩ | ⟨e, hrun⟩ := x.run_cases w
  · rw [hx w] at hrun
    exact ⟨a, hrun, (value_bind_of_ok hrun f).symm.trans h⟩
  · cases (value_bind_of_error hrun f).symm.trans h

/-- An act that begins with a look ends with it, or does what follows it. -/
theorem Reads.final_bind_cases {x : Act α} {f : α → Act β} (hx : x.Reads) (w : World) :
    (x >>= f).final w = w ∨
      ∃ a, (x.runIn w).value = (.ok a, w) ∧ (x >>= f).final w = (f a).final w := by
  obtain ⟨a, hrun⟩ | ⟨e, hrun⟩ := x.run_cases w
  · rw [hx w] at hrun
    exact .inr ⟨a, hrun, final_bind_of_ok hrun f⟩
  · rw [hx w] at hrun
    exact .inl (final_bind_of_error hrun f)

theorem openPlace_eq_ok {place : Place} (h : (openPlace.runIn w).value = (.ok place, next)) :
    w.opened = some place := (needed_eq_ok h).2

theorem openRegion_eq_ok {r : Region} (h : (openRegion.runIn w).value = (.ok r, next)) :
    ∃ place, w.opened = some place ∧ r = w.region place := by
  obtain ⟨place, hplace, h⟩ := reads_openPlace.exists_of_bind h
  cases h
  exact ⟨place, openPlace_eq_ok hplace, rfl⟩

theorem slot_eq_ok {place : Place} {i : SlotIndex} {s : Slot} (hopened : w.opened = some place)
    (h : ((slot i).runIn w).value = (.ok s, next)) : s = (w.region place).slot i := by
  obtain ⟨r, hregion, h⟩ := reads_openRegion.exists_of_bind h
  cases h
  obtain ⟨place', hplace, rfl⟩ := openRegion_eq_ok hregion
  rw [Option.some.inj (hopened.symm.trans hplace)]

theorem slotIndex_eq_ok {n : Nat} {i : SlotIndex}
    (h : ((slotIndex n).runIn w).value = (.ok i, next)) :
    i = n := by
  have hindex := controlled_eq_ok h
  unfold Region.slotIndex at hindex
  split_ifs at hindex
  cases hindex
  rfl

theorem value_setSlot {place : Place} (hopened : w.opened = some place) (i : SlotIndex) (s : Slot) :
    ((setSlot i s).runIn w).value =
      (.ok (), w.setRegion ((w.region place).setSlot i s) place) := by
  rw [setSlot, value_bind_of_ok (value_openRegion hopened), setOpenRegion,
    value_bind_of_ok (value_openPlace hopened)]
  rfl

theorem keepsFree_modify {f : World → World} (hf : w.KeepsFree (f w)) :
    KeepsFreeFrom w (modify f : Act Unit) := hf

theorem keepsFree_setOpenRegion {r r' : Region} (hr : (openRegion.runIn w).value = (.ok r, w))
    (h : r.KeepsFree r') : (setOpenRegion r').KeepsFreeFrom w := by
  obtain ⟨place, hopened, rfl⟩ := openRegion_eq_ok hr
  refine reads_openPlace.bind_keepsFree fun place' hplace ↦ keepsFree_modify ?_
  obtain rfl : place = place' := Option.some.inj (hopened.symm.trans (openPlace_eq_ok hplace))
  exact World.keepsFree_setRegion h

/-- What is done to the open region may be written back if it keeps its locks free. -/
theorem keepsFree_openRegion_bind {f : Region → Act α}
    (hf : ∀ r, (∀ r', r.KeepsFree r' → (setOpenRegion r').KeepsFreeFrom w) →
      (f r).KeepsFreeFrom w) : (openRegion >>= f).KeepsFreeFrom w :=
  reads_openRegion.bind_keepsFree fun r hr ↦ hf r fun _ ↦ keepsFree_setOpenRegion hr

/-- So may what is done to one of its slots. -/
theorem keepsFree_slot_bind {i : SlotIndex} {f : Slot → Act α}
    (hf : ∀ s, (∀ s', s.KeepsFree s' → (setSlot i s').KeepsFreeFrom w) → (f s).KeepsFreeFrom w) :
    (slot i >>= f).KeepsFreeFrom w := by
  refine (reads_slot i).bind_keepsFree fun s hs ↦ hf s fun s' hs' ↦ ?_
  obtain ⟨r, hr, hslot⟩ := reads_openRegion.exists_of_bind hs
  cases hslot
  refine reads_openRegion.bind_keepsFree fun r' hr' ↦ ?_
  cases hr.symm.trans hr'
  exact keepsFree_setOpenRegion hr (Region.keepsFree_setSlot hs')

theorem keepsFree_keep {r : Reporter} {place : Place} {s : Slot} (who : String)
    (h : ((w.region place).slot r.slot).KeepsFree s) : (keep who r place s).KeepsFreeFrom w := by
  have hset := World.keepsFree_setRegion (Region.keepsFree_setSlot h)
  exact keepsFree_modify ⟨hset.held, hset.disk, hset.regions⟩

/-! ### What agents do -/

theorem keepsFree_setAgent (who : String) (a : Agent) (w : World) :
    (setAgent who a).KeepsFreeFrom w := keepsFree_modify (World.keepsFree_of_eq rfl rfl rfl)

theorem keepsFree_removeAgent (who : String) (w : World) : (removeAgent who).KeepsFreeFrom w :=
  keepsFree_modify (World.keepsFree_of_eq rfl rfl rfl)

theorem keepsFree_replaceAgent (who : String) (a : Agent) (w : World) :
    (replaceAgent who a).KeepsFreeFrom w :=
  (keepsFree_removeAgent who w).bind fun _ next _ ↦ keepsFree_setAgent who a next

theorem keepsFree_reach (who : String) (p : Probe) (w : World) : (reach who p).KeepsFreeFrom w := by
  unfold reach
  refine reads_get.bind_keepsFree fun found hrun ↦ ?_
  cases hrun
  obtain ⟨mapped, reached, hreach⟩ : ∃ mapped reached,
      p.reach (w.disk.getD .empty) w.mapped = (mapped, reached) := ⟨_, _, rfl⟩
  rw [hreach]
  refine KeepsFreeFrom.bind (x := set _) (World.keepsFree_of_eq rfl rfl rfl) fun _ next _ ↦ ?_
  cases reached with
  | attached a =>
    exact (keepsFree_setAgent _ _ next).bind fun _ last _ ↦ (reads_pure _).keepsFree last
  | failed e => exact (reads_throw _).keepsFree next
  | crashed => exact (reads_throw _).keepsFree next

theorem keepsFree_reporter? (who : String) (a : Agent) (w : World) :
    (reporter? who a).KeepsFreeFrom w := by
  cases a with
  | reporter r place => exact (reads_pure _).keepsFree w
  | probe p =>
    change KeepsFreeFrom w (if p.isEnabled then do
        let a ← reach who p
        return some (a.reporter, a.place)
      else return none)
    split_ifs
    · exact (keepsFree_reach who p w).bind_reads fun _ ↦ reads_pure _
    · exact (reads_pure _).keepsFree w

/-- An agent does something at the slot that it reaches. -/
theorem keepsFree_atSlot {act : Act α} {f : Agent → Option (Reporter × Place) → Act α}
    (hact : act = do
      let a ← agent who
      f a (← reporter? who a))
    (hnone : ∀ a, (f a none).Reads) (hf : ∀ a r place w, (f a (some (r, place))).KeepsFreeFrom w)
    (w : World) : act.KeepsFreeFrom w := by
  rw [hact]
  refine (reads_agent who).bind_keepsFree fun a _ ↦ ?_
  refine (keepsFree_reporter? who a w).bind fun x next _ ↦ ?_
  cases x with
  | none => exact (hnone a).keepsFree next
  | some x => exact hf a x.1 x.2 next

theorem keepsFree_spawnOne (who : String) (id : Int64) (site : UInt64) (label : String)
    (w : World) : (spawnOne who id site label).KeepsFreeFrom w := by
  refine keepsFree_atSlot rfl (fun _ ↦ ?_) (fun a r place w ↦ ?_) w
  · exact reads_pure _
  refine (reads_slotOf r place).bind_keepsFree fun s hs ↦ ?_
  refine (reads_noted _).bind_keepsFree fun x hx ↦ ?_
  cases hx
  cases hs
  refine (keepsFree_keep who ?_).bind_reads fun _ ↦ reads_pure _
  rw [Reporter.slot_spawn]
  exact Reporter.keepsFree_spawn _ _ _ _ _

theorem keepsFree_spawn (who : String) (id : Int64) (site : UInt64) (label : String) (count : Nat)
    (w : World) : (spawn who id site label count).KeepsFreeFrom w := by
  induction count using Nat.strongRecOn generalizing id w with
  | ind count ih =>
    match count with
    | 0 => exact ((reads_agent who).bind fun _ ↦ reads_pure _).keepsFree w
    | 1 => exact keepsFree_spawnOne who id site label w
    | count + 2 =>
      exact (keepsFree_spawnOne who id site label w).bind fun _ next _ ↦
        ih (count + 1) (Nat.lt_succ_self _) (id + 1) next

theorem keepsFree_setStatus (who : String) (id : Int64) (status : StatusWord) (w : World) :
    (setStatus who id status).KeepsFreeFrom w := by
  refine keepsFree_atSlot rfl (fun _ ↦ ?_) (fun a r place w ↦ ?_) w
  · exact reads_pure _
  refine (reads_slotOf r place).bind_keepsFree fun s hs ↦ ?_
  refine (reads_noted _).bind_keepsFree fun moved hmoved ↦ ?_
  refine (reads_controlled _).bind_keepsFree fun x hx ↦ ?_
  cases hmoved
  cases hs
  refine (keepsFree_keep who (Reporter.keepsFree_setStatus (controlled_eq_ok hx))).bind
    fun _ next _ ↦ ?_
  cases a <;> exact (reads_pure _).keepsFree next

theorem keepsFree_blockOne (who id : String) (w : World) : (blockOne who id).KeepsFreeFrom w := by
  refine keepsFree_atSlot rfl (fun _ ↦ ?_) (fun a r place w ↦ ?_) w
  · exact reads_pure _
  refine (reads_slotOf r place).bind_keepsFree fun s hs ↦ ?_
  refine (reads_noted _).bind_keepsFree fun x hx ↦ ?_
  cases hx
  cases hs
  refine keepsFree_keep who ?_
  rw [Reporter.slot_reportBlock]
  exact Reporter.keepsFree_reportBlock _ _ _

theorem keepsFree_block (who : String) (ids : List String) (w : World) :
    (block who ids).KeepsFreeFrom w := by
  have hall : ∀ w, (ids.forM (blockOne who)).KeepsFreeFrom w := by
    induction ids with
    | nil => exact (reads_pure ()).keepsFree
    | cons id ids ih =>
      exact fun w ↦ (keepsFree_blockOne who id w).bind fun _ next _ ↦ ih next
  exact (reads_agent who).bind_keepsFree fun _ _ ↦ hall w

theorem keepsFree_finish (who : String) (w : World) : (finish who).KeepsFreeFrom w := by
  refine keepsFree_atSlot rfl (fun _ ↦ ?_) (fun a r place w ↦ ?_) w
  · exact reads_pure _
  refine (reads_slotOf r place).bind_keepsFree fun s hs ↦ ?_
  cases hs
  split
  · next s hfinish => exact keepsFree_keep who (Slot.keepsFree_finish hfinish)
  · exact (reads_pure _).keepsFree w
  · exact (reads_throw _).keepsFree w

theorem keepsFree_drop (who : String) (w : World) : (drop who).KeepsFreeFrom w :=
  (reads_agent who).bind_keepsFree fun _ _ ↦ keepsFree_removeAgent who w

theorem keepsFree_attach (who : String) (slot : Nat) (enforcing : Bool) (spinLimit : UInt32)
    (w : World) : (attach who slot enforcing spinLimit).KeepsFreeFrom w := by
  refine (reads_checkFree who).bind_keepsFree fun _ _ ↦ ?_
  refine reads_openPlace.bind_keepsFree fun place _ ↦ ?_
  refine (reads_slotIndex slot).bind_keepsFree fun i _ ↦ ?_
  refine reads_openRegion.bind_keepsFree fun r _ ↦ ?_
  exact (keepsFree_replaceAgent who _ w).bind_reads fun _ ↦ reads_pure _

theorem keepsFree_instrument (who : String) (settings : Settings) (w : World) :
    (instrument who settings).KeepsFreeFrom w := by
  refine (reads_checkFree who).bind_keepsFree fun _ _ ↦ ?_
  refine reads_openPlace.bind_keepsFree fun place _ ↦ ?_
  refine reads_openRegion.bind_keepsFree fun r _ ↦ ?_
  refine (reads_controlled _).bind_keepsFree fun p _ ↦ ?_
  exact (keepsFree_replaceAgent who _ w).bind_reads fun _ ↦ reads_pure _

theorem keepsFree_instrumentLazily (who : String) (settings : Settings) (path : Option String)
    (w : World) : (instrumentLazily who settings path).KeepsFreeFrom w := by
  have hreplace : ∀ backing, KeepsFreeFrom w (do
      let p := Probe.unattached settings backing
      replaceAgent who (.probe p)
      return p.isEnabled) := fun _ ↦
    (keepsFree_replaceAgent who _ w).bind_reads fun _ ↦ reads_pure _
  refine (reads_checkFree who).bind_keepsFree fun _ _ ↦ ?_
  cases path with
  | none => exact hreplace none
  | some path =>
    refine reads_disk.bind_keepsFree fun d _ ↦ ?_
    split
    · exact hreplace _
    · exact (reads_throw _).keepsFree w

/-! ### What errands do -/

/-- A piece of a report is kept where it was made. -/
theorem keepsFree_settle (e : Errand) {place : Place} {x : Reported}
    (h : ((w.region place).slot x.reporter.slot).KeepsFree x.slot) :
    (settle e place x).KeepsFreeFrom w := by
  unfold settle
  split
  · exact (keepsFree_keep _ h).bind_reads fun _ ↦ reads_pure _
  · refine (keepsFree_keep _ ?_).bind_reads fun _ ↦ reads_pure _
    cases e.traffic with
    | none => exact h
    | some t => cases t <;> exact h
  · exact (keepsFree_keep _ h).bind_reads fun _ ↦ reads_throw _

theorem keepsFree_setClock (c : Clock) (w : World) : (setClock c).KeepsFreeFrom w :=
  keepsFree_modify (World.keepsFree_of_eq rfl rfl rfl)

theorem keepsFree_reportOnce (e : Errand) (a : Agent) (w : World) :
    (reportOnce e a).KeepsFreeFrom w := by
  refine (keepsFree_reporter? e.agent a w).bind fun x next _ ↦ ?_
  cases x with
  | none => exact (reads_pure _).keepsFree next
  | some x =>
    obtain ⟨r, place⟩ := x
    refine reads_get.bind_keepsFree fun found hrun ↦ ?_
    cases hrun
    have hsettle : ∀ (clock : Clock) (stamp : UInt64), KeepsFreeFrom { next with clock := clock }
        (settle e place (r.report ((next.region place).slot r.slot) e.task e.payload stamp)) := by
      intro clock stamp
      refine keepsFree_settle e ?_
      rw [Reporter.slot_report]
      exact Reporter.keepsFree_report _ _ _ _ _
    dsimp only
    split
    · refine reads_get.bind_keepsFree fun found _ ↦ (reads_noted _).bind_keepsFree fun x _ ↦ ?_
      refine KeepsFreeFrom.bind (keepsFree_setClock x.2 next) fun _ last hrun ↦ ?_
      cases hrun
      exact hsettle x.2 x.1
    · exact hsettle next.clock 0

theorem keepsFree_forgive (e : Errand) (f : Failure) (w : World) :
    (forgive e f).KeepsFreeFrom w := by
  unfold forgive
  split
  · exact (reads_pure _).keepsFree w
  · exact (reads_noted _).bind_keepsFree fun _ _ ↦
      (keepsFree_removeAgent _ w).bind_reads fun _ ↦ reads_pure _
  · exact (reads_throw _).keepsFree w

theorem KeepsFreeFrom.outcome {act : Act α} (h : act.KeepsFreeFrom w) :
    (outcome act).KeepsFreeFrom w := h

theorem KeepsFreeFrom.attempt {e : Errand} {report : Act (Resume ⊕ Wait)}
    (h : report.KeepsFreeFrom w) : (attempt e report).KeepsFreeFrom w := by
  refine h.outcome.bind fun result next _ ↦ ?_
  split
  · exact (reads_pure _).keepsFree next
  · exact (reads_pure _).keepsFree next
  · refine (keepsFree_forgive e _ next).bind_reads fun response ↦ ?_
    cases response with
    | some response => exact reads_pure _
    | none => exact reads_throw _

theorem keepsFree_makeReports (e : Errand) (left : Nat) (w : World) :
    (makeReports e left).KeepsFreeFrom w := by
  induction left generalizing w with
  | zero => exact (reads_pure _).keepsFree w
  | succ left ih =>
    refine reads_get.bind_keepsFree fun found _ ↦ (reads_needed _).bind_keepsFree fun a _ ↦ ?_
    refine (keepsFree_reportOnce e a w).attempt.bind fun result next _ ↦ ?_
    split
    · exact (reads_pure _).keepsFree next
    · exact (reads_pure _).keepsFree next
    · split
      · exact (reads_pure _).keepsFree next
      · exact ih next

/-- One poll of a report that waits. -/
theorem keepsFree_resumeErrand (p : Pause) (w : World) : (resumeErrand p).KeepsFreeFrom w := by
  refine reads_get.bind_keepsFree fun found _ ↦ (reads_needed _).bind_keepsFree fun a _ ↦ ?_
  refine KeepsFreeFrom.bind (KeepsFreeFrom.attempt ?_) fun result next _ ↦ ?_
  · refine (keepsFree_reporter? p.errand.agent a w).bind fun x next _ ↦ ?_
    cases x with
    | none => exact (reads_pure _).keepsFree next
    | some x =>
      obtain ⟨r, place⟩ := x
      refine reads_get.bind_keepsFree fun found hrun ↦ ?_
      cases hrun
      refine keepsFree_settle p.errand ?_
      rw [Reporter.slot_resume]
      exact Reporter.keepsFree_resume _ _ _
  · split
    · exact (reads_pure _).keepsFree next
    · exact (reads_pure _).keepsFree next
    · split
      · exact (reads_pure _).keepsFree next
      · exact keepsFree_makeReports _ _ next

theorem keepsFree_report (who : String) (task : Int64) (content : Content) (count : Nat)
    (vital : Bool) (w : World) : (report who task content count vital).KeepsFreeFrom w := by
  refine (reads_noted _).bind_keepsFree fun payload _ ↦ ?_
  refine (reads_agent who).bind_keepsFree fun a _ ↦ ?_
  refine (keepsFree_makeReports _ count w).outcome.bind fun result next _ ↦ ?_
  split
  · exact (reads_pure _).keepsFree next
  · exact (reads_pure _).keepsFree next
  · exact (keepsFree_modify (World.keepsFree_of_eq rfl rfl rfl)).bind_reads fun _ ↦ reads_pure _

/-! ### What the scheduler does -/

/-- What is done under a lock is done under the one that the scheduler holds, or under one that is
taken and let go of. -/
theorem keepsFree_guarded {body : SlotIndex → Slot → Slot × α}
    (hbody : ∀ (i : SlotIndex) (s : Slot), s.KeepsFree (body i s).1) (n : Nat) (w : World) :
    (guarded n body).KeepsFreeFrom w := by
  refine reads_get.bind_keepsFree fun found hrun ↦ ?_
  cases hrun
  cases w.heldLock? n with
  | some l =>
    refine Reads.bind_keepsFree (reads_get.bind fun _ ↦ reads_pure _) fun s hs ↦ ?_
    cases hs
    refine KeepsFreeFrom.bind (keepsFree_modify ?_) fun _ next _ ↦ (reads_pure _).keepsFree next
    exact World.keepsFree_setRegion (Region.keepsFree_setSlot (hbody _ _))
  | none =>
    refine reads_openPlace.bind_keepsFree fun place _ ↦ ?_
    refine (reads_slotIndex n).bind_keepsFree fun i _ ↦ ?_
    refine keepsFree_slot_bind fun s hwrite ↦ ?_
    exact (hwrite _ (Slot.keepsFree_guarded (hbody i _))).bind_reads fun _ ↦ reads_pure _

theorem keepsFree_view (n : Nat) (w : World) : (view n).KeepsFreeFrom w := by
  refine keepsFree_guarded (fun _ s ↦ ?_) n w
  exact s.keepsFree_blockingCall

theorem keepsFree_tasks (n : Nat) (w : World) : (tasks n).KeepsFreeFrom w :=
  keepsFree_guarded (fun _ s ↦ s.keepsFree_refl) n w

theorem keepsFree_find (n : Nat) (key : Lookup) (w : World) : (find n key).KeepsFreeFrom w :=
  keepsFree_guarded (fun _ s ↦ s.keepsFree_refl) n w

/-- The lock is free also after a grant that overflows the epoch. -/
theorem keepsFree_grant (n : Nat) (t : Task) (w : World) : (grant n t).KeepsFreeFrom w := by
  refine KeepsFreeFrom.bind_reads (keepsFree_guarded (fun _ s ↦ ?_) n w) fun epoch ↦ ?_
  · exact s.keepsFree_grant t
  cases epoch with
  | some epoch => exact reads_pure _
  | none => exact reads_throw _

theorem keepsFree_grantById (n : Nat) (id : Int64) (w : World) :
    (grantById n id).KeepsFreeFrom w :=
  (keepsFree_find n _ w).bind fun _ next _ ↦
    (reads_needed _).bind_keepsFree fun t _ ↦ keepsFree_grant n t next

theorem keepsFree_selectMode (n : Nat) (m : ControlMode) (w : World) :
    (selectMode n m).KeepsFreeFrom w := by
  refine (reads_checkUnlocked n).bind_keepsFree fun _ _ ↦ ?_
  refine keepsFree_openRegion_bind fun r hwrite ↦ ?_
  refine (reads_slotIndex n).bind_keepsFree fun i _ ↦ ?_
  exact (hwrite _ (r.keepsFree_select i m)).bind_reads fun _ ↦ reads_controlled _

theorem keepsFree_selectModeInAll (m : ControlMode) (w : World) :
    (selectModeInAll m).KeepsFreeFrom w := by
  refine reads_checkAllUnlocked.bind_keepsFree fun _ _ ↦ ?_
  refine keepsFree_openRegion_bind fun r hwrite ↦ ?_
  exact (hwrite _ (r.keepsFree_selectAll m)).bind_reads fun _ ↦ reads_controlled _

theorem keepsFree_endReplay (w : World) : endReplay.KeepsFreeFrom w :=
  keepsFree_openRegion_bind fun r hwrite ↦ hwrite _ r.keepsFree_endReplay

/-- A round under any policy, also one that breaks down. -/
theorem keepsFree_roundBy {σ : Type} (policy : Policy σ) (state : σ) (w : World) :
    (roundBy policy state).KeepsFreeFrom w := by
  refine keepsFree_openRegion_bind fun r hwrite ↦ ?_
  refine (reads_noted _).bind_keepsFree fun round hround ↦ ?_
  cases hround
  exact (hwrite _ (Region.keepsFree_roundOver policy _ _ r state)).bind_reads fun _ ↦ reads_pure _

theorem keepsFree_round (chooser : Chooser) (w : World) : (round chooser).KeepsFreeFrom w := by
  have hstateless : ∀ policy : Policy Unit,
      KeepsFreeFrom w (do return (← roundBy policy ()).1) := fun policy ↦
    (keepsFree_roundBy policy () w).bind_reads fun _ ↦ reads_pure _
  refine reads_checkAllUnlocked.bind_keepsFree fun _ _ ↦ ?_
  refine reads_openPlace.bind_keepsFree fun place _ ↦ ?_
  cases chooser with
  | replayer name =>
    refine reads_get.bind_keepsFree fun found _ ↦ (reads_needed _).bind_keepsFree fun p _ ↦ ?_
    refine (reads_pure _).bind_keepsFree fun replayer hreplayer ↦ ?_
    cases hreplayer
    refine (keepsFree_roundBy _ _ w).bind fun x next _ ↦ ?_
    refine (keepsFree_modify (World.keepsFree_of_eq rfl rfl rfl)).bind_reads fun _ ↦ ?_
    refine (reads_pure _).bind fun summary ↦ ?_
    cases summary with
    | some summary => exact reads_pure _
    | none => exact reads_throw _
  | reporter | task id | identity site ordinal | nobody | breakdown =>
    refine (reads_pure _).bind_keepsFree fun replayer hreplayer ↦ ?_
    cases hreplayer
    refine (hstateless _).bind_reads fun summary ↦ ?_
    cases summary with
    | some summary => exact reads_pure _
    | none => exact reads_throw _

/-- A look at the open region. -/
theorem reads_ofSlot {f : Slot → Act α} (hf : ∀ s, (f s).Reads) (n : Nat) : Reads (do
    let _ ← openPlace
    f (← slot (← slotIndex n))) :=
  reads_openPlace.bind fun _ ↦ (reads_slotIndex n).bind fun i ↦ (reads_slot i).bind hf

theorem reads_mode (n : Nat) : Reads (mode n) := reads_ofSlot (fun _ ↦ reads_controlled _) n

theorem reads_log (n : Nat) : Reads (log n) := reads_ofSlot (fun _ ↦ reads_pure _) n

theorem reads_snapshot (n : Nat) : Reads (snapshot n) := (reads_log n).bind fun _ ↦ reads_noted _

theorem reads_drain (n : Nat) (start : UInt64) : Reads (drain n start) :=
  (reads_log n).bind fun _ ↦ reads_noted _

theorem reads_coverage (n : Nat) : Reads (coverage n) := by
  refine reads_ofSlot (fun s ↦ ?_) n
  cases s.coverage? with
  | some c => exact reads_pure c
  | none => exact reads_throw _

/-- A recorder reads all logs. -/
theorem keepsFree_record (name : String) (w : World) : (record name).KeepsFreeFrom w := by
  refine reads_get.bind_keepsFree fun found _ ↦ (reads_needed _).bind_keepsFree fun r _ ↦ ?_
  refine reads_openRegion.bind_keepsFree fun region _ ↦ (reads_noted _).bind_keepsFree fun x _ ↦ ?_
  refine KeepsFreeFrom.bind (keepsFree_modify (World.keepsFree_of_eq rfl rfl rfl)) fun _ next _ ↦ ?_
  cases x.2 with
  | some fresh => exact (reads_pure _).keepsFree next
  | none => exact (reads_throw _).keepsFree next

/-- A command that inspects a region of the disk. -/
theorem keepsFree_command {env : Options.Environment} {args : List String}
    {invocation : Invocation} {path : String} {slot : Option Nat} {withTasks json : Bool}
    (hread : Invocation.read env args = .ok invocation)
    (hinspect : invocation.command = .inspect path slot withTasks json) (w : World) :
    (command env args).KeepsFreeFrom w := by
  have hrun : KeepsFreeFrom w (do
      let outcome := Command.run env false args (← disk)
      if outcome.code.isNone then throw .locked
      setDisk outcome.disk
      return outcome) := by
    refine reads_disk.bind_keepsFree fun d hd ↦ ?_
    have hdisk : w.disk = some d := (needed_eq_ok hd).2
    have hfree := Command.keepsFree_run_of_inspect hread hinspect false d
    dsimp only
    split
    · exact (reads_throw _).keepsFree w
    · exact (keepsFree_modify (World.keepsFree_setDisk hdisk hfree)).bind_reads fun _ ↦
        reads_pure _
  unfold command
  dsimp only
  split
  · exact (reads_throw _).keepsFree w
  · exact hrun

theorem keepsFree_openFile (path : String) (w : World) : (openFile path).KeepsFreeFrom w :=
  reads_disk.bind_keepsFree fun _ _ ↦ (reads_controlled _).bind_keepsFree fun _ _ ↦
    keepsFree_modify (World.keepsFree_of_eq rfl rfl rfl)

theorem keepsFree_closeRegion (w : World) : closeRegion.KeepsFreeFrom w :=
  reads_disk.bind_keepsFree fun _ _ ↦ keepsFree_modify (World.keepsFree_of_eq rfl rfl rfl)

end Act

/-! ### Locks that are held from act to act -/

namespace World

variable {w next : World} {place : Place}

/-- The locks of a region are free, but for those that the scheduler holds. -/
structure Tended (w : World) (place : Place) : Prop where
  single : (w.held.map (·.slot)).Nodup
  callLock : ∀ i, ((w.region place).slot i).callLock = 0
  lock : ∀ i, ((w.region place).slot i).lock = 0 ∨ ⟨i, place⟩ ∈ w.held ∧ w.keeps place

theorem Tended.of_isFree (hfree : (w.region place).IsFree) (hheld : w.held = []) :
    w.Tended place :=
  ⟨by simp [hheld], fun i ↦ (hfree i).callLock, fun i ↦ .inl (hfree i).lock⟩

/-- While the scheduler holds no lock, all of them are free. -/
theorem Tended.isFree (h : w.Tended place) (hheld : w.held = []) : (w.region place).IsFree := by
  intro i
  refine ⟨(h.lock i).resolve_right ?_, h.callLock i⟩
  rintro ⟨hmem, -⟩
  simp [hheld] at hmem

theorem Tended.of_keepsFree (h : w.Tended place) (hkept : w.KeepsFree next) :
    next.Tended place where
  single := hkept.held ▸ h.single
  callLock := fun i ↦ (hkept.regions place i).callLock (h.callLock i)
  lock := by
    intro i
    rw [hkept.held, hkept.keeps]
    exact (h.lock i).imp_left (hkept.regions place i).lock

/-- The session after the scheduler has let go of a lock. -/
def released (w : World) (l : HeldLock) : World :=
  w.setRegion ((w.region l.place).setSlot l.slot ((w.region l.place).slot l.slot).release) l.place

theorem keepsFree_released (w : World) (l : HeldLock) : w.KeepsFree (w.released l) :=
  keepsFree_setRegion (Region.keepsFree_setSlot ⟨fun _ ↦ rfl, id⟩)

/-- A lock that was let go of is free. -/
theorem lock_released (w : World) (l : HeldLock) (hkeeps : w.keeps l.place) :
    (((w.released l).region l.place).slot l.slot).lock = 0 := by
  rw [released, region_setRegion, if_pos ⟨rfl, hkeeps⟩, Region.slot_setSlot_self]
  rfl

/-- The session after the scheduler has taken a lock, which it holds in the stead of others of that
number. -/
def locked (w : World) (l : HeldLock) : World :=
  { w.setRegion ((w.region l.place).setSlot l.slot ((w.region l.place).slot l.slot).acquire)
      l.place with
    held := l :: w.held.filter (·.slot ≠ l.slot) }

theorem heldLock?_eq_some {n : Nat} {l : HeldLock} (h : w.heldLock? n = some l) :
    l ∈ w.held ∧ l.slot = n :=
  ⟨List.mem_of_find?_eq_some h, by simpa using List.find?_some h⟩

/-- A lock that is held is found under its number. -/
theorem heldLock?_of_mem (hsingle : (w.held.map (·.slot)).Nodup) {l : HeldLock}
    (hl : l ∈ w.held) : w.heldLock? l.slot = some l := by
  cases hfound : w.heldLock? l.slot with
  | none =>
    have hnone := List.find?_eq_none.1 hfound l hl
    simp at hnone
  | some l' =>
    obtain ⟨hmem, hslot⟩ := heldLock?_eq_some hfound
    rw [List.inj_on_of_nodup_map hsingle hmem hl (Fin.ext hslot)]

/-- A lock that is let go of is no longer held. -/
theorem Tended.unlocked (h : w.Tended place) {l : HeldLock} (hl : w.heldLock? l.slot = some l) :
    Tended { w.released l with held := w.held.filter (·.slot ≠ l.slot) } place := by
  have hkept := w.keepsFree_released l
  refine ⟨h.single.sublist (List.filter_sublist.map _),
    fun i ↦ (hkept.regions place i).callLock (h.callLock i), fun i ↦ ?_⟩
  obtain hlock | ⟨hmem, hkeeps⟩ := h.lock i
  · exact .inl ((hkept.regions place i).lock hlock)
  · by_cases hslot : i = l.slot
    · have hfound := heldLock?_of_mem h.single hmem
      rw [hslot, hl] at hfound
      have hplace : l.place = place := congrArg HeldLock.place (Option.some.inj hfound)
      have hfree := w.lock_released l (hplace ▸ hkeeps)
      rw [hplace, ← hslot] at hfree
      exact .inl hfree
    · exact .inr ⟨by simp [hmem, hslot], (hkept.keeps place).trans hkeeps⟩

/-- A lock that is taken is held, unless it was held already. -/
theorem Tended.locked_cases (h : w.Tended place) (l : HeldLock) (i : SlotIndex) :
    (((w.locked l).region place).slot i).callLock = 0 ∧
      ((((w.locked l).region place).slot i).lock = 0 ∨
        ⟨i, place⟩ ∈ (w.locked l).held ∧ w.keeps place ∨
        w.heldLock? l.slot = some ⟨i, place⟩ ∧ w.keeps place) := by
  -- before the new lock is taken: a lock that is still held is one in whose stead the new one is,
  -- or it stays among the locks that are held
  have hold : ((w.region place).slot i).lock = 0 ∨
      ⟨i, place⟩ ∈ (w.locked l).held ∧ w.keeps place ∨
      w.heldLock? l.slot = some ⟨i, place⟩ ∧ w.keeps place := by
    obtain hlock | ⟨hmem, hkeeps⟩ := h.lock i
    · exact .inl hlock
    · by_cases hslot : i = l.slot
      · exact .inr (.inr ⟨hslot ▸ heldLock?_of_mem h.single hmem, hkeeps⟩)
      · exact .inr (.inl ⟨List.mem_cons_of_mem l (by simp [hmem, hslot]), hkeeps⟩)
  have hregion : (w.locked l).region place = if place = l.place ∧ w.keeps l.place then
      (w.region l.place).setSlot l.slot ((w.region l.place).slot l.slot).acquire
      else w.region place := region_setRegion _ _ _ _
  rw [hregion]
  split_ifs with hwritten
  · obtain ⟨rfl, hkeeps⟩ := hwritten
    by_cases hslot : i = l.slot
    · subst hslot
      rw [Region.slot_setSlot_self]
      exact ⟨h.callLock l.slot, .inr (.inl ⟨List.mem_cons_self, hkeeps⟩)⟩
    · rw [Region.slot_setSlot_of_ne _ hslot]
      exact ⟨h.callLock i, hold⟩
  · exact ⟨h.callLock i, hold⟩

/-- A lock that was held in the stead of one that is taken is let go of. -/
theorem Tended.locked (h : w.Tended place) (l : HeldLock) :
    ((w.heldLock? l.slot).elim (w.locked l) (w.locked l).released).Tended place := by
  have hsingle : ((w.locked l).held.map (·.slot)).Nodup := by
    rw [World.locked, List.map_cons, List.nodup_cons]
    exact ⟨by simp, h.single.sublist (List.filter_sublist.map _)⟩
  have hkeeps : (w.locked l).keeps place = w.keeps place := by
    cases place with
    | memory => rfl
    | file name => simp only [keeps, World.locked, isSome_disk_setRegion]
  cases hfound : w.heldLock? l.slot with
  | none =>
    refine ⟨hsingle, fun i ↦ (h.locked_cases l i).1, fun i ↦ ?_⟩
    obtain hlock | hheld | ⟨hnone, -⟩ := (h.locked_cases l i).2
    · exact .inl hlock
    · exact .inr (hkeeps ▸ hheld)
    · cases hfound.symm.trans hnone
  | some l' =>
    have hkept := (w.locked l).keepsFree_released l'
    refine ⟨hkept.held ▸ hsingle, fun i ↦ (hkept.regions place i).callLock (h.locked_cases l i).1,
      fun i ↦ ?_⟩
    obtain hlock | ⟨hheld, hplace⟩ | ⟨hsome, hplace⟩ := (h.locked_cases l i).2
    · exact .inl ((hkept.regions place i).lock hlock)
    · exact .inr ⟨hkept.held ▸ hheld, (hkept.keeps place).trans (hkeeps.trans hplace)⟩
    · obtain rfl : l' = ⟨i, place⟩ := Option.some.inj (hfound.symm.trans hsome)
      exact .inl (lock_released _ _ (hkeeps.trans hplace))

theorem tended_lock (h : w.Tended place) (n : Nat) : ((Act.lock n).final w).Tended place := by
  unfold Act.lock
  -- an act that ends in one of its three looks has taken nothing
  obtain heq | ⟨place', hplace, heq⟩ := Act.reads_openPlace.final_bind_cases w
  · rwa [heq]
  rw [heq]
  obtain heq | ⟨i, hi, heq⟩ := (Act.reads_slotIndex n).final_bind_cases w
  · rwa [heq]
  rw [heq]
  obtain heq | ⟨s, hs, heq⟩ := (Act.reads_slot i).final_bind_cases w
  · rwa [heq]
  rw [heq]
  split_ifs
  · have hrest : ∀ next : World, (do
        let previous := (← get).heldLock? n
        modify fun w ↦ { w with held := ⟨i, place'⟩ :: w.held.filter (·.slot ≠ i) }
        previous.forM Act.release
        return true : Act Bool).final next =
          let last := { next with held := ⟨i, place'⟩ :: next.held.filter (·.slot ≠ i) }
          (next.heldLock? n).elim last last.released := by
      intro next
      rw [Act.final_bind_of_ok (Act.value_get next)]
      cases next.heldLock? n <;> rfl
    have hopened := Act.openPlace_eq_ok hplace
    obtain rfl : s = (w.region place').slot i := Act.slot_eq_ok hopened hs
    obtain rfl : i.val = n := Act.slotIndex_eq_ok hi
    have hlocked := h.locked ⟨i, place'⟩
    rw [Act.final_bind_of_ok (Act.value_setSlot hopened i _), hrest]
    simp only [heldLock?, held_setRegion] at hlocked ⊢
    exact hlocked
  · exact h

theorem tended_unlock (h : w.Tended place) (n : Nat) : ((Act.unlock n).final w).Tended place := by
  unfold Act.unlock
  rw [Act.final_bind_of_ok (Act.value_get w)]
  cases hfound : w.heldLock? n with
  | none => exact h
  | some l =>
    obtain ⟨-, rfl⟩ := heldLock?_eq_some hfound
    have hunlocked := h.unlocked hfound
    rw [← w.held_setRegion _ l.place] at hunlocked
    exact hunlocked

end World

/-! ### Runs -/

/-- A piece of a session that is made in one go. -/
inductive Piece : Type 1
  | attach (who : String) (slot : Nat) (enforcing : Bool) (spinLimit : UInt32)
  | instrument (who : String) (settings : Settings)
  | instrumentLazily (who : String) (settings : Settings) (path : Option String)
  | drop (who : String)
  | spawn (who : String) (id : Int64) (site : UInt64) (label : String) (count : Nat)
  | setStatus (who : String) (id : Int64) (status : StatusWord)
  | block (who : String) (ids : List String)
  | state (who : String)
  | finish (who : String)
  | report (who : String) (task : Int64) (content : Content) (count : Nat) (vital : Bool)
  /-- One poll of a report that waits. -/
  | poll (p : Pause)
  /-- The reports that wait from now on. -/
  | await (pauses : List Pause)
  | mode (n : Nat)
  | select (n : Nat) (m : ControlMode)
  | selectAll (m : ControlMode)
  | endReplay
  | round (chooser : Chooser)
  /-- A round under a policy of any kind. -/
  | roundBy {σ : Type} (policy : Policy σ) (first : σ)
  | view (n : Nat)
  | tasks (n : Nat)
  | find (n : Nat) (key : Lookup)
  | grant (n : Nat) (t : Task)
  | grantById (n : Nat) (id : Int64)
  | snapshot (n : Nat)
  | drain (n : Nat) (start : UInt64)
  | record (name : String)
  | coverage (n : Nat)
  /-- The scheduler takes a lock and holds it. -/
  | lock (n : Nat)
  | unlock (n : Nat)
  | openFile (path : String)
  | closeRegion
  /-- A command that inspects a region of the disk. -/
  | inspect {env : Options.Environment} {args : List String} {invocation : Invocation}
    {path : String} {slot : Option Nat} {withTasks json : Bool}
    (hread : Invocation.read env args = .ok invocation)
    (hinspect : invocation.command = .inspect path slot withTasks json)

namespace Piece

/-- The session after a piece, however it ends. -/
def next : Piece → World → World
  | attach who slot enforcing spinLimit => (Act.attach who slot enforcing spinLimit).final
  | instrument who settings => (Act.instrument who settings).final
  | instrumentLazily who settings path => (Act.instrumentLazily who settings path).final
  | drop who => (Act.drop who).final
  | spawn who id site label count => (Act.spawn who id site label count).final
  | setStatus who id status => (Act.setStatus who id status).final
  | block who ids => (Act.block who ids).final
  | state who => (Act.state who).final
  | finish who => (Act.finish who).final
  | report who task content count vital => (Act.report who task content count vital).final
  | poll p => (Act.resumeErrand p).final
  | await pauses => fun w ↦ { w with pauses := pauses }
  | mode n => (Act.mode n).final
  | select n m => (Act.selectMode n m).final
  | selectAll m => (Act.selectModeInAll m).final
  | endReplay => Act.endReplay.final
  | round chooser => (Act.round chooser).final
  | roundBy policy first => (Act.roundBy policy first).final
  | view n => (Act.view n).final
  | tasks n => (Act.tasks n).final
  | find n key => (Act.find n key).final
  | grant n t => (Act.grant n t).final
  | grantById n id => (Act.grantById n id).final
  | snapshot n => (Act.snapshot n).final
  | drain n start => (Act.drain n start).final
  | record name => (Act.record name).final
  | coverage n => (Act.coverage n).final
  | lock n => (Act.lock n).final
  | unlock n => (Act.unlock n).final
  | openFile path => (Act.openFile path).final
  | closeRegion => Act.closeRegion.final
  | @inspect env args _ _ _ _ _ _ _ => (Act.command env args).final

/-- Whether the scheduler takes a lock that it holds, or lets go of one. -/
def handlesLock : Piece → Prop
  | lock _ | unlock _ => True
  | _ => False

theorem keepsFree_next {p : Piece} (hp : ¬ p.handlesLock) (w : World) : w.KeepsFree (p.next w) := by
  cases p with
  | lock n | unlock n => exact absurd trivial hp
  | attach who slot enforcing spinLimit => exact Act.keepsFree_attach who slot enforcing spinLimit w
  | instrument who settings => exact Act.keepsFree_instrument who settings w
  | instrumentLazily who settings path => exact Act.keepsFree_instrumentLazily who settings path w
  | drop who => exact Act.keepsFree_drop who w
  | spawn who id site label count => exact Act.keepsFree_spawn who id site label count w
  | setStatus who id status => exact Act.keepsFree_setStatus who id status w
  | block who ids => exact Act.keepsFree_block who ids w
  | state who => exact (Act.reads_state who).keepsFree w
  | finish who => exact Act.keepsFree_finish who w
  | report who task content count vital => exact Act.keepsFree_report who task content count vital w
  | poll p => exact Act.keepsFree_resumeErrand p w
  | await pauses => exact World.keepsFree_of_eq rfl rfl rfl
  | mode n => exact (Act.reads_mode n).keepsFree w
  | select n m => exact Act.keepsFree_selectMode n m w
  | selectAll m => exact Act.keepsFree_selectModeInAll m w
  | endReplay => exact Act.keepsFree_endReplay w
  | round chooser => exact Act.keepsFree_round chooser w
  | roundBy policy first => exact Act.keepsFree_roundBy policy first w
  | view n => exact Act.keepsFree_view n w
  | tasks n => exact Act.keepsFree_tasks n w
  | find n key => exact Act.keepsFree_find n key w
  | grant n t => exact Act.keepsFree_grant n t w
  | grantById n id => exact Act.keepsFree_grantById n id w
  | snapshot n => exact (Act.reads_snapshot n).keepsFree w
  | drain n start => exact (Act.reads_drain n start).keepsFree w
  | record name => exact Act.keepsFree_record name w
  | coverage n => exact (Act.reads_coverage n).keepsFree w
  | openFile path => exact Act.keepsFree_openFile path w
  | closeRegion => exact Act.keepsFree_closeRegion w
  | inspect hread hinspect => exact Act.keepsFree_command hread hinspect w

theorem tended_next (p : Piece) {w : World} {place : Place} (h : w.Tended place) :
    (p.next w).Tended place := by
  cases p with
  | lock n => exact World.tended_lock h n
  | unlock n => exact World.tended_unlock h n
  | _ => exact h.of_keepsFree (keepsFree_next id w)

end Piece

namespace World

/-- The session after some pieces. -/
def through (w : World) (pieces : List Piece) : World := pieces.foldl (fun w p ↦ p.next w) w

theorem tended_through {w : World} {place : Place} (h : w.Tended place) (pieces : List Piece) :
    (w.through pieces).Tended place := by
  induction pieces generalizing w with
  | nil => exact h
  | cons p pieces ih => exact ih (p.tended_next h)

/-- Without pieces that handle a lock, the scheduler holds what it held. -/
theorem held_through (w : World) {pieces : List Piece} (h : ∀ p ∈ pieces, ¬ p.handlesLock) :
    (w.through pieces).held = w.held := by
  induction pieces generalizing w with
  | nil => rfl
  | cons p pieces ih =>
    obtain ⟨hfirst, hrest⟩ := List.forall_mem_cons.1 h
    exact (ih (p.next w) hrest).trans (Piece.keepsFree_next hfirst w).held

/-- No lock is left behind. If the locks of a region are free and the scheduler holds none, all of
them are free after any pieces of a session, and thus after every piece of it: an act of an agent or
of the scheduler that succeeds, fails or breaks down, or a single poll. If the scheduler takes locks
and lets go of them among the pieces, all of them are free but for the ones that it holds. -/
theorem free_through {w : World} {place : Place} (hfree : (w.region place).IsFree)
    (hheld : w.held = []) (pieces : List Piece) :
    ((∀ p ∈ pieces, ¬ p.handlesLock) → ((w.through pieces).region place).IsFree) ∧
      ∀ i, (((w.through pieces).region place).slot i).callLock = 0 ∧
        (⟨i, place⟩ ∉ (w.through pieces).held →
          (((w.through pieces).region place).slot i).lock = 0) := by
  have htended := tended_through (Tended.of_isFree hfree hheld) pieces
  refine ⟨fun hnone ↦ ?_, fun i ↦ ⟨htended.callLock i, fun hfreed ↦ ?_⟩⟩
  · exact htended.isFree ((held_through w hnone).trans hheld)
  · exact (htended.lock i).resolve_right fun ⟨hmem, _⟩ ↦ hfreed hmem

/-- A session in which the epoch of a slot is the last one. -/
def atLastEpoch (i : SlotIndex) : World :=
  { overMemory with memory := Region.fresh.setSlot i { Slot.fresh with epoch := -1 } }

/-- A report waits, and a round breaks down over the grant that the epoch has no room for. -/
def brokenRound : List Piece :=
  [.attach "p" 0 true 100, .spawn "p" 1 256 "main.main" 1, .selectAll .replay,
    .report "p" 1 .schedule 1 false, .roundBy .runReporter (), .view 0]

theorem free_through_brokenRound :
    ((atLastEpoch 0).region .memory).IsFree ∧ (atLastEpoch 0).held = [] ∧
      (∀ p ∈ brokenRound, ¬ p.handlesLock) ∧
      ((atLastEpoch 0).through brokenRound).pauses.length = 1 ∧
      ((((atLastEpoch 0).through brokenRound).region .memory).slot 0).epoch = 0 ∧
      (((atLastEpoch 0).through brokenRound).region .memory).IsFree := by
  have hslot : Slot.IsFree { Slot.fresh with epoch := -1 } := ⟨rfl, rfl⟩
  have hfree : ((atLastEpoch 0).region .memory).IsFree :=
    Region.isFree_fresh.of_keepsFree (Region.keepsFree_setSlot (hslot.keepsFree _))
  have hnone : ∀ p ∈ brokenRound, ¬ p.handlesLock := by simp [brokenRound, Piece.handlesLock]
  exact ⟨hfree, rfl, hnone, by decide +kernel, by decide +kernel,
    (free_through hfree rfl brokenRound).1 hnone⟩

end World

/-! ### Turns -/

theorem poll_eq_through (pauses : List Pause) (w : World) :
    (poll pauses w).value.2.2 = w.through (pauses.map .poll) := by
  induction pauses generalizing w with
  | nil => rfl
  | cons p pauses ih =>
    have hrest : (poll (p :: pauses) w).value.2.2 =
        (poll pauses ((Act.resumeErrand p).final w)).value.2.2 := by
      unfold Act.final
      simp only [poll, Noted.value_bind]
      split <;> rfl
    rw [hrest, ih]
    rfl

/-- A turn of a session is an act, then polls, and then the reports that wait from now on. -/
theorem Act.turned_eq_through {α : Type} (act : Act α) (w : World) :
    let now := act.final w
    let polled := poll (now.pauses.take w.pauses.length) now
    act.turned w = now.through ((now.pauses.take w.pauses.length).map .poll ++
      [.await (polled.value.2.1 ++ now.pauses.drop w.pauses.length)]) := by
  intro now polled
  have hpolled : polled.value.2.2 = now.through ((now.pauses.take w.pauses.length).map .poll) :=
    poll_eq_through _ now
  unfold World.through at hpolled ⊢
  rw [List.foldl_append, ← hpolled]
  rfl

end Session

end Turnstile
