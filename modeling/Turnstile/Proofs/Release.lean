import Turnstile.Proofs.ModeMachine

/-!
# The end of the replay and stuck locks

The end of the replay takes no lock, but a waiting report sees it only in a poll, and a poll takes
the lock of the slot. So a report that waits after the end of the replay is released by its next
poll if that lock is free (`Reporter.resume_of_unlocked`), and waits on without a change if it is
not (`Reporter.resume_of_locked`). `Arena.released_after_endReplay` says both of every run, whatever
came before the end of the replay and whatever has happened since, and
`Arena.not_forall_released` that the lock cannot be left out: the end of the replay alone does not
release a report of a slot whose lock is stuck.
-/

set_option autoImplicit false
set_option relaxedAutoImplicit false

namespace Turnstile

namespace Slot

variable {s : Slot}

/-- After the end of the replay, a poll under the lock takes the release. -/
theorem poll_of_replayEnded (h : s.mode? = some .replayEnded) :
    s.poll = ((s.setDirective .idle).release, some .released) := by
  have hanswer : s.acquire.answer? = some .released := by
    have hmode : s.acquire.mode? = some .replayEnded := h
    rw [answer?, hmode]
  unfold poll guarded takeAnswer
  rw [hanswer]
  rfl

theorem directive?_idle (s : Slot) : ((s.setDirective .idle).release).directive? = some .idle :=
  Directive.ofCode?_code .idle

end Slot

namespace Reporter

variable {r : Reporter} {s : Slot}

/-- A poll of a report that has raised its request. -/
theorem poll_of_unlocked (hlock : s.isUnlocked) (hmode : s.mode? = some .replayEnded)
    (pace : Backoff) :
    (r.poll s pace).progress = .ended (.ok .released) ∧
      (r.poll s pace).slot.directive? = some .idle := by
  unfold poll
  rw [if_pos hlock, Slot.poll_of_replayEnded hmode]
  exact ⟨rfl, s.directive?_idle⟩

/-- After the end of the replay a report that waits for the scheduler is released as soon as it
finds the lock free. -/
theorem resume_of_unlocked (hlock : s.isUnlocked) (hmode : s.mode? = some .replayEnded) {w : Wait}
    (hawaits : w.phase.awaits) :
    (r.resume s w).progress = .ended (.ok .released) ∧
      (r.resume s w).slot.directive? = some .idle := by
  obtain ⟨phase, pace⟩ := w
  cases phase with
  | publishing t kind => exact absurd hawaits Bool.false_ne_true
  | polling => exact poll_of_unlocked hlock hmode pace
  | requesting =>
    have hraised : s.request.isUnlocked = true := rfl
    have hended : s.request.mode? = some .replayEnded := hmode
    have hresume : r.resume s ⟨.requesting, pace⟩ = r.poll s.request pace.reset := by
      unfold resume request Reported.polled
      rw [if_pos hlock]
    rw [hresume]
    exact poll_of_unlocked hraised hended pace.reset

/-- A report that waits for the scheduler does nothing while the lock is taken. -/
theorem resume_of_locked (hlock : ¬ s.isUnlocked) {w : Wait} (hawaits : w.phase.awaits) :
    r.resume s w = ⟨r, s, .paused ⟨w.phase, w.pace.toYield⟩⟩ := by
  obtain ⟨phase, pace⟩ := w
  cases phase with
  | publishing t kind => exact absurd hawaits Bool.false_ne_true
  | polling =>
    show r.poll s pace = _
    unfold poll
    rw [if_neg hlock]
  | requesting =>
    unfold resume request Reported.polled
    rw [if_neg hlock]

end Reporter

namespace Arena

section Poll

variable {x : Arena} {n : Nat} {r : Reporter} {w : Wait}

theorem act_poll (hseat : x.seats n = some ⟨r, some w⟩) :
    let q := Station.settle (r.resume (x.region.slot r.slot) w) []
    x.act n .poll =
      (⟨x.region.setSlot r.slot q.1.slot, Function.update x.seats n q.1.seat⟩, q.2) :=
  act_of_seat hseat (by rintro m ⟨⟩)

/-- After the end of the replay, a report that waits for the scheduler is released by a poll that
finds the lock free. -/
theorem poll_of_unlocked {i : SlotIndex} (hawaits : x.Awaits n i)
    (hmode : (x.region.slot i).mode? = some .replayEnded) (hlock : (x.region.slot i).isUnlocked) :
    (x.act n .poll).2 = [.ended (.ok .released)] ∧
      (∃ r, (x.act n .poll).1.seats n = some ⟨r, none⟩) ∧
      ((x.act n .poll).1.region.slot i).directive? = some .idle := by
  obtain ⟨⟨r, _ | w⟩, hseat, rfl, hw⟩ := hawaits
  · exact absurd hw Bool.false_ne_true
  · have hwaits : w.phase.awaits = true := hw
    obtain ⟨hprogress, hdirective⟩ := r.resume_of_unlocked hlock hmode hwaits
    rw [act_poll hseat]
    simp only [Station.settle, hprogress]
    refine ⟨trivial, ⟨_, Function.update_self n _ x.seats⟩, ?_⟩
    show ((x.region.setSlot r.slot _).slot r.slot).directive? = _
    rw [Region.slot_setSlot_self]
    exact hdirective

/-- A poll that finds the lock taken leaves everything as it is. -/
theorem poll_of_locked {i : SlotIndex} (hawaits : x.Awaits n i)
    (hlock : ¬ (x.region.slot i).isUnlocked) :
    (x.act n .poll).2 = [] ∧ (x.act n .poll).1.region = x.region ∧
      (x.act n .poll).1.Awaits n i := by
  obtain ⟨⟨r, _ | w⟩, hseat, rfl, hw⟩ := hawaits
  · exact absurd hw Bool.false_ne_true
  · have hwaits : w.phase.awaits = true := hw
    have hresume : r.resume (x.region.slot r.slot) w = _ := r.resume_of_locked hlock hwaits
    rw [act_poll hseat, hresume]
    exact ⟨rfl, x.region.setSlot_slot r.slot, ⟨_, Function.update_self n _ x.seats, rfl, hwaits⟩⟩

end Poll

theorem endReplay_run (before later : List Move) (i : SlotIndex) :
    ((after (before ++ .endReplay :: later)).region.slot i).mode? = some .replayEnded := by
  have hended : (((after before).step .endReplay).1.region.slot i).mode? = some .replayEnded := by
    show ((after before).region.endReplay.slot i).mode? = _
    rw [Region.slot_endReplay]
    exact Mode.ofCode?_code .replayEnded
  rw [after_append]
  exact replayEnded_run hended later

/-- Any run in which the replay was ended, and a report that waits for the scheduler. If the lock of
its slot is free, its next poll ends it with the release and leaves the directive idle. If the lock
is taken, the poll changes nothing, and the report waits on. -/
theorem released_after_endReplay (before later : List Move) {n : Nat} {i : SlotIndex}
    (hawaits : (after (before ++ .endReplay :: later)).Awaits n i) :
    let x := after (before ++ .endReplay :: later)
    let y := x.step (.act n .poll)
    if (x.region.slot i).isUnlocked then
      y.2 = [.ended (.ok .released)] ∧ (∃ r, y.1.seats n = some ⟨r, none⟩) ∧
        (y.1.region.slot i).directive? = some .idle
    else y.2 = [] ∧ y.1.region = x.region ∧ y.1.Awaits n i := by
  intro x y
  split_ifs with hlock
  · exact poll_of_unlocked hawaits (endReplay_run before later i) hlock
  · exact poll_of_locked hawaits hlock

/-- A report of reporter 0 waits for a grant in slot `i`. -/
def waitingReport (i : SlotIndex) : List Move :=
  [.attach 0 i true 16, .act 0 (.spawn 1 0x100 "main.main"), .select .replay [i],
    .act 0 (.report 1 .schedule 0)]

/-- Somebody else holds the lock of slot 1, which is nothing to a report in slot 0. -/
theorem released_after_endReplay_waitingReport :
    let x := after (waitingReport 0 ++ .endReplay :: [.setLock 1 1])
    x.Awaits 0 0 ∧ (x.region.slot 0).isUnlocked ∧
      (x.step (.act 0 .poll)).2 = [.ended (.ok .released)] := by
  intro x
  have hawaits : x.Awaits 0 0 := by decide +kernel
  have hlock : (x.region.slot 0).isUnlocked := by decide +kernel
  have hpoll := released_after_endReplay (waitingReport 0) [.setLock 1 1] hawaits
  rw [if_pos hlock] at hpoll
  exact ⟨hawaits, hlock, hpoll.1⟩

/-- The end of the replay does not release a report in a slot whose lock was taken before and is
never let go of. -/
theorem not_forall_released :
    ¬ ∀ (before : List Move) (n : Nat) (i : SlotIndex),
      let x := after (before ++ [.endReplay])
      x.Awaits n i → (x.step (.act n .poll)).2 = [.ended (.ok .released)] := by
  intro hreleased
  have hawaits : (after ((waitingReport 0 ++ [.setLock 0 1]) ++ [.endReplay])).Awaits 0 0 := by
    decide +kernel
  have hlock : ¬ ((after ((waitingReport 0 ++ [.setLock 0 1]) ++ [.endReplay])).region.slot
      0).isUnlocked := by
    decide +kernel
  have hends := hreleased (waitingReport 0 ++ [.setLock 0 1]) 0 0 hawaits
  have hsame : [] = [Happening.ended (.ok .released)] :=
    (poll_of_locked hawaits hlock).1.symm.trans hends
  exact absurd hsame (List.cons_ne_nil _ _).symm

end Arena

end Turnstile
