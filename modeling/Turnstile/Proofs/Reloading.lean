import Turnstile.Proofs.Documents
import Turnstile.Proofs.Draining
import Turnstile.Value.Host

/-!
# Recordings that can be loaded again

A recorded schedule is of the present layout, so it can be loaded again if and only if every double
in it is finite (`Schedule.reloads_iff`): one that is not is written as `null`, and no double is
read there. A record keeps doubles bit by bit, so what a reporter is handed decides. A property that
all reported events have when they are read from their records is carried by the logs
(`EventLog.Every`), by what is read of them, whenever that is and whatever was overwritten, and by
what a recorder holds (`Arena.forall_mem_recorded`).

With finiteness as that property, the recording of a run whose reports have finite doubles only is
loaded again, wherever the recorder drains. A recorder that misses nothing (`Arena.Gapless`) holds
every reported event, and one double that is not finite is then enough for the schedule to be
refused (`Arena.finish_reloads_iff`). Reports are not checked for such doubles, so there are runs
whose recording cannot be loaded (`Arena.not_forall_finish_reloads`).
-/

set_option autoImplicit false
set_option relaxedAutoImplicit false

namespace Turnstile

/-! ### Doubles in records -/

/-- An event that carries the call of its payload is read from its record with finite doubles if
those that are kept of its payload are finite. -/
theorem Event.isFinite_readBack {e : Event} (h : e.task.call = e.payload.call?) :
    e.readBack.isFinite = e.payload.normal.isFinite := by
  have htask : e.task.record.task.call =
      if e.task.record.callNumber = Call.noNumber then none else some e.task.record.call.call := rfl
  rw [Event.isFinite, Task.isFinite]
  change (e.task.record.task.call.all Call.isFinite && e.payload.normal.isFinite) = _
  rw [htask]
  cases hpayload : e.payload with
  | call c =>
    have hcall : e.task.record.call.call = c.normal := by
      rw [Task.record, h, hpayload]
      exact c.call_record
    rw [hcall]
    split_ifs
    · rfl
    · exact Bool.and_self _
  | dump | send | receive | schedule =>
    have hnone : e.task.record.callNumber = Call.noNumber := by
      rw [Task.record, h, hpayload]
      rfl
    rw [if_pos hnone]
    rfl

/-! ### Properties of everything in a log -/

namespace EventLog

variable {capacity : Nat} {log : EventLog capacity} {P : Event → Prop}

/-- Every event that is stored in a log has a property, in whatever order they are read. -/
def Every (log : EventLog capacity) (P : Event → Prop) : Prop :=
  ∀ n, ∀ e ∈ (log.entryAt n).event?, P e

theorem every_empty (hzero : ∀ e ∈ EventRecord.zero.event?, P e) : (empty capacity).Every P := by
  intro n e he
  refine hzero e ?_
  have hentry : (empty capacity).entryAt n = EventRecord.zero := by
    simp [entryAt, empty, Vector.getElem?_replicate]
    split_ifs <;> rfl
  rwa [hentry] at he

theorem Every.append (h : log.Every P) {r : EventRecord} (hr : ∀ e ∈ r.event?, P e) :
    (log.append r).Every P := by
  intro n e he
  have hentry : (log.append r).entryAt n = r ∨ (log.append r).entryAt n = log.entryAt n := by
    unfold EventLog.append entryAt
    rw [Vector.getElem?_setIfInBounds]
    split_ifs with hplace hroom
    · exact .inl rfl
    · refine .inr (congrArg (·.getD EventRecord.zero) (Vector.getElem?_eq_none ?_).symm)
      omega
    · exact .inr rfl
  rcases hentry with hentry | hentry
  · rw [hentry] at he
    exact hr e he
  · rw [hentry] at he
    exact h n e he

theorem Every.appendAll (h : log.Every P) {events : List Event}
    (hevents : ∀ e ∈ events, ∀ a ∈ e.record.event?, P a) : (log.appendAll events).Every P := by
  induction events generalizing log with
  | nil => exact h
  | cons e events ih =>
    exact ih (h.append (hevents e List.mem_cons_self)) fun a ha ↦
      hevents a (List.mem_cons_of_mem e ha)

/-- What a reader gets of a log was in it, wherever it starts. -/
theorem Every.readSince (h : log.Every P) (start : UInt64) :
    ∀ e ∈ (log.readSince start).value.events, P e := by
  intro e he
  by_cases hahead : log.appends < start
  · rw [EventLog.readSince, if_pos hahead] at he
    exact absurd he List.not_mem_nil
  · rw [(value_readSince (UInt64.not_lt.1 hahead)).1, eventsIn, List.mem_filterMap] at he
    obtain ⟨n, -, he⟩ := he
    exact h n e he

end EventLog

/-! ### Properties of everything that is recorded -/

namespace Recorder

variable {r : Recorder} {region : Region} {P : Event → Prop}

theorem forall_mem_drainSlot (hr : ∀ e ∈ r.events, P e) {i : SlotIndex}
    (hlog : (region.slot i).log.Every P) : ∀ e ∈ (r.drainSlot region i).value.1.events, P e := by
  have hread := hlog.readSince (r.cursors.get i)
  simp only [drainSlot, Noted.value_bind]
  split_ifs
  · exact List.forall_mem_append.2 ⟨hr, hread⟩
  · exact hr

theorem forall_mem_drainSlots (order : List SlotIndex) (fresh : Nat) (hr : ∀ e ∈ r.events, P e)
    (hlogs : ∀ i, (region.slot i).log.Every P) :
    ∀ e ∈ (drainSlots region order r fresh).value.1.events, P e := by
  induction order generalizing r fresh with
  | nil => exact hr
  | cons i order ih =>
    have hslot := forall_mem_drainSlot hr (hlogs i)
    simp only [drainSlots, Noted.value_bind]
    cases hdrained : (r.drainSlot region i).value with
    | mk r' count =>
      rw [hdrained] at hslot
      cases count with
      | none => exact hslot
      | some count => exact ih _ hslot

/-- What a recorder has after a drain, it had before or there is in the logs. -/
theorem forall_mem_drain (hr : ∀ e ∈ r.events, P e) (hlogs : ∀ i, (region.slot i).log.Every P) :
    ∀ e ∈ (r.drain region).value.1.events, P e := by
  have hread := forall_mem_drainSlots (List.finRange Limits.slots) 0 hr hlogs
  simp only [drain, Noted.value_bind]
  cases hdrained : (drainSlots region (List.finRange Limits.slots) r 0).value with
  | mk r' count =>
    rw [hdrained] at hread
    have hsorted : ∀ e ∈ sorted r'.events, P e := fun e he ↦ hread e (List.mem_mergeSort.1 he)
    cases count with
    | none => exact hread
    | some count => cases region.slots.toList.mapM Slot.coverage? <;> exact hsorted

/-- An event that was reported at a slot is among those gathered. -/
theorem Gathers.mem {reports : SlotIndex → List Event} {events : List Event}
    (h : Gathers reports events) {i : SlotIndex} {e : Event} (he : e ∈ reports i)
    (hslot : e.slot = UInt64.ofNat i) : e ∈ events := by
  have hself : e ∈ (reports i).filter (Event.isAt (UInt64.ofNat i) e.stamp) :=
    List.mem_filter.2 ⟨he, by simp [Event.isAt, hslot]⟩
  rw [← h.each] at hself
  exact List.mem_of_mem_filter hself

end Recorder

namespace Arena

variable {x : Arena} {r r' : Recorder} {P : Event → Prop}

/-- Reported events have the property when they are read from their records, so the logs keep to
it over a run. -/
theorem every_run (moves : List Move) (hlogs : ∀ i, (x.region.slot i).log.Every P)
    (hreports : ∀ i, ∀ e ∈ x.history i moves, P e.readBack) (i : SlotIndex) :
    ((x.run moves).region.slot i).log.Every P := by
  rw [(x.advances_run i moves).log]
  refine (hlogs i).appendAll fun e he a ha ↦ ?_
  have hslot : e.slot.toNat < 2 ^ 31 := by
    rw [x.slot_of_mem_history i he]
    exact Recorder.slotWord_lt i
  rw [Event.event?_record_of_slot hslot, Option.mem_some_iff] at ha
  rw [← ha]
  exact hreports i e he

/-- Whatever a recorder holds after a run was there before it or was reported in it. -/
theorem forall_mem_recorded {pieces : List (List Move)} (hr : ∀ e ∈ r.events, P e)
    (hlogs : ∀ i, (x.region.slot i).log.Every P)
    (hreports : ∀ i, ∀ e ∈ x.history i pieces.flatten, P e.readBack)
    (h : x.recorded r pieces = some r') : ∀ e ∈ r'.events, P e := by
  -- the logs and the recorder keep to the property from piece to piece
  induction pieces generalizing x r with
  | nil =>
    obtain rfl := Option.some.inj h
    exact hr
  | cons piece pieces ih =>
    simp only [List.flatten_cons, history_append] at hreports
    have hfirst i e he := hreports i e (List.mem_append_left _ he)
    have hrest i e he := hreports i e (List.mem_append_right _ he)
    have hgrown := every_run piece hlogs hfirst
    have hdrain := Recorder.forall_mem_drain hr hgrown
    rw [recorded] at h
    cases hvalue : (r.drain (x.run piece).region).value with
    | mk r'' count =>
      rw [hvalue] at h hdrain
      cases count with
      | none => exact absurd h (Option.some_ne_none _).symm
      | some count => exact ih hdrain hgrown hrest h

end Arena

/-! ### Loading a recording again -/

namespace Schedule

/-- Whether the document of a schedule can be read, with as many events. -/
def Reloads (s : Schedule) : Prop :=
  ∃ t, ofDocument s.document = .ok t ∧ t.events.length = s.events.length

theorem reloads_iff {s : Schedule} (h : s.layoutVersion = Limits.layoutVersion) :
    s.Reloads ↔ s.isFinite := by
  constructor
  · rintro ⟨t, ht, -⟩
    by_contra hinfinite
    obtain ⟨looked, hrefused⟩ := ofDocument_of_not_isFinite hinfinite
    rw [hrefused] at ht
    cases ht
  · intro hfinite
    refine ⟨s.rebuilt, ?_, rfl⟩
    rw [ofDocument_of_isFinite hfinite, if_pos h]

end Schedule

namespace Arena

theorem every_fresh {P : Event → Prop} (hzero : ∀ e ∈ EventRecord.zero.event?, P e)
    (i : SlotIndex) : (fresh.region.slot i).log.Every P := by
  have hslot : fresh.region.slot i = .fresh := Region.slot_fresh i
  rw [hslot]
  exact EventLog.every_empty hzero

/-- A reported event carries the call of its payload. -/
theorem isFinite_readBack_of_mem_history {moves : List Move} {i : SlotIndex} {e : Event}
    (he : e ∈ fresh.history i moves) : e.readBack.isFinite = e.payload.normal.isFinite := by
  obtain ⟨_, _, _, _, _, -, rfl⟩ := fresh.eq_event_of_mem_history i he
  exact Event.isFinite_readBack rfl

/-- Every double of a recorded event is in its payload, and finite if those that are kept of the
reported payloads are. -/
theorem isFinite_of_mem_recorded {pieces : List (List Move)} {r : Recorder}
    (hr : fresh.recorded .start pieces = some r) :
    (∀ e ∈ r.events, e.isFinite = e.payload.isFinite) ∧
      ((∀ i, ∀ e ∈ fresh.history i pieces.flatten, e.payload.normal.isFinite) →
        ∀ e ∈ r.events, e.isFinite) := by
  have hnothing (P : Event → Prop) : ∀ e ∈ Recorder.start.events, P e := List.forall_mem_nil P
  constructor
  · refine forall_mem_recorded (hnothing _) (every_fresh ?_) ?_ hr
    · decide
    · exact fun i e he ↦ isFinite_readBack_of_mem_history he
  · intro hfinite
    refine forall_mem_recorded (hnothing _) (every_fresh ?_) ?_ hr
    · decide
    · intro i e he
      rw [isFinite_readBack_of_mem_history he]
      exact hfinite i e he

/-- Pieces of a run, after each of which a recorder drains, in which nothing is missed: no log goes
round its ring in a piece, the reports can be numbered by the 63 bits of a cursor, and the hits told
by a count of 64. -/
structure Gapless (pieces : List (List Move)) : Prop where
  ne_nil : pieces ≠ []
  timely : fresh.Timely pieces
  reports : ∀ i, (fresh.history i pieces.flatten).length < 2 ^ 63
  hits : pieces.flatten.countP Move.isHit < 2 ^ 64

/-- The recorder of such a run has all of it in the end. -/
theorem Gapless.current {pieces : List (List Move)} (h : Gapless pieces) :
    ∃ r, fresh.recorded .start pieces = some r ∧
      r.Current (after pieces.flatten).region fun i ↦ fresh.history i pieces.flatten := by
  have hslot (i : SlotIndex) : fresh.region.slot i = .fresh := Region.slot_fresh i
  have hlogs (i : SlotIndex) : (fresh.region.slot i).log.cursor = 0 := by
    rw [hslot]
    rfl
  refine current_recorded h.ne_nil (Recorder.lossless_start hlogs) (by simp) h.timely h.reports ?_
  intro i
  rw [hslot, Slot.hitSum_fresh, Nat.zero_add]
  exact h.hits

/-- Where nothing is missed, all reports are recorded, and none of their records may keep a double
that is not finite. -/
theorem Gapless.isFinite_of_reloads {pieces : List (List Move)} {r : Recorder} (h : Gapless pieces)
    (hr : fresh.recorded .start pieces = some r) (hreloads : r.finish.Reloads) (i : SlotIndex) :
    ∀ e ∈ fresh.history i pieces.flatten, e.payload.normal.isFinite := by
  intro e he
  obtain ⟨r', hr', hcurrent⟩ := h.current
  obtain rfl := Option.some.inj (hr.symm.trans hr')
  have hmem : e.readBack ∈ r.events := by
    refine hcurrent.chronological.toGathers.mem (List.mem_map_of_mem he) ?_
    rw [Event.slot_readBack]
    exact fresh.slot_of_mem_history i he
  have hfinite : r.finish.isFinite := (Schedule.reloads_iff rfl).1 hreloads
  rw [← isFinite_readBack_of_mem_history he]
  exact List.all_eq_true.1 hfinite _ hmem

/-- Wherever the recorder of a run drains, its schedule can be loaded again, with as many events, if
and only if every double in their payloads is finite, and is refused for a `null` otherwise. So it
can if the records of all reports keep finite doubles only. If nothing is missed, none of these
records may keep another. -/
theorem finish_reloads_iff {pieces : List (List Move)} {r : Recorder}
    (hr : fresh.recorded .start pieces = some r) :
    (r.finish.Reloads ↔ ∀ e ∈ r.events, e.payload.isFinite) ∧
      (¬r.finish.Reloads → ∃ looked, Schedule.ofDocument r.finish.document =
        .error (.fault ⟨.mismatch (.wrongType .null "f64"), looked⟩)) ∧
      ((∀ i, ∀ e ∈ fresh.history i pieces.flatten, e.payload.normal.isFinite) →
        r.finish.Reloads) ∧
      (Gapless pieces → r.finish.Reloads →
        ∀ i, ∀ e ∈ fresh.history i pieces.flatten, e.payload.normal.isFinite) := by
  obtain ⟨hpayload, hfinite⟩ := isFinite_of_mem_recorded hr
  have hreloads : r.finish.Reloads ↔ r.finish.isFinite := Schedule.reloads_iff rfl
  have hevents : r.finish.isFinite ↔ ∀ e ∈ r.events, e.isFinite := List.all_eq_true
  refine ⟨?_, ?_, ?_, ?_⟩
  · rw [hreloads, hevents]
    exact forall₂_congr fun e he ↦ by rw [hpayload e he]
  · intro hrefused
    exact Schedule.ofDocument_of_not_isFinite (hreloads.not.1 hrefused)
  · intro hreports
    exact hreloads.2 (hevents.2 (hfinite hreports))
  · intro hgapless
    exact hgapless.isFinite_of_reloads hr

/-- A report of a call with one double. -/
def called (i : SlotIndex) (x : Binary64) : List (List Move) :=
  [[.attach 0 i false 16, .act 0 (.spawn 1 0x100 "main.main"),
    .act 0 (.report 1 (.call ⟨0, [.ofHost (.double x)], []⟩) 7)]]

theorem finish_reloads_iff_called :
    ∃ r, fresh.recorded .start (called 0 ⟨0x3FB999999999999A⟩) = some r ∧ r.finish.Reloads := by
  have hgapless : Gapless (called 0 ⟨0x3FB999999999999A⟩) :=
    ⟨List.cons_ne_nil _ _, by decide +kernel, by decide +kernel, by decide +kernel⟩
  have hfinite : ∀ i, ∀ e ∈ fresh.history i (called 0 ⟨0x3FB999999999999A⟩).flatten,
      e.payload.normal.isFinite := by decide +kernel
  obtain ⟨r, hr, -⟩ := hgapless.current
  obtain ⟨-, -, hreloads, -⟩ := finish_reloads_iff hr
  exact ⟨r, hr, hreloads hfinite⟩

/-- There is a run with a recording that cannot be loaded again: a call with an infinity is
reported. -/
theorem not_forall_finish_reloads :
    ¬ ∀ pieces r, fresh.recorded .start pieces = some r → r.finish.Reloads := by
  intro hall
  have hgapless : Gapless (called 0 ⟨0x7FF0000000000000⟩) :=
    ⟨List.cons_ne_nil _ _, by decide +kernel, by decide +kernel, by decide +kernel⟩
  obtain ⟨r, hr, -⟩ := hgapless.current
  have hfinite := hgapless.isFinite_of_reloads hr (hall _ r hr)
  have hinfinite : ¬ ∀ i, ∀ e ∈ fresh.history i (called 0 ⟨0x7FF0000000000000⟩).flatten,
      e.payload.normal.isFinite := by decide +kernel
  exact hinfinite hfinite

end Arena

end Turnstile
