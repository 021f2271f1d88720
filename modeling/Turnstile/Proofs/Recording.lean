import Mathlib.Algebra.Order.BigOperators.Group.List
import Mathlib.Algebra.Order.Ring.Nat
import Mathlib.Data.List.Nodup
import Turnstile.Proofs.Play
import Turnstile.Proofs.RingLog
import Turnstile.Recorder

/-!
# A recording of programs

A `Recording` is a play in which every slot records, and a recorder that reads the logs from time to
time. What it has got of one log is `Lossless`, all of the history up to where it has read, or it is
`Short` for good: a log whose ring or whose cursor was overtaken never yields as many events as were
appended. So a recorder that holds as many events as there were reports has missed none of them
(`Recording.IsComplete`). That is the case when the recorder reads last and has not counted a loss
(`Recording.isComplete_of_drained`), and there is no loss while the reports fit the rings
(`Recording.lost_eq_zero`).

The recorder sorts what it holds by stamps after every reading. Sorting is stable, and stamps of one
slot never decrease, so the events of one slot stay in their order: `Recorder.Follows` says that
they are a sublist. What a script has reported is known as a list of events (`Script.events`), so in
the end the schedule is known: `Recording.Yields` says that it holds these events of every slot, all
of them in the order of their stamps and nothing besides, and so it is if the recording is complete
(`Recording.yields_of_complete`).
-/

set_option autoImplicit false
set_option relaxedAutoImplicit false

namespace Turnstile

/-! ### One log and its reader -/

/-- An event as it is read from a log. -/
def Event.readBack (e : Event) : Event :=
  { e with task := e.task.record.task, payload := e.payload.normal }

namespace Event

theorem slot_readBack (e : Event) : e.readBack.slot = e.slot := by
  simp only [readBack]

theorem stamp_readBack (e : Event) : e.readBack.stamp = e.stamp := by
  simp only [readBack]

theorem identity_readBack (e : Event) : e.readBack.task.identity = e.task.identity := by
  simp only [readBack, Task.identity, Task.record, TaskRecord.task]

end Event

namespace EventLog

variable {capacity : Nat} {log : EventLog capacity} {history got : List Event} {next : UInt64}

/-- A reader that has got every event of the history up to where it goes on. -/
structure Lossless (log : EventLog capacity) (history : List Event) (next : UInt64)
    (got : List Event) : Prop where
  holds : log.Holds (history.map Event.record)
  next_le : next.toNat ≤ history.length
  got_eq : got = (history.take next.toNat).map Event.readBack

/-- A reader that can never get all of the history any more. -/
def Short (log : EventLog capacity) (history : List Event) (next : UInt64) (got : List Event) :
    Prop :=
  got.length + (log.appends.toNat - next.toNat) < history.length

theorem Lossless.length_got (h : log.Lossless history next got) :
    got.length = next.toNat := by
  rw [h.got_eq, List.length_map, List.length_take, Nat.min_eq_left h.next_le]

theorem Lossless.appends (h : log.Lossless history next got) :
    log.appends.toNat = history.length := by
  have hbounded := h.holds.bounded
  have hcursor := h.holds.cursor
  rw [List.length_map] at hbounded hcursor
  rw [(appends_of_idle (by rw [hcursor]; exact hbounded)).1, hcursor]

theorem toNat_appends_append (log : EventLog capacity) (r : EventRecord) :
    (log.append r).appends.toNat = (log.appends.toNat + 1) % 2 ^ 63 := by
  have hone : (1 : UInt64).toNat = 1 := rfl
  rw [toNat_appends, append, UInt64.toNat_add, hone]
  omega

/-- One more append. At the last count the log starts again from zero, and is short from then on. -/
theorem Lossless.append (h : log.Lossless history next got) (hcapacity : 0 < capacity)
    (e : Event) :
    (log.append e.record).Lossless (history ++ [e]) next got ∨
      2 ^ 63 ≤ (history ++ [e]).length ∧ (log.append e.record).Short (history ++ [e]) next got := by
  by_cases hroom : history.length + 1 < 2 ^ 63
  · left
    refine ⟨?_, ?_, ?_⟩
    · have hholds := h.holds.append hcapacity (by simpa using hroom) e.record
      rw [List.map_append]
      exact hholds
    · rw [List.length_append]
      exact Nat.le_add_right_of_le h.next_le
    · rw [List.take_append_of_le_length h.next_le]
      exact h.got_eq
  · right
    have hbounded := h.holds.bounded
    have hlength := h.length_got
    have hnext := h.next_le
    rw [List.length_map] at hbounded
    rw [Short, toNat_appends_append, h.appends, List.length_append, List.length_singleton]
    constructor
    · omega
    · omega

theorem Short.append (h : log.Short history next got) (e : Event) :
    (log.append e.record).Short (history ++ [e]) next got := by
  unfold Short at h ⊢
  rw [toNat_appends_append, List.length_append, List.length_singleton]
  omega

/-- Records of events are read one by one. -/
theorem filterMap_record {events : List Event} (h : ∀ e ∈ events, e.slot.toNat < 2 ^ 31) :
    (events.map Event.record).filterMap (·.event?) = events.map Event.readBack := by
  rw [List.filterMap_map, ← List.filterMap_eq_map]
  apply List.filterMap_congr
  intro e he
  exact Event.event?_record_of_slot (h e he)

/-- What a reader finds that has got everything so far. -/
theorem Lossless.readSince (h : log.Lossless history next got)
    (hslot : ∀ e ∈ history, e.slot.toNat < 2 ^ 31) :
    let drained := (log.readSince next).value
    drained.events =
        (history.drop (max next.toNat (history.length - capacity))).map Event.readBack ∧
      drained.lost + drained.events.length = history.length - next.toNat ∧
      drained.next.toNat = history.length := by
  intro drained
  have hheld : next.toNat ≤ (history.map Event.record).length := by
    rw [List.length_map]
    exact h.next_le
  obtain ⟨hevents, hlost, hnext⟩ := h.holds.readSince hheld
  rw [List.length_map] at hevents hlost hnext
  rw [← List.map_drop, filterMap_record fun e he ↦ hslot e (List.mem_of_mem_drop he)] at hevents
  exact ⟨hevents, hlost, hnext⟩

/-- One reading, after which nothing has been missed or something has been for good. -/
theorem Lossless.read (h : log.Lossless history next got)
    (hslot : ∀ e ∈ history, e.slot.toNat < 2 ^ 31) :
    let drained := (log.readSince next).value
    drained.lost = 0 ∧ log.Lossless history drained.next (got ++ drained.events) ∨
      0 < drained.lost ∧ log.Short history drained.next (got ++ drained.events) := by
  intro drained
  obtain ⟨hevents, hlost, hnext⟩ := h.readSince hslot
  change drained.events = _ at hevents
  change drained.lost + drained.events.length = _ at hlost
  change drained.next.toNat = _ at hnext
  have hgot := h.length_got
  have hnext_le := h.next_le
  by_cases hmissed : drained.lost = 0
  · left
    have hall : drained.events = (history.drop next.toNat).map Event.readBack := by
      have hlength := congrArg List.length hevents
      rw [List.length_map, List.length_drop] at hlength
      by_cases hmore : next.toNat < history.length
      · have hfirst : max next.toNat (history.length - capacity) = next.toNat := by omega
        rw [hevents, hfirst]
      · rw [hevents, List.drop_of_length_le (by omega), List.drop_of_length_le (by omega)]
    refine ⟨hmissed, h.holds, hnext.le, ?_⟩
    rw [hnext, List.take_length, h.got_eq, hall, ← List.map_append, List.take_append_drop]
  · right
    refine ⟨Nat.pos_of_ne_zero hmissed, ?_⟩
    rw [Short, h.appends, List.length_append]
    omega

/-- Nothing is lost while the history fits the ring. -/
theorem Lossless.lost_readSince (h : log.Lossless history next got)
    (hslot : ∀ e ∈ history, e.slot.toNat < 2 ^ 31) (hfew : history.length ≤ capacity) :
    (log.readSince next).value.lost = 0 := by
  obtain ⟨hevents, hlost, -⟩ := h.readSince hslot
  have hlength := congrArg List.length hevents
  rw [List.length_map, List.length_drop] at hlength
  omega

/-- A reader goes on from the end of the log, and counts fewer losses than appends. -/
theorem readSince_end (log : EventLog capacity) (next : UInt64) :
    (log.readSince next).value.next = log.appends ∧
      (log.readSince next).value.lost < UInt64.size := by
  by_cases hahead : log.appends < next
  · have hdrained : (log.readSince next).value = ⟨[], 0, log.appends⟩ := by
      simp only [EventLog.readSince, hahead, if_true]
    rw [hdrained]
    exact ⟨rfl, Nat.two_pow_pos 64⟩
  · obtain ⟨-, hlost, hnext⟩ := value_readSince (UInt64.not_lt.1 hahead)
    have happends := log.appends.toNat_lt_size
    exact ⟨hnext, by omega⟩

theorem Short.read (h : log.Short history next got) :
    let drained := (log.readSince next).value
    log.Short history drained.next (got ++ drained.events) := by
  intro drained
  unfold Short at h ⊢
  by_cases hahead : log.appends < next
  · have hdrained : drained = ⟨[], 0, log.appends⟩ := by
      simp only [drained, readSince, hahead, if_true]
    rw [hdrained, List.append_nil]
    change got.length + (log.appends.toNat - log.appends.toNat) < history.length
    omega
  · have hle : next ≤ log.appends := UInt64.not_lt.1 hahead
    obtain ⟨-, hlost, hnext⟩ := value_readSince hle
    change drained.lost + drained.events.length = _ at hlost
    change drained.next = _ at hnext
    rw [hnext, List.length_append]
    omega

end EventLog

/-! ### The recorder -/

namespace Recorder

/-- Events of one slot whose stamps do not decrease. -/
structure InOrder (i : SlotIndex) (history : List Event) : Prop where
  slot : ∀ e ∈ history, e.slot = UInt64.ofNat i
  stamps : history.Pairwise (·.stamp ≤ ·.stamp)

variable {i : SlotIndex} {history : List Event}

theorem slotWord_lt (i : SlotIndex) : (UInt64.ofNat i).toNat < 2 ^ 31 := by
  rw [toNat_slotWord]
  exact i.isLt.trans (by decide)

theorem InOrder.slot_lt (h : InOrder i history) : ∀ e ∈ history, e.slot.toNat < 2 ^ 31 := by
  intro e he
  rw [h.slot e he]
  exact slotWord_lt i

/-- Events of one slot may stand in the order in which they were appended. -/
theorem InOrder.pairwise (h : InOrder i history) (n : Nat) :
    ((history.take n).map Event.readBack).Pairwise (precedes · ·) := by
  rw [List.pairwise_map]
  have htake : (history.take n).Pairwise fun a b ↦ a.stamp ≤ b.stamp :=
    h.stamps.sublist (List.take_sublist n history)
  refine htake.imp_of_mem ?_
  intro a b ha hb hle
  have hslot : a.slot = b.slot :=
    (h.slot a (List.mem_of_mem_take ha)).trans (h.slot b (List.mem_of_mem_take hb)).symm
  unfold precedes
  simp only [Event.slot_readBack, Event.stamp_readBack]
  by_cases hlt : a.stamp < b.stamp
  · simp [hlt]
  · have heq : a.stamp = b.stamp := UInt64.le_antisymm hle (UInt64.not_lt.1 hlt)
    simp [heq, hslot]

theorem precedes_trans (a b c : Event) (hab : precedes a b) (hbc : precedes b c) :
    precedes a c := by
  unfold precedes at hab hbc ⊢
  simp only [Bool.or_eq_true, Bool.and_eq_true, decide_eq_true_eq, UInt64.lt_iff_toNat_lt,
    UInt64.le_iff_toNat_le, ← UInt64.toNat_inj] at hab hbc ⊢
  omega

theorem precedes_total (a b : Event) : precedes a b || precedes b a := by
  unfold precedes
  simp only [Bool.or_eq_true, Bool.and_eq_true, decide_eq_true_eq, UInt64.lt_iff_toNat_lt,
    UInt64.le_iff_toNat_le, ← UInt64.toNat_inj]
  omega

/-- What a recorder has got of every log, and that it keeps the events of a log in order unless it
has missed some. It has counted what it missed, if appends can be counted, and it has counted
nothing else. There is nothing to miss while the histories fit the rings. -/
structure Follows (r : Recorder) (region : Region) (histories got : SlotIndex → List Event) :
    Prop where
  events : r.events.Perm ((List.finRange Limits.slots).flatMap got)
  each (i : SlotIndex) :
    (region.slot i).log.Lossless (histories i) (r.cursors.get i) (got i) ∧
        (got i).Sublist r.events ∨
      (0 < r.lost ∨ 2 ^ 63 ≤ (histories i).length) ∧
        (region.slot i).log.Short (histories i) (r.cursors.get i) (got i)
  missed (h : 0 < r.lost) :
    ∃ i, (region.slot i).log.Short (histories i) (r.cursors.get i) (got i)
  lost (h : ∀ i, (histories i).length ≤ Limits.logEntries) : r.lost = 0

theorem follows_start {region : Region} (h : ∀ i, (region.slot i).log.cursor = 0) :
    start.Follows region (fun _ ↦ []) (fun _ ↦ []) where
  events := by simp [start]
  each i := by
    have hcursor : start.cursors.get i = 0 := by simp [start, Vector.get]
    refine .inl ⟨⟨EventLog.holds_nil (h i), ?_, ?_⟩, List.Sublist.refl _⟩
    · rw [hcursor]
      exact Nat.le_refl 0
    · rw [hcursor]
      rfl
  missed hlost := absurd hlost (by decide)
  lost _ := rfl

/-- A list that grows in one of several parts grows by as much. -/
theorem perm_flatMap_update (order : List SlotIndex) (hdistinct : order.Nodup) (hi : i ∈ order)
    (got : SlotIndex → List Event) (new : List Event) :
    (order.flatMap got ++ new).Perm (order.flatMap (Function.update got i (got i ++ new))) := by
  induction order with
  | nil => exact absurd hi List.not_mem_nil
  | cons j order ih =>
    obtain ⟨hnew, hrest⟩ := List.nodup_cons.1 hdistinct
    rw [List.flatMap_cons, List.flatMap_cons]
    by_cases hslot : j = i
    · subst hslot
      have hsame : order.flatMap (Function.update got j (got j ++ new)) = order.flatMap got := by
        apply List.flatMap_congr
        intro k hk
        have hne : k ≠ j := by
          rintro rfl
          exact hnew hk
        exact Function.update_of_ne hne _ _
      rw [Function.update_self, hsame, List.append_assoc, List.append_assoc]
      exact (List.perm_append_comm).append_left (got j)
    · have hmem : i ∈ order := (List.mem_cons.1 hi).resolve_left (Ne.symm hslot)
      rw [Function.update_of_ne hslot, List.append_assoc]
      exact (ih hrest hmem).append_left (got j)

variable {r : Recorder} {region : Region} {histories got : SlotIndex → List Event}

/-- What is read of a log that fits its ring is all there is. -/
theorem Follows.lost_readSince (h : r.Follows region histories got)
    (horder : ∀ j, InOrder j (histories j)) (hfew : ∀ j, (histories j).length ≤ Limits.logEntries)
    (i : SlotIndex) : ((region.slot i).log.readSince (r.cursors.get i)).value.lost = 0 := by
  obtain ⟨hlossless, -⟩ | ⟨hmissed, -⟩ := h.each i
  · exact hlossless.lost_readSince (horder i).slot_lt (hfew i)
  · obtain hlost | hmany := hmissed
    · rw [h.lost hfew] at hlost
      exact absurd hlost (by decide)
    · have hroom : Limits.logEntries < 2 ^ 63 := by decide
      have hlength := hfew i
      omega

/-- A log of which something was missed stays short, whichever log is read. -/
theorem short_drained (i : SlotIndex) {j : SlotIndex}
    (h : (region.slot j).log.Short (histories j) (r.cursors.get j) (got j)) :
    let drained := ((region.slot i).log.readSince (r.cursors.get i)).value
    (region.slot j).log.Short (histories j) ((r.cursors.set i drained.next i.isLt).get j)
      (Function.update got i (got i ++ drained.events) j) := by
  intro drained
  by_cases hslot : j = i
  · subst hslot
    rw [get_set_self, Function.update_self]
    exact h.read
  · rw [get_set_of_ne _ hslot, Function.update_of_ne hslot]
    exact h

/-- Losses that are counted together, without an overflow, are some if either are. -/
theorem lost_add_pos {lost : UInt64} {n : Nat} (h : lost.toNat + n < UInt64.size) :
    0 < lost + UInt64.ofNat n ↔ 0 < lost ∨ 0 < n := by
  have hsum : (lost + UInt64.ofNat n).toNat = lost.toNat + n := by
    rw [UInt64.toNat_add, UInt64.toNat_ofNat_of_lt' (by omega), Nat.mod_eq_of_lt h]
  have hzero : (0 : UInt64).toNat = 0 := rfl
  rw [UInt64.lt_iff_toNat_lt, UInt64.lt_iff_toNat_lt, hsum]
  omega

/-- A log that is read is still without a loss, or it has lost what this reading counts, or it had
lost something before. -/
theorem Follows.read (h : r.Follows region histories got)
    (horder : ∀ j, InOrder j (histories j)) (i : SlotIndex) :
    let drained := ((region.slot i).log.readSince (r.cursors.get i)).value
    (region.slot i).log.Lossless (histories i) drained.next (got i ++ drained.events) ∧
        (got i).Sublist r.events ∧ drained.lost = 0 ∨
      ((0 < r.lost ∨ 0 < drained.lost) ∨ 2 ^ 63 ≤ (histories i).length) ∧
        (region.slot i).log.Short (histories i) drained.next (got i ++ drained.events) := by
  intro drained
  obtain ⟨hlossless, hsublist⟩ | ⟨hmissed, hshort⟩ := h.each i
  · obtain ⟨hnone, hread⟩ | ⟨hlost, hread⟩ := hlossless.read (horder i).slot_lt
    · exact .inl ⟨hread, hsublist, hnone⟩
    · exact .inr ⟨.inl (.inr hlost), hread⟩
  · exact .inr ⟨hmissed.imp_left .inl, hshort.read⟩

theorem Follows.drainSlot (h : r.Follows region histories got)
    (horder : ∀ j, InOrder j (histories j)) (i : SlotIndex) :
    ∃ got', (r.drainSlot region i).value.1.Follows region histories got' := by
  simp only [Recorder.drainSlot, Noted.value_bind]
  set drained := ((region.slot i).log.readSince (r.cursors.get i)).value with hdrained
  by_cases hcount : r.lost.toNat + drained.lost < UInt64.size
  · simp only [hcount, if_true, Noted.value_pure]
    have hmore := lost_add_pos hcount
    have hread := h.read horder i
    refine ⟨Function.update got i (got i ++ drained.events), ?_, ?_, ?_, ?_⟩
    · exact (h.events.append_right _).trans
        (perm_flatMap_update _ (List.nodup_finRange _) (List.mem_finRange i) got _)
    · intro j
      by_cases hslot : j = i
      · subst hslot
        rw [get_set_self, Function.update_self]
        obtain ⟨hlossless, hsublist, -⟩ | ⟨hmissed, hshort⟩ := hread
        · exact .inl ⟨hlossless, hsublist.append (List.Sublist.refl _)⟩
        · exact .inr ⟨hmissed.imp_left hmore.2, hshort⟩
      · obtain ⟨hlossless, hsublist⟩ | ⟨hmissed, hshort⟩ := h.each j
        · rw [get_set_of_ne _ hslot, Function.update_of_ne hslot]
          exact .inl ⟨hlossless, hsublist.trans (List.sublist_append_left _ _)⟩
        · exact .inr ⟨hmissed.imp_left fun hlost ↦ hmore.2 (.inl hlost), short_drained i hshort⟩
    · intro hlost
      obtain hbefore | hnow := hmore.1 hlost
      · obtain ⟨j, hshort⟩ := h.missed hbefore
        exact ⟨j, short_drained i hshort⟩
      · obtain ⟨-, -, hnone⟩ | ⟨-, hshort⟩ := hread
        · exact absurd hnone (Nat.ne_of_gt hnow)
        · refine ⟨i, ?_⟩
          rw [get_set_self, Function.update_self]
          exact hshort
    · intro hfew
      have hnone : drained.lost = 0 := h.lost_readSince horder hfew i
      show r.lost + UInt64.ofNat drained.lost = 0
      rw [h.lost hfew, hnone]
      rfl
  · simp only [hcount, if_false, Noted.value_pure]
    exact ⟨got, h⟩

theorem Follows.drainSlots (order : List SlotIndex) (fresh : Nat)
    (h : r.Follows region histories got) (horder : ∀ j, InOrder j (histories j)) :
    ∃ got', (Recorder.drainSlots region order r fresh).value.1.Follows region histories got' := by
  induction order generalizing r got fresh with
  | nil => exact ⟨got, h⟩
  | cons i order ih =>
    obtain ⟨got', hslot⟩ := h.drainSlot horder i
    simp only [Recorder.drainSlots, Noted.value_bind]
    cases hdrained : (r.drainSlot region i).value with
    | mk r' count =>
      rw [hdrained] at hslot
      cases count with
      | none => exact ⟨got', hslot⟩
      | some count => exact ih _ hslot

/-- Sorting keeps the order of every log from which nothing was missed. -/
theorem Follows.sorted (h : r.Follows region histories got)
    (horder : ∀ j, InOrder j (histories j)) :
    ({ r with events := Recorder.sorted r.events }).Follows region histories got where
  events := (List.mergeSort_perm _ _).trans h.events
  each i := by
    obtain ⟨hlossless, hsublist⟩ | hshort := h.each i
    · refine .inl ⟨hlossless, ?_⟩
      have hpairwise : (got i).Pairwise (precedes · ·) := by
        rw [hlossless.got_eq]
        exact (horder i).pairwise _
      exact List.sublist_mergeSort precedes_trans precedes_total hpairwise hsublist
    · exact .inr hshort
  missed := h.missed
  lost := h.lost

theorem Follows.drain (h : r.Follows region histories got)
    (horder : ∀ j, InOrder j (histories j)) :
    ∃ got', (r.drain region).value.1.Follows region histories got' := by
  obtain ⟨got', hread⟩ := Follows.drainSlots (List.finRange Limits.slots) 0 h horder
  simp only [Recorder.drain, Noted.value_bind]
  cases hdrained : (Recorder.drainSlots region (List.finRange Limits.slots) r 0).value with
  | mk r' count =>
    rw [hdrained] at hread
    have hsorted := hread.sorted horder
    cases count with
    | none => exact ⟨got', hread⟩
    | some count =>
      refine ⟨got', ?_⟩
      cases region.slots.toList.mapM Slot.coverage? with
      | none => exact hsorted
      | some coverage => exact ⟨hsorted.events, hsorted.each, hsorted.missed, hsorted.lost⟩

/-- A reading that stops early has counted losses. -/
theorem lost_drainSlots {order : List SlotIndex} {fresh : Nat} {r' : Recorder}
    (h : (Recorder.drainSlots region order r fresh).value = (r', none)) : 0 < r'.lost := by
  induction order generalizing r fresh with
  | nil => exact absurd (Prod.ext_iff.1 h).2 (Option.some_ne_none _)
  | cons i order ih =>
    simp only [Recorder.drainSlots, Recorder.drainSlot, Noted.value_bind] at h
    by_cases hcount : r.lost.toNat +
        ((region.slot i).log.readSince (r.cursors.get i)).value.lost < UInt64.size
    · simp only [hcount, if_true, Noted.value_pure] at h
      exact ih h
    · simp only [hcount, if_false, Noted.value_pure] at h
      obtain rfl : r = r' := (Prod.ext_iff.1 h).1
      have hbound := ((region.slot i).log.readSince_end (r.cursors.get i)).2
      have hzero : (0 : UInt64).toNat = 0 := rfl
      rw [UInt64.lt_iff_toNat_lt]
      omega

/-- A reading of some slots goes up to the ends of their logs. -/
theorem cursors_drainSlots {order : List SlotIndex} {fresh count : Nat} {r' : Recorder}
    (h : (Recorder.drainSlots region order r fresh).value = (r', some count)) {i : SlotIndex}
    (hi : i ∈ order ∨ r.cursors.get i = (region.slot i).log.appends) :
    r'.cursors.get i = (region.slot i).log.appends := by
  induction order generalizing r fresh with
  | nil =>
    obtain ⟨rfl, -⟩ := Prod.ext_iff.1 h
    exact hi.resolve_left List.not_mem_nil
  | cons j order ih =>
    simp only [Recorder.drainSlots, Recorder.drainSlot, Noted.value_bind] at h
    by_cases hcount : r.lost.toNat +
        ((region.slot j).log.readSince (r.cursors.get j)).value.lost < UInt64.size
    · simp only [hcount, if_true, Noted.value_pure] at h
      apply ih h
      by_cases hslot : i = j
      · subst hslot
        right
        rw [get_set_self]
        exact ((region.slot i).log.readSince_end (r.cursors.get i)).1
      · rw [get_set_of_ne _ hslot]
        exact hi.imp_left fun hmem ↦ (List.mem_cons.1 hmem).resolve_left hslot
    · simp only [hcount, if_false, Noted.value_pure] at h
      exact absurd (Prod.ext_iff.1 h).2.symm (Option.some_ne_none _)

/-- A reading that has counted no loss has come to its end. -/
theorem drain_of_lost_eq_zero (h : (r.drain region).value.1.lost = 0) :
    ∃ r' count coverage,
      (Recorder.drainSlots region (List.finRange Limits.slots) r 0).value = (r', some count) ∧
        (r.drain region).value.1 =
          { r' with events := Recorder.sorted r'.events, coverage := coverage } := by
  simp only [Recorder.drain, Noted.value_bind] at h ⊢
  cases hdrained : (Recorder.drainSlots region (List.finRange Limits.slots) r 0).value with
  | mk r' count =>
    rw [hdrained] at h
    cases count with
    | none =>
      have hlost : 0 < r'.lost := lost_drainSlots hdrained
      have hnone : r'.lost = 0 := h
      rw [hnone] at hlost
      exact absurd hlost (by decide)
    | some count =>
      cases hcoverage : region.slots.toList.mapM Slot.coverage? with
      | none => exact ⟨r', count, r'.coverage, rfl, rfl⟩
      | some coverage => exact ⟨r', count, coverage, rfl, rfl⟩

/-- A recorder that has read and has counted no loss is at the end of every log. -/
theorem cursors_drain (h : (r.drain region).value.1.lost = 0) (i : SlotIndex) :
    (r.drain region).value.1.cursors.get i = (region.slot i).log.appends := by
  obtain ⟨r', count, coverage, hdrained, hdrain⟩ := drain_of_lost_eq_zero h
  rw [hdrain]
  exact cursors_drainSlots hdrained (.inl (List.mem_finRange i))

/-- A recorder that has read and has counted no loss holds its events in the order of their stamps,
events of one stamp in the order of the slots. -/
theorem ordered_drain (h : (r.drain region).value.1.lost = 0) :
    (r.drain region).value.1.events.Pairwise (precedes · ·) := by
  obtain ⟨r', count, coverage, -, hdrain⟩ := drain_of_lost_eq_zero h
  rw [hdrain]
  exact List.pairwise_mergeSort precedes_trans precedes_total _

/-- Logs that stay as they are or get one more event. -/
theorem Follows.append {region' : Region} {histories' : SlotIndex → List Event}
    (h : r.Follows region histories got)
    (hlogs : ∀ i, (region'.slot i).log = (region.slot i).log ∧ histories' i = histories i ∨
      ∃ e : Event, (region'.slot i).log = (region.slot i).log.append e.record ∧
        histories' i = histories i ++ [e]) :
    r.Follows region' histories' got where
  events := h.events
  each i := by
    obtain ⟨hlog, hhistory⟩ | ⟨e, hlog, hhistory⟩ := hlogs i
    · rw [hlog, hhistory]
      exact h.each i
    · rw [hlog, hhistory]
      obtain ⟨hlossless, hsublist⟩ | ⟨hmissed, hshort⟩ := h.each i
      · obtain happend | ⟨hmany, happend⟩ := hlossless.append Limits.logEntries_pos e
        · exact .inl ⟨happend, hsublist⟩
        · exact .inr ⟨.inr hmany, happend⟩
      · refine .inr ⟨hmissed.imp_right fun hmany ↦ ?_, hshort.append e⟩
        rw [List.length_append]
        exact hmany.trans (Nat.le_add_right _ _)
  missed hlost := by
    obtain ⟨i, hshort⟩ := h.missed hlost
    refine ⟨i, ?_⟩
    obtain ⟨hlog, hhistory⟩ | ⟨e, hlog, hhistory⟩ := hlogs i
    · rw [hlog, hhistory]
      exact hshort
    · rw [hlog, hhistory]
      exact hshort.append e
  lost hfew := by
    apply h.lost
    intro i
    have hlength := hfew i
    obtain ⟨-, hhistory⟩ | ⟨e, -, hhistory⟩ := hlogs i
    · rw [hhistory] at hlength
      exact hlength
    · rw [hhistory, List.length_append] at hlength
      exact (Nat.le_add_right _ _).trans hlength

/-- A recorder that is at the end of every log and has missed nothing holds as many events as were
appended. -/
theorem Follows.length_events (h : r.Follows region histories got) (hlost : r.lost = 0)
    (hfew : ∀ i, (histories i).length < 2 ^ 63)
    (hend : ∀ i, r.cursors.get i = (region.slot i).log.appends) :
    r.events.length = ((List.finRange Limits.slots).map fun i ↦ (histories i).length).sum := by
  rw [h.events.length_eq, List.length_flatMap]
  refine congrArg List.sum (List.map_congr_left fun i _ ↦ ?_)
  obtain ⟨hlossless, -⟩ | ⟨hmissed | hmany, -⟩ := h.each i
  · rw [hlossless.length_got, hend i, hlossless.appends]
  · rw [hlost] at hmissed
    exact absurd hmissed (by decide)
  · exact absurd (hfew i) (Nat.not_lt.2 hmany)

/-- What belongs to one slot in the parts of all slots together. -/
theorem filter_flatMap_slot (order : List SlotIndex) (hdistinct : order.Nodup)
    (hslot : ∀ j, ∀ e ∈ got j, e.slot.toNat = j) (i : SlotIndex) :
    (order.flatMap got).filter (·.slot.toNat = i.val) = if i ∈ order then got i else [] := by
  induction order with
  | nil => rfl
  | cons j order ih =>
    obtain ⟨hnew, hrest⟩ := List.nodup_cons.1 hdistinct
    rw [List.flatMap_cons, List.filter_append, ih hrest]
    by_cases hsame : i = j
    · subst hsame
      have hall : (got i).filter (·.slot.toNat = i.val) = got i := by
        rw [List.filter_eq_self]
        intro e he
        exact decide_eq_true (hslot i e he)
      rw [hall, if_neg hnew, if_pos List.mem_cons_self, List.append_nil]
    · have hnone : (got j).filter (·.slot.toNat = i.val) = [] := by
        rw [List.filter_eq_nil_iff]
        intro e he hi
        have hval : (j : Nat) = i := (hslot j e he).symm.trans (of_decide_eq_true hi)
        exact hsame (Fin.ext hval.symm)
      rw [hnone, List.nil_append]
      simp [hsame]

/-- A recorder that holds as many events as were appended has got all of every log. -/
theorem Follows.got_eq (h : r.Follows region histories got)
    (hcount : r.events.length =
      ((List.finRange Limits.slots).map fun i ↦ (histories i).length).sum) (i : SlotIndex) :
    (histories i).length < 2 ^ 63 ∧ (got i).Sublist r.events ∧
      got i = (histories i).map Event.readBack := by
  have hle (i : SlotIndex) : (got i).length ≤ (histories i).length := by
    obtain ⟨hlossless, -⟩ | ⟨-, hshort⟩ := h.each i
    · rw [hlossless.length_got]
      exact hlossless.next_le
    · unfold EventLog.Short at hshort
      omega
  have hlengths (i : SlotIndex) : (got i).length = (histories i).length := by
    by_contra hne
    have hless := List.sum_lt_sum (l := List.finRange Limits.slots) (fun i ↦ (got i).length)
      (fun i ↦ (histories i).length) (fun j _ ↦ hle j)
      ⟨i, List.mem_finRange i, lt_of_le_of_ne (hle i) hne⟩
    rw [← hcount, h.events.length_eq, List.length_flatMap] at hless
    exact absurd hless (lt_irrefl _)
  obtain ⟨hlossless, hsublist⟩ | ⟨-, hshort⟩ := h.each i
  · have hbounded := hlossless.holds.bounded
    rw [List.length_map] at hbounded
    refine ⟨hbounded, hsublist, ?_⟩
    have hnext := hlossless.length_got
    rw [hlossless.got_eq, ← hnext, hlengths i, List.take_length]
  · unfold EventLog.Short at hshort
    have hsame := hlengths i
    omega

/-- A recorder that holds as many events as were appended has counted no loss. -/
theorem Follows.lost_eq_zero (h : r.Follows region histories got)
    (hcount : r.events.length =
      ((List.finRange Limits.slots).map fun i ↦ (histories i).length).sum) : r.lost = 0 := by
  by_contra hlost
  obtain ⟨i, hshort⟩ := h.missed (UInt64.pos_iff_ne_zero.2 hlost)
  have hlength := congrArg List.length (h.got_eq hcount i).2.2
  rw [List.length_map] at hlength
  unfold EventLog.Short at hshort
  omega

/-- A recorder that holds as many events as were appended holds exactly those, each log in its
order. -/
theorem Follows.complete (h : r.Follows region histories got)
    (horder : ∀ j, InOrder j (histories j))
    (hcount : r.events.length =
      ((List.finRange Limits.slots).map fun i ↦ (histories i).length).sum) :
    (∀ e ∈ r.events, ∃ i : SlotIndex, e.slot.toNat = i) ∧ ∀ i : SlotIndex,
      (histories i).length < 2 ^ 63 ∧
        r.events.filter (·.slot.toNat = i.val) = (histories i).map Event.readBack := by
  have hgot := h.got_eq hcount
  have hslot (i : SlotIndex) : ∀ e ∈ got i, e.slot.toNat = i := by
    intro e he
    rw [(hgot i).2.2] at he
    obtain ⟨a, ha, rfl⟩ := List.mem_map.1 he
    rw [Event.slot_readBack, (horder i).slot a ha, toNat_slotWord]
  constructor
  · intro e he
    obtain ⟨i, -, hi⟩ := List.mem_flatMap.1 (h.events.mem_iff.1 he)
    exact ⟨i, hslot i e hi⟩
  · intro i
    obtain ⟨hbounded, hsublist, heq⟩ := hgot i
    refine ⟨hbounded, ?_⟩
    have hown : (got i).filter (·.slot.toNat = i.val) = got i := by
      rw [List.filter_eq_self]
      intro e he
      exact decide_eq_true (hslot i e he)
    have hlength : (r.events.filter (·.slot.toNat = i.val)).length = (got i).length := by
      rw [(h.events.filter _).length_eq, filter_flatMap_slot _ (List.nodup_finRange _) hslot i,
        if_pos (List.mem_finRange i)]
    have hpart : (got i).Sublist (r.events.filter (·.slot.toNat = i.val)) := by
      rw [← hown]
      exact hsublist.filter _
    rw [← heq, hpart.eq_of_length hlength.symm]

end Recorder

theorem Schedule.forSlot_slotWord (s : Schedule) (i : SlotIndex) :
    s.forSlot (UInt64.ofNat i) = s.events.filter (·.slot.toNat = i.val) := by
  refine List.filter_congr fun e _ ↦ ?_
  simp only [← UInt64.toNat_inj, toNat_slotWord]

/-! ### Scripts that are recorded -/

namespace Script

variable {script : Script} {i : SlotIndex} {reports : List Announcement}

/-- The events of reports at slot `i` under a recording, where every scheduling point of the program
begins an epoch. -/
def events (script : Script) (i : SlotIndex) (reports : List Announcement) : List Event :=
  reports.mapIdx fun n a ↦
    a.event i (script.id a.task)
      (UInt64.ofNat ((reports.take n).countP (·.payload.kind = .schedule))) (script.stamp n)

theorem length_events (script : Script) (i : SlotIndex) (reports : List Announcement) :
    (script.events i reports).length = reports.length := List.length_mapIdx

/-- One more report adds its event at the end. -/
theorem events_concat (script : Script) (i : SlotIndex) (reports : List Announcement)
    (a : Announcement) :
    script.events i (reports ++ [a]) = script.events i reports ++
      [a.event i (script.id a.task)
        (UInt64.ofNat (reports.countP (·.payload.kind = .schedule)))
        (script.stamp reports.length)] := by
  unfold events
  rw [List.mapIdx_concat, List.take_left]
  congr 1
  -- the reports before an earlier one are the same
  refine List.ext_getElem (by rw [List.length_mapIdx, List.length_mapIdx]) fun n hn _ ↦ ?_
  rw [List.length_mapIdx] at hn
  rw [List.getElem_mapIdx, List.getElem_mapIdx, List.take_append_of_le_length hn.le]

theorem identity_events (script : Script) (i : SlotIndex) (reports : List Announcement) :
    (script.events i reports).map (·.task.identity) = reports.map (·.origin.identity) := by
  unfold events
  refine List.ext_getElem (by simp) fun n _ _ ↦ ?_
  rw [List.getElem_map, List.getElem_mapIdx, List.getElem_map]
  rfl

/-- If the stamps of a script do not decrease, its events are in their order. -/
theorem inOrder_events (hstamps : ∀ m n, m ≤ n → script.stamp m ≤ script.stamp n) :
    Recorder.InOrder i (script.events i reports) where
  slot e he := by
    obtain ⟨n, hn, rfl⟩ := List.mem_mapIdx.1 he
    rfl
  stamps := by
    unfold events
    refine List.pairwise_iff_getElem.2 fun m n _ _ hlt ↦ ?_
    rw [List.getElem_mapIdx, List.getElem_mapIdx]
    exact hstamps m n hlt.le

end Script

namespace Part

variable {script : Script} {i : SlotIndex} {p : Part}

/-- What the script has reported at slot `i` under a recording. -/
def history (script : Script) (i : SlotIndex) (p : Part) : List Event :=
  script.events i (p.reports script)

/-- A part that records. -/
structure Recorded (script : Script) (i : SlotIndex) (p : Part) : Prop where
  sound : p.station.Sound i .idle
  mode : p.station.slot.mode? = some .recordActive
  kept : ∃ r, p.station.seat = some ⟨r, none⟩ ∧
    script.Kept (script.program.ledgerAt p.done) r.spawned p.station.slot.tasks
  epoch : p.station.slot.epoch =
    UInt64.ofNat ((p.reports script).countP (·.payload.kind = .schedule))

/-- Counting an epoch leaves everything else as it is. -/
theorem advanced_cases (s : Slot) (condition : Prop) [Decidable condition] :
    ∃ s', (if condition then s.advance else s) = s' ∧ s'.lock = s.lock ∧ s'.callLock = s.callLock ∧
      s'.mode? = s.mode? ∧ s'.directiveWord = s.directiveWord ∧ s'.tasks = s.tasks ∧
      s'.log = s.log ∧ s'.epoch = if condition then s.epoch + 1 else s.epoch := by
  by_cases hcondition : condition
  · exact ⟨s.advance, if_pos hcondition, rfl, rfl, rfl, rfl, rfl, rfl, (if_pos hcondition).symm⟩
  · exact ⟨s, if_neg hcondition, rfl, rfl, rfl, rfl, rfl, rfl, (if_neg hcondition).symm⟩

/-- A report adds its event to the log and ends at once. -/
theorem Recorded.report (h : p.Recorded script i) {r : Reporter}
    (hseat : p.station.seat = some ⟨r, none⟩)
    (hkept : script.Kept (script.program.ledgerAt p.done) r.spawned p.station.slot.tasks)
    {k : Nat} {payload : Payload} (hstep : script.program[p.done]? = some (.report k payload)) :
    let stamp := script.stamp (p.reports script).length
    let settled := Station.settle (r.announce p.station.slot (script.id k) payload stamp)
      [.suspended]
    let q : Part := ⟨settled.1, p.done + 1, p.past ++ settled.2⟩
    q.Recorded script i ∧ ∃ e : Event, q.station.slot.log = p.station.slot.log.append e.record ∧
      q.history script i = p.history script i ++ [e] := by
  intro stamp settled q
  have hreporter : r.slot = i := h.sound.reporter _ hseat
  obtain ⟨o, ho, hannounce⟩ :=
    hkept.announce hstep h.sound.lock h.sound.callLock h.mode stamp
  set a : Announcement := ⟨k, o, payload⟩ with ha
  set e := a.event r.slot (script.id k) p.station.slot.epoch stamp with he
  have hfree : (r.enforcing && Mode.recordActive.entered.suspends) = false := by
    simp [Mode.entered, Mode.suspends]
  simp only [hfree, Bool.false_eq_true, if_false] at hannounce
  obtain ⟨s', hs', hlock, hcall, hmode, hword, htasks, hlog, hepoch⟩ :=
    advanced_cases ((p.station.slot.reported e).setMode .recordActive)
      (Mode.recordActive.entered = .recordActive ∧ payload.kind = .schedule)
  have hsettled : settled = (⟨s', some ⟨{ r with tally.reports := r.tally.reports + 1 }, none⟩⟩,
      [.ended (.ok .carryOn)]) := by
    rw [← hs']
    simp only [settled, hannounce]
    rfl
  have hreports : q.reports script = p.reports script ++ [a] := by
    rw [reports, Program.ledgerAt_report hstep ho]
    rfl
  have hentered : s'.tasks = p.station.slot.tasks.set (Slot.taskIndex (script.id k))
      (a.reporter (script.id k)).record := htasks
  have hstation : q.station = settled.1 := rfl
  rw [hsettled] at hstation
  refine ⟨⟨?_, ?_, ⟨_, congrArg Station.seat hstation, ?_⟩, ?_⟩, e, ?_, ?_⟩
  · rw [hstation]
    exact .of_idle (hlock.trans h.sound.lock) (hcall.trans rfl) (hmode.trans rfl)
      (hword.trans h.sound.directive) hreporter
  · rw [hstation]
    exact hmode.trans rfl
  · rw [hstation, hentered]
    exact hkept.report hstep ho
  · have hcount : s'.epoch = if payload.kind = .schedule then p.station.slot.epoch + 1
        else p.station.slot.epoch := by
      rw [hepoch]
      simp only [Mode.entered, true_and]
      rfl
    rw [hstation, hreports, List.countP_append, List.countP_singleton]
    change s'.epoch = _
    rw [hcount, h.epoch, ha]
    by_cases hschedule : payload.kind = .schedule
    · rw [if_pos hschedule, if_pos (decide_eq_true hschedule), UInt64.ofNat_add]
      rfl
    · simp [hschedule]
  · rw [hstation]
    exact hlog
  · rw [history, history, hreports, Script.events_concat, he, hreporter, h.epoch]

/-- A step adds at most one event to the log, that of the next report. -/
theorem Recorded.perform (h : p.Recorded script i) :
    let q := p.perform script i
    q.Recorded script i ∧
      (q.station.slot.log = p.station.slot.log ∧ q.history script i = p.history script i ∨
        ∃ e : Event, q.station.slot.log = p.station.slot.log.append e.record ∧
          q.history script i = p.history script i ++ [e]) := by
  intro q
  obtain ⟨r, hseat, hkept⟩ := h.kept
  have hreporter : r.slot = i := h.sound.reporter _ hseat
  obtain ⟨hsame, -⟩ | ⟨-, ⟨site, label, hstep, hperform⟩ | ⟨k, payload, hstep, hperform⟩⟩ :=
    perform_cases script i ⟨none, hseat⟩
  · have hq : q = p := hsame
    rw [hq]
    exact ⟨h, .inl ⟨rfl, rfl⟩⟩
  · have hreports : q.reports script = p.reports script := by
      simp only [q, hperform, reports, Program.ledgerAt_succ hstep]
      rfl
    have hhistory : q.history script i = p.history script i := by rw [history, hreports, history]
    refine ⟨⟨?_, ?_, ?_, ?_⟩, .inl ⟨?_, hhistory⟩⟩
    · simp only [q, hperform]
      exact .of_idle h.sound.lock h.sound.callLock h.mode h.sound.directive hreporter
    · simp only [q, hperform]
      exact h.mode
    · simp only [q, hperform]
      exact ⟨_, rfl, hkept.spawn hstep⟩
    · rw [hreports, ← h.epoch]
      simp only [q, hperform]
      rfl
    · simp only [q, hperform]
      rfl
  · obtain ⟨hrecorded, hmore⟩ := h.report hseat hkept hstep
    simp only [q, hperform]
    exact ⟨hrecorded, .inr hmore⟩

end Part

/-! ### Whole recordings -/

/-- A play that is recorded. -/
structure Recording where
  play : Play
  recorder : Recorder

/-- A step of a script, or a reading of all logs. -/
inductive RecordMove
  | perform (i : SlotIndex)
  | drain
deriving DecidableEq, Repr

/-- Events that tell, for every slot, the tasks of the first reports of its program. -/
structure Chronicle (programs : SlotIndex → Program) (events : List Event) : Prop where
  slot : ∀ e ∈ events, ∃ i : SlotIndex, e.slot.toNat = i
  few (i : SlotIndex) : (events.filter (·.slot.toNat = i.val)).length < 2 ^ 63
  reports (i : SlotIndex) : (events.filter (·.slot.toNat = i.val)).map (·.task.identity) <+:
    (programs i).ledger.reports.map (·.origin.identity)

namespace Recording

variable {scripts : SlotIndex → Script} {x : Recording}

/-- A fresh region in which every slot records, with a new reporter at each. -/
def start (enforcing : SlotIndex → Bool) (spinLimit : SlotIndex → UInt32) : Recording :=
  ⟨.start .record enforcing spinLimit, .start⟩

def step (scripts : SlotIndex → Script) (x : Recording) : RecordMove → Recording
  | .perform i => { x with play := x.play.perform scripts i }
  | .drain => { x with recorder := (x.recorder.drain x.play.scene.region).value.1 }

def run (scripts : SlotIndex → Script) (x : Recording) (moves : List RecordMove) : Recording :=
  moves.foldl (step scripts) x

/-- How many reports the scripts have made. -/
def reports (scripts : SlotIndex → Script) (x : Recording) : Nat :=
  ((List.finRange Limits.slots).map fun i ↦
    ((scripts i).program.ledgerAt (x.play.done i)).reports.length).sum

/-- Whether nothing is lost: the recorder holds an event for every report. -/
def IsComplete (scripts : SlotIndex → Script) (x : Recording) : Prop :=
  x.recorder.events.length = x.reports scripts

/-- What the scripts have reported. -/
def histories (scripts : SlotIndex → Script) (x : Recording) (i : SlotIndex) : List Event :=
  (x.play.part i).history (scripts i) i

/-- A recording, with what the recorder has got of every log. -/
structure Sound (scripts : SlotIndex → Script) (x : Recording) (got : SlotIndex → List Event) :
    Prop where
  parts (i : SlotIndex) : (x.play.part i).Recorded (scripts i) i
  recorder : x.recorder.Follows x.play.scene.region (x.histories scripts) got
  ordered (h : x.recorder.lost = 0) : x.recorder.events.Pairwise (Recorder.precedes · ·)

theorem sound_start (scripts : SlotIndex → Script) (enforcing : SlotIndex → Bool)
    (spinLimit : SlotIndex → UInt32) :
    (start enforcing spinLimit).Sound scripts fun _ ↦ [] := by
  have hpart (i : SlotIndex) := Play.part_start .record enforcing spinLimit i
  have hhistories : (start enforcing spinLimit).histories scripts = fun _ ↦ [] := by
    funext i
    change ((Play.start .record enforcing spinLimit).part i).history (scripts i) i = []
    rw [hpart i]
    rfl
  refine ⟨fun i ↦ ?_, ?_, fun _ ↦ List.Pairwise.nil⟩
  · change Part.Recorded (scripts i) i ((Play.start .record enforcing spinLimit).part i)
    rw [hpart i]
    exact ⟨.of_idle rfl rfl (Mode.ofCode?_code .recordActive) rfl rfl,
      Mode.ofCode?_code .recordActive, ⟨_, rfl, (scripts i).kept_empty⟩, rfl⟩
  · rw [hhistories]
    exact Recorder.follows_start fun i ↦
      congrArg (fun p : Part ↦ p.station.slot.log.cursor) (hpart i)

theorem Sound.step {got : SlotIndex → List Event} (h : x.Sound scripts got)
    (hstamps : ∀ i m n, m ≤ n → (scripts i).stamp m ≤ (scripts i).stamp n) (move : RecordMove) :
    ∃ got', (x.step scripts move).Sound scripts got' := by
  cases move with
  | drain =>
    obtain ⟨got', hdrain⟩ := h.recorder.drain fun i ↦ (scripts i).inOrder_events (hstamps i)
    exact ⟨got', h.parts, hdrain, Recorder.ordered_drain⟩
  | perform i =>
    have hperform := (h.parts i).perform
    rw [← Play.part_perform_self] at hperform
    have hothers (j : SlotIndex) (hslot : j ≠ i) : (x.play.perform scripts i).part j =
        x.play.part j := Play.part_perform_of_ne scripts x.play hslot
    refine ⟨got, fun j ↦ ?_, h.recorder.append fun j ↦ ?_, h.ordered⟩
    · by_cases hslot : j = i
      · subst hslot
        exact hperform.1
      · change Part.Recorded _ j ((x.play.perform scripts i).part j)
        rw [hothers j hslot]
        exact h.parts j
    · by_cases hslot : j = i
      · subst hslot
        exact hperform.2
      · have hpart := hothers j hslot
        exact .inl ⟨congrArg (fun p : Part ↦ p.station.slot.log) hpart,
          congrArg (Part.history (scripts j) j) hpart⟩

theorem sound_run (hstamps : ∀ i m n, m ≤ n → (scripts i).stamp m ≤ (scripts i).stamp n)
    (enforcing : SlotIndex → Bool) (spinLimit : SlotIndex → UInt32) (moves : List RecordMove) :
    ∃ got, ((start enforcing spinLimit).run scripts moves).Sound scripts got := by
  induction moves using List.reverseRecOn with
  | nil => exact ⟨_, sound_start scripts enforcing spinLimit⟩
  | append_singleton moves move ih =>
    obtain ⟨got, hsound⟩ := ih
    rw [run, List.foldl_concat]
    exact hsound.step hstamps move

theorem length_histories (scripts : SlotIndex → Script) (x : Recording) (i : SlotIndex) :
    (x.histories scripts i).length = ((x.play.part i).reports (scripts i)).length :=
  Script.length_events _ _ _

theorem sum_histories (scripts : SlotIndex → Script) (x : Recording) :
    ((List.finRange Limits.slots).map fun i ↦ (x.histories scripts i).length).sum =
      x.reports scripts :=
  congrArg List.sum (List.map_congr_left fun i _ ↦ length_histories scripts x i)

/-- A slot has not reported more than its whole program does. -/
theorem length_histories_le (scripts : SlotIndex → Script) (x : Recording) (i : SlotIndex) :
    (x.histories scripts i).length ≤ (scripts i).program.ledger.reports.length := by
  rw [length_histories]
  exact ((scripts i).program.reports_ledgerAt _).length_le

/-- Nothing is lost while the reports of every slot fit its ring. -/
theorem lost_eq_zero (hstamps : ∀ i m n, m ≤ n → (scripts i).stamp m ≤ (scripts i).stamp n)
    (enforcing : SlotIndex → Bool) (spinLimit : SlotIndex → UInt32) (moves : List RecordMove)
    (hfew : ∀ i, (scripts i).program.ledger.reports.length ≤ Limits.logEntries) :
    ((start enforcing spinLimit).run scripts moves).recorder.lost = 0 := by
  obtain ⟨got, hsound⟩ := sound_run hstamps enforcing spinLimit moves
  exact hsound.recorder.lost fun i ↦ (length_histories_le scripts _ i).trans (hfew i)

/-- A recording is complete when the recorder reads last and has counted no loss. -/
theorem isComplete_of_drained
    (hstamps : ∀ i m n, m ≤ n → (scripts i).stamp m ≤ (scripts i).stamp n)
    (enforcing : SlotIndex → Bool) (spinLimit : SlotIndex → UInt32) (moves : List RecordMove)
    (hlost : ((start enforcing spinLimit).run scripts (moves ++ [.drain])).recorder.lost = 0)
    (hfew : ∀ i, (scripts i).program.ledger.reports.length < 2 ^ 63) :
    ((start enforcing spinLimit).run scripts (moves ++ [.drain])).IsComplete scripts := by
  obtain ⟨got, hsound⟩ := sound_run hstamps enforcing spinLimit (moves ++ [.drain])
  rw [IsComplete, ← sum_histories]
  refine hsound.recorder.length_events hlost
    (fun i ↦ (length_histories_le scripts _ i).trans_lt (hfew i)) fun i ↦ ?_
  rw [run, List.foldl_concat] at hlost ⊢
  exact Recorder.cursors_drain hlost i

/-! ### What a schedule keeps of a recording -/

/-- A schedule that holds all that the scripts have reported, and nothing else. -/
structure Yields (scripts : SlotIndex → Script) (x : Recording) (s : Schedule) : Prop where
  /-- Nothing counts as lost. -/
  lost : s.lost = 0
  /-- There are as many events as reports. -/
  total : s.events.length = x.reports scripts
  /-- Every event is one of a slot. -/
  slot : ∀ e ∈ s.events, ∃ i : SlotIndex, e.slot.toNat = i
  /-- The events of a slot are its reports, in their order. -/
  events (i : SlotIndex) : s.forSlot (UInt64.ofNat i) =
    ((scripts i).events i ((x.play.part i).reports (scripts i))).map Event.readBack
  /-- They are fewer than an epoch counts. -/
  few (i : SlotIndex) : (s.forSlot (UInt64.ofNat i)).length < 2 ^ 63
  /-- The events of all slots stand in the order of their stamps, those of one stamp in the order of
  the slots. -/
  ordered : s.events.Pairwise (Recorder.precedes · ·)

/-- The schedule of a complete recording holds all of it. -/
theorem yields_of_complete
    (hstamps : ∀ i m n, m ≤ n → (scripts i).stamp m ≤ (scripts i).stamp n)
    (enforcing : SlotIndex → Bool) (spinLimit : SlotIndex → UInt32) (moves : List RecordMove)
    (hcomplete : ((start enforcing spinLimit).run scripts moves).IsComplete scripts) :
    let x := (start enforcing spinLimit).run scripts moves
    x.Yields scripts x.recorder.finish := by
  intro x
  obtain ⟨got, hsound⟩ := sound_run hstamps enforcing spinLimit moves
  have hcount : x.recorder.events.length =
      ((List.finRange Limits.slots).map fun i ↦ (x.histories scripts i).length).sum := by
    rw [sum_histories]
    exact hcomplete
  have hlost : x.recorder.lost = 0 := hsound.recorder.lost_eq_zero hcount
  obtain ⟨hslot, heach⟩ := hsound.recorder.complete
    (fun i ↦ (scripts i).inOrder_events (hstamps i)) hcount
  refine ⟨hlost, hcomplete, hslot, fun i ↦ ?_, fun i ↦ ?_, hsound.ordered hlost⟩
  · rw [Schedule.forSlot_slotWord]
    exact (heach i).2
  · rw [Schedule.forSlot_slotWord]
    have hbounded := (heach i).1
    rw [← List.length_map Event.readBack, ← (heach i).2] at hbounded
    exact hbounded

/-- The schedule of a recording tells what the programs have reported. -/
theorem Yields.chronicle {s : Schedule} (h : x.Yields scripts s) :
    Chronicle (fun i ↦ (scripts i).program) s.events where
  slot := h.slot
  few i := by
    rw [← Schedule.forSlot_slotWord]
    exact h.few i
  reports i := by
    have hidentities (events : List Event) : (events.map Event.readBack).map (·.task.identity) =
        events.map (·.task.identity) := by
      rw [List.map_map]
      exact List.map_congr_left fun e _ ↦ e.identity_readBack
    rw [← Schedule.forSlot_slotWord, h.events i, hidentities, Script.identity_events]
    exact ((scripts i).program.reports_ledgerAt _).map _

end Recording

end Turnstile
