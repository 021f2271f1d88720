import Turnstile.Proofs.CoverageTable
import Turnstile.Proofs.Recording
import Turnstile.Proofs.Reports

/-!
# When a recorder drains makes no difference

A recorder sorts everything it holds whenever it drains, and holds the events of several slots, of
which it got some before and some after the last sorting. Sorting is stable
(`Recorder.alike_sorted`), so events of one slot and one stamp stay in the order in which they were
appended, however often they are sorted, and nothing else is left open by the order of stamps and
slots (`Recorder.Alike.eq`). A list of all events in that order, `Recorder.Chronological`, is
therefore the only one.

A recorder that drains before any log has gone round its ring misses nothing
(`Recorder.Lossless.drainSlot`), and since no slot has more hits than a count can tell, its drains
do not break down either (`Slot.exists_coverage`). After any drain it is `Recorder.Current`: it
holds the one chronological list of all events so far, and the coverage as it stands. This does not
depend on the drains before, so that a run has one schedule, wherever the recorder drains
(`Arena.finish_eq_of_drains`).

Stamps of one slot may decrease. Where they do, the recorder puts the later report first; where they
do not, the events of the slot stand in the order of their reports
(`Recorder.Chronological.filter_slot`).
-/

set_option autoImplicit false
set_option relaxedAutoImplicit false

namespace Turnstile

/-! ### Events in the order of a recording -/

/-- Whether an event has that slot and that stamp. -/
def Event.isAt (slot stamp : UInt64) (e : Event) : Bool := e.slot = slot && e.stamp = stamp

namespace Recorder

theorem precedes_of_isAt {a b : Event} (h : b.isAt a.slot a.stamp) : precedes a b := by
  simp only [Event.isAt, Bool.and_eq_true, decide_eq_true_eq] at h
  simp [precedes, h.1, h.2]

theorem isAt_of_precedes {a b : Event} (hab : precedes a b) (hba : precedes b a) :
    b.isAt a.slot a.stamp := by
  unfold precedes at hab hba
  simp only [Event.isAt, Bool.or_eq_true, Bool.and_eq_true, decide_eq_true_eq,
    UInt64.lt_iff_toNat_lt, UInt64.le_iff_toNat_le, ← UInt64.toNat_inj] at hab hba ⊢
  omega

/-- Lists in which the events of one slot and one stamp are the same, in the same order. -/
def Alike (a b : List Event) : Prop :=
  ∀ slot stamp, a.filter (Event.isAt slot stamp) = b.filter (Event.isAt slot stamp)

variable {a b : List Event}

theorem Alike.symm (h : Alike a b) : Alike b a := fun slot stamp ↦ (h slot stamp).symm

theorem Alike.mem (h : Alike a b) {e : Event} (he : e ∈ a) : e ∈ b := by
  have hself : e ∈ a.filter (Event.isAt e.slot e.stamp) :=
    List.mem_filter.2 ⟨he, by simp [Event.isAt]⟩
  rw [h] at hself
  exact List.mem_of_mem_filter hself

/-- The order of a recording leaves no choice but that among events of one slot and one stamp. -/
theorem Alike.eq (h : Alike a b) (ha : a.Pairwise (precedes · ·)) (hb : b.Pairwise (precedes · ·)) :
    a = b := by
  induction a generalizing b with
  | nil =>
    refine (List.eq_nil_iff_forall_not_mem.2 fun e he ↦ ?_).symm
    exact absurd (h.symm.mem he) List.not_mem_nil
  | cons x a ih =>
    cases b with
    | nil => exact absurd (h.mem List.mem_cons_self) List.not_mem_nil
    | cons y b =>
      obtain ⟨hx, hrestA⟩ := List.pairwise_cons.1 ha
      obtain ⟨hy, hrestB⟩ := List.pairwise_cons.1 hb
      -- the first events precede each other, so they are the first of one slot and one stamp
      have hsame : y.isAt x.slot x.stamp := by
        obtain rfl | hmem := List.mem_cons.1 (h.mem List.mem_cons_self)
        · simp [Event.isAt]
        · obtain rfl | hmem' := List.mem_cons.1 (h.symm.mem List.mem_cons_self)
          · simp [Event.isAt]
          · exact isAt_of_precedes (hx y hmem') (hy x hmem)
      have hfirst := h x.slot x.stamp
      rw [List.filter_cons_of_pos (by simp [Event.isAt]), List.filter_cons_of_pos hsame] at hfirst
      obtain ⟨rfl, -⟩ := List.cons.inj hfirst
      have hrest : Alike a b := by
        intro slot stamp
        have hall := h slot stamp
        by_cases hat : x.isAt slot stamp
        · rw [List.filter_cons_of_pos hat, List.filter_cons_of_pos hat] at hall
          exact (List.cons.inj hall).2
        · rwa [List.filter_cons_of_neg hat, List.filter_cons_of_neg hat] at hall
      rw [ih hrest hrestA hrestB]

/-- Sorting is stable. -/
theorem alike_sorted (events : List Event) : Alike (sorted events) events := by
  intro slot stamp
  have hpairwise : (events.filter (Event.isAt slot stamp)).Pairwise (precedes · ·) := by
    refine List.pairwise_of_forall_mem_list fun x hx y hy ↦ precedes_of_isAt ?_
    have hat := (List.mem_filter.1 hx).2
    simp only [Event.isAt, Bool.and_eq_true, decide_eq_true_eq] at hat
    rw [hat.1, hat.2]
    exact (List.mem_filter.1 hy).2
  have hsublist : (events.filter (Event.isAt slot stamp)).Sublist (sorted events) :=
    List.sublist_mergeSort precedes_trans precedes_total hpairwise List.filter_sublist
  have hfiltered := hsublist.filter (Event.isAt slot stamp)
  simp only [List.filter_filter, Bool.and_self] at hfiltered
  have hlength := ((List.mergeSort_perm events precedes).filter (Event.isAt slot stamp)).length_eq
  exact (hfiltered.eq_of_length hlength.symm).symm

theorem ordered_sorted (events : List Event) : (sorted events).Pairwise (precedes · ·) :=
  List.pairwise_mergeSort precedes_trans precedes_total events

theorem slotWord_ne {i j : SlotIndex} (h : j ≠ i) :
    UInt64.ofNat (j : Nat) ≠ UInt64.ofNat (i : Nat) := by
  intro hsame
  have hnat := congrArg UInt64.toNat hsame
  rw [toNat_slotWord, toNat_slotWord] at hnat
  exact h (Fin.ext hnat)

/-- The events of several slots. Those of one slot that have one stamp stand in the order in which
they were reported. -/
structure Gathers (reports : SlotIndex → List Event) (events : List Event) : Prop where
  slots : ∀ e ∈ events, ∃ i : SlotIndex, e.slot = UInt64.ofNat i
  each (i : SlotIndex) (stamp : UInt64) :
    events.filter (Event.isAt (UInt64.ofNat i) stamp) =
      (reports i).filter (Event.isAt (UInt64.ofNat i) stamp)

/-- The events of all slots in the order of their stamps, events of one stamp in the order of the
slots, and events of one stamp and one slot in the order in which they were reported. -/
structure Chronological (reports : SlotIndex → List Event) (events : List Event) : Prop
    extends Gathers reports events where
  ordered : events.Pairwise fun a b ↦ a.stamp < b.stamp ∨ a.stamp = b.stamp ∧ a.slot ≤ b.slot

theorem pairwise_precedes_iff {events : List Event} :
    events.Pairwise (precedes · ·) ↔
      events.Pairwise fun a b ↦ a.stamp < b.stamp ∨ a.stamp = b.stamp ∧ a.slot ≤ b.slot := by
  simp [precedes]

section Gathers

variable {reports : SlotIndex → List Event} {events : List Event} {i : SlotIndex}

theorem isAt_slot_eq_false {l : List Event} {slot : UInt64} (h : ∀ e ∈ l, e.slot ≠ slot)
    (stamp : UInt64) : l.filter (Event.isAt slot stamp) = [] := by
  refine List.filter_eq_nil_iff.2 fun e he ↦ ?_
  simp [Event.isAt, h e he]

theorem gathers_nil : Gathers (fun _ ↦ []) [] := ⟨by simp, fun _ _ ↦ rfl⟩

/-- More events of one slot. -/
theorem Gathers.append (h : Gathers reports events) {new : List Event}
    (hnew : ∀ e ∈ new, e.slot = UInt64.ofNat i) :
    Gathers (Function.update reports i (reports i ++ new)) (events ++ new) where
  slots e he := by
    obtain he | he := List.mem_append.1 he
    · exact h.slots e he
    · exact ⟨i, hnew e he⟩
  each j stamp := by
    rw [List.filter_append, h.each j stamp]
    by_cases hj : j = i
    · subst hj
      rw [Function.update_self, List.filter_append]
    · have hother : ∀ e ∈ new, e.slot ≠ UInt64.ofNat j := by
        intro e he
        rw [hnew e he]
        exact slotWord_ne (Ne.symm hj)
      rw [Function.update_of_ne hj, isAt_slot_eq_false hother, List.append_nil]

theorem Gathers.alike {events' : List Event} (h : Gathers reports events)
    (h' : Gathers reports events') : Alike events events' := by
  intro slot stamp
  by_cases hslot : ∃ i : SlotIndex, slot = UInt64.ofNat i
  · obtain ⟨i, rfl⟩ := hslot
    rw [h.each i stamp, h'.each i stamp]
  · have hnone {l : List Event} (hl : ∀ e ∈ l, ∃ i : SlotIndex, e.slot = UInt64.ofNat i) :
        l.filter (Event.isAt slot stamp) = [] := by
      refine isAt_slot_eq_false (fun e he heq ↦ hslot ?_) stamp
      rw [← heq]
      exact hl e he
    rw [hnone h.slots, hnone h'.slots]

theorem Gathers.sorted (h : Gathers reports events) : Chronological reports (sorted events) where
  slots e he := h.slots e (List.mem_mergeSort.1 he)
  each i stamp := (alike_sorted events _ stamp).trans (h.each i stamp)
  ordered := pairwise_precedes_iff.1 (ordered_sorted events)

/-- There is one chronological list of the events. -/
theorem Chronological.eq {events' : List Event} (h : Chronological reports events)
    (h' : Chronological reports events') : events = events' :=
  (h.toGathers.alike h'.toGathers).eq (pairwise_precedes_iff.2 h.ordered)
    (pairwise_precedes_iff.2 h'.ordered)

/-- If the events of a slot were reported in order, they stand in the order of their reports. -/
theorem Chronological.filter_slot (h : Chronological reports events)
    (hslot : ∀ e ∈ reports i, e.slot = UInt64.ofNat i)
    (hordered : (reports i).Pairwise (precedes · ·)) :
    events.filter (·.slot = UInt64.ofNat i) = reports i := by
  refine Alike.eq ?_ ((pairwise_precedes_iff.2 h.ordered).sublist List.filter_sublist) hordered
  intro slot stamp
  rw [List.filter_filter]
  by_cases hi : slot = UInt64.ofNat i
  · subst hi
    rw [← h.each i stamp]
    refine List.filter_congr fun e _ ↦ ?_
    by_cases hslot : e.slot = UInt64.ofNat i <;> simp [Event.isAt, hslot]
  · have hnone : (reports i).filter (Event.isAt slot stamp) = [] := by
      refine isAt_slot_eq_false (fun e he heq ↦ hi ?_) stamp
      rw [← heq, hslot e he]
    rw [hnone, List.filter_eq_nil_iff]
    intro e _ hat
    simp only [Event.isAt, Bool.and_eq_true, decide_eq_true_eq] at hat
    exact hi (hat.1.1.symm.trans hat.2)

end Gathers

end Recorder

/-! ### Nothing breaks down -/

namespace Coverage

/-- A block has no more hits than all blocks together. -/
theorem hitsIn_le_sum (t : String) (counts : List (String × UInt64)) :
    hitsIn t counts ≤ (counts.map fun count ↦ count.2.toNat).sum := by
  induction counts with
  | nil => exact Nat.le_refl 0
  | cons count counts ih =>
    obtain ⟨id, hits⟩ := count
    rw [hitsIn_cons, List.map_cons, List.sum_cons]
    split_ifs
    · exact Nat.add_le_add_left ih _
    · exact Nat.add_le_add (Nat.zero_le _) ih

end Coverage

namespace Slot

/-- Hits that are fewer than a count can tell are all covered. -/
theorem exists_coverage {s : Slot} (h : s.hitSum < UInt64.size) : ∃ c, s.coverage? = some c := by
  have hused : (s.usedRows.map (·.hits.toNat)).sum ≤ s.hitSum :=
    ((List.take_sublist _ _).map _).sum_le_sum fun _ _ ↦ Nat.zero_le _
  have hlt (t : String) : (Coverage.empty.hits t).toNat +
      Coverage.hitsIn t (s.usedRows.map fun row ↦ (row.id.text, row.hits)) < UInt64.size := by
    have hle := Coverage.hitsIn_le_sum t (s.usedRows.map fun row ↦ (row.id.text, row.hits))
    rw [List.map_map] at hle
    rw [Coverage.hits_empty]
    exact (Nat.zero_add _).trans_lt ((hle.trans hused).trans_lt h)
  obtain ⟨c, hall, -⟩ := Coverage.addAll_of_lt hlt
  exact ⟨c, by rw [coverage?, Coverage.ofList?, hall]⟩

theorem hitSum_fresh : fresh.hitSum = 0 := by
  have hrows : fresh.rows.toList.map (·.hits.toNat) = List.replicate Limits.blocks 0 := by
    show (Vector.replicate Limits.blocks BlockRow.zero).toList.map _ = _
    rw [Vector.toList_replicate, List.map_replicate]
    rfl
  rw [hitSum, hrows, List.sum_replicate]
  rfl

end Slot

/-- A list of results that all exist. -/
theorem exists_mapM_eq_some {α β : Type} {f : α → Option β} {l : List α}
    (h : ∀ a ∈ l, ∃ b, f a = some b) : ∃ bs, l.mapM f = some bs := by
  induction l with
  | nil => exact ⟨[], rfl⟩
  | cons a l ih =>
    obtain ⟨b, hb⟩ := h a List.mem_cons_self
    obtain ⟨bs, hbs⟩ := ih fun c hc ↦ h c (List.mem_cons_of_mem a hc)
    exact ⟨b :: bs, by simp [hb, hbs]⟩

namespace EventLog

variable {capacity : Nat} {log : EventLog capacity} {history got : List Event} {next : UInt64}

theorem Lossless.appendAll (h : log.Lossless history next got) (hcapacity : 0 < capacity)
    {events : List Event} (hfew : (history ++ events).length < 2 ^ 63) :
    (log.appendAll events).Lossless (history ++ events) next got := by
  induction events generalizing log history with
  | nil => rwa [List.append_nil]
  | cons e events ih =>
    rw [List.append_cons] at hfew ⊢
    obtain happend | ⟨hmany, -⟩ := h.append hcapacity e
    · exact ih happend hfew
    · rw [List.length_append] at hfew
      omega

end EventLog

namespace Recorder

/-- A recorder that has missed nothing of the logs up to where it has read them. -/
structure Lossless (r : Recorder) (region : Region) (histories got : SlotIndex → List Event) :
    Prop where
  lost : r.lost = 0
  each (i : SlotIndex) :
    (region.slot i).log.Lossless (histories i) (r.cursors.get i) (got i)
  gathers : Gathers got r.events

variable {r : Recorder} {region : Region} {histories got : SlotIndex → List Event}

/-- One log is read to its end, if it has not gone round its ring since it was read before. -/
theorem Lossless.drainSlot (h : r.Lossless region histories got) {i : SlotIndex}
    (hslot : ∀ e ∈ histories i, e.slot = UInt64.ofNat i)
    (hfew : (histories i).length ≤ (got i).length + Limits.logEntries) :
    ∃ r' count, (r.drainSlot region i).value = (r', some count) ∧
      r'.Lossless region histories
        (Function.update got i ((histories i).map Event.readBack)) := by
  obtain ⟨drained, hdrained⟩ : ∃ drained,
      ((region.slot i).log.readSince (r.cursors.get i)).value = drained := ⟨_, rfl⟩
  have hsmall : ∀ e ∈ histories i, e.slot.toNat < 2 ^ 31 := by
    intro e he
    rw [hslot e he]
    exact slotWord_lt i
  obtain ⟨hevents, hlost, hnext⟩ := (h.each i).readSince hsmall
  rw [hdrained] at hevents hlost hnext
  have hgot := (h.each i).length_got
  have hfirst : max (r.cursors.get i).toNat ((histories i).length - Limits.logEntries) =
      (r.cursors.get i).toNat := by omega
  rw [hfirst] at hevents
  have hnone : drained.lost = 0 := by
    rw [hevents, List.length_map, List.length_drop] at hlost
    omega
  have hall : got i ++ drained.events = (histories i).map Event.readBack := by
    rw [(h.each i).got_eq, hevents, ← List.map_append, List.take_append_drop]
  have hnew : ∀ e ∈ drained.events, e.slot = UInt64.ofNat i := by
    intro e he
    rw [hevents] at he
    obtain ⟨a, ha, rfl⟩ := List.mem_map.1 he
    rw [Event.slot_readBack]
    exact hslot a (List.mem_of_mem_drop ha)
  have hvalue : (r.drainSlot region i).value = ({ r with
      cursors := r.cursors.set i drained.next i.isLt
      events := r.events ++ drained.events }, some drained.events.length) := by
    have hroom : r.lost.toNat + 0 < UInt64.size := r.lost.toNat_lt_size
    have hsum : r.lost + UInt64.ofNat 0 = r.lost := by simp
    simp only [Recorder.drainSlot, Noted.value_bind, hdrained, hnone, hroom, if_true,
      Noted.value_pure, hsum]
  refine ⟨_, _, hvalue, h.lost, fun j ↦ ?_, ?_⟩
  · by_cases hj : j = i
    · subst hj
      rw [get_set_self, Function.update_self]
      refine ⟨(h.each j).holds, hnext.le, ?_⟩
      rw [hnext, List.take_length]
    · rw [get_set_of_ne _ hj, Function.update_of_ne hj]
      exact h.each j
  · rw [← hall]
    exact h.gathers.append hnew

theorem Lossless.drainSlots (h : r.Lossless region histories got)
    (hslot : ∀ i, ∀ e ∈ histories i, e.slot = UInt64.ofNat i)
    (hfew : ∀ i, (histories i).length ≤ (got i).length + Limits.logEntries)
    (order : List SlotIndex) (fresh : Nat) :
    ∃ r' count, (Recorder.drainSlots region order r fresh).value = (r', some count) ∧
      r'.Lossless region histories fun i ↦
        if i ∈ order then (histories i).map Event.readBack else got i := by
  induction order generalizing r got fresh with
  | nil => exact ⟨r, fresh, rfl, by simpa using h⟩
  | cons i order ih =>
    obtain ⟨r', count, hread, hr'⟩ := h.drainSlot (hslot i) (hfew i)
    -- of a log that has just been read nothing is unread, should it come again
    have hfew' (j : SlotIndex) : (histories j).length ≤
        (Function.update got i ((histories i).map Event.readBack) j).length +
          Limits.logEntries := by
      by_cases hj : j = i
      · subst hj
        rw [Function.update_self, List.length_map]
        exact Nat.le_add_right _ _
      · rw [Function.update_of_ne hj]
        exact hfew j
    obtain ⟨last, total, hrest, hlast⟩ := ih hr' hfew' (fresh + count)
    refine ⟨last, total, ?_, ?_⟩
    · simp only [Recorder.drainSlots, Noted.value_bind, hread]
      exact hrest
    · have hgot : (fun j ↦ if j ∈ i :: order then (histories j).map Event.readBack else got j) =
          fun j ↦ if j ∈ order then (histories j).map Event.readBack else
            Function.update got i ((histories i).map Event.readBack) j := by
        funext j
        by_cases hj : j = i
        · subst hj
          simp
        · simp [hj]
      rwa [hgot]

/-- A recorder that has just read: it has all of every log, and the coverage of every slot. -/
structure Current (r : Recorder) (region : Region) (histories : SlotIndex → List Event) : Prop where
  lossless : r.Lossless region histories fun i ↦ (histories i).map Event.readBack
  chronological : Chronological (fun i ↦ (histories i).map Event.readBack) r.events
  coverage : region.slots.toList.mapM Slot.coverage? = some r.coverage

/-- A drain succeeds and misses nothing if no log has gone round its ring since the last one, and no
slot has more hits than a count can tell. -/
theorem Lossless.drain (h : r.Lossless region histories got)
    (hslot : ∀ i, ∀ e ∈ histories i, e.slot = UInt64.ofNat i)
    (hfew : ∀ i, (histories i).length ≤ (got i).length + Limits.logEntries)
    (hhits : ∀ i, (region.slot i).hitSum < UInt64.size) :
    ∃ r' count, (r.drain region).value = (r', some count) ∧ r'.Current region histories := by
  obtain ⟨r', count, hread, hr'⟩ := h.drainSlots hslot hfew (List.finRange Limits.slots) 0
  simp only [List.mem_finRange, if_true] at hr'
  have hcovered : ∀ s ∈ region.slots.toList, ∃ c, s.coverage? = some c := by
    intro s hs
    obtain ⟨i, hi, rfl⟩ := List.mem_iff_getElem.1 hs
    rw [Vector.length_toList] at hi
    exact Slot.exists_coverage (hhits ⟨i, hi⟩)
  obtain ⟨coverage, hcoverage⟩ := exists_mapM_eq_some hcovered
  have hsorted := hr'.gathers.sorted
  refine ⟨{ r' with events := sorted r'.events, coverage := coverage }, count, ?_, ?_⟩
  · simp only [Recorder.drain, Noted.value_bind, hread, hcoverage, Noted.value_pure]
  · exact ⟨⟨hr'.lost, hr'.each, hsorted.toGathers⟩, hsorted, hcoverage⟩

/-- What a recorder has that has just read does not depend on how it got there. -/
theorem Current.finish_eq {r' : Recorder} (h : r.Current region histories)
    (h' : r'.Current region histories) : r.finish = r'.finish := by
  have hevents : r.events = r'.events := h.chronological.eq h'.chronological
  have hlost : r.lost = r'.lost := h.lossless.lost.trans h'.lossless.lost.symm
  have hcoverage : r.coverage = r'.coverage :=
    Option.some.inj (h.coverage.symm.trans h'.coverage)
  simp only [finish, hevents, hlost, hcoverage]

theorem lossless_start {region : Region} (h : ∀ i, (region.slot i).log.cursor = 0) :
    start.Lossless region (fun _ ↦ []) fun _ ↦ [] where
  lost := rfl
  each i := by
    have hcursor : start.cursors.get i = 0 := by simp [start, Vector.get]
    refine ⟨EventLog.holds_nil (h i), ?_, ?_⟩
    · rw [hcursor]
      exact Nat.le_refl 0
    · rw [hcursor]
      rfl
  gathers := gathers_nil

end Recorder

/-! ### Drains in a run -/

namespace Arena

/-- What a recorder has after a run in several pieces, if it drains after each of them. There is
nothing if a drain breaks down. -/
def recorded (x : Arena) (r : Recorder) : List (List Move) → Option Recorder
  | [] => some r
  | piece :: pieces =>
    match (r.drain (x.run piece).region).value with
    | (r, some _) => (x.run piece).recorded r pieces
    | (_, none) => none

/-- Whether in no piece of a run more events are appended to a log than its ring holds. -/
def Timely (x : Arena) : List (List Move) → Prop
  | [] => True
  | piece :: pieces =>
    (∀ i, (x.history i piece).length ≤ Limits.logEntries) ∧ (x.run piece).Timely pieces

instance decidableTimely (x : Arena) : (pieces : List (List Move)) → Decidable (x.Timely pieces)
  | [] => .isTrue trivial
  | piece :: pieces =>
    have := decidableTimely (x.run piece) pieces
    inferInstanceAs (Decidable ((∀ i, (x.history i piece).length ≤ Limits.logEntries) ∧
      (x.run piece).Timely pieces))

variable {x : Arena} {r : Recorder} {past : SlotIndex → List Event}

/-- The recorder stands still while the logs grow. -/
theorem lossless_run {got : SlotIndex → List Event} (h : r.Lossless x.region past got)
    {moves : List Move} (hreports : ∀ i, (past i ++ x.history i moves).length < 2 ^ 63) :
    r.Lossless (x.run moves).region (fun i ↦ past i ++ x.history i moves) got where
  lost := h.lost
  each i := by
    rw [(x.advances_run i moves).log]
    exact (h.each i).appendAll Limits.logEntries_pos (hreports i)
  gathers := h.gathers

/-- A recorder that drains after each piece of a run has all of it in the end. -/
theorem current_recorded {pieces : List (List Move)} (hpieces : pieces ≠ [])
    (h : r.Lossless x.region past fun i ↦ (past i).map Event.readBack)
    (hslot : ∀ i, ∀ e ∈ past i, e.slot = UInt64.ofNat i) (htimely : x.Timely pieces)
    (hreports : ∀ i, (past i ++ x.history i pieces.flatten).length < 2 ^ 63)
    (hhits : ∀ i, (x.region.slot i).hitSum + pieces.flatten.countP Move.isHit < 2 ^ 64) :
    ∃ r', x.recorded r pieces = some r' ∧
      r'.Current (x.run pieces.flatten).region fun i ↦ past i ++ x.history i pieces.flatten := by
  -- what is carried from piece to piece is that all of the past has been read
  induction pieces generalizing x r past with
  | nil => exact absurd rfl hpieces
  | cons piece pieces ih =>
    obtain ⟨hfew, htimely⟩ := htimely
    rw [List.flatten_cons] at hreports hhits ⊢
    simp only [history_append, ← List.append_assoc] at hreports ⊢
    have hgrown := lossless_run h fun i ↦ by
      have hlength := hreports i
      rw [List.length_append] at hlength
      exact lt_of_le_of_lt (Nat.le_add_right _ _) hlength
    have hslot' : ∀ i, ∀ e ∈ past i ++ x.history i piece, e.slot = UInt64.ofNat i := by
      intro i e he
      obtain he | he := List.mem_append.1 he
      · exact hslot i e he
      · exact x.slot_of_mem_history i he
    have hfew' (i : SlotIndex) : (past i ++ x.history i piece).length ≤
        ((past i).map Event.readBack).length + Limits.logEntries := by
      rw [List.length_append, List.length_map]
      exact Nat.add_le_add_left (hfew i) _
    have hhits' (i : SlotIndex) :
        ((x.run piece).region.slot i).hitSum + pieces.flatten.countP Move.isHit < 2 ^ 64 := by
      have hpiece := (x.advances_run i piece).hitSum
      have hall := hhits i
      rw [List.countP_append] at hall
      omega
    obtain ⟨r', count, hdrain, hr'⟩ := hgrown.drain hslot' hfew' fun i ↦
      lt_of_le_of_lt (Nat.le_add_right _ _) (hhits' i)
    have hstep : x.recorded r (piece :: pieces) = (x.run piece).recorded r' pieces := by
      rw [recorded, hdrain]
    rw [hstep, run_append]
    cases pieces with
    | nil =>
      refine ⟨r', rfl, ?_⟩
      simpa [history, run] using hr'
    | cons next pieces =>
      exact ih (List.cons_ne_nil _ _) hr'.lossless hslot' htimely hreports hhits'

/-- Where a recorder drains in a run: after each of its pieces, and so after the last move. -/
structure Drains (moves : List Move) where
  pieces : List (List Move)
  pieces_ne_nil : pieces ≠ []
  flatten_eq : pieces.flatten = moves

namespace Drains

/-- One drain at the end. -/
def once (moves : List Move) : Drains moves := ⟨[moves], by simp, by simp⟩

/-- A drain after every move. -/
def always (moves : List Move) : Drains moves where
  pieces := moves.map ([·]) ++ [[]]
  pieces_ne_nil := by simp
  flatten_eq := by
    rw [List.flatten_append, ← List.flatMap_def, List.flatMap_singleton']
    exact List.append_nil moves

end Drains

/-- Two recorders drain wherever they like in a run of any number of reporters, both after the last
move, and neither lets a log go round its ring in between. They finish with the same schedule. It
misses nothing, has all reported events as they are read from the logs, in the order of their
stamps, of their slots and of their reports, and the coverage that the run leaves. If the stamps of
a slot do not decrease, its events stand in the order of their reports. Assumes a run whose reports
the 63 bits of a cursor can number and whose hits a count of 64 bits can tell. -/
theorem finish_eq_of_drains {moves : List Move} (drains drains' : Drains moves)
    (htimely : fresh.Timely drains.pieces) (htimely' : fresh.Timely drains'.pieces)
    (hreports : ∀ i, (fresh.history i moves).length < 2 ^ 63)
    (hhits : moves.countP Move.isHit < 2 ^ 64) :
    ∃ r r', fresh.recorded .start drains.pieces = some r ∧
      fresh.recorded .start drains'.pieces = some r' ∧
      r.finish = r'.finish ∧
      r.finish.lost = 0 ∧
      Recorder.Chronological (fun i ↦ (fresh.history i moves).map Event.readBack)
        r.finish.events ∧
      (∃ coverage, (after moves).region.slots.toList.mapM Slot.coverage? = some coverage ∧
        r.finish.coverage = if coverage.all Coverage.isEmpty then [] else coverage) ∧
      ∀ i : SlotIndex, (fresh.history i moves).Pairwise (·.stamp ≤ ·.stamp) →
        r.finish.forSlot (UInt64.ofNat i) = (fresh.history i moves).map Event.readBack := by
  have hlogs (i : SlotIndex) : (fresh.region.slot i).log.cursor = 0 := by
    show ((Region.fresh).slot i).log.cursor = 0
    rw [Region.slot_fresh]
    rfl
  have hcurrent (d : Drains moves) (hd : fresh.Timely d.pieces) :
      ∃ r, fresh.recorded .start d.pieces = some r ∧
        r.Current (after moves).region fun i ↦ fresh.history i moves := by
    obtain ⟨pieces, hpieces, rfl⟩ := d
    have hnohits (i : SlotIndex) : (fresh.region.slot i).hitSum = 0 := by
      show ((Region.fresh).slot i).hitSum = 0
      rw [Region.slot_fresh, Slot.hitSum_fresh]
    exact current_recorded hpieces (Recorder.lossless_start hlogs) (by simp) hd hreports
      fun i ↦ by rw [hnohits i, Nat.zero_add]; exact hhits
  obtain ⟨r, hr, hrcurrent⟩ := hcurrent drains htimely
  obtain ⟨r', hr', hrcurrent'⟩ := hcurrent drains' htimely'
  refine ⟨r, r', hr, hr', hrcurrent.finish_eq hrcurrent', hrcurrent.lossless.lost,
    hrcurrent.chronological, ⟨r.coverage, hrcurrent.coverage, rfl⟩, ?_⟩
  intro i hstamps
  have horder : Recorder.InOrder i (fresh.history i moves) :=
    ⟨fun e he ↦ fresh.slot_of_mem_history i he, hstamps⟩
  have hpairwise := horder.pairwise (fresh.history i moves).length
  rw [List.take_length] at hpairwise
  refine hrcurrent.chronological.filter_slot (fun e he ↦ ?_) hpairwise
  obtain ⟨a, ha, rfl⟩ := List.mem_map.1 he
  rw [Event.slot_readBack]
  exact fresh.slot_of_mem_history i ha

/-- Reports with one stamp at two slots, first at slot `j`, and a hit. -/
def tied (i j : SlotIndex) : List Move :=
  [.attach 0 i false 16, .attach 1 j false 16, .act 0 (.spawn 1 0x100 "main.main"),
    .act 1 (.spawn 1 0x200 "main.work"), .act 1 (.report 1 .schedule 7),
    .act 0 (.report 1 .schedule 7), .act 1 (.hit "loop"), .act 0 (.report 1 .schedule 7)]

theorem finish_eq_of_drains_tied :
    let moves := tied 0 1
    fresh.Timely (Drains.once moves).pieces ∧ fresh.Timely (Drains.always moves).pieces ∧
      (∀ i, (fresh.history i moves).length < 2 ^ 63) ∧ moves.countP Move.isHit < 2 ^ 64 ∧
      ∃ r r', fresh.recorded .start (Drains.once moves).pieces = some r ∧
        fresh.recorded .start (Drains.always moves).pieces = some r' ∧ r.finish = r'.finish ∧
        (r.finish.forSlot 0).map (·.stamp) = [7, 7] := by
  intro moves
  have honce : fresh.Timely (Drains.once moves).pieces := by decide +kernel
  have halways : fresh.Timely (Drains.always moves).pieces := by decide +kernel
  have hreports : ∀ i, (fresh.history i moves).length < 2 ^ 63 := by decide +kernel
  have hhits : moves.countP Move.isHit < 2 ^ 64 := by decide +kernel
  have hstamps : (fresh.history 0 moves).map (·.stamp) = [7, 7] := by decide +kernel
  obtain ⟨r, r', hr, hr', hsame, -, -, -, hslots⟩ :=
    finish_eq_of_drains (.once moves) (.always moves) honce halways hreports hhits
  refine ⟨honce, halways, hreports, hhits, r, r', hr, hr', hsame, ?_⟩
  have hordered : (fresh.history 0 moves).Pairwise (·.stamp ≤ ·.stamp) := by
    rw [← List.pairwise_map, hstamps]
    decide
  have hslot : r.finish.forSlot 0 = (fresh.history 0 moves).map Event.readBack := hslots 0 hordered
  rw [hslot, List.map_map, ← hstamps]
  exact List.map_congr_left fun e _ ↦ e.stamp_readBack

end Arena

end Turnstile
