import Mathlib.Data.List.Basic
import Turnstile.Proofs.Scene
import Turnstile.Replay.Replayer

/-!
# What a replayer chooses

A replayer that is asked about a slot takes an event for it or leaves it waiting. Which event that
is depends on the order that the replayer keeps (`Replayer.next?`): a strict one only looks at the
next event of the recording, the other one takes the first event of the slot, wherever that stands.
What the slot gets for the event does not depend on the order any more (`Replayer.choose_of_some`):
the task that the event tells, or the reporter if the event tells another one, which is a desync.

A replayer that lets slots overtake one another keeps the events of all slots in one queue and takes
them from its middle. Still the slots do not see one another: the answers to the calls for one slot
are those of a strict replayer that has the events of this slot only and is asked about no other
(`Replayer.atSlot_answers_perSlot`). The invariant is that the events left to the lonely replayer
are those of its slot among the events left to the shared one. What the lonely one says is plain: it
gives its events to the calls one after another (`Replayer.atSlot_answers_strict`).
-/

set_option autoImplicit false
set_option relaxedAutoImplicit false

namespace Turnstile

/-! ### Queues by owner -/

section Queues

variable {α : Type} {p q : α → Bool}

/-- Taking the first item with a property from a queue takes the first of those that have it. -/
theorem filter_eraseP_self (p : α → Bool) (l : List α) :
    (l.eraseP p).filter p = (l.filter p).tail := by
  induction l with
  | nil => rfl
  | cons a l ih =>
    by_cases hp : p a
    · simp [hp]
    · simp [hp, ih]

/-- Taking an item from a queue leaves the items of others where they are. -/
theorem filter_eraseP_of_disjoint (h : ∀ a, p a → q a = false) (l : List α) :
    (l.eraseP p).filter q = l.filter q := by
  induction l with
  | nil => rfl
  | cons a l ih =>
    by_cases hp : p a
    · simp [hp, h a hp]
    · simp [hp, List.filter_cons, ih]

end Queues

namespace Event

/-- Whether a slot reported an event. -/
def isOf (i : SlotIndex) (e : Event) : Bool := e.slot.toNat = i

/-- Whether an event tells another task than the one that a slot shows. -/
def isDesync (e : Event) (s : Slot) : Bool := s.runningTask.identity ≠ e.task.identity

/-- What a slot resumes for an event: the task that the event tells, as the table has it, unless
another one reported. -/
def answer (e : Event) (s : Slot) : Task :=
  if e.isDesync s then s.runningTask
  else (s.findTask? e.task.site e.task.ordinal).getD s.runningTask

/-- An event belongs to one slot only. -/
theorem isOf_of_isOf {i j : SlotIndex} (h : j ≠ i) (e : Event) (he : e.isOf j) :
    e.isOf i = false := by
  have hj : e.slot.toNat = j := by simpa [isOf] using he
  have hval : (j : Nat) ≠ i := fun hval ↦ h (Fin.ext hval)
  simpa [isOf, hj] using hval

theorem isOf_iff_slot_eq (i : SlotIndex) (e : Event) :
    e.isOf i = decide (e.slot = UInt64.ofNat i) := by
  rw [isOf, decide_eq_decide, ← UInt64.toNat_inj, toNat_slotWord]

end Event

namespace Replayer

variable {r : Replayer} {i : SlotIndex} {e : Event}

/-- The event that a slot replays next: the next one of all, if the slot owns it, or else the first
one of the slot. -/
def next? (r : Replayer) (i : SlotIndex) : Option Event :=
  if r.strict then r.cursor.items.head?.filter (Event.isOf i)
  else r.cursor.items.find? (Event.isOf i)

/-- The events that are left when a slot has taken one. -/
def rest (r : Replayer) (i : SlotIndex) : List Event :=
  if r.strict then r.cursor.items.tail else r.cursor.items.eraseP (Event.isOf i)

/-- The replayer after a slot has taken an event. -/
def served (r : Replayer) (i : SlotIndex) (e : Event) (s : Slot) : Replayer where
  cursor := ⟨r.rest i, r.cursor.consumed + 1⟩
  strict := r.strict
  desyncs := r.desyncs + if e.isDesync s then 1 else 0

theorem placeFor?_eq_none (h : r.next? i = none) : r.placeFor? i = none := by
  unfold next? at h
  unfold placeFor?
  by_cases hstrict : r.strict
  · simp only [hstrict, if_true, ReplayCursor.peek?, ReplayCursor.peekNth?] at h ⊢
    cases hitems : r.cursor.items with
    | nil => rfl
    | cons e rest =>
      have hother : e.isOf i = false := by simpa [hitems] using h
      exact if_neg (by simpa [Event.isOf] using hother)
  · simp only [hstrict] at h ⊢
    exact List.findIdx?_eq_none_iff.2 (by simpa [Event.isOf] using h)

theorem takeNth_placeFor? (h : r.next? i = some e) :
    ∃ place, r.placeFor? i = some place ∧
      r.cursor.takeNth place = (⟨r.rest i, r.cursor.consumed + 1⟩, some e) := by
  unfold next? at h
  unfold placeFor? rest
  by_cases hstrict : r.strict
  · simp only [hstrict, if_true, ReplayCursor.peek?, ReplayCursor.peekNth?] at h ⊢
    obtain ⟨hhead, howned⟩ := Option.filter_eq_some_iff.1 h
    obtain ⟨rest, hitems⟩ := List.head?_eq_some_iff.1 hhead
    refine ⟨0, ?_, by simp [ReplayCursor.takeNth, hitems]⟩
    rw [hitems]
    exact if_pos (by simpa [Event.isOf] using howned)
  · simp only [hstrict] at h ⊢
    obtain ⟨howned, n, hlt, hn, hfirst⟩ := List.find?_eq_some_iff_getElem.1 h
    have hplace : r.cursor.items.findIdx? (Event.isOf i) = some n :=
      List.findIdx?_eq_some_iff_getElem.2 ⟨hlt, hn ▸ howned, fun j hj ↦ by simpa using hfirst j hj⟩
    refine ⟨n, hplace, ?_⟩
    have herase : r.cursor.items.eraseP (Event.isOf i) = r.cursor.items.eraseIdx n := by
      rw [List.eraseP_eq_eraseIdx, hplace]
    simp [herase, ReplayCursor.takeNth, List.getElem?_eq_getElem hlt, hn]

/-- A slot without an event to be replayed waits, and takes nothing. -/
theorem choose_of_none (h : r.next? i = none) (s : Slot) : (r.choose i s).value = (r, .wait) := by
  have htake : r.takeFor i = (r, none) := by
    rw [takeFor, placeFor?_eq_none h]
  rw [choose, htake]
  rfl

/-- Another slot takes its event, and gets the answer that the event gives. -/
theorem choose_of_some (h : r.next? i = some e) (s : Slot) :
    (r.choose i s).value = (r.served i e s, .grant (e.answer s)) := by
  obtain ⟨place, hplace, hnth⟩ := takeNth_placeFor? h
  have htake : r.takeFor i =
      ({ r with cursor := ⟨r.rest i, r.cursor.consumed + 1⟩ }, some e) := by
    rw [takeFor, hplace]
    simp only [hnth]
  rw [choose, htake]
  by_cases hsame : s.runningTask.identity = e.task.identity
  · simp [hsame, served, Event.answer, Event.isDesync]
  · simp [hsame, served, Event.answer, Event.isDesync]

/-! ### Answers to calls -/

/-- What a replayer says to a call. -/
structure Answer where
  choice : Choice
  /-- Whether it counts as a desync. -/
  isDesync : Bool
deriving DecidableEq

/-- What is said to a call for a slot that has an event to be replayed, or none. -/
def Answer.ofNext (s : Slot) : Option Event → Answer
  | some e => ⟨.grant (e.answer s), e.isDesync s⟩
  | none => ⟨.wait, false⟩

/-- Call a replayer for a slot. -/
def call (r : Replayer) (i : SlotIndex) (s : Slot) : Replayer × Answer :=
  let (next, choice) := (r.choose i s).value
  (next, ⟨choice, r.desyncs < next.desyncs⟩)

/-- What a replayer says to some calls, one after another. -/
def answers (r : Replayer) : List (SlotIndex × Slot) → List (SlotIndex × Answer)
  | [] => []
  | (i, s) :: calls => (i, (r.call i s).2) :: (r.call i s).1.answers calls

theorem call_of_none (h : r.next? i = none) (s : Slot) : r.call i s = (r, ⟨.wait, false⟩) := by
  simp [call, choose_of_none h]

theorem call_of_some (h : r.next? i = some e) (s : Slot) :
    r.call i s = (r.served i e s, ⟨.grant (e.answer s), e.isDesync s⟩) := by
  by_cases hdesync : e.isDesync s <;> simp [call, choose_of_some h, served, hdesync]

/-- A strict replayer with the events of one slot gives them to the calls for it, one after
another. -/
theorem atSlot_answers_strict (hstrict : r.strict = true) (howned : ∀ e ∈ r.cursor.items, e.isOf i)
    (slots : List Slot) : atSlot i (r.answers (slots.map (i, ·))) =
      slots.mapIdx fun k s ↦ .ofNext s r.cursor.items[k]? := by
  induction slots generalizing r with
  | nil => rfl
  | cons s slots ih =>
    rw [List.map_cons, answers, List.mapIdx_cons]
    cases hitems : r.cursor.items with
    | nil =>
      have hnext : r.next? i = none := by simp [next?, hstrict, hitems]
      have hrest := ih hstrict howned
      simp only [atSlot, hitems, List.filterMap_cons, if_true, call_of_none hnext] at hrest ⊢
      rw [hrest]
      rfl
    | cons e rest =>
      have hnext : r.next? i = some e := by
        simp [next?, hstrict, hitems, howned e (hitems ▸ List.mem_cons_self)]
      have hleft : (r.served i e s).cursor.items = rest := by
        simp [served, Replayer.rest, hstrict, hitems]
      have hrest := ih (r := r.served i e s) hstrict fun d hd ↦
        howned d (hitems ▸ List.mem_cons_of_mem e (hleft ▸ hd))
      simp only [atSlot, hleft, List.filterMap_cons, if_true, call_of_some hnext] at hrest ⊢
      rw [hrest]
      rfl

/-! ### Slots that overtake one another -/

/-- A strict replayer with the events of one slot beside a replayer with the events of all. -/
structure Lonely (i : SlotIndex) (alone shared : Replayer) : Prop where
  strict : alone.strict = true
  perSlot : shared.strict = false
  items : alone.cursor.items = shared.cursor.items.filter (Event.isOf i)

variable {alone shared : Replayer}

/-- Both have the same event for the slot. -/
theorem Lonely.next?_eq (h : Lonely i alone shared) : alone.next? i = shared.next? i := by
  have hhead : (shared.cursor.items.filter (Event.isOf i)).head? =
      shared.cursor.items.find? (Event.isOf i) := List.head?_filter
  simp only [next?, h.strict, h.perSlot, h.items, hhead, if_true]
  cases hfind : shared.cursor.items.find? (Event.isOf i) with
  | none => simp
  | some e => simp [List.find?_some hfind]

/-- A call for the slot. -/
theorem Lonely.call_self (h : Lonely i alone shared) (s : Slot) :
    (alone.call i s).2 = (shared.call i s).2 ∧
      Lonely i (alone.call i s).1 (shared.call i s).1 := by
  cases hnext : shared.next? i with
  | none =>
    rw [call_of_none hnext, call_of_none (h.next?_eq.trans hnext)]
    exact ⟨rfl, h⟩
  | some e =>
    rw [call_of_some hnext, call_of_some (h.next?_eq.trans hnext)]
    refine ⟨rfl, h.strict, h.perSlot, ?_⟩
    simp only [served, rest, h.strict, h.perSlot, h.items, if_true]
    exact (filter_eraseP_self _ _).symm

/-- A call for another slot. -/
theorem Lonely.call_of_ne (h : Lonely i alone shared) {j : SlotIndex} (hne : j ≠ i) (s : Slot) :
    Lonely i alone (shared.call j s).1 := by
  cases hnext : shared.next? j with
  | none =>
    rw [call_of_none hnext]
    exact h
  | some e =>
    rw [call_of_some hnext]
    refine ⟨h.strict, h.perSlot, ?_⟩
    simp only [served, rest, h.perSlot, h.items]
    exact (filter_eraseP_of_disjoint (fun e he ↦ Event.isOf_of_isOf hne e he) _).symm

theorem Lonely.answers (h : Lonely i alone shared) (calls : List (SlotIndex × Slot)) :
    atSlot i (shared.answers calls) =
      atSlot i (alone.answers ((atSlot i calls).map (i, ·))) := by
  induction calls generalizing alone shared with
  | nil => rfl
  | cons c calls ih =>
    obtain ⟨j, s⟩ := c
    by_cases hslot : j = i
    · subst hslot
      obtain ⟨hanswer, hcalled⟩ := h.call_self s
      have hrest := ih hcalled
      simp only [atSlot, Replayer.answers, List.filterMap_cons, if_true, List.map_cons] at hrest ⊢
      rw [hanswer, hrest]
    · have hrest := ih (h.call_of_ne hslot s)
      simp only [atSlot, Replayer.answers, List.filterMap_cons, hslot, if_false] at hrest ⊢
      exact hrest

/-- The answers to the calls for one slot are those of a strict replayer that has the events of this
slot only, to these calls alone. So they are the same under any calls for the other slots: each call
for the slot gets its next event, until there is none. -/
theorem atSlot_answers_perSlot (schedule : Schedule) (i : SlotIndex)
    (calls : List (SlotIndex × Slot)) :
    let shared := (ofSchedule schedule).value.perSlot
    let alone := (ofSchedule (.ofEvents (schedule.forSlot (UInt64.ofNat i)))).value
    atSlot i (shared.answers calls) = atSlot i (alone.answers ((atSlot i calls).map (i, ·))) ∧
      (∀ others, atSlot i others = atSlot i calls →
        atSlot i (shared.answers others) = atSlot i (shared.answers calls)) ∧
      atSlot i (shared.answers calls) = (atSlot i calls).mapIdx fun k s ↦
        .ofNext s (schedule.forSlot (UInt64.ofNat i))[k]? := by
  intro shared alone
  have hlonely : Lonely i alone shared := by
    refine ⟨rfl, rfl, ?_⟩
    exact List.filter_congr fun e _ ↦ (Event.isOf_iff_slot_eq i e).symm
  have howned : ∀ e ∈ alone.cursor.items, e.isOf i := by
    intro e he
    rw [hlonely.items] at he
    exact (List.mem_filter.1 he).2
  refine ⟨hlonely.answers calls, fun others hothers ↦ ?_, ?_⟩
  · rw [hlonely.answers others, hlonely.answers calls, hothers]
  · rw [hlonely.answers calls]
    exact atSlot_answers_strict hlonely.strict howned _

end Replayer

end Turnstile
