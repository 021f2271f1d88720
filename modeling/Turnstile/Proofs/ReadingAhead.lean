import Mathlib.Data.List.Induction
import Mathlib.Data.List.InsertIdx
import Mathlib.Data.List.Nodup
import Turnstile.Replay.Cursor

/-!
# The account of a queue that is read ahead

An item may be taken from the middle of a queue, and the places of those behind it shift with every
such step. What is left is therefore told in the places that the items had in the list at the start.
`ReplayCursor.left` lists those that are not gone, in their order, and a query removes some of them:
those it skips and, last, the one whose item it hands out (`Query.removes`).

`ReplayCursor.Accounts` says that a queue holds the items of the places left and has counted those
that are gone. Taking one item keeps the account (`Accounts.takeNth`), skipping is taking
(`Accounts.nth`), and so does every query (`Accounts.ask`), which moreover replies what the items in
the places left say (`Query.reply`). `ReplayCursor.account_exact` collects what follows for any
sequence of queries.
-/

set_option autoImplicit false
set_option relaxedAutoImplicit false

namespace Turnstile

namespace ReplayCursor

variable {α : Type}

/-- Something that is asked of a queue. -/
inductive Query (α : Type)
  | peek
  | peekNth (index : Nat)
  | position (p : α → Bool)
  | takeNth (index : Nat)
  | next
  | nth (skipped : Nat)

/-- What a queue replies. -/
inductive Reply (α : Type)
  | item (a : Option α)
  | place (index : Option Nat)

/-- The queue after a query, and its reply. -/
def ask (c : ReplayCursor α) : Query α → ReplayCursor α × Reply α
  | .peek => (c, .item c.peek?)
  | .peekNth index => (c, .item (c.peekNth? index))
  | .position p => (c, .place (c.position? p))
  | .takeNth index => ((c.takeNth index).1, .item (c.takeNth index).2)
  | .next => (c.next.1, .item c.next.2)
  | .nth skipped => ((c.nth skipped).1, .item (c.nth skipped).2)

/-- The queue after some queries. -/
def after (c : ReplayCursor α) (queries : List (Query α)) : ReplayCursor α :=
  queries.foldl (fun c q ↦ (c.ask q).1) c

/-! ### Places in the list at the start -/

/-- The places, of `count`, that are not gone. -/
def left (count : Nat) (gone : List Nat) : List Nat := (List.range count).filter (· ∉ gone)

/-- The places that a query removes, of those that are left. The last of them is the one whose item
is handed out, unless the query skips more than there is. -/
def Query.removes (left : List Nat) : Query α → List Nat
  | .takeNth index => left[index]?.toList
  | .next => left.take 1
  | .nth skipped => left.take (skipped + 1)
  | .peek | .peekNth _ | .position _ => []

/-- The places that queries remove, one query after another. -/
def removed (count : Nat) (queries : List (Query α)) : List Nat :=
  queries.foldl (fun gone q ↦ gone ++ q.removes (left count gone)) []

/-- The item in a place of the list at the start, the place being told among those left. -/
def itemAt (items : List α) (left : List Nat) (index : Nat) : Option α :=
  left[index]?.bind (items[·]?)

/-- What the items in the places left say about a query. -/
def Query.reply (items : List α) (left : List Nat) : Query α → Reply α
  | .peek | .next => .item (itemAt items left 0)
  | .peekNth index | .takeNth index | .nth index => .item (itemAt items left index)
  | .position p => .place (left.findIdx? fun n ↦ (items[n]?).any p)

theorem left_nil (count : Nat) : left count [] = List.range count := by simp [left]

theorem nodup_left (count : Nat) (gone : List Nat) : (left count gone).Nodup :=
  List.nodup_range.filter _

theorem mem_left {count n : Nat} {gone : List Nat} :
    n ∈ left count gone ↔ n < count ∧ n ∉ gone := by
  simp [left]

/-- One more place gone is one less left. -/
theorem left_concat {count index n : Nat} {gone : List Nat}
    (hn : (left count gone)[index]? = some n) :
    left count (gone ++ [n]) = (left count gone).eraseIdx index := by
  obtain ⟨hlt, rfl⟩ := List.getElem?_eq_some_iff.1 hn
  have hnodup := nodup_left count gone
  rw [← hnodup.erase_getElem index hlt, hnodup.erase_eq_filter]
  generalize (left count gone)[index] = n
  rw [left, left, List.filter_filter]
  refine List.filter_congr fun m _ ↦ ?_
  by_cases hm : m = n <;> simp [hm]

/-! ### The account -/

/-- A queue holds the items of the places left and has counted those that are gone. -/
structure Accounts (items : List α) (gone : List Nat) (c : ReplayCursor α) : Prop where
  items_eq : c.items.map some = (left items.length gone).map (items[·]?)
  consumed_eq : c.consumed = gone.length
  nodup : gone.Nodup
  lt : ∀ n ∈ gone, n < items.length

namespace Accounts

variable {items : List α} {gone : List Nat} {c : ReplayCursor α}

theorem start (items : List α) : Accounts items [] (ofList items) where
  items_eq := by
    rw [left_nil]
    exact List.ext_getElem (by simp [ofList]) fun n hn hn' ↦ by
      rw [List.length_map] at hn
      simp [ofList]
  consumed_eq := rfl
  nodup := List.nodup_nil
  lt := by simp

theorem length_items (h : Accounts items gone c) :
    c.items.length = (left items.length gone).length := by
  have hlength := congrArg List.length h.items_eq
  rwa [List.length_map, List.length_map] at hlength

theorem getElem?_items (h : Accounts items gone c) (index : Nat) :
    c.items[index]? = itemAt items (left items.length gone) index := by
  have hindex := congrArg (·[index]?) h.items_eq
  simp only [List.getElem?_map] at hindex
  unfold itemAt
  cases hleft : (left items.length gone)[index]? with
  | none => simpa [hleft] using hindex
  | some n =>
    rw [hleft] at hindex
    cases hitem : c.items[index]? with
    | none => simp [hitem] at hindex
    | some a => simpa [hitem] using hindex

/-- Every place is left or gone. -/
theorem consumed_add_remaining (h : Accounts items gone c) :
    c.consumed + c.remaining = items.length := by
  have hsplit : (gone ++ left items.length gone).Perm (List.range items.length) := by
    rw [List.perm_ext_iff_of_nodup _ List.nodup_range]
    · intro n
      rw [List.mem_append, mem_left, List.mem_range]
      have hlt := h.lt n
      tauto
    · rw [List.nodup_append']
      refine ⟨h.nodup, nodup_left _ _, fun n hgone hleft ↦ ?_⟩
      exact (mem_left.1 hleft).2 hgone
  have hlength := hsplit.length_eq
  rw [List.length_append, List.length_range] at hlength
  rw [h.consumed_eq, remaining, h.length_items, hlength]

/-- The items that remain are in the order that they had. -/
theorem sublist (h : Accounts items gone c) : c.items.Sublist items := by
  have hplaces : (left items.length gone).Sublist (left items.length []) := by
    rw [left_nil]
    exact List.filter_sublist
  have hitems := (hplaces.map (items[·]?)).filterMap id
  rw [← h.items_eq, ← (start items).items_eq] at hitems
  simpa [ofList] using hitems

theorem takeNth (h : Accounts items gone c) (index : Nat) :
    Accounts items (gone ++ (left items.length gone)[index]?.toList) (c.takeNth index).1 ∧
      (c.takeNth index).2 = itemAt items (left items.length gone) index := by
  have hitem := h.getElem?_items index
  unfold ReplayCursor.takeNth
  rw [← hitem]
  cases hn : (left items.length gone)[index]? with
  | none =>
    have hnone : c.items[index]? = none := by rw [hitem, itemAt, hn, Option.bind_none]
    rw [hnone, Option.toList_none, List.append_nil]
    exact ⟨h, rfl⟩
  | some n =>
    obtain ⟨hlt, hfresh⟩ := mem_left.1 (List.mem_of_getElem? hn)
    have hsome : c.items[index]? = some items[n] := by
      rw [hitem, itemAt, hn, Option.bind_some, List.getElem?_eq_getElem hlt]
    rw [hsome]
    refine ⟨⟨?_, ?_, ?_, ?_⟩, rfl⟩
    · rw [Option.toList_some, left_concat hn, ← List.eraseIdx_map, ← List.eraseIdx_map, h.items_eq]
    · rw [Option.toList_some, List.length_append, List.length_singleton, h.consumed_eq]
    · rw [Option.toList_some, List.nodup_append']
      exact ⟨h.nodup, List.nodup_singleton n, by simpa using hfresh⟩
    · intro m hm
      obtain hm | hm := List.mem_append.1 hm
      · exact h.lt m hm
      · obtain rfl := Option.mem_toList.1 hm |> Option.some.inj
        exact hlt

/-- Skipping items is taking them, one after another. -/
theorem nth (h : Accounts items gone c) (skipped : Nat) :
    Accounts items (gone ++ (left items.length gone).take (skipped + 1)) (c.nth skipped).1 ∧
      (c.nth skipped).2 = itemAt items (left items.length gone) skipped := by
  induction skipped generalizing c gone with
  | zero =>
    have hfirst := h.takeNth 0
    rwa [← List.head?_eq_getElem?, ← List.take_one] at hfirst
  | succ skipped ih =>
    obtain ⟨hkept, hreply⟩ := h.takeNth 0
    unfold ReplayCursor.nth next
    cases hleft : left items.length gone with
    | nil =>
      have hnone : itemAt items [] 0 = none := rfl
      rw [hleft, hnone] at hreply
      rw [hleft, List.getElem?_nil, Option.toList_none] at hkept
      obtain ⟨c', hc'⟩ : ∃ c', c.takeNth 0 = (c', none) := ⟨_, Prod.ext rfl hreply⟩
      rw [hc'] at hkept ⊢
      exact ⟨by simpa using hkept, rfl⟩
    | cons n rest =>
      have hn : (left items.length gone)[0]? = some n := by rw [hleft]; rfl
      have hrest : left items.length (gone ++ [n]) = rest := by
        rw [left_concat hn, hleft]
        rfl
      have hlt : n < items.length := (mem_left.1 (List.mem_of_getElem? hn)).1
      have hitem : itemAt items (left items.length gone) 0 = some items[n] := by
        rw [itemAt, hn, Option.bind_some, List.getElem?_eq_getElem hlt]
      rw [hitem] at hreply
      rw [hn, Option.toList_some] at hkept
      obtain ⟨c', hc'⟩ : ∃ c', c.takeNth 0 = (c', some items[n]) := ⟨_, Prod.ext rfl hreply⟩
      rw [hc'] at hkept ⊢
      have hlater := ih hkept
      rwa [hrest, List.append_assoc, List.singleton_append, ← List.take_succ_cons] at hlater

/-- A query keeps the account, and its reply is told by the places that were left. -/
theorem ask (h : Accounts items gone c) (q : Query α) :
    Accounts items (gone ++ q.removes (left items.length gone)) (c.ask q).1 ∧
      (c.ask q).2 = q.reply items (left items.length gone) := by
  cases q with
  | peek | peekNth index =>
    rw [Query.removes, List.append_nil]
    exact ⟨h, congrArg Reply.item (h.getElem?_items _)⟩
  | position p =>
    rw [Query.removes, List.append_nil]
    refine ⟨h, congrArg Reply.place ?_⟩
    have hany : (c.items.map some).findIdx? (·.any p) =
        ((left items.length gone).map (items[·]?)).findIdx? (·.any p) := by rw [h.items_eq]
    rw [List.findIdx?_map, List.findIdx?_map] at hany
    exact hany
  | takeNth index =>
    obtain ⟨hkept, hreply⟩ := h.takeNth index
    exact ⟨hkept, congrArg Reply.item hreply⟩
  | next =>
    obtain ⟨hkept, hreply⟩ := h.nth 0
    exact ⟨hkept, congrArg Reply.item hreply⟩
  | nth skipped =>
    obtain ⟨hkept, hreply⟩ := h.nth skipped
    exact ⟨hkept, congrArg Reply.item hreply⟩

end Accounts

theorem accounts_after (items : List α) (queries : List (Query α)) :
    Accounts items (removed items.length queries) ((ofList items).after queries) := by
  induction queries using List.reverseRecOn with
  | nil => exact Accounts.start items
  | append_singleton queries q ih =>
    rw [removed, after, List.foldl_concat, List.foldl_concat]
    exact (ih.ask q).1

/-! ### Looking for an item -/

/-- The place that is found is that of the first item with the property. -/
theorem position?_eq_some_iff {c : ReplayCursor α} {p : α → Bool} {index : Nat} :
    c.position? p = some index ↔
      (∃ a, c.peekNth? index = some a ∧ p a) ∧ ∀ m < index, ∀ a, c.peekNth? m = some a → ¬ p a := by
  rw [position?, List.findIdx?_eq_some_iff_getElem]
  constructor
  · rintro ⟨hlt, hp, hfirst⟩
    refine ⟨⟨_, List.getElem?_eq_getElem hlt, hp⟩, fun m hm a ha ↦ ?_⟩
    obtain ⟨hlt', rfl⟩ := List.getElem?_eq_some_iff.1 ha
    exact hfirst m hm
  · rintro ⟨⟨a, ha, hp⟩, hfirst⟩
    obtain ⟨hlt, rfl⟩ := List.getElem?_eq_some_iff.1 ha
    exact ⟨hlt, hp, fun m hm ↦ hfirst m hm _ (List.getElem?_eq_getElem (Nat.lt_trans hm hlt))⟩

theorem takeNth_of_le {c : ReplayCursor α} {index : Nat} (h : c.remaining ≤ index) :
    c.takeNth index = (c, none) := by
  rw [takeNth, List.getElem?_eq_none h]

theorem takeNth_of_peekNth? {c : ReplayCursor α} {index : Nat} {a : α}
    (h : c.peekNth? index = some a) : (c.takeNth index).2 = some a := by
  rw [peekNth?] at h
  rw [takeNth, h]

/-- A query that skips more than is left takes all of it. -/
theorem Accounts.nth_of_le {items : List α} {gone : List Nat} {c : ReplayCursor α}
    (h : Accounts items gone c) {skipped : Nat} (hpast : c.remaining ≤ skipped) :
    c.nth skipped = (⟨[], items.length⟩, none) := by
  obtain ⟨hkept, hreply⟩ := h.nth skipped
  have hlength : (left items.length gone).length ≤ skipped := h.length_items ▸ hpast
  have hnone : (left items.length gone)[skipped]? = none := List.getElem?_eq_none hlength
  rw [List.take_of_length_le (Nat.le_succ_of_le hlength)] at hkept
  have hempty : left items.length (gone ++ left items.length gone) = [] := by
    rw [List.eq_nil_iff_forall_not_mem]
    intro n hn
    rw [mem_left, List.mem_append, mem_left] at hn
    tauto
  have hitems : (c.nth skipped).1.items = [] := by
    have heq := hkept.items_eq
    rw [hempty] at heq
    exact List.map_eq_nil_iff.1 heq
  have hconsumed := hkept.consumed_add_remaining
  rw [remaining, hitems, List.length_nil, Nat.add_zero] at hconsumed
  rw [itemAt, hnone, Option.bind_none] at hreply
  generalize c.nth skipped = outcome at hitems hconsumed hreply ⊢
  obtain ⟨⟨rest, consumed⟩, reply⟩ := outcome
  obtain rfl := hitems
  obtain rfl := hconsumed
  obtain rfl := hreply
  rfl

/-- A queue never loses an item and hands out none twice. After any queries its items are those of
the list at the start without the places that were removed, in their order. Each place is removed
once and counted, and every reply is what the items in the places left say. The place that is found
is the first with the property, and its item is the one that is taken there. To look at an item, to
look for one and to take one past the end changes nothing; to skip past the end removes all that is
left. -/
theorem account_exact (items : List α) (queries : List (Query α)) :
    let c := (ofList items).after queries
    let gone := removed items.length queries
    let kept := left items.length gone
    (c.items.map some = kept.map (items[·]?) ∧ c.items.Sublist items ∧ gone.Nodup ∧
        (∀ n ∈ gone, n < items.length) ∧ c.consumed = gone.length ∧
        c.consumed + c.remaining = items.length) ∧
      (∀ q, (c.ask q).2 = q.reply items kept) ∧
      (∀ p index, c.position? p = some index ↔ (∃ a, c.peekNth? index = some a ∧ p a) ∧
        ∀ m < index, ∀ a, c.peekNth? m = some a → ¬ p a) ∧
      (∀ p, c.position? p = none ↔ ∀ a ∈ c.items, ¬ p a) ∧
      (∀ p index, c.position? p = some index →
        ∃ a, c.peekNth? index = some a ∧ p a ∧ (c.takeNth index).2 = some a) ∧
      (∀ p index, (c.ask .peek).1 = c ∧ (c.ask (.peekNth index)).1 = c ∧
        (c.ask (.position p)).1 = c) ∧
      (∀ index, c.remaining ≤ index → c.takeNth index = (c, none)) ∧
      ∀ skipped, c.remaining ≤ skipped → c.nth skipped = (⟨[], items.length⟩, none) := by
  intro c gone kept
  have h : Accounts items gone c := accounts_after items queries
  refine ⟨⟨h.items_eq, h.sublist, h.nodup, h.lt, h.consumed_eq, h.consumed_add_remaining⟩,
    fun q ↦ (h.ask q).2, fun p index ↦ position?_eq_some_iff, fun p ↦ ?_, fun p index hfound ↦ ?_,
    fun _ _ ↦ ⟨rfl, rfl, rfl⟩, fun index ↦ takeNth_of_le, fun skipped ↦ h.nth_of_le⟩
  · simp [position?, List.findIdx?_eq_none_iff]
  · obtain ⟨⟨a, ha, hp⟩, -⟩ := position?_eq_some_iff.1 hfound
    exact ⟨a, ha, hp, takeNth_of_peekNth? ha⟩

/-- The places of four items shift as some of them are taken. -/
example : removed 4 ([.takeNth 1, .peek, .takeNth 9, .takeNth 1, .nth 5] : List (Query Char)) =
    [1, 2, 0, 3] := by decide

end ReplayCursor

end Turnstile
