import Mathlib.Algebra.BigOperators.Group.Finset.Basic
import Mathlib.Algebra.Order.Ring.Nat
import Turnstile.Proofs.CoverageTable
import Turnstile.Proofs.Locks

/-!
# Every hit counts once

A reporter that starts on a fresh slot gives a row to each of the first ids that differ, as many as
there are rows (`Reporter.housed`). After any number of hits it knows the rows by whole ids, and
each row has as many hits as its id was reported (`Reporter.Tallied`); the hits on all other ids are
dropped, and counted as such. Later hits change nothing about which ids have rows
(`Reporter.mem_housed_append`), so that a hit is dropped or counted once and for all.

The rows hold cut ids, and rows with one cut id are summed when they are read
(`Coverage.hitsIn_housed`). The sum over all texts is then the number of hits that were not dropped
(`Coverage.total?_of_hits`), and the session reads the same coverage on both sides. All this is
`Reporter.hits_counted`.
-/

set_option autoImplicit false
set_option relaxedAutoImplicit false

namespace Turnstile

/-! ### Longest prefixes -/

/-- There is only one longest prefix with a property. -/
theorem LongestPrefix.unique {property : String → Prop} {s t u : String}
    (ht : LongestPrefix property s t) (hu : LongestPrefix property s u) : t = u :=
  String.toList_inj.1 ((hu.longest t ht.isPrefix ht.holds).eq_of_length_le
    (ht.longest u hu.isPrefix hu.holds).length_le)

theorem longestPrefix_iff_fitting (budget : Nat) (s t : String) :
    LongestPrefix (Fits budget) s t ↔ fitting budget s = t := by
  constructor
  · exact (longestPrefix_fitting budget s).unique
  · rintro rfl
    exact longestPrefix_fitting budget s

instance (budget : Nat) (s t : String) : Decidable (LongestPrefix (Fits budget) s t) :=
  decidable_of_iff' _ (longestPrefix_iff_fitting budget s t)

namespace Reporter

theorem slot_reportBlocks (r : Reporter) (s : Slot) (ids : List String) :
    (r.reportBlocks s ids).1.slot = r.slot := by
  induction ids generalizing r s with
  | nil => rfl
  | cons id ids ih =>
    rw [reportBlocks_cons, ih]
    exact slot_reportBlock r s id

/-! ### Ids with rows -/

/-- The ids that get rows: the first ones of those that differ. -/
def housed (ids : List String) : List String := ids.eraseDups.take Limits.blocks

theorem eraseDups_concat (ids : List String) (id : String) :
    (ids ++ [id]).eraseDups = if id ∈ ids then ids.eraseDups else ids.eraseDups ++ [id] := by
  rw [List.eraseDups_append]
  split_ifs with hmem <;> simp [List.removeAll, List.eraseDups_cons, hmem]

theorem nodup_eraseDups (ids : List String) : ids.eraseDups.Nodup := by
  induction ids using List.reverseRecOn with
  | nil => exact List.nodup_nil
  | append_singleton ids id ih =>
    rw [eraseDups_concat]
    split_ifs with hmem
    · exact ih
    · rw [← List.concat_eq_append]
      exact ih.concat fun h ↦ hmem (List.mem_eraseDups.1 h)

theorem length_housed_le (ids : List String) : (housed ids).length ≤ Limits.blocks :=
  List.length_take_le _ _

theorem nodup_housed (ids : List String) : (housed ids).Nodup :=
  (nodup_eraseDups ids).sublist (List.take_sublist _ _)

theorem mem_of_mem_housed {ids : List String} {id : String} (h : id ∈ housed ids) : id ∈ ids :=
  List.mem_eraseDups.1 (List.mem_of_mem_take h)

/-- An id with a row does not get another one. -/
theorem housed_concat_of_mem {ids : List String} {id : String} (h : id ∈ housed ids) :
    housed (ids ++ [id]) = housed ids := by
  rw [housed, eraseDups_concat, if_pos (mem_of_mem_housed h), housed]

/-- While there are rows left, every id gets one, and a new id gets the next. -/
theorem housed_concat_of_lt {ids : List String} {id : String} (h : id ∉ housed ids)
    (hroom : (housed ids).length < Limits.blocks) :
    id ∉ ids ∧ housed ids = ids.eraseDups ∧ housed (ids ++ [id]) = housed ids ++ [id] := by
  have hall : housed ids = ids.eraseDups := by
    rw [housed, List.length_take] at hroom
    exact List.take_of_length_le (by omega)
  have hnew : id ∉ ids := fun hmem ↦ h (hall ▸ List.mem_eraseDups.2 hmem)
  refine ⟨hnew, hall, ?_⟩
  rw [hall] at hroom ⊢
  rw [housed, eraseDups_concat, if_neg hnew]
  apply List.take_of_length_le
  rwa [List.length_append, List.length_singleton]

/-- Once every row is given away, no id gets one any more. -/
theorem housed_concat_of_full {ids : List String} (id : String)
    (hfull : (housed ids).length = Limits.blocks) : housed (ids ++ [id]) = housed ids := by
  rw [housed, List.length_take] at hfull
  rw [housed, eraseDups_concat, housed]
  split_ifs with hmem
  · rfl
  · exact List.take_append_of_le_length (by omega)

/-- Whether an id has a row is settled when it is first reported. -/
theorem mem_housed_append (ids more : List String) {id : String} (hmem : id ∈ ids) :
    id ∈ housed (ids ++ more) ↔ id ∈ housed ids := by
  induction more using List.reverseRecOn with
  | nil => rw [List.append_nil]
  | append_singleton more other ih =>
    rw [← List.append_assoc, ← ih]
    by_cases hother : other ∈ housed (ids ++ more)
    · rw [housed_concat_of_mem hother]
    · obtain hroom | hfull := (length_housed_le (ids ++ more)).lt_or_eq
      · obtain ⟨hnew, -, heq⟩ := housed_concat_of_lt hother hroom
        have hne : id ≠ other := by
          rintro rfl
          exact hnew (List.mem_append_left _ hmem)
        rw [heq, List.mem_append, List.mem_singleton, or_iff_left hne]
      · rw [housed_concat_of_full other hfull]

end Reporter

namespace Slot

/-- A hit on a row in use counts one more there. -/
theorem usedRows_addHit {s : Slot} {row : Nat} {used : BlockRow}
    (hrow : s.usedRows[row]? = some used) :
    (s.addHit row).usedRows = s.usedRows.set row { used with hits := used.hits + 1 } := by
  obtain ⟨hlength, hused⟩ := List.getElem?_eq_some_iff.1 hrow
  have hroom : row < Limits.blocks := by
    rw [usedRows, List.length_take, publishedRows] at hlength
    omega
  have hplace : ((Limits.place Limits.blocks_pos row : Fin Limits.blocks) : Nat) = row :=
    Nat.mod_eq_of_lt hroom
  have hold : s.rows[row] = used := by
    rw [← hused]
    simp [usedRows]
  have hpublished : (s.addHit row).publishedRows = s.publishedRows := rfl
  rw [usedRows, usedRows, hpublished, addHit, Vector.toList_set, ← List.take_set]
  simp only [hplace, Fin.getElem_fin, hold]

end Slot

namespace Reporter

/-- The row of an id after hits on some ids. -/
def rowAfter (ids : List String) (id : String) : BlockRow :=
  ⟨UInt64.ofNat (ids.count id), BlockId.ofText id⟩

theorem rowAfter_concat_self (ids : List String) (id : String) :
    rowAfter (ids ++ [id]) id = ⟨UInt64.ofNat (ids.count id) + 1, BlockId.ofText id⟩ := by
  have hcount : (ids ++ [id]).count id = ids.count id + 1 := by simp
  rw [rowAfter, hcount, UInt64.ofNat_add]
  rfl

theorem rowAfter_concat_of_ne (ids : List String) {id other : String} (h : other ≠ id) :
    rowAfter (ids ++ [id]) other = rowAfter ids other := by
  have hcount : (ids ++ [id]).count other = ids.count other := by simp [Ne.symm h]
  rw [rowAfter, hcount, rowAfter]

/-- A hit on an id without a row changes no row. -/
theorem map_rowAfter_concat {ids kept : List String} {id : String} (h : id ∉ kept) :
    kept.map (rowAfter (ids ++ [id])) = kept.map (rowAfter ids) := by
  refine List.map_congr_left fun other hother ↦ rowAfter_concat_of_ne ids ?_
  rintro rfl
  exact h hother

/-- A reporter and its slot after hits on some ids, which began on a fresh slot. -/
structure Tallied (r : Reporter) (s : Slot) (ids : List String) : Prop where
  places : Places r.rows (housed ids)
  dropped : r.tally.droppedBlocks = ids.countP (· ∉ housed ids)
  count : s.blockCount.toNat = (housed ids).length
  rows : s.usedRows = (housed ids).map (rowAfter ids)

namespace Tallied

variable {r : Reporter} {s : Slot} {ids : List String} {id : String}

theorem attach (i : SlotIndex) (enforcing : Bool) (spinLimit : UInt32) :
    (Reporter.attach i .fresh enforcing spinLimit).Tallied .fresh [] :=
  ⟨.empty, rfl, rfl, rfl⟩

/-- A hit on an id with a row is counted there. -/
theorem reportBlock_of_mem (h : r.Tallied s ids) (hid : id ∈ housed ids) :
    let y := (r.reportBlock s id).value
    y.1.tally.droppedBlocks = r.tally.droppedBlocks ∧ y.1.Tallied y.2 (ids ++ [id]) := by
  obtain ⟨row, hplace⟩ := List.mem_iff_getElem?.1 hid
  have hvalue : (r.reportBlock s id).value = (r, s.addHit row) := by
    rw [Reporter.reportBlock, (h.places.row id row).2 hplace]
    rfl
  have hused : s.usedRows[row]? = some (rowAfter ids id) := by
    rw [h.rows, List.getElem?_map, hplace]
    rfl
  rw [hvalue]
  refine ⟨rfl, ?_, ?_, ?_, ?_⟩
  · rw [housed_concat_of_mem hid]
    exact h.places
  · rw [housed_concat_of_mem hid, List.countP_append, h.dropped]
    simp [hid]
  · rw [housed_concat_of_mem hid]
    exact h.count
  · rw [housed_concat_of_mem hid, Slot.usedRows_addHit hused, h.rows]
    apply List.ext_getElem
    · simp
    intro n hn hn'
    obtain ⟨hlt, hget⟩ := List.getElem?_eq_some_iff.1 hplace
    rw [List.getElem_set, List.getElem_map, List.getElem_map]
    split_ifs with hrow
    · subst hrow
      rw [hget, rowAfter_concat_self]
      rfl
    · rw [rowAfter_concat_of_ne]
      rintro heq
      exact hrow ((nodup_housed ids).getElem_inj_iff.1 (hget.trans heq.symm))

/-- A hit on a new id takes the next row. -/
theorem reportBlock_of_lt (h : r.Tallied s ids) (hid : id ∉ housed ids)
    (hroom : (housed ids).length < Limits.blocks) :
    let y := (r.reportBlock s id).value
    y.1.tally.droppedBlocks = r.tally.droppedBlocks ∧ y.1.Tallied y.2 (ids ++ [id]) := by
  obtain ⟨hnew, hall, hnext⟩ := housed_concat_of_lt hid hroom
  have hfree : r.rows.size < Limits.blocks := by rwa [h.places.size]
  have hused : s.usedRows.take (housed ids).length = s.usedRows :=
    List.take_of_length_le (by rw [h.rows, List.length_map])
  have hhoused : ∀ other ∈ ids, other ∈ housed ids := fun other hother ↦
    hall ▸ List.mem_eraseDups.2 hother
  rw [reportBlock_of_new (h.places.getElem?_eq_none hid) hfree, h.places.size]
  refine ⟨rfl, ?_, ?_, ?_, ?_⟩
  · rw [hnext]
    exact h.places.concat hid
  · have hkept : ∀ other ∈ ids ++ [id], other ∈ housed ids ++ [id] := by
      rw [hall]
      simp
    rw [hnext, h.dropped, List.countP_eq_zero.2, List.countP_eq_zero.2]
    · intro other hother
      simp only [decide_eq_true_eq, not_not]
      exact hkept other hother
    · intro other hother
      simpa using hhoused other hother
  · rw [hnext, Slot.toNat_blockCount_publishRow hroom, List.length_append, List.length_singleton]
  · rw [hnext, Slot.usedRows_publishRow h.count.ge hroom, hused, h.rows, List.map_append,
      List.map_singleton, map_rowAfter_concat hid, rowAfter_concat_self, List.count_eq_zero.2 hnew]
    rfl

/-- A hit on an id without a row is dropped once all rows are given away. -/
theorem reportBlock_of_full (h : r.Tallied s ids) (hid : id ∉ housed ids)
    (hfull : (housed ids).length = Limits.blocks) :
    let y := (r.reportBlock s id).value
    y.1.tally.droppedBlocks = r.tally.droppedBlocks + 1 ∧ y.2 = s ∧
      y.1.Tallied y.2 (ids ++ [id]) := by
  have hsame := housed_concat_of_full id hfull
  have hfull' : ¬ r.rows.size < Limits.blocks := by rw [h.places.size, hfull]; exact lt_irrefl _
  have hvalue : (r.reportBlock s id).value =
      ({ r with tally.droppedBlocks := r.tally.droppedBlocks + 1 }, s) := by
    rw [Reporter.reportBlock, h.places.getElem?_eq_none hid]
    simp only [hfull', if_false]
  rw [hvalue]
  refine ⟨rfl, rfl, ?_, ?_, ?_, ?_⟩
  · rw [hsame]
    exact h.places
  · rw [hsame, List.countP_append, ← h.dropped]
    simp [hid]
  · rw [hsame]
    exact h.count
  · rw [hsame, h.rows, map_rowAfter_concat hid]

/-- What one hit does to the count of dropped hits and to the table. -/
theorem reportBlock (h : r.Tallied s ids) (id : String) :
    let y := (r.reportBlock s id).value
    y.1.Tallied y.2 (ids ++ [id]) ∧
      (id ∈ housed (ids ++ [id]) → y.1.tally.droppedBlocks = r.tally.droppedBlocks) ∧
      (id ∉ housed (ids ++ [id]) →
        y.1.tally.droppedBlocks = r.tally.droppedBlocks + 1 ∧ y.2 = s) := by
  by_cases hid : id ∈ housed ids
  · obtain ⟨hdropped, htallied⟩ := h.reportBlock_of_mem hid
    rw [housed_concat_of_mem hid]
    exact ⟨htallied, fun _ ↦ hdropped, fun hnot ↦ absurd hid hnot⟩
  · obtain hroom | hfull := (length_housed_le ids).lt_or_eq
    · obtain ⟨hdropped, htallied⟩ := h.reportBlock_of_lt hid hroom
      rw [(housed_concat_of_lt hid hroom).2.2]
      exact ⟨htallied, fun _ ↦ hdropped, fun hnot ↦ absurd (by simp) hnot⟩
    · obtain ⟨hdropped, hslot, htallied⟩ := h.reportBlock_of_full hid hfull
      rw [housed_concat_of_full id hfull]
      exact ⟨htallied, fun hmem ↦ absurd hmem hid, fun _ ↦ ⟨hdropped, hslot⟩⟩

theorem run (i : SlotIndex) (enforcing : Bool) (spinLimit : UInt32) (ids : List String) :
    let x := (Reporter.attach i .fresh enforcing spinLimit).reportBlocks .fresh ids
    x.1.Tallied x.2 ids := by
  induction ids using List.reverseRecOn with
  | nil => exact attach i enforcing spinLimit
  | append_singleton ids id ih =>
    rw [reportBlocks_append]
    exact (ih.reportBlock id).1

end Tallied

end Reporter

/-! ### Sums over rows and over texts -/

namespace Coverage

theorem countP_mem_cons {kept : List String} {id : String} (hnew : id ∉ kept) (p : String → Prop)
    [DecidablePred p] (ids : List String) :
    ids.countP (fun other ↦ other ∈ id :: kept ∧ p other) =
      (if p id then ids.count id else 0) + ids.countP fun other ↦ other ∈ kept ∧ p other := by
  induction ids with
  | nil => simp
  | cons other ids ih =>
    rw [List.countP_cons, List.countP_cons, List.count_cons, ih]
    by_cases hid : other = id
    · subst hid
      by_cases hp : p other <;> simp [hnew, hp]
      omega
    · by_cases hp : p id <;> simp [hid, hp, Nat.add_assoc]

/-- Of rows with as many hits as their ids were reported, those that read alike are summed. -/
theorem hitsIn_rowAfter {ids kept : List String} (hdistinct : kept.Nodup) (t : String)
    (hfits : ∀ id ∈ kept, ids.count id < UInt64.size) :
    hitsIn t ((kept.map (Reporter.rowAfter ids)).map fun row ↦ (row.id.text, row.hits)) =
      ids.countP fun id ↦ id ∈ kept ∧ fitting Limits.blockId id = t := by
  induction kept with
  | nil => simp [hitsIn]
  | cons id kept ih =>
    obtain ⟨hnew, hrest⟩ := List.nodup_cons.1 hdistinct
    have hid : (UInt64.ofNat (ids.count id)).toNat = ids.count id :=
      UInt64.toNat_ofNat_of_lt' (hfits id List.mem_cons_self)
    rw [List.map_cons, List.map_cons, hitsIn_cons, countP_mem_cons hnew,
      ih hrest fun other hother ↦ hfits other (List.mem_cons_of_mem id hother)]
    simp only [Reporter.rowAfter, BlockId.text_ofText, hid]

/-- Counts whose sum has 64 bits are summed. -/
theorem foldlM_sum?_of_lt {counts : List (String × UInt64)} {n : UInt64}
    (h : n.toNat + (counts.map (·.2.toNat)).sum < UInt64.size) :
    ∃ m, counts.foldlM (fun n count ↦ sum? n count.2) n = some m ∧
      m.toNat = n.toNat + (counts.map (·.2.toNat)).sum := by
  induction counts generalizing n with
  | nil => exact ⟨n, rfl, rfl⟩
  | cons count counts ih =>
    rw [List.map_cons, List.sum_cons] at h ⊢
    have hfits : n.toNat + count.2.toNat < UInt64.size := by omega
    have hsum : (n + count.2).toNat = n.toNat + count.2.toNat :=
      (UInt64.toNat_add _ _).trans (Nat.mod_eq_of_lt hfits)
    obtain ⟨m, hm, heq⟩ := ih (n := n + count.2) (by omega)
    refine ⟨m, ?_, by omega⟩
    rw [List.foldlM_cons, sum?, if_pos hfits]
    exact hm

/-- If every text has as many hits as it stands in a list, all hits together are as many as the list
has texts. -/
theorem sum_toList {c : Coverage} {texts : List String}
    (h : ∀ t, (c.hits t).toNat = texts.count t) :
    (c.toList.map (·.2.toNat)).sum = texts.length := by
  have hentry : ∀ t n, (t, n) ∈ c.toList ↔ c.hitsOf[t]? = some n := fun _ _ ↦
    Std.TreeMap.mem_toList_iff_getElem?_eq_some
  -- a text with hits is a key, but a key may have none
  have hcounts : c.toList.map (·.2.toNat) = c.hitsOf.keys.map fun t ↦ texts.count t := by
    rw [← Std.TreeMap.map_fst_toList_eq_keys, List.map_map]
    refine List.map_congr_left fun count hcount ↦ ?_
    rw [Function.comp_apply, ← h, hits, (hentry _ _).1 hcount, Option.getD_some]
  have hsubset : texts.toFinset ⊆ c.hitsOf.keys.toFinset := by
    intro t ht
    have hpos : 0 < (c.hits t).toNat := by
      rw [h]
      exact List.count_pos_iff.2 (List.mem_toFinset.1 ht)
    cases hfound : c.hitsOf[t]? with
    | none => simp [hits, hfound] at hpos
    | some n =>
      rw [List.mem_toFinset, ← Std.TreeMap.map_fst_toList_eq_keys]
      exact List.mem_map_of_mem ((hentry t n).2 hfound)
  calc (c.toList.map (·.2.toNat)).sum
      = ∑ t ∈ c.hitsOf.keys.toFinset, texts.count t := by
        rw [hcounts, List.sum_toFinset _ c.hitsOf.nodup_keys]
    _ = ∑ t ∈ texts.toFinset, texts.count t := by
        refine (Finset.sum_subset hsubset fun t _ ht ↦ ?_).symm
        exact List.count_eq_zero.2 fun hmem ↦ ht (List.mem_toFinset.2 hmem)
    _ = texts.length := List.sum_toFinset_count_eq_length texts

theorem total?_of_hits {c : Coverage} {texts : List String}
    (h : ∀ t, (c.hits t).toNat = texts.count t) (hfits : texts.length < UInt64.size) :
    ∃ n, c.total? = some n ∧ n.toNat = texts.length := by
  have hsum := sum_toList h
  have hlt : (0 : UInt64).toNat + (c.toList.map (·.2.toNat)).sum < UInt64.size := by
    simpa [hsum] using hfits
  obtain ⟨n, hn, heq⟩ := foldlM_sum?_of_lt hlt
  exact ⟨n, hn, by simpa [hsum] using heq⟩

end Coverage

namespace Reporter

/-- The coverage after hits that can all be counted. -/
theorem Tallied.exists_coverage {r : Reporter} {s : Slot} {ids : List String} (h : r.Tallied s ids)
    (hfits : ∀ t, (ids.countP fun id ↦ id ∈ housed ids ∧ fitting Limits.blockId id = t) <
      UInt64.size) :
    ∃ c, s.coverage? = some c ∧ ∀ t, (c.hits t).toNat =
      ids.countP fun id ↦ id ∈ housed ids ∧ fitting Limits.blockId id = t := by
  have hrows : ∀ id ∈ housed ids, ids.count id < UInt64.size := by
    intro id hid
    refine lt_of_le_of_lt (List.countP_mono_left fun other _ hother ↦ ?_)
      (hfits (fitting Limits.blockId id))
    obtain rfl : other = id := by simpa using hother
    simpa using hid
  have hsum : ∀ t, Coverage.hitsIn t (s.usedRows.map fun row ↦ (row.id.text, row.hits)) =
      ids.countP fun id ↦ id ∈ housed ids ∧ fitting Limits.blockId id = t := by
    intro t
    rw [h.rows]
    exact Coverage.hitsIn_rowAfter (nodup_housed ids) t hrows
  have hlt : ∀ t, (Coverage.empty.hits t).toNat +
      Coverage.hitsIn t (s.usedRows.map fun row ↦ (row.id.text, row.hits)) < UInt64.size := by
    intro t
    rw [hsum, Coverage.hits_empty]
    exact (Nat.zero_add _).trans_lt (hfits t)
  obtain ⟨c, hall, hhits⟩ := Coverage.addAll_of_lt hlt
  refine ⟨c, by rw [Slot.coverage?, Coverage.ofList?, hall], fun t ↦ ?_⟩
  rw [hhits, hsum, Coverage.hits_empty]
  exact Nat.zero_add _

end Reporter

/-! ### Both sides of a session -/

namespace Session

namespace Act

variable {w : World} {who : String} {place : Place} {r : Reporter} {c : Coverage}

/-- The coverage that the scheduler sees in a slot. -/
theorem value_coverage (hopened : w.opened = some place) {i : SlotIndex}
    (hc : ((w.region place).slot i).coverage? = some c) :
    ((coverage i).runIn w).value = (.ok c, w) := by
  have hindex : ((slotIndex i).runIn w).value = (.ok i, w) := by
    rw [slotIndex, Region.slotIndex, dif_pos i.isLt]
    rfl
  have hslot : ((slot i).runIn w).value = (.ok ((w.region place).slot i), w) :=
    value_bind_of_ok (value_openRegion hopened) _
  rw [coverage, value_bind_of_ok (value_openPlace hopened), value_bind_of_ok hindex,
    value_bind_of_ok hslot, hc]
  rfl

/-- The coverage that a reporter sees in its slot. -/
theorem value_state (hagent : w.agents[who]? = some (.reporter r place))
    (hfree : w.isBusy who = false) (hc : ((w.region place).slot r.slot).coverage? = some c) :
    ((state who).runIn w).value =
      (.ok (.reporter ⟨r.tally, ((w.region place).slot r.slot).mode?, r.slot, c⟩), w) := by
  have hslot : ((slotOf r place).runIn w).value = (.ok ((w.region place).slot r.slot), w) := rfl
  rw [state, value_bind_of_ok (value_agent hagent hfree)]
  dsimp only
  rw [value_bind_of_ok hslot, hc]
  rfl

end Act

end Session

namespace Reporter

/-- What becomes of hits that one reporter makes, from a fresh slot on. A hit is dropped exactly if
its id is not among the first ones that differ, as many as there are rows, of all that are reported.
A text has as many hits as hits on ids that are cut to it were not dropped, if they can be counted,
and all hits together are those that were not dropped. The scheduler sees the same coverage as the
reporter. -/
theorem hits_counted (i : SlotIndex) (enforcing : Bool) (spinLimit : UInt32) (ids : List String) :
    let start := Reporter.attach i .fresh enforcing spinLimit
    let x := start.reportBlocks .fresh ids
    let counted (t : String) :=
      ids.countP fun id ↦ id ∈ housed ids ∧ LongestPrefix (Fits Limits.blockId) id t
    (∀ before id after, ids = before ++ id :: after →
      let y := start.reportBlocks .fresh before
      let z := (y.1.reportBlock y.2 id).value
      (id ∈ housed ids → z.1.tally.droppedBlocks = y.1.tally.droppedBlocks) ∧
      (id ∉ housed ids →
        z.1.tally.droppedBlocks = y.1.tally.droppedBlocks + 1 ∧ z.2 = y.2)) ∧
    ((∀ t, counted t < UInt64.size) →
      ∃ c, x.2.coverage? = some c ∧ ∀ t, (c.hits t).toNat = counted t) ∧
    (ids.length < UInt64.size →
      ∃ c n, x.2.coverage? = some c ∧ c.total? = some n ∧
        n.toNat + x.1.tally.droppedBlocks = ids.length) ∧
    ∀ (w : Session.World) (who : String) (place : Place) (c : Coverage),
      w.agents[who]? = some (.reporter x.1 place) → w.isBusy who = false →
      w.opened = some place → (w.region place).slot i = x.2 → x.2.coverage? = some c →
      ((Session.Act.coverage i).runIn w).value = (.ok c, w) ∧
      ((Session.Act.state who).runIn w).value =
        (.ok (.reporter ⟨x.1.tally, x.2.mode?, i, c⟩), w) := by
  intro start x counted
  have htallied : x.1.Tallied x.2 ids := Tallied.run i enforcing spinLimit ids
  have hcounted : ∀ t, counted t =
      ids.countP fun id ↦ id ∈ housed ids ∧ fitting Limits.blockId id = t := by
    intro t
    simp only [counted, longestPrefix_iff_fitting]
  refine ⟨?_, ?_, ?_, ?_⟩
  · rintro before id after rfl y z
    have hy : y.1.Tallied y.2 before := Tallied.run i enforcing spinLimit before
    have hsettled : id ∈ housed (before ++ id :: after) ↔ id ∈ housed (before ++ [id]) := by
      rw [← mem_housed_append (before ++ [id]) after (by simp), List.append_assoc,
        List.singleton_append]
    rw [hsettled]
    exact (hy.reportBlock id).2
  · intro hfits
    simp only [hcounted] at hfits ⊢
    exact htallied.exists_coverage hfits
  · intro hlength
    obtain ⟨c, hc, hhits⟩ := htallied.exists_coverage fun t ↦
      List.countP_le_length.trans_lt hlength
    -- the hits that were not dropped, each as the text under which it is read
    let texts := (ids.filter (· ∈ housed ids)).map (fitting Limits.blockId)
    have htexts : ∀ t, (c.hits t).toNat = texts.count t := by
      intro t
      rw [hhits, List.count, List.countP_map, List.countP_filter]
      refine List.countP_congr fun id _ ↦ ?_
      simp [and_comm]
    have hlist : texts.length = ids.countP (· ∈ housed ids) := by
      rw [List.length_map, List.countP_eq_length_filter]
    have hsplit := ids.length_eq_countP_add_countP (· ∈ housed ids)
    obtain ⟨n, hn, htotal⟩ := Coverage.total?_of_hits htexts (by omega)
    refine ⟨c, n, hc, hn, ?_⟩
    rw [htotal, hlist, htallied.dropped, hsplit]
    simp only [decide_not, Bool.decide_eq_true]
  · intro w who place c hagent hfree hopened hslot hc
    have hplace : x.1.slot = i := start.slot_reportBlocks .fresh ids
    have hfound : ((w.region place).slot i).coverage? = some c := hslot ▸ hc
    refine ⟨Session.Act.value_coverage hopened hfound, ?_⟩
    rw [Session.Act.value_state hagent hfree (hplace.symm ▸ hfound), hplace, hslot]

/-- A session with a reporter after hits on three blocks, two of which differ. -/
def afterLoop (i : SlotIndex) : Session.World :=
  let x := (Reporter.attach i .fresh true 16).reportBlocks .fresh ["main", "loop", "main"]
  { Session.World.overMemory with
    memory := Region.fresh.setSlot i x.2
    agents := Session.World.overMemory.agents.insert "p" (.reporter x.1 .memory) }

theorem hits_counted_loop :
    let start := Reporter.attach 0 .fresh true 16
    let x := start.reportBlocks .fresh ["main", "loop", "main"]
    let y := start.reportBlocks .fresh ["main"]
    "loop" ∈ housed ["main", "loop", "main"] ∧
      (y.1.reportBlock y.2 "loop").value.1.tally.droppedBlocks = y.1.tally.droppedBlocks ∧
      (afterLoop 0).agents["p"]? = some (.reporter x.1 .memory) ∧
      (afterLoop 0).isBusy "p" = false ∧
      ∃ c n, x.2.coverage? = some c ∧ (c.hits "main").toNat = 2 ∧ (c.hits "loop").toNat = 1 ∧
        c.total? = some n ∧ n.toNat + x.1.tally.droppedBlocks = 3 ∧
        ((Session.Act.coverage 0).runIn (afterLoop 0)).value = (.ok c, afterLoop 0) ∧
        ((Session.Act.state "p").runIn (afterLoop 0)).value =
          (.ok (.reporter ⟨x.1.tally, x.2.mode?, 0, c⟩), afterLoop 0) := by
  intro start x y
  obtain ⟨hdropped, hcover, htotal, hboth⟩ := hits_counted 0 true 16 ["main", "loop", "main"]
  obtain ⟨c, hc, hhits⟩ := hcover fun t ↦ List.countP_le_length.trans_lt (by decide)
  obtain ⟨c', n, hc', hn, hsum⟩ := htotal (by decide)
  obtain rfl : c = c' := Option.some.inj (hc.symm.trans hc')
  have hhoused : "loop" ∈ housed ["main", "loop", "main"] := by decide +kernel
  have hagent : (afterLoop 0).agents["p"]? = some (.reporter x.1 .memory) := by
    simp [afterLoop, x, start]
  have hslot : ((afterLoop 0).region .memory).slot 0 = x.2 := Region.slot_setSlot_self _ _ _
  refine ⟨hhoused, (hdropped ["main"] "loop" ["main"] rfl).1 hhoused, hagent, rfl, c, n, hc, ?_, ?_,
    hn, hsum, hboth (afterLoop 0) "p" .memory c hagent rfl rfl hslot hc⟩
  · rw [hhits]
    decide +kernel
  · rw [hhits]
    decide +kernel

end Reporter

end Turnstile
