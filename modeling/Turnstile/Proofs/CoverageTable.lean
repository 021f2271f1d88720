import Mathlib.Data.List.Induction
import Mathlib.Data.List.Dedup
import Turnstile.Proofs.Text
import Turnstile.Reporter.Basic

/-!
# The coverage table across reporters

A reporter looks a block up by its whole id and takes the next row from the number of ids that it
knows. One that attaches later reads the ids back from the table, where they were cut. As long as
every id fits its row the two agree: a reporter knows exactly the rows in use
(`Reporter.Knows`), attaching makes one that does (`Reporter.knows_attach`), and a hit keeps it so
(`Reporter.Knows.reportBlock`). Since all who know the rows of a slot do the same to it
(`Reporter.Knows.reportBlock_eq`), it makes no difference how often a reporter is replaced on the
way (`Spell.foldl_run_eq`).

An id that does not fit breaks this. Two ids that are cut alike have two rows but read back as one,
so that the next reporter takes a row too low for its next block and writes over a row in use
(`Spell.coverage?_of_cut_alike`).
-/

set_option autoImplicit false
set_option relaxedAutoImplicit false

namespace Turnstile

/-! ### Ids of rows -/

namespace BlockId

/-- What is read back of an id is what fits of it. -/
theorem text_ofText (id : String) : (ofText id).text = fitting Limits.blockId id := by
  have hfits : (utf8 (fitting Limits.blockId id)).length ≤ Limits.blockId :=
    fits_fitting Limits.blockId id
  have hlength : (UInt32.ofNat (utf8 (fitting Limits.blockId id)).length).toNat =
      (utf8 (fitting Limits.blockId id)).length :=
    UInt32.toNat_ofNat_of_lt' (hfits.trans_lt (by decide))
  simp only [ofText, text, hlength]
  exact Buffer.text_ofBytes_utf8 hfits

end BlockId

namespace Slot

variable {s : Slot}

/-- The ids in the rows in use. -/
def rowIds (s : Slot) : List String := s.usedRows.map (·.id.text)

theorem length_rowIds (s : Slot) : s.rowIds.length = s.publishedRows := by
  rw [rowIds, usedRows, List.length_map, List.length_take, Vector.length_toList]
  exact min_eq_left (min_le_right _ _)

/-- A hit on a row changes no id. -/
theorem rowIds_addHit (s : Slot) (row : Nat) : (s.addHit row).rowIds = s.rowIds := by
  have hids : (s.addHit row).rows.toList.map (·.id.text) = s.rows.toList.map (·.id.text) := by
    rw [addHit, Vector.toList_set, List.map_set]
    apply List.ext_getElem
    · rw [List.length_set]
    · intro n hn hn'
      rw [List.getElem_set]
      split_ifs with hrow
      · subst hrow
        rw [List.getElem_map, Vector.getElem_toList]
        rfl
      · rfl
  rw [rowIds, rowIds, usedRows, usedRows, List.map_take, List.map_take, hids]
  rfl

theorem toNat_blockCount_publishRow {row : Nat} (hroom : row < Limits.blocks) (id : String) :
    (s.publishRow row id).blockCount.toNat = row + 1 := by
  have hrow : (UInt64.ofNat row).toNat = row :=
    UInt64.toNat_ofNat_of_lt' (hroom.trans (by decide))
  have hlt : row + 1 < 2 ^ 64 := (Nat.succ_le_of_lt hroom).trans_lt (by decide)
  show (UInt64.ofNat row + 1).toNat = row + 1
  rw [UInt64.toNat_add, hrow]
  exact Nat.mod_eq_of_lt hlt

/-- Publishing a row puts exactly the rows up to it into use, whatever was in use after it. -/
theorem usedRows_publishRow {row : Nat} (hcount : row ≤ s.blockCount.toNat)
    (hroom : row < Limits.blocks) (id : String) :
    (s.publishRow row id).usedRows = s.usedRows.take row ++ [⟨1, BlockId.ofText id⟩] := by
  have hplace : ((Limits.place Limits.blocks_pos row : Fin Limits.blocks) : Nat) = row :=
    Nat.mod_eq_of_lt hroom
  have hnew : (s.publishRow row id).publishedRows = row + 1 := by
    rw [publishedRows, toNat_blockCount_publishRow hroom, min_eq_left hroom]
  have hold : min row s.publishedRows = row := min_eq_left (le_min hcount hroom.le)
  have hlength : row < s.rows.toList.length := by rwa [Vector.length_toList]
  rw [usedRows, usedRows, hnew, List.take_take, hold, publishRow, Vector.toList_set, hplace,
    List.take_succ_eq_append_getElem (by rwa [List.length_set]), List.take_set_of_le le_rfl,
    List.getElem_set_self]

/-- The row after those in use gets the id, cut to fit. -/
theorem rowIds_publishRow {row : Nat} (hcount : s.blockCount.toNat = row)
    (hroom : row < Limits.blocks) (id : String) :
    (s.publishRow row id).rowIds = s.rowIds ++ [fitting Limits.blockId id] := by
  have hall : s.usedRows.take row = s.usedRows := by
    apply List.take_of_length_le
    rw [usedRows, List.length_take, publishedRows, hcount]
    exact (min_le_left _ _).trans (min_le_left _ _)
  rw [rowIds, usedRows_publishRow hcount.ge hroom, hall, List.map_append, List.map_singleton,
    BlockId.text_ofText, rowIds]

end Slot

/-! ### Sums of counts -/

namespace Coverage

/-- The hits of a block in a list of counts. -/
def hitsIn (t : String) : List (String × UInt64) → Nat
  | [] => 0
  | (id, hits) :: counts => (if id = t then hits.toNat else 0) + hitsIn t counts

theorem hitsIn_cons (t id : String) (hits : UInt64) (counts : List (String × UInt64)) :
    hitsIn t ((id, hits) :: counts) = (if id = t then hits.toNat else 0) + hitsIn t counts := rfl

theorem hits_empty (t : String) : empty.hits t = 0 := by
  simp [hits, empty]

/-- Counts whose sums have 64 bits are all folded in. -/
theorem addAll_of_lt {c : Coverage} {counts : List (String × UInt64)}
    (h : ∀ t, (c.hits t).toNat + hitsIn t counts < UInt64.size) :
    ∃ d, c.addAll counts = (d, true) ∧
      ∀ t, (d.hits t).toNat = (c.hits t).toNat + hitsIn t counts := by
  induction counts generalizing c with
  | nil => exact ⟨c, rfl, fun _ ↦ rfl⟩
  | cons count counts ih =>
    obtain ⟨id, n⟩ := count
    have hfits : (c.hits id).toNat + n.toNat < UInt64.size := by
      have hid := h id
      rw [hitsIn_cons, if_pos rfl] at hid
      omega
    have hadd : c.add? id n = some ⟨c.hitsOf.insert id (c.hits id + n)⟩ := by
      rw [add?, sum?, if_pos hfits]
    have hsum (t : String) : ((⟨c.hitsOf.insert id (c.hits id + n)⟩ : Coverage).hits t).toNat =
        (c.hits t).toNat + if id = t then n.toNat else 0 := by
      by_cases hid : id = t
      · subst hid
        rw [if_pos rfl, hits, Std.TreeMap.getElem?_insert_self]
        exact (UInt64.toNat_add _ _).trans (Nat.mod_eq_of_lt hfits)
      · rw [if_neg hid, hits, Std.TreeMap.getElem?_insert]
        simp [hid, hits]
    obtain ⟨d, hall, hd⟩ := ih (c := ⟨c.hitsOf.insert id (c.hits id + n)⟩) fun t ↦ by
      rw [hsum, Nat.add_assoc, ← hitsIn_cons]
      exact h t
    refine ⟨d, ?_, fun t ↦ ?_⟩
    · rw [addAll, hadd]
      exact hall
    · rw [hd, hsum, hitsIn_cons, Nat.add_assoc]

end Coverage

/-- Of first hits the coverage counts, for every id, those whose cut it is. -/
theorem Slot.coverage?_of_firstHits {s : Slot} {ids : List String}
    (hrows : s.usedRows = ids.map fun id ↦ ⟨1, BlockId.ofText id⟩)
    (hroom : ids.length ≤ Limits.blocks) :
    ∃ c, s.coverage? = some c ∧
      ∀ t, (c.hits t).toNat = (ids.map (fitting Limits.blockId)).count t := by
  have hcounts (t : String) :
      Coverage.hitsIn t (s.usedRows.map fun row ↦ (row.id.text, row.hits)) =
        (ids.map (fitting Limits.blockId)).count t := by
    rw [hrows]
    clear hrows hroom
    induction ids with
    | nil => rfl
    | cons id ids ih =>
      rw [List.map_cons, List.map_cons, Coverage.hitsIn_cons, ih, List.map_cons, List.count_cons,
        BlockId.text_ofText, Nat.add_comm]
      simp
  have hlt (t : String) : (Coverage.empty.hits t).toNat +
      Coverage.hitsIn t (s.usedRows.map fun row ↦ (row.id.text, row.hits)) < UInt64.size := by
    rw [hcounts, Coverage.hits_empty]
    have hle := (ids.map (fitting Limits.blockId)).count_le_length (a := t)
    rw [List.length_map] at hle
    exact (Nat.zero_add _).trans_lt ((hle.trans hroom).trans_lt (by decide))
  obtain ⟨c, hall, hhits⟩ := Coverage.addAll_of_lt hlt
  refine ⟨c, ?_, fun t ↦ ?_⟩
  · rw [coverage?, Coverage.ofList?, hall]
  · rw [hhits, hcounts, Coverage.hits_empty]
    exact Nat.zero_add _

/-! ### What a reporter knows of a table -/

theorem getElem?_concat_eq_some {α : Type} {l : List α} {a b : α} {n : Nat} :
    (l ++ [a])[n]? = some b ↔ l[n]? = some b ∨ n = l.length ∧ a = b := by
  rcases lt_trichotomy n l.length with hlt | rfl | hlt
  · rw [List.getElem?_append_left hlt]
    simp [hlt.ne]
  · simp
  · rw [List.getElem?_eq_none (by simpa using Nat.succ_le_of_lt hlt),
      List.getElem?_eq_none hlt.le]
    simp [hlt.ne']

/-- Rows by id that are the places of the ids in a list, in which no id stands twice. -/
structure Places (rows : Std.HashMap String Nat) (ids : List String) : Prop where
  size : rows.size = ids.length
  row (id : String) (n : Nat) : rows[id]? = some n ↔ ids[n]? = some id

namespace Places

variable {rows rows' : Std.HashMap String Nat} {ids : List String} {id : String}

theorem empty : Places ∅ [] := ⟨rfl, by simp⟩

theorem nodup (h : Places rows ids) : ids.Nodup := by
  rw [List.nodup_iff_injective_get]
  intro m n hsame
  have hm := (h.row _ m).2 (List.getElem?_eq_getElem m.isLt)
  have hn := (h.row _ n).2 (List.getElem?_eq_getElem n.isLt)
  rw [show ids[m.val] = ids[n.val] from hsame, hn] at hm
  exact Fin.ext (Option.some.inj hm).symm

theorem getElem?_eq_none (h : Places rows ids) (hnew : id ∉ ids) : rows[id]? = none := by
  rw [Option.eq_none_iff_forall_ne_some]
  intro n hn
  exact hnew (List.mem_of_getElem? ((h.row id n).1 hn))

/-- A new id takes the place after all others. -/
theorem concat (h : Places rows ids) (hnew : id ∉ ids) :
    Places (rows.insert id ids.length) (ids ++ [id]) := by
  have habsent := h.getElem?_eq_none hnew
  constructor
  · have hmem : id ∉ rows := by
      intro hmem
      rw [Std.HashMap.getElem?_eq_some_getElem hmem] at habsent
      exact Option.some_ne_none _ habsent
    rw [Std.HashMap.size_insert, if_neg hmem, h.size, List.length_append, List.length_singleton]
  · intro other n
    rw [getElem?_concat_eq_some, ← h.row, Std.HashMap.getElem?_insert]
    by_cases hid : id = other
    · subst hid
      simp [habsent, eq_comm]
    · simp [hid]

/-- The places of a list are found one way only. -/
theorem getElem?_congr (h : Places rows ids) (h' : Places rows' ids) (id : String) :
    rows[id]? = rows'[id]? := by
  apply Option.ext
  intro n
  rw [h.row, h'.row]

end Places

namespace Slot

/-- A table in which no more rows are counted than there are, and no id has two rows. -/
structure Tabled (s : Slot) : Prop where
  room : s.blockCount.toNat ≤ Limits.blocks
  distinct : s.rowIds.Nodup

theorem tabled_fresh : Slot.fresh.Tabled := ⟨Nat.zero_le _, List.nodup_nil⟩

/-- As many rows are in use as are counted. -/
theorem Tabled.length_rowIds {s : Slot} (h : s.Tabled) :
    s.rowIds.length = s.blockCount.toNat := by
  rw [s.length_rowIds, publishedRows, min_eq_left h.room]

end Slot

namespace Reporter

variable {r r' : Reporter} {s : Slot} {id : String}

/-- A reporter that knows the rows in use, each by its id, and no others. -/
structure Knows (r : Reporter) (s : Slot) : Prop where
  room : s.blockCount.toNat ≤ Limits.blocks
  places : Places r.rows s.rowIds

theorem Knows.tabled (h : r.Knows s) : s.Tabled := ⟨h.room, h.places.nodup⟩

/-- The rows that are read back from a table are the places of their ids. -/
theorem places_rowsOf (hdistinct : s.rowIds.Nodup) : Places (rowsOf s) s.rowIds := by
  unfold rowsOf Slot.rowIds at *
  generalize s.usedRows = rows at *
  induction rows using List.reverseRecOn with
  | nil => exact Places.empty
  | append_singleton l row ih =>
    rw [List.map_append, List.map_singleton] at hdistinct ⊢
    have hnew : row.id.text ∉ l.map (·.id.text) := by
      intro hmem
      exact (List.nodup_append.1 hdistinct).2.2 _ hmem _ (List.mem_singleton_self _) rfl
    have hplaces := (ih (List.nodup_append.1 hdistinct).1).concat hnew
    rw [List.length_map] at hplaces
    rw [List.zipIdx_append, List.foldl_append, List.zipIdx_singleton, Nat.zero_add]
    exact hplaces

/-- A reporter that attaches knows the rows in use. -/
theorem knows_attach (h : s.Tabled) (i : SlotIndex) (enforcing : Bool) (spinLimit : UInt32) :
    (Reporter.attach i s enforcing spinLimit).Knows s :=
  ⟨h.room, places_rowsOf h.distinct⟩

/-- The first hit that a reporter makes on a block takes the next row. -/
theorem reportBlock_of_new (hnew : r.rows[id]? = none) (hroom : r.rows.size < Limits.blocks)
    (s : Slot) : (r.reportBlock s id).value =
      ({ r with rows := r.rows.insert id r.rows.size }, s.publishRow r.rows.size id) := by
  unfold reportBlock
  rw [hnew]
  simp only [hroom, if_true, Noted.value_pure]

/-- A hit on an id that fits its row leaves a reporter that knows the rows in use. -/
theorem Knows.reportBlock (h : r.Knows s) (hfits : Fits Limits.blockId id) :
    (r.reportBlock s id).value.1.Knows (r.reportBlock s id).value.2 := by
  cases hrow : r.rows[id]? with
  | some row =>
    unfold Reporter.reportBlock
    rw [hrow]
    show r.Knows (s.addHit row)
    exact ⟨h.room, (s.rowIds_addHit row).symm ▸ h.places⟩
  | none =>
    have hcount : s.blockCount.toNat = r.rows.size := by
      rw [← h.tabled.length_rowIds, h.places.size]
    by_cases hroom : r.rows.size < Limits.blocks
    · rw [reportBlock_of_new hrow hroom]
      have hnew : id ∉ s.rowIds := by
        intro hmem
        obtain ⟨n, hn⟩ := List.mem_iff_getElem?.1 hmem
        rw [(h.places.row id n).2 hn] at hrow
        exact Option.some_ne_none n hrow
      refine ⟨Slot.toNat_blockCount_publishRow hroom id ▸ hroom, ?_⟩
      rw [Slot.rowIds_publishRow hcount hroom, fitting_eq_self hfits, h.places.size]
      exact h.places.concat hnew
    · unfold Reporter.reportBlock
      rw [hrow]
      simp only [hroom, if_false]
      exact ⟨h.room, h.places⟩

/-- What a hit does to a slot depends on the rows that the reporter knows, and on nothing else. -/
theorem Knows.reportBlock_eq (h : r.Knows s) (h' : r'.Knows s) (id : String) :
    (r.reportBlock s id).value.2 = (r'.reportBlock s id).value.2 := by
  have hsize : r.rows.size = r'.rows.size := h.places.size.trans h'.places.size.symm
  unfold Reporter.reportBlock
  rw [h.places.getElem?_congr h'.places id, hsize]
  cases hrow : r'.rows[id]? with
  | some row => rfl
  | none =>
    by_cases hroom : r'.rows.size < Limits.blocks
    · simp only [hroom, if_true, Noted.value_pure]
    · simp only [hroom, if_false]

/-! ### Reporters one after another -/

/-- Hits on blocks, one after another. -/
def reportBlocks (r : Reporter) (s : Slot) (ids : List String) : Reporter × Slot :=
  ids.foldl (fun (r, s) id ↦ (r.reportBlock s id).value) (r, s)

theorem reportBlocks_cons (r : Reporter) (s : Slot) (id : String) (ids : List String) :
    r.reportBlocks s (id :: ids) =
      (r.reportBlock s id).value.1.reportBlocks (r.reportBlock s id).value.2 ids := rfl

theorem reportBlocks_append (r : Reporter) (s : Slot) (ids more : List String) :
    r.reportBlocks s (ids ++ more) =
      (r.reportBlocks s ids).1.reportBlocks (r.reportBlocks s ids).2 more := by
  rw [reportBlocks, List.foldl_append]
  rfl

theorem Knows.reportBlocks (h : r.Knows s) {ids : List String}
    (hfits : ∀ id ∈ ids, Fits Limits.blockId id) :
    (r.reportBlocks s ids).1.Knows (r.reportBlocks s ids).2 := by
  induction ids generalizing r s with
  | nil => exact h
  | cons id ids ih =>
    rw [reportBlocks_cons]
    exact ih (h.reportBlock (hfits id List.mem_cons_self))
      fun other hmem ↦ hfits other (List.mem_cons_of_mem id hmem)

theorem Knows.reportBlocks_eq (h : r.Knows s) (h' : r'.Knows s) {ids : List String}
    (hfits : ∀ id ∈ ids, Fits Limits.blockId id) :
    (r.reportBlocks s ids).2 = (r'.reportBlocks s ids).2 := by
  induction ids generalizing r r' s with
  | nil => rfl
  | cons id ids ih =>
    have hid := hfits id List.mem_cons_self
    rw [reportBlocks_cons, reportBlocks_cons, h.reportBlock_eq h' id]
    have hknows := h.reportBlock hid
    rw [h.reportBlock_eq h' id] at hknows
    exact ih hknows (h'.reportBlock hid) fun other hmem ↦ hfits other (List.mem_cons_of_mem id hmem)

end Reporter

/-- The time of one reporter at a slot, from attaching until it is dropped, with its hits. -/
structure Spell where
  enforcing : Bool
  spinLimit : UInt32
  blocks : List String

namespace Spell

/-- The slot after the spell of a reporter. -/
def run (i : SlotIndex) (s : Slot) (x : Spell) : Slot :=
  ((Reporter.attach i s x.enforcing x.spinLimit).reportBlocks s x.blocks).2

/-- Hits of several reporters, each attached after the one before it was dropped, leave the slot
that one reporter leaves that makes them all. Assumes: a table that was kept by reporters, as that
of a fresh slot is, and that every id fits its row. -/
theorem foldl_run_eq {s : Slot} (hs : s.Tabled) (i : SlotIndex) (spells : List Spell)
    (whole : Spell) (hblocks : whole.blocks = spells.flatMap (·.blocks))
    (hfits : ∀ id ∈ whole.blocks, Fits Limits.blockId id) :
    spells.foldl (run i) s = whole.run i s ∧
      (spells.foldl (run i) s).coverage? = (whole.run i s).coverage? := by
  suffices hslots : ∀ r : Reporter, r.Knows s →
      spells.foldl (run i) s = (r.reportBlocks s whole.blocks).2 by
    have hslot := hslots _ (Reporter.knows_attach hs i whole.enforcing whole.spinLimit)
    exact ⟨hslot, congrArg Slot.coverage? hslot⟩
  rw [hblocks] at hfits ⊢
  clear hblocks whole
  -- a reporter that stays all the time goes beside those that come and go
  induction spells generalizing s with
  | nil => intro r _; rfl
  | cons x spells ih =>
    intro r hr
    have hx : ∀ id ∈ x.blocks, Fits Limits.blockId id :=
      fun id hmem ↦ hfits id (List.mem_flatMap.2 ⟨x, List.mem_cons_self, hmem⟩)
    have hlater : ∀ id ∈ spells.flatMap (·.blocks), Fits Limits.blockId id := by
      intro id hmem
      rw [List.flatMap_cons] at hfits
      exact hfits id (List.mem_append_right _ hmem)
    have hattached := Reporter.knows_attach hs i x.enforcing x.spinLimit
    have hrun : run i s x = (r.reportBlocks s x.blocks).2 := hattached.reportBlocks_eq hr hx
    have hknows := hr.reportBlocks hx
    rw [List.foldl_cons, List.flatMap_cons, Reporter.reportBlocks_append, hrun]
    exact ih hknows.tabled hlater _ hknows

theorem foldl_run_eq_loop :
    let whole : Spell := ⟨true, 16, ["main", "loop", "main"]⟩
    let spells : List Spell := [⟨true, 16, ["main"]⟩, ⟨false, 16, []⟩, ⟨true, 16, ["loop", "main"]⟩]
    Slot.fresh.Tabled ∧ whole.blocks = spells.flatMap (·.blocks) ∧
      (∀ id ∈ whole.blocks, Fits Limits.blockId id) ∧
      spells.foldl (run 0) .fresh = whole.run 0 .fresh ∧
      (spells.foldl (run 0) .fresh).coverage? = (whole.run 0 .fresh).coverage? := by
  intro whole spells
  have hfits : ∀ id ∈ whole.blocks, Fits Limits.blockId id := by
    intro id hid
    simp only [whole, List.mem_cons, List.not_mem_nil, or_false] at hid
    obtain rfl | rfl | rfl := hid <;> exact Nat.le_of_ble_eq_true rfl
  exact ⟨Slot.tabled_fresh, rfl, hfits, foldl_run_eq Slot.tabled_fresh 0 spells whole rfl hfits⟩

/-! ### Ids that do not fit -/

/-- First hits take the rows in order, and the reporter that makes them knows each by its whole
id. -/
theorem firstHits (i : SlotIndex) (enforcing : Bool) (spinLimit : UInt32) {ids : List String}
    (hdistinct : ids.Nodup) (hroom : ids.length ≤ Limits.blocks) :
    let x := (Reporter.attach i .fresh enforcing spinLimit).reportBlocks .fresh ids
    Places x.1.rows ids ∧ x.2.blockCount.toNat = ids.length ∧
      x.2.usedRows = ids.map fun id ↦ ⟨1, BlockId.ofText id⟩ := by
  induction ids using List.reverseRecOn with
  | nil => exact ⟨Places.empty, rfl, rfl⟩
  | append_singleton ids id ih =>
    have hnew : id ∉ ids := by
      intro hmem
      exact (List.nodup_append.1 hdistinct).2.2 _ hmem _ (List.mem_singleton_self _) rfl
    rw [List.length_append, List.length_singleton] at hroom
    obtain ⟨hplaces, hcount, hrows⟩ :=
      ih (List.nodup_append.1 hdistinct).1 (Nat.le_of_succ_le hroom)
    intro x
    obtain ⟨r, s, hreported⟩ : ∃ r s,
        (Reporter.attach i .fresh enforcing spinLimit).reportBlocks .fresh ids = (r, s) :=
      ⟨_, _, rfl⟩
    rw [hreported] at hplaces hcount hrows
    have hx : x = ({ r with rows := r.rows.insert id ids.length }, s.publishRow ids.length id) := by
      have hrow := hplaces.getElem?_eq_none hnew
      have hfree : r.rows.size < Limits.blocks := by rwa [hplaces.size]
      show (Reporter.attach i .fresh enforcing spinLimit).reportBlocks .fresh (ids ++ [id]) = _
      rw [Reporter.reportBlocks_append, hreported]
      show (r.reportBlock s id).value = _
      rw [Reporter.reportBlock_of_new hrow hfree, hplaces.size]
    have hused : s.usedRows.take ids.length = s.usedRows :=
      List.take_of_length_le (by rw [hrows, List.length_map])
    rw [hx]
    refine ⟨hplaces.concat hnew, ?_, ?_⟩
    · rw [Slot.toNat_blockCount_publishRow hroom, List.length_append, List.length_singleton]
    · rw [Slot.usedRows_publishRow hcount.ge hroom, hused, hrows, List.map_append,
        List.map_singleton]

/-- The second of two reporters reads two rows of one id back under that id, and so writes its
block over the later of them. -/
theorem usedRows_run_run {first second third : String} (hne : first ≠ second)
    (halike : fitting Limits.blockId first = fitting Limits.blockId second)
    (hother : third ≠ fitting Limits.blockId first)
    (i : SlotIndex) (enforcing : Bool) (spinLimit : UInt32) :
    (run i (run i .fresh ⟨enforcing, spinLimit, [first, second]⟩)
      ⟨enforcing, spinLimit, [third]⟩).usedRows =
        [⟨1, BlockId.ofText first⟩, ⟨1, BlockId.ofText third⟩] := by
  have hdistinct : [first, second].Nodup := by simpa using hne
  obtain ⟨-, hcount, hrows⟩ :=
    firstHits i enforcing spinLimit hdistinct (show 2 ≤ Limits.blocks by decide)
  change (run i .fresh ⟨enforcing, spinLimit, [first, second]⟩).blockCount.toNat = 2 at hcount
  change (run i .fresh ⟨enforcing, spinLimit, [first, second]⟩).usedRows = _ at hrows
  generalize run i .fresh ⟨enforcing, spinLimit, [first, second]⟩ = s at hcount hrows ⊢
  have hread : Reporter.rowsOf s =
      ((∅ : Std.HashMap String Nat).insert (fitting Limits.blockId first) 0).insert
        (fitting Limits.blockId first) 1 := by
    rw [Reporter.rowsOf, hrows]
    show ((∅ : Std.HashMap String Nat).insert (BlockId.ofText first).text 0).insert
        (BlockId.ofText second).text 1 = _
    rw [BlockId.text_ofText, BlockId.text_ofText, halike]
  have hknown : (Reporter.rowsOf s).size = 1 := by
    rw [hread, Std.HashMap.size_insert, if_pos Std.HashMap.mem_insert_self,
      Std.HashMap.size_insert, if_neg Std.HashMap.not_mem_empty, Std.HashMap.size_empty]
  have hnew : (Reporter.rowsOf s)[third]? = none := by
    rw [hread]
    simp [hother.symm]
  have hroom : (Reporter.rowsOf s).size < Limits.blocks := by
    rw [hknown]
    decide
  have hrun : run i s ⟨enforcing, spinLimit, [third]⟩ = s.publishRow 1 third := by
    show ((Reporter.attach i s enforcing spinLimit).reportBlock s third).value.2 = _
    rw [Reporter.reportBlock_of_new (r := Reporter.attach i s enforcing spinLimit) hnew hroom]
    show s.publishRow (Reporter.rowsOf s).size third = _
    rw [hknown]
  rw [hrun, Slot.usedRows_publishRow (hcount ▸ Nat.le_succ 1) (by decide), hrows]
  rfl

/-- Two ids that are cut alike have a row each while one reporter makes all hits. If it is replaced,
the next one reads both rows back under one id, counts one row too few, and writes its next block
over the second of them: the hit in there is lost. -/
theorem coverage?_of_cut_alike {first second third : String} (hne : first ≠ second)
    (halike : fitting Limits.blockId first = fitting Limits.blockId second)
    (hother : fitting Limits.blockId third ≠ fitting Limits.blockId first)
    (i : SlotIndex) (enforcing : Bool) (spinLimit : UInt32) :
    let hits (s : Slot) := s.coverage?.map fun c ↦ (c.hits (fitting Limits.blockId first)).toNat
    hits (run i .fresh ⟨enforcing, spinLimit, [first, second, third]⟩) = some 2 ∧
      hits (run i (run i .fresh ⟨enforcing, spinLimit, [first, second]⟩)
        ⟨enforcing, spinLimit, [third]⟩) = some 1 := by
  intro hits
  have hapart (id : String) (hid : fitting Limits.blockId id = fitting Limits.blockId first) :
      id ≠ third := by
    rintro rfl
    exact hother hid
  have hthird : third ≠ fitting Limits.blockId first := by
    intro hthird
    apply hother
    rw [hthird]
    exact fitting_eq_self (fits_fitting Limits.blockId first)
  constructor
  · have hdistinct : [first, second, third].Nodup := by
      simp [hne, hapart first rfl, hapart second halike.symm]
    have hroom : [first, second, third].length ≤ Limits.blocks := show 3 ≤ Limits.blocks by decide
    obtain ⟨-, -, hrows⟩ := firstHits i enforcing spinLimit hdistinct hroom
    change (run i .fresh ⟨enforcing, spinLimit, [first, second, third]⟩).usedRows = _ at hrows
    obtain ⟨c, hc, hhits⟩ := Slot.coverage?_of_firstHits hrows hroom
    simp only [hits, hc, Option.map_some, hhits]
    simp [← halike, hother]
  · have hroom : [first, third].length ≤ Limits.blocks := show 2 ≤ Limits.blocks by decide
    have hrows := usedRows_run_run hne halike hthird i enforcing spinLimit
    change _ = [first, third].map fun id ↦ (⟨1, BlockId.ofText id⟩ : BlockRow) at hrows
    obtain ⟨c, hc, hhits⟩ := Slot.coverage?_of_firstHits hrows hroom
    simp only [hits, hc, Option.map_some, hhits]
    simp [hother]

/-- An id of one byte more than a row has room for. -/
def overlongId (last : Char) : String := String.ofList (List.replicate Limits.blockId 'a' ++ [last])

theorem fitting_overlongId (last : Char) :
    fitting Limits.blockId (overlongId last) =
      String.ofList (List.replicate Limits.blockId 'a') := by
  have hfilled (n : Nat) :
      fittingChars n (List.replicate n 'a' ++ [last]) = List.replicate n 'a' := by
    induction n with
    | zero =>
      have hsize : ¬ last.utf8Size ≤ 0 := last.utf8Size_pos.not_ge
      simp [fittingChars, hsize]
    | succ n ih =>
      have hsize : 'a'.utf8Size ≤ n + 1 := Nat.le_add_left 1 n
      rw [List.replicate_succ, List.cons_append, fittingChars, if_pos hsize]
      exact congrArg ('a' :: ·) ih
  rw [fitting, overlongId, String.toList_ofList, hfilled]

/-- With ids that do not fit, it makes a difference that a reporter is replaced. -/
theorem coverage_ne_overlong :
    ¬ ∀ (i : SlotIndex) (spells : List Spell) (whole : Spell),
      whole.blocks = spells.flatMap (·.blocks) → whole.blocks.dedup.length ≤ Limits.blocks →
        (spells.foldl (run i) .fresh).coverage? = (whole.run i .fresh).coverage? := by
  intro hsame
  have hne : overlongId 'x' ≠ overlongId 'y' := by
    intro heq
    have hlast := congrArg (fun id : String ↦ id.toList.getLast?) heq
    simp [overlongId] at hlast
  have hother : fitting Limits.blockId "loop" ≠ fitting Limits.blockId (overlongId 'x') := by
    intro heq
    have hloop : Fits Limits.blockId "loop" := Nat.le_of_ble_eq_true rfl
    rw [fitting_eq_self hloop, fitting_overlongId] at heq
    have hfirst := congrArg (fun id : String ↦ id.toList.head?) heq
    simp only [String.toList_ofList, List.head?_replicate] at hfirst
    exact absurd hfirst (by decide)
  obtain ⟨hwhole, hcut⟩ := coverage?_of_cut_alike hne
    ((fitting_overlongId 'x').trans (fitting_overlongId 'y').symm) hother 0 true 16
  have hcovered := hsame 0
    [⟨true, 16, [overlongId 'x', overlongId 'y']⟩, ⟨true, 16, ["loop"]⟩]
    ⟨true, 16, [overlongId 'x', overlongId 'y', "loop"]⟩ rfl
    ((List.dedup_sublist _).length_le.trans (show 3 ≤ Limits.blocks by decide))
  simp only [List.foldl_cons, List.foldl_nil] at hcovered
  simp only [hcovered, hwhole] at hcut
  exact absurd (Option.some.inj hcut) (by decide)

end Spell

end Turnstile
