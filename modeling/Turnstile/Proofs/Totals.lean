import Turnstile.Proofs.HitCounts

/-!
# Totals of coverages

Coverages are added block by block, and an addition may overflow. What a sum of coverages gives is
told by two functions of the id of a block, its exact number of hits and whether it is there at all
(`Coverage.Sums`): there is a result exactly if every number has 64 bits, and the result shows these
numbers. Two outcomes with the same two functions are alike (`Coverage.Sums.toList_eq`), and the
functions of a list of counts, of a list of coverages and of any grouping of them into merges do not
depend on the order. So neither does the outcome, whether it is a coverage or an overflow
(`Schedule.totals_exact`).

The step is `Coverage.Sums.merge`: an overflow on either side is one of the whole, since numbers of
hits only grow.
-/

set_option autoImplicit false
set_option relaxedAutoImplicit false

namespace Turnstile

namespace Coverage

/-- The ids of the blocks, in order. -/
def ids (c : Coverage) : List String := c.toList.map Prod.fst

theorem ids_eq_keys (c : Coverage) : c.ids = c.hitsOf.keys :=
  Std.TreeMap.map_fst_toList_eq_keys

theorem mem_ids {c : Coverage} {id : String} : id ∈ c.ids ↔ id ∈ c.hitsOf := by
  rw [ids_eq_keys, Std.TreeMap.mem_keys]

theorem nodup_ids (c : Coverage) : c.ids.Nodup := by
  rw [ids_eq_keys]
  exact Std.TreeMap.nodup_keys

theorem blocks_eq (c : Coverage) : c.blocks = c.ids.length := by
  rw [ids_eq_keys, Std.TreeMap.length_keys, blocks]

theorem getElem?_hitsOf (c : Coverage) (id : String) :
    c.hitsOf[id]? = if id ∈ c.ids then some (c.hits id) else none := by
  simp only [mem_ids, Std.TreeMap.mem_iff_isSome_getElem?, hits]
  cases c.hitsOf[id]? <;> simp

theorem hits_of_not_mem {c : Coverage} {id : String} (h : id ∉ c.ids) : c.hits id = 0 := by
  rw [hits, getElem?_hitsOf, if_neg h, Option.getD_none]

/-- A coverage is told by its ids and their hits. -/
theorem toList_eq_of_hits {c d : Coverage} (hids : ∀ id, id ∈ c.ids ↔ id ∈ d.ids)
    (hhits : ∀ id, c.hits id = d.hits id) : c.toList = d.toList := by
  have hequiv : c.hitsOf.Equiv d.hitsOf := by
    refine Std.TreeMap.Equiv.of_forall_constGet?_eq fun id ↦ ?_
    simp only [getElem?_hitsOf, hids, hhits]
  exact hequiv.toList_eq

theorem hitsIn_of_not_mem {t : String} {counts : List (String × UInt64)}
    (h : t ∉ counts.map Prod.fst) : hitsIn t counts = 0 := by
  induction counts with
  | nil => rfl
  | cons count counts ih =>
    rw [List.map_cons, List.mem_cons, not_or] at h
    rw [hitsIn, if_neg (Ne.symm h.1), ih h.2]

theorem hitsIn_of_mem {t : String} {n : UInt64} {counts : List (String × UInt64)}
    (hnodup : (counts.map Prod.fst).Nodup) (hmem : (t, n) ∈ counts) :
    hitsIn t counts = n.toNat := by
  induction counts with
  | nil => cases hmem
  | cons count counts ih =>
    obtain ⟨hnew, hrest⟩ := List.nodup_cons.1 hnodup
    obtain rfl | hmem := List.mem_cons.1 hmem
    · rw [hitsIn, if_pos rfl, hitsIn_of_not_mem hnew, Nat.add_zero]
    · have hne : count.1 ≠ t := by
        intro heq
        exact hnew (heq ▸ List.mem_map.2 ⟨(t, n), hmem, rfl⟩)
      rw [hitsIn, if_neg hne, ih hrest hmem, Nat.zero_add]

/-- What a coverage lists of a block are its hits. -/
theorem hitsIn_toList (c : Coverage) (id : String) : hitsIn id c.toList = (c.hits id).toNat := by
  by_cases hmem : id ∈ c.ids
  · obtain ⟨⟨id', n⟩, hcount, rfl⟩ := List.mem_map.1 hmem
    have hfound : c.hitsOf[id']? = some n := Std.TreeMap.mem_toList_iff_getElem?_eq_some.1 hcount
    rw [hitsIn_of_mem c.nodup_ids hcount, hits, hfound, Option.getD_some]
  · rw [hitsIn_of_not_mem hmem, hits_of_not_mem hmem, UInt64.toNat_zero]

theorem hitsIn_perm {t : String} {counts counts' : List (String × UInt64)}
    (h : counts.Perm counts') : hitsIn t counts = hitsIn t counts' := by
  have hsum (counts : List (String × UInt64)) : hitsIn t counts =
      (counts.map fun count ↦ if count.1 = t then count.2.toNat else 0).sum := by
    induction counts with
    | nil => rfl
    | cons count counts ih => rw [hitsIn, ih, List.map_cons, List.sum_cons]
  rw [hsum, hsum, (h.map _).sum_eq]

/-! ### Sums -/

/-- What an outcome is that adds up so many hits of the blocks with these ids. -/
structure Sums (total : String → Nat) (known : String → Prop) (outcome : Option Coverage) :
    Prop where
  isSome_iff : outcome.isSome ↔ ∀ id, total id < 2 ^ 64
  hits : ∀ c ∈ outcome, ∀ id, (c.hits id).toNat = total id
  mem_ids : ∀ c ∈ outcome, ∀ id, id ∈ c.ids ↔ known id

namespace Sums

variable {total total' : String → Nat} {known known' : String → Prop}
  {outcome outcome' : Option Coverage}

theorem congr (h : Sums total known outcome) (htotal : ∀ id, total id = total' id)
    (hknown : ∀ id, known id ↔ known' id) : Sums total' known' outcome := by
  obtain rfl : total = total' := funext htotal
  obtain rfl : known = known' := funext fun id ↦ propext (hknown id)
  exact h

/-- Outcomes of the same sums are alike. -/
theorem toList_eq (h : Sums total known outcome) (h' : Sums total known outcome') :
    outcome.map toList = outcome'.map toList := by
  have hsome : outcome.isSome ↔ outcome'.isSome := h.isSome_iff.trans h'.isSome_iff.symm
  cases outcome with
  | none =>
    cases outcome' with
    | none => rfl
    | some d => simp at hsome
  | some c =>
    cases outcome' with
    | none => simp at hsome
    | some d =>
      refine congrArg some (toList_eq_of_hits (fun id ↦ ?_) fun id ↦ ?_)
      · exact (h.mem_ids c rfl id).trans (h'.mem_ids d rfl id).symm
      · exact UInt64.toNat_inj.1 ((h.hits c rfl id).trans (h'.hits d rfl id).symm)

theorem of_coverage (c : Coverage) :
    Sums (fun id ↦ (c.hits id).toNat) (· ∈ c.ids) (some c) where
  isSome_iff := by simpa using fun id ↦ (c.hits id).toNat_lt
  hits := by rintro d ⟨⟩ id; rfl
  mem_ids := by rintro d ⟨⟩ id; rfl

/-- An overflow. -/
theorem overflow (id : String) (h : 2 ^ 64 ≤ total id) : Sums total known none where
  isSome_iff := by
    simp only [Option.isSome_none, Bool.false_eq_true, false_iff, not_forall]
    exact ⟨id, h.not_gt⟩
  hits := by simp
  mem_ids := by simp

theorem exists_of_none (h : Sums total known none) : ∃ id, 2 ^ 64 ≤ total id := by
  have hnot := h.isSome_iff
  simp only [Option.isSome_none, Bool.false_eq_true, false_iff, not_forall, Nat.not_lt] at hnot
  exact hnot

end Sums

/-- What has been folded in, if every count fitted. -/
def complete? (folded : Coverage × Bool) : Option Coverage :=
  match folded with
  | (c, true) => some c
  | (_, false) => none

theorem sums_add? (c : Coverage) (id : String) (n : UInt64) :
    Sums (fun t ↦ (c.hits t).toNat + if id = t then n.toNat else 0) (fun t ↦ t ∈ c.ids ∨ t = id)
      (c.add? id n) := by
  by_cases hfits : (c.hits id).toNat + n.toNat < UInt64.size
  · have hsum : (c.hits id + n).toNat = (c.hits id).toNat + n.toNat :=
      (UInt64.toNat_add _ _).trans (Nat.mod_eq_of_lt hfits)
    have hhits (t : String) : ((⟨c.hitsOf.insert id (c.hits id + n)⟩ : Coverage).hits t).toNat =
        (c.hits t).toNat + if id = t then n.toNat else 0 := by
      by_cases hid : id = t
      · subst hid
        rw [if_pos rfl, hits, Std.TreeMap.getElem?_insert_self, Option.getD_some, hsum]
      · rw [if_neg hid, hits, Std.TreeMap.getElem?_insert]
        simp [hid, hits]
    have hids (t : String) : t ∈ (⟨c.hitsOf.insert id (c.hits id + n)⟩ : Coverage).ids ↔
        t ∈ c.ids ∨ t = id := by
      rw [mem_ids, mem_ids, Std.TreeMap.mem_insert, Std.LawfulEqCmp.compare_eq_iff_eq, or_comm,
        eq_comm]
    rw [add?, sum?, if_pos hfits]
    exact (Sums.of_coverage _).congr hhits hids
  · rw [add?, sum?, if_neg hfits]
    refine Sums.overflow id ?_
    rw [if_pos rfl]
    exact Nat.le_of_not_lt hfits

/-- Counts are folded in as far as their sums have 64 bits. -/
theorem sums_addAll (c : Coverage) (counts : List (String × UInt64)) :
    Sums (fun t ↦ (c.hits t).toNat + hitsIn t counts)
      (fun t ↦ t ∈ c.ids ∨ t ∈ counts.map Prod.fst) (complete? (c.addAll counts)) := by
  induction counts generalizing c with
  | nil => exact (Sums.of_coverage c).congr (fun _ ↦ rfl) fun _ ↦ by simp
  | cons count counts ih =>
    obtain ⟨id, n⟩ := count
    have hadd := sums_add? c id n
    rw [addAll]
    cases hsum : c.add? id n with
    | none =>
      rw [hsum] at hadd
      obtain ⟨t, ht⟩ := hadd.exists_of_none
      refine Sums.overflow t (ht.trans ?_)
      rw [hitsIn]
      omega
    | some d =>
      rw [hsum] at hadd
      refine (ih d).congr (fun t ↦ ?_) fun t ↦ ?_
      · rw [hadd.hits d rfl, hitsIn, Nat.add_assoc]
      · rw [hadd.mem_ids d rfl, List.map_cons, List.mem_cons, or_assoc]

/-- The coverages of two outcomes are merged, or one of them or the merge overflows. -/
theorem Sums.merge {total total' : String → Nat} {known known' : String → Prop}
    {outcome outcome' : Option Coverage} (h : Sums total known outcome)
    (h' : Sums total' known' outcome') :
    Sums (fun id ↦ total id + total' id) (fun id ↦ known id ∨ known' id)
      (outcome.bind fun c ↦ outcome'.bind fun d ↦ complete? (c.merge d)) := by
  cases outcome with
  | none =>
    obtain ⟨id, hid⟩ := h.exists_of_none
    exact Sums.overflow _ (hid.trans (Nat.le_add_right _ _))
  | some c =>
    cases outcome' with
    | none =>
      obtain ⟨id, hid⟩ := h'.exists_of_none
      exact Sums.overflow _ (hid.trans (Nat.le_add_left _ _))
    | some d =>
      refine (sums_addAll c d.toList).congr (fun id ↦ ?_) fun id ↦ ?_
      · rw [h.hits c rfl, hitsIn_toList, h'.hits d rfl]
      · exact or_congr (h.mem_ids c rfl id) (h'.mem_ids d rfl id)

theorem sums_ofList? (counts : List (String × UInt64)) :
    Sums (hitsIn · counts) (· ∈ counts.map Prod.fst) (ofList? counts) := by
  refine (sums_addAll empty counts).congr (fun id ↦ ?_) fun id ↦ ?_
  · rw [hits_empty, UInt64.toNat_zero, Nat.zero_add]
  · simp [ids, toList, empty]

/-- The exact number of hits of a block in some coverages. -/
def sumOf (id : String) (cs : List Coverage) : Nat := (cs.map fun c ↦ (c.hits id).toNat).sum

theorem sumOf_append (id : String) (cs ds : List Coverage) :
    sumOf id (cs ++ ds) = sumOf id cs + sumOf id ds := by
  rw [sumOf, List.map_append, List.sum_append]
  rfl

theorem sumOf_perm (id : String) {cs ds : List Coverage} (h : cs.Perm ds) :
    sumOf id cs = sumOf id ds :=
  (h.map _).sum_eq

/-- Coverages are folded into a sum, one after another. -/
theorem Sums.foldlM {total : String → Nat} {known : String → Prop} {outcome : Option Coverage}
    (h : Sums total known outcome) (cs : List Coverage) :
    Sums (fun id ↦ total id + sumOf id cs) (fun id ↦ known id ∨ ∃ c ∈ cs, id ∈ c.ids)
      (outcome.bind fun c ↦ cs.foldlM (fun total c ↦ complete? (total.merge c)) c) := by
  induction cs generalizing total known outcome with
  | nil =>
    cases outcome <;> exact h.congr (fun _ ↦ rfl) fun _ ↦ by simp
  | cons d cs ih =>
    have hmerged := ih (h.merge (of_coverage d))
    rw [Option.bind_assoc] at hmerged
    refine hmerged.congr (fun id ↦ ?_) fun id ↦ ?_
    · rw [sumOf, sumOf, List.map_cons, List.sum_cons, Nat.add_assoc]
    · rw [List.exists_mem_cons_iff, or_assoc]

theorem sums_mergeAll? (cs : List Coverage) :
    Sums (sumOf · cs) (fun id ↦ ∃ c ∈ cs, id ∈ c.ids) (mergeAll? cs) := by
  refine ((Sums.of_coverage empty).foldlM cs).congr (fun id ↦ ?_) fun id ↦ ?_
  · rw [hits_empty, UInt64.toNat_zero, Nat.zero_add]
  · simp [ids, toList, empty]

/-- A way to put coverages together by merging one into another. -/
inductive Grouping
  | nothing
  | single (c : Coverage)
  | merged (into other : Grouping)

namespace Grouping

/-- The coverages that are put together, from left to right. -/
def leaves : Grouping → List Coverage
  | nothing => []
  | single c => [c]
  | merged into other => into.leaves ++ other.leaves

/-- What the merges make of them, unless a count overflows in one. -/
def result? : Grouping → Option Coverage
  | nothing => some empty
  | single c => some c
  | merged into other => do
    let c ← into.result?
    let d ← other.result?
    complete? (c.merge d)

theorem sums_result? (g : Grouping) :
    Sums (sumOf · g.leaves) (fun id ↦ ∃ c ∈ g.leaves, id ∈ c.ids) g.result? := by
  induction g with
  | nothing =>
    refine (Sums.of_coverage empty).congr (fun id ↦ ?_) fun id ↦ ?_
    · rw [hits_empty]
      rfl
    · simp [leaves, ids, toList, empty]
  | single c =>
    exact (Sums.of_coverage c).congr (fun id ↦ by simp [sumOf, leaves]) fun id ↦ by simp [leaves]
  | merged into other ih ih' =>
    refine (ih.merge ih').congr (fun id ↦ ?_) fun id ↦ ?_
    · rw [leaves, sumOf_append]
    · simp only [leaves, List.mem_append, or_and_right, exists_or]

end Grouping

/-! ### The number of all hits -/

/-- Counts whose sum does not have 64 bits overflow. -/
theorem foldlM_sum?_of_le {counts : List (String × UInt64)} {n : UInt64}
    (h : 2 ^ 64 ≤ n.toNat + (counts.map (·.2.toNat)).sum) :
    counts.foldlM (fun n count ↦ sum? n count.2) n = none := by
  induction counts generalizing n with
  | nil =>
    have hlt := n.toNat_lt
    rw [List.map_nil, List.sum_nil] at h
    omega
  | cons count counts ih =>
    rw [List.map_cons, List.sum_cons] at h
    rw [List.foldlM_cons, sum?]
    split_ifs with hfits
    · have hsum : (n + count.2).toNat = n.toNat + count.2.toNat :=
        (UInt64.toNat_add _ _).trans (Nat.mod_eq_of_lt hfits)
      exact ih (by omega)
    · rfl

/-- The exact number of all hits. -/
def allHits (c : Coverage) : Nat := (c.ids.map fun id ↦ (c.hits id).toNat).sum

theorem sum_toList_eq_allHits (c : Coverage) :
    (c.toList.map (·.2.toNat)).sum = c.allHits := by
  rw [allHits, ids, List.map_map]
  refine congrArg List.sum (List.map_congr_left fun count hcount ↦ ?_)
  have hfound : c.hitsOf[count.1]? = some count.2 :=
    Std.TreeMap.mem_toList_iff_getElem?_eq_some.1 hcount
  rw [Function.comp_apply, hits, hfound, Option.getD_some]

/-- The hits of all blocks are summed exactly, or overflow. -/
theorem total?_cases (c : Coverage) :
    c.allHits < 2 ^ 64 ∧ (∃ n, c.total? = some n ∧ n.toNat = c.allHits) ∨
      2 ^ 64 ≤ c.allHits ∧ c.total? = none := by
  have hzero : (0 : UInt64).toNat + (c.toList.map (·.2.toNat)).sum = c.allHits := by
    rw [UInt64.toNat_zero, Nat.zero_add, sum_toList_eq_allHits]
  rcases Nat.lt_or_ge c.allHits (2 ^ 64) with hlt | hle
  · obtain ⟨n, hn, heq⟩ := foldlM_sum?_of_lt (hzero.trans_lt hlt)
    exact .inl ⟨hlt, n, hn, heq.trans hzero⟩
  · exact .inr ⟨hle, foldlM_sum?_of_le (hle.trans hzero.ge)⟩

theorem total?_eq_none_iff (c : Coverage) : c.total? = none ↔ 2 ^ 64 ≤ c.allHits := by
  obtain ⟨hlt, n, hn, -⟩ | ⟨hle, hnone⟩ := c.total?_cases
  · rw [hn]
    exact iff_of_false (Option.some_ne_none n) hlt.not_ge
  · exact iff_of_true hnone hle

theorem toNat_of_total? {c : Coverage} {n : UInt64} (h : c.total? = some n) :
    n.toNat = c.allHits := by
  obtain ⟨-, m, hm, heq⟩ | ⟨-, hnone⟩ := c.total?_cases
  · rw [h] at hm
    cases hm
    exact heq
  · rw [h] at hnone
    cases hnone

end Coverage

namespace Schedule

open Coverage

/-- The coverages of a schedule are added up exactly. There is a total unless the hits of a block
do not have 64 bits, it shows the sums, and it has the blocks of all coverages. The order does not
matter, nor in which groups they are merged; nor does the order matter in which counts are recorded.
The hits of all blocks are summed unless their sum does not have 64 bits. -/
theorem totals_exact (s : Schedule) :
    (s.totalCoverage?.isSome ↔ ∀ id, sumOf id s.coverage < 2 ^ 64) ∧
      (∀ total ∈ s.totalCoverage?, (∀ id, (total.hits id).toNat = sumOf id s.coverage) ∧
        (∀ id, id ∈ total.ids ↔ ∃ c ∈ s.coverage, id ∈ c.ids) ∧
        total.blocks = (s.coverage.flatMap ids).toFinset.card) ∧
      (∀ s' : Schedule, s'.coverage.Perm s.coverage →
        s'.totalCoverage?.map toList = s.totalCoverage?.map toList) ∧
      (∀ g : Grouping, g.leaves.Perm s.coverage →
        g.result?.map toList = s.totalCoverage?.map toList) ∧
      (∀ counts counts' : List (String × UInt64), counts.Perm counts' →
        (ofList? counts).map toList = (ofList? counts').map toList) ∧
      ∀ c : Coverage, (c.total? = none ↔ 2 ^ 64 ≤ c.allHits) ∧
        ∀ n ∈ c.total?, n.toNat = c.allHits := by
  have hsums := sums_mergeAll? s.coverage
  have hknown {cs : List Coverage} (h : cs.Perm s.coverage) (id : String) :
      (∃ c ∈ cs, id ∈ c.ids) ↔ ∃ c ∈ s.coverage, id ∈ c.ids :=
    exists_congr fun c ↦ and_congr_left' h.mem_iff
  refine ⟨hsums.isSome_iff, fun total htotal ↦ ⟨hsums.hits total htotal,
    hsums.mem_ids total htotal, ?_⟩, fun s' h ↦ ?_, fun g h ↦ ?_, fun counts counts' h ↦ ?_,
    fun c ↦ ⟨c.total?_eq_none_iff, fun n hn ↦ toNat_of_total? hn⟩⟩
  · have hids : total.ids.toFinset = (s.coverage.flatMap ids).toFinset := by
      ext id
      rw [List.mem_toFinset, List.mem_toFinset, List.mem_flatMap]
      exact hsums.mem_ids total htotal id
    rw [blocks_eq, ← hids, List.toFinset_card_of_nodup total.nodup_ids]
  · have hsums' := sums_mergeAll? s'.coverage
    exact (hsums'.congr (fun id ↦ sumOf_perm id h) (hknown h)).toList_eq hsums
  · exact (g.sums_result?.congr (fun id ↦ sumOf_perm id h) (hknown h)).toList_eq hsums
  · have hcounts := sums_ofList? counts
    exact (hcounts.congr (fun _ ↦ hitsIn_perm h) fun id ↦ (h.map _).mem_iff).toList_eq
      (sums_ofList? counts')

end Schedule

end Turnstile
