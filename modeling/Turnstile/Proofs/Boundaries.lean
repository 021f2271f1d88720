import Turnstile.Proofs.Reading

/-!
# Where a text may be cut

Texts are cut character by character. A program that sees only the bytes of a text finds the place
to cut by looking: it starts at the last place that the buffer allows and goes back, byte by byte,
to the first one where a character may start (`boundaryFrom?`). What it needs to know of the bytes
is the shape of a single character: one byte that continues nothing, and then bytes that do nothing
else (`exists_lead`). From it the boundaries among the bytes of a text are the ends of its prefixes
(`isBoundary_utf8_iff`), so the search stops where the longest prefix that fits ends
(`boundaryFrom?_utf8`), and what stands before that place spells this prefix (`cut?_eq`).

A zero byte is found among the bytes just where a zero character is among the characters
(`utf8_beforeZero`). The longest prefix in the sense of characters is therefore the latest cut in
the sense of bytes (`LongestPrefix.latestCut`), for both kinds of buffers. `cut_at_latest_boundary`
puts this together with what the buffers hold and what is read from them.
-/

set_option autoImplicit false
set_option relaxedAutoImplicit false

namespace Turnstile

/-! ### Boundaries among bytes -/

/-- The bytes that go on with a character, and start none. -/
def IsContinuation (b : UInt8) : Prop := 0x80 ≤ b ∧ b < 0xC0

instance : DecidablePred IsContinuation := fun b ↦
  inferInstanceAs (Decidable (0x80 ≤ b ∧ b < 0xC0))

/-- Bytes may be cut at their start, at their end, and before a byte that starts a character. -/
def IsBoundary (bytes : List UInt8) (place : Nat) : Prop :=
  place = 0 ∨ place = bytes.length ∨ ∃ b ∈ bytes[place]?, ¬ IsContinuation b

instance (bytes : List UInt8) : DecidablePred (IsBoundary bytes) := fun place ↦
  inferInstanceAs (Decidable (place = 0 ∨ place = bytes.length ∨ _))

/-- The first boundary met on the way back from a place; none if the way goes on before the start
of the bytes. -/
def boundaryFrom? (bytes : List UInt8) : Nat → Option Nat
  | 0 => if IsBoundary bytes 0 then some 0 else none
  | place + 1 =>
    if IsBoundary bytes (place + 1) then some (place + 1) else boundaryFrom? bytes place

/-- The search never leaves the bytes, and nothing between its start and its end is a boundary. -/
theorem exists_boundaryFrom? (bytes : List UInt8) (start : Nat) :
    ∃ place, boundaryFrom? bytes start = some place ∧ IsBoundary bytes place ∧ place ≤ start ∧
      ∀ other ≤ start, IsBoundary bytes other → other ≤ place := by
  induction start with
  | zero =>
    have hstart : IsBoundary bytes 0 := .inl rfl
    exact ⟨0, if_pos hstart, hstart, le_rfl, fun _ hle _ ↦ hle⟩
  | succ start ih =>
    by_cases hhere : IsBoundary bytes (start + 1)
    · exact ⟨start + 1, if_pos hhere, hhere, le_rfl, fun _ hle _ ↦ hle⟩
    · obtain ⟨place, hfound, hplace, hle, hlast⟩ := ih
      refine ⟨place, by rw [boundaryFrom?, if_neg hhere, hfound], hplace, by omega, ?_⟩
      intro other hother hboundary
      have hne : other ≠ start + 1 := fun h ↦ hhere (h ▸ hboundary)
      exact hlast other (by omega) hboundary

/-! ### The bytes of a text -/

/-- A character is a byte that starts it and bytes that go on with it. -/
theorem exists_lead (c : Char) : ∃ lead more, String.utf8EncodeChar c = lead :: more ∧
    ¬ IsContinuation lead ∧ ∀ b ∈ more, IsContinuation b := by
  have hbyte (n : Nat) : (UInt8.ofNat n).toNat = n % 256 := UInt8.toNat_ofNat'
  have hlead (n : Nat) (h : n % 256 < 0x80 ∨ 0xC0 ≤ n % 256) :
      ¬ IsContinuation (UInt8.ofNat n) := by
    simp only [IsContinuation, UInt8.le_iff_toNat_le, UInt8.lt_iff_toNat_lt, hbyte,
      UInt8.reduceToNat]
    omega
  have hmore (n : Nat) : IsContinuation (UInt8.ofNat (n % 0x40 + 0x80)) := by
    simp only [IsContinuation, UInt8.le_iff_toNat_le, UInt8.lt_iff_toNat_lt, hbyte,
      UInt8.reduceToNat]
    omega
  simp only [String.utf8EncodeChar]
  split
  · exact ⟨_, _, rfl, hlead _ (by omega), List.forall_mem_nil _⟩
  split
  · exact ⟨_, _, rfl, hlead _ (by omega), List.forall_mem_singleton.2 (hmore _)⟩
  split
  · exact ⟨_, _, rfl, hlead _ (by omega),
      List.forall_mem_cons.2 ⟨hmore _, List.forall_mem_singleton.2 (hmore _)⟩⟩
  · exact ⟨_, _, rfl, hlead _ (by omega), List.forall_mem_cons.2 ⟨hmore _,
      List.forall_mem_cons.2 ⟨hmore _, List.forall_mem_singleton.2 (hmore _)⟩⟩⟩

/-- Where the bytes of a text end, or another character starts, is a boundary. -/
theorem isBoundary_after (before : List UInt8) (cs : List Char) :
    IsBoundary (before ++ cs.flatMap String.utf8EncodeChar) before.length := by
  cases cs with
  | nil => exact .inr (.inl (by simp))
  | cons c cs =>
    obtain ⟨lead, more, hc, hlead, -⟩ := exists_lead c
    exact .inr (.inr ⟨lead, by simp [hc], hlead⟩)

/-- The boundaries among the bytes of characters are where a run of the leading ones ends. -/
theorem isBoundary_flatMap_iff (cs : List Char) (place : Nat) :
    IsBoundary (cs.flatMap String.utf8EncodeChar) place ↔
      ∃ ds, ds <+: cs ∧ (ds.flatMap String.utf8EncodeChar).length = place := by
  constructor
  · -- Along the characters: within the first one every place is before a continuation byte.
    induction cs generalizing place with
    | nil =>
      intro h
      refine ⟨[], List.prefix_rfl, ?_⟩
      rcases h with h | h | ⟨b, hb, -⟩
      · exact h.symm
      · exact h.symm
      · simp at hb
    | cons c cs ih =>
      intro h
      obtain ⟨lead, more, hc, -, hmore⟩ := exists_lead c
      by_cases hzero : place = 0
      · exact ⟨[], List.nil_prefix, hzero.symm⟩
      by_cases hinside : place < (String.utf8EncodeChar c).length
      · exfalso
        obtain ⟨inner, rfl⟩ := Nat.exists_eq_succ_of_ne_zero hzero
        rw [List.flatMap_cons] at h
        rcases h with h | h | ⟨b, hb, hstarts⟩
        · exact hzero h
        · rw [List.length_append] at h
          omega
        · rw [List.getElem?_append_left hinside, hc, List.getElem?_cons_succ] at hb
          exact hstarts (hmore b (List.mem_of_getElem? hb))
      · obtain ⟨rest, rfl⟩ := Nat.exists_eq_add_of_le (not_lt.1 hinside)
        obtain ⟨ds, hds, hlength⟩ := ih rest (by
          rw [List.flatMap_cons] at h
          rcases h with h | h | ⟨b, hb, hstarts⟩
          · exact absurd h hzero
          · rw [List.length_append] at h
            exact .inr (.inl (by omega))
          · rw [List.getElem?_append_right (by omega), Nat.add_sub_cancel_left] at hb
            exact .inr (.inr ⟨b, hb, hstarts⟩))
        refine ⟨c :: ds, List.cons_prefix_cons.2 ⟨rfl, hds⟩, ?_⟩
        rw [List.flatMap_cons, List.length_append, hlength]
  · rintro ⟨ds, ⟨rest, rfl⟩, rfl⟩
    rw [List.flatMap_append]
    exact isBoundary_after _ rest

/-- The boundaries among the bytes of a text are where its prefixes end. -/
theorem isBoundary_utf8_iff {s : String} {place : Nat} :
    IsBoundary (utf8 s) place ↔ ∃ u : String, u.toList <+: s.toList ∧ (utf8 u).length = place := by
  rw [utf8, isBoundary_flatMap_iff]
  constructor
  · rintro ⟨ds, hds, hlength⟩
    exact ⟨String.ofList ds, by rwa [String.toList_ofList], by rwa [utf8_ofList]⟩
  · rintro ⟨u, hu, hlength⟩
    exact ⟨u.toList, hu, hlength⟩

theorem utf8_isPrefix {s u : String} (h : u.toList <+: s.toList) : utf8 u <+: utf8 s := by
  obtain ⟨rest, hrest⟩ := h
  rw [utf8, utf8, ← hrest, List.flatMap_append]
  exact List.prefix_append _ _

theorem take_utf8 {s u : String} (h : u.toList <+: s.toList) :
    (utf8 s).take (utf8 u).length = utf8 u := by
  obtain ⟨rest, hrest⟩ := utf8_isPrefix h
  rw [← hrest, List.take_left]

/-! ### Cutting by the bytes -/

/-- The search stops where the longest prefix that fits ends. -/
theorem boundaryFrom?_utf8 (budget : Nat) (s : String) :
    boundaryFrom? (utf8 s) (min (utf8 s).length budget) =
      some (utf8 (fitting budget s)).length := by
  obtain ⟨place, hfound, hboundary, hle, hlast⟩ :=
    exists_boundaryFrom? (utf8 s) (min (utf8 s).length budget)
  have hfitting := longestPrefix_fitting budget s
  obtain ⟨u, hu, hlength⟩ := isBoundary_utf8_iff.1 hboundary
  have hnoLater : place ≤ (utf8 (fitting budget s)).length := by
    have hfits : Fits budget u := by
      rw [Fits, hlength]
      omega
    rw [← hlength]
    exact (utf8_isPrefix (hfitting.longest u hu hfits)).length_le
  have hnoSooner : (utf8 (fitting budget s)).length ≤ place := by
    refine hlast _ (le_min (utf8_isPrefix hfitting.isPrefix).length_le hfitting.holds) ?_
    exact isBoundary_utf8_iff.2 ⟨_, hfitting.isPrefix, rfl⟩
  rw [hfound, le_antisymm hnoLater hnoSooner]

/-- The text of the bytes before the last boundary that a budget allows. -/
def cut? (budget : Nat) (s : String) : Option String := do
  let place ← boundaryFrom? (utf8 s) (min (utf8 s).length budget)
  textOfUtf8? ((utf8 s).take place)

theorem cut?_eq (budget : Nat) (s : String) : cut? budget s = some (fitting budget s) := by
  have htake := take_utf8 (longestPrefix_fitting budget s).isPrefix
  simp only [cut?, boundaryFrom?_utf8, Option.bind_eq_bind, Option.bind_some, htake,
    textOfUtf8?_utf8]

/-- A text shortened to as many bytes as a padded buffer keeps of it, if it has more. -/
def shortened? (budget : Nat) (s : String) : Option String := do
  let kept ← cut? budget (beforeZero s)
  if (utf8 kept).length = (utf8 s).length then some s
  else textOfUtf8? ((utf8 s).take (utf8 kept).length)

theorem shortened?_eq (budget : Nat) (s : String) :
    shortened? budget s = some (padded budget s) := by
  have htake := take_utf8 (longestPrefix_padded budget s).isPrefix
  have hkept : cut? budget (beforeZero s) = some (padded budget s) := cut?_eq budget (beforeZero s)
  simp only [shortened?, hkept, Option.bind_eq_bind, Option.bind_some, htake, textOfUtf8?_utf8]
  split_ifs with hwhole
  · rw [hwhole, List.take_length] at htake
    have hself : s = padded budget s := by simpa using congrArg lossyText htake
    exact congrArg some hself
  · rfl

/-! ### Zero bytes -/

theorem zero_mem_utf8_iff {s : String} : 0 ∈ utf8 s ↔ '\x00' ∈ s.toList := by
  constructor
  · intro h
    by_contra hnone
    exact ne_zero_of_mem_utf8 hnone h rfl
  · intro h
    exact List.mem_flatMap.2 ⟨_, h, by decide⟩

/-- The bytes before the first zero byte are those of the characters before the first zero
character. -/
theorem utf8_beforeZero (s : String) : utf8 (beforeZero s) = (utf8 s).takeWhile (· ≠ 0) := by
  have hbefore : ∀ b ∈ utf8 (beforeZero s), decide (b ≠ 0) = true := by
    intro b hb
    refine decide_eq_true (ne_zero_of_mem_utf8 ?_ hb)
    intro hzero
    rw [beforeZero, String.toList_ofList] at hzero
    simpa using List.mem_takeWhile_imp hzero
  have hsplit : utf8 s = utf8 (beforeZero s) ++
      (s.toList.dropWhile (· ≠ '\x00')).flatMap String.utf8EncodeChar := by
    rw [beforeZero, utf8_ofList, ← List.flatMap_append, List.takeWhile_append_dropWhile, utf8]
  rw [hsplit, List.takeWhile_append_of_pos hbefore]
  cases hrest : s.toList.dropWhile (· ≠ '\x00') with
  | nil => simp
  | cons c cs =>
    have hc : c = '\x00' := by
      have hne : s.toList.dropWhile (· ≠ '\x00') ≠ [] := hrest ▸ List.cons_ne_nil c cs
      have hhead := List.head_dropWhile_not (· ≠ '\x00') hne
      simp only [hrest, List.head_cons] at hhead
      simpa using hhead
    simp [hc, String.utf8EncodeChar]

/-! ### The latest cut -/

/-- The bytes of `t` are those of `s` before a boundary, they have a property, and before no later
boundary do they have it. -/
structure LatestCut (property : List UInt8 → Prop) (s t : String) : Prop where
  bytes : (utf8 s).take (utf8 t).length = utf8 t
  boundary : IsBoundary (utf8 s) (utf8 t).length
  holds : property (utf8 t)
  latest : ∀ place ≤ (utf8 s).length, IsBoundary (utf8 s) place → property ((utf8 s).take place) →
    place ≤ (utf8 t).length

theorem LongestPrefix.latestCut {property : List UInt8 → Prop} {s t : String}
    (h : LongestPrefix (fun u ↦ property (utf8 u)) s t) : LatestCut property s t where
  bytes := take_utf8 h.isPrefix
  boundary := isBoundary_utf8_iff.2 ⟨t, h.isPrefix, rfl⟩
  holds := h.holds
  latest := by
    intro place _ hboundary hproperty
    obtain ⟨u, hu, rfl⟩ := isBoundary_utf8_iff.1 hboundary
    rw [take_utf8 hu] at hproperty
    exact (utf8_isPrefix (h.longest u hu hproperty)).length_le

theorem latestCut_fitting (budget : Nat) (s : String) :
    LatestCut (·.length ≤ budget) s (fitting budget s) :=
  (longestPrefix_fitting budget s).latestCut

theorem latestCut_padded (budget : Nat) (s : String) :
    LatestCut (fun bytes ↦ bytes.length ≤ budget ∧ 0 ∉ bytes) s (padded budget s) := by
  have hproperty : FitsPadded budget = fun u ↦ (utf8 u).length ≤ budget ∧ 0 ∉ utf8 u := by
    funext u
    rw [FitsPadded, Fits, zero_mem_utf8_iff]
  have h := longestPrefix_padded budget s
  rw [hproperty] at h
  exact h.latestCut

/-- What a buffer of `n` bytes keeps of a text. Without zero bytes: the bytes up to the latest
boundary with at most `n` bytes and no zero byte before it; the search for this place stops there,
shortening the text gives the same and changes nothing the second time, and a buffer of zero bytes
into which it is written holds it and hands it out. With zero bytes and a count: the same, with the
latest boundary that has at most `n` bytes before it. -/
theorem cut_at_latest_boundary (s : String) (n : Nat) :
    (LatestCut (fun bytes ↦ bytes.length ≤ n ∧ 0 ∉ bytes) s (padded n s) ∧
      utf8 (beforeZero s) = (utf8 s).takeWhile (· ≠ 0) ∧
      cut? n (beforeZero s) = some (padded n s) ∧
      shortened? n s = some (padded n s) ∧ shortened? n (padded n s) = some (padded n s) ∧
      (Buffer.ofPadded n s).toList =
        utf8 (padded n s) ++ List.replicate (n - (utf8 (padded n s)).length) 0 ∧
      (Buffer.ofPadded n s).paddedText = padded n s) ∧
    (LatestCut (fun bytes ↦ bytes.length ≤ n) s (fitting n s) ∧
      cut? n s = some (fitting n s) ∧
      (Buffer.ofText n s).toList =
        utf8 (fitting n s) ++ List.replicate (n - (utf8 (fitting n s)).length) 0 ∧
      (Buffer.ofText n s).text (utf8 (fitting n s)).length = fitting n s) := by
  have hpadded := fitsPadded_padded n s
  have hfitting := fits_fitting n s
  refine ⟨⟨latestCut_padded n s, utf8_beforeZero s, cut?_eq n (beforeZero s), shortened?_eq n s, ?_,
    Buffer.toList_ofBytes hpadded.1, Buffer.paddedText_ofPadded s⟩,
    latestCut_fitting n s, cut?_eq n s, Buffer.toList_ofBytes hfitting,
    Buffer.text_ofBytes_utf8 hfitting⟩
  rw [shortened?_eq, padded_eq_self hpadded]

/-- A budget that ends inside of a character, and one that is smaller than the first one. -/
example :
    cut? 5 "ééé" = some "éé" ∧ cut? 1 "é\x00" = some "" ∧ shortened? 8 "a\x00b" = some "a" := by
  decide

end Turnstile
