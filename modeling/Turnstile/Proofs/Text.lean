import Mathlib.Data.List.TakeWhile
import Turnstile.Text.Buffer

/-!
# Reading back what was written

A text is written as bytes, cut to the budget of a buffer, and read again by a reader that takes any
bytes. `lossyText_utf8` says that the reader undoes the writer on every text: the bytes of a
character lead the machine of `lossyFrom` through its states and back to where a character may start
(`Spells.utf8EncodeChar`), one case for each number of bytes. The same walk of the machine shows
that the bytes of a text are well formed (`textOfUtf8?_utf8`).

Cutting is described by `LongestPrefix`: `fitting` keeps the longest prefix that takes so many
bytes, and `padded` the longest one that moreover has no zero character. What a cut keeps is
therefore kept whole by a second cut, and a buffer hands out exactly what was kept
(`Buffer.text_ofBytes_utf8`, `Buffer.paddedText_ofPadded`): a counted text because its bytes are
counted, a padded one because only the zero character has a zero byte.
-/

set_option autoImplicit false
set_option relaxedAutoImplicit false

namespace Turnstile

/-! ### The bytes of a character -/

theorem Lead.ofByte_ascii {b : UInt8} (h : b.toNat < 0x80) :
    Lead.ofByte b = .whole (Char.ofNat b.toNat) := by
  have hb : b < 0x80 := UInt8.lt_iff_toNat_lt.2 h
  simp [Lead.ofByte, hb]

theorem Lead.ofByte_two {b : UInt8} (low : 0xC2 ≤ b.toNat) (high : b.toNat < 0xE0) :
    Lead.ofByte b = .opens ⟨1, b.toNat % 32, 0x80, 0xBF⟩ := by
  simp only [Lead.ofByte, UInt8.lt_iff_toNat_lt, UInt8.reduceToNat]
  rw [if_neg (by omega), if_neg (by omega), if_pos high]

theorem Lead.ofByte_three {b : UInt8} (low : 0xE0 ≤ b.toNat) (high : b.toNat < 0xF0) :
    Lead.ofByte b = .opens ⟨2, b.toNat % 16, if b.toNat = 0xE0 then 0xA0 else 0x80,
      if b.toNat = 0xED then 0x9F else 0xBF⟩ := by
  simp only [Lead.ofByte, UInt8.lt_iff_toNat_lt, ← UInt8.toNat_inj, UInt8.reduceToNat]
  rw [if_neg (by omega), if_neg (by omega), if_neg (by omega)]
  by_cases first : b.toNat = 0xE0
  · simp [first]
  · by_cases surrogate : b.toNat = 0xED
    · simp [surrogate]
    · simp [first, surrogate, high]

theorem Lead.ofByte_four {b : UInt8} (low : 0xF0 ≤ b.toNat) (high : b.toNat < 0xF5) :
    Lead.ofByte b = .opens ⟨3, b.toNat % 8, if b.toNat = 0xF0 then 0x90 else 0x80,
      if b.toNat = 0xF4 then 0x8F else 0xBF⟩ := by
  simp only [Lead.ofByte, UInt8.lt_iff_toNat_lt, ← UInt8.toNat_inj, UInt8.reduceToNat]
  rw [if_neg (by omega), if_neg (by omega), if_neg (by omega), if_neg (by omega),
    if_neg (by omega), if_neg (by omega)]
  by_cases first : b.toNat = 0xF0
  · simp [first]
  · by_cases last : b.toNat = 0xF4
    · simp [last]
    · have below : b.toNat < 0xF4 := by omega
      simp [first, last, below]

/-- From a state, these bytes lead through one character and to where the next may start. -/
inductive Spells : Option OpenChar → List UInt8 → Char → Prop
  | whole {b : UInt8} {c : Char} (hascii : b < 0x80) (hlead : Lead.ofByte b = .whole c) :
    Spells none [b] c
  | opens {b : UInt8} {o : OpenChar} {bs : List UInt8} {c : Char} (hlead : Lead.ofByte b = .opens o)
    (hrest : Spells (some o) bs c) : Spells none (b :: bs) c
  | closes {o : OpenChar} {b : UInt8} {c : Char} (hrange : o.low ≤ b ∧ b ≤ o.high)
    (hextend : o.extend b = .whole c) : Spells (some o) [b] c
  | goesOn {o o' : OpenChar} {b : UInt8} {bs : List UInt8} {c : Char}
    (hrange : o.low ≤ b ∧ b ≤ o.high) (hextend : o.extend b = .opens o')
    (hrest : Spells (some o') bs c) : Spells (some o) (b :: bs) c

namespace Spells

/-- A byte in its range closes a character of which it was the last byte owed. -/
theorem close {bits : Nat} {low high b : UInt8} {c : Char}
    (hlow : low.toNat ≤ b.toNat) (hhigh : b.toNat ≤ high.toNat)
    (hc : Char.ofNat (bits * 64 + b.toNat % 64) = c) : Spells (some ⟨1, bits, low, high⟩) [b] c :=
  closes ⟨UInt8.le_iff_toNat_le.2 hlow, UInt8.le_iff_toNat_le.2 hhigh⟩
    (by simp [OpenChar.extend, hc])

theorem extend {owed bits : Nat} {low high b : UInt8} {bs : List UInt8} {c : Char}
    (hlow : low.toNat ≤ b.toNat) (hhigh : b.toNat ≤ high.toNat)
    (hrest : Spells (some ⟨owed + 1, bits * 64 + b.toNat % 64, 0x80, 0xBF⟩) bs c) :
    Spells (some ⟨owed + 2, bits, low, high⟩) (b :: bs) c :=
  goesOn ⟨UInt8.le_iff_toNat_le.2 hlow, UInt8.le_iff_toNat_le.2 hhigh⟩ (by simp [OpenChar.extend])
    hrest

/-- Where a character may start, the bytes of one spell it. -/
theorem utf8EncodeChar (c : Char) : Spells none (String.utf8EncodeChar c) c := by
  have hself : Char.ofNat c.val.toNat = c := Char.ofNat_toNat c
  have hvalid : c.val.toNat < 0xD800 ∨ 0xDFFF < c.val.toNat ∧ c.val.toNat < 0x110000 := c.valid
  generalize hv : c.val.toNat = v at hself hvalid
  simp only [String.utf8EncodeChar, hv]
  have hbyte (n : Nat) (h : n < 256) : (UInt8.ofNat n).toNat = n := by
    rw [UInt8.toNat_ofNat']
    omega
  by_cases hone : v ≤ 0x7F
  · have hb := hbyte v (by omega)
    rw [if_pos hone]
    refine whole (UInt8.lt_iff_toNat_lt.2 (by simp only [hb, UInt8.reduceToNat]; omega)) ?_
    rw [Lead.ofByte_ascii (by omega), hb, hself]
  by_cases htwo : v ≤ 0x7FF
  · have h0 := hbyte (v / 64 % 0x20 + 0xC0) (by omega)
    have h1 := hbyte (v % 0x40 + 0x80) (by omega)
    have hbits : (v / 64 % 0x20 + 0xC0) % 32 * 64 + (v % 0x40 + 0x80) % 64 = v := by omega
    rw [if_neg hone, if_pos htwo]
    refine opens (Lead.ofByte_two (by omega) (by omega)) (close ?_ ?_
      (by rw [h0, h1, hbits, hself]))
    · simp only [h1, UInt8.reduceToNat]; omega
    · simp only [h1, UInt8.reduceToNat]; omega
  by_cases hthree : v ≤ 0xFFFF
  · have h0 := hbyte (v / 4096 % 0x10 + 0xE0) (by omega)
    have h1 := hbyte (v / 64 % 0x40 + 0x80) (by omega)
    have h2 := hbyte (v % 0x40 + 0x80) (by omega)
    have hbits : ((v / 4096 % 0x10 + 0xE0) % 16 * 64 + (v / 64 % 0x40 + 0x80) % 64) * 64 +
        (v % 0x40 + 0x80) % 64 = v := by omega
    rw [if_neg hone, if_neg htwo, if_pos hthree]
    refine opens (Lead.ofByte_three (by omega) (by omega)) (extend ?_ ?_ (close ?_ ?_
      (by rw [h0, h1, h2, hbits, hself])))
    · rw [h0, h1]; split <;> simp only [UInt8.reduceToNat] <;> omega
    · rw [h0, h1]; split <;> simp only [UInt8.reduceToNat] <;> omega
    · simp only [h2, UInt8.reduceToNat]; omega
    · simp only [h2, UInt8.reduceToNat]; omega
  · have h0 := hbyte (v / 262144 % 0x08 + 0xF0) (by omega)
    have h1 := hbyte (v / 4096 % 0x40 + 0x80) (by omega)
    have h2 := hbyte (v / 64 % 0x40 + 0x80) (by omega)
    have h3 := hbyte (v % 0x40 + 0x80) (by omega)
    have hbits : (((v / 262144 % 0x08 + 0xF0) % 8 * 64 + (v / 4096 % 0x40 + 0x80) % 64) * 64 +
        (v / 64 % 0x40 + 0x80) % 64) * 64 + (v % 0x40 + 0x80) % 64 = v := by omega
    rw [if_neg hone, if_neg htwo, if_neg hthree]
    refine opens (Lead.ofByte_four (by omega) (by omega)) (extend ?_ ?_ (extend ?_ ?_ (close ?_ ?_
      (by rw [h0, h1, h2, h3, hbits, hself]))))
    · rw [h0, h1]; split <;> simp only [UInt8.reduceToNat] <;> omega
    · rw [h0, h1]; split <;> simp only [UInt8.reduceToNat] <;> omega
    · simp only [h2, UInt8.reduceToNat]; omega
    · simp only [h2, UInt8.reduceToNat]; omega
    · simp only [h3, UInt8.reduceToNat]; omega
    · simp only [h3, UInt8.reduceToNat]; omega

theorem lossyFrom {state : Option OpenChar} {bytes : List UInt8} {c : Char}
    (h : Spells state bytes c) (bs : List UInt8) :
    Turnstile.lossyFrom state (bytes ++ bs) = c :: Turnstile.lossyFrom none bs := by
  induction h with
  | whole _ hlead => simp [Turnstile.lossyFrom, hlead]
  | opens hlead _ ih => simpa [Turnstile.lossyFrom, hlead] using ih
  | closes hrange hextend => simp [Turnstile.lossyFrom, hrange, hextend]
  | goesOn hrange hextend _ ih => simpa [Turnstile.lossyFrom, hrange, hextend] using ih

theorem wellFormedFrom {state : Option OpenChar} {bytes : List UInt8} {c : Char}
    (h : Spells state bytes c) (bs : List UInt8) :
    Turnstile.wellFormedFrom state (bytes ++ bs) = Turnstile.wellFormedFrom none bs := by
  induction h with
  | whole hascii hlead => simp [Turnstile.wellFormedFrom, hlead, hascii]
  | opens hlead _ ih => simpa [Turnstile.wellFormedFrom, hlead] using ih
  | closes hrange hextend => simp [Turnstile.wellFormedFrom, hrange, hextend]
  | goesOn hrange hextend _ ih => simpa [Turnstile.wellFormedFrom, hrange, hextend] using ih

end Spells

/-- Where a character may start, the bytes of one are read as that character. -/
theorem lossyFrom_utf8EncodeChar (c : Char) (bs : List UInt8) :
    lossyFrom none (String.utf8EncodeChar c ++ bs) = c :: lossyFrom none bs :=
  (Spells.utf8EncodeChar c).lossyFrom bs

theorem lossyFrom_flatMap_utf8EncodeChar (cs : List Char) :
    lossyFrom none (cs.flatMap String.utf8EncodeChar) = cs := by
  induction cs with
  | nil => rfl
  | cons c cs ih => rw [List.flatMap_cons, lossyFrom_utf8EncodeChar, ih]

/-- Reading the bytes of a text gives the text. -/
@[simp] theorem lossyText_utf8 (s : String) : lossyText (utf8 s) = s := by
  rw [lossyText, utf8, lossyFrom_flatMap_utf8EncodeChar, String.ofList_toList]

theorem wellFormedFrom_flatMap_utf8EncodeChar (cs : List Char) :
    wellFormedFrom none (cs.flatMap String.utf8EncodeChar) = true := by
  induction cs with
  | nil => rfl
  | cons c cs ih => rw [List.flatMap_cons, (Spells.utf8EncodeChar c).wellFormedFrom, ih]

/-- The bytes of a text spell it. -/
@[simp] theorem textOfUtf8?_utf8 (s : String) : textOfUtf8? (utf8 s) = some s := by
  rw [textOfUtf8?, lossyText_utf8, utf8, wellFormedFrom_flatMap_utf8EncodeChar, if_pos rfl]

/-- Only the zero character has a zero byte. -/
theorem ne_zero_of_mem_utf8EncodeChar {c : Char} (hc : c ≠ '\x00') {b : UInt8}
    (hb : b ∈ String.utf8EncodeChar c) : b ≠ 0 := by
  have hv : c.val.toNat ≠ 0 := fun h ↦ hc (Char.ext (UInt32.toNat_inj.1 h))
  have hbyte (n : Nat) (h : n % 256 ≠ 0) : UInt8.ofNat n ≠ 0 := by
    intro hzero
    rw [← UInt8.toNat_inj, UInt8.toNat_ofNat'] at hzero
    exact h hzero
  simp only [String.utf8EncodeChar] at hb
  split at hb
  · rw [List.mem_singleton.1 hb]
    exact hbyte _ (by omega)
  split at hb
  · simp only [List.mem_cons, List.not_mem_nil, or_false] at hb
    rcases hb with rfl | rfl <;> exact hbyte _ (by omega)
  split at hb
  · simp only [List.mem_cons, List.not_mem_nil, or_false] at hb
    rcases hb with rfl | rfl | rfl <;> exact hbyte _ (by omega)
  · simp only [List.mem_cons, List.not_mem_nil, or_false] at hb
    rcases hb with rfl | rfl | rfl | rfl <;> exact hbyte _ (by omega)

theorem ne_zero_of_mem_utf8 {s : String} (hs : '\x00' ∉ s.toList) {b : UInt8} (hb : b ∈ utf8 s) :
    b ≠ 0 := by
  obtain ⟨c, hc, hmem⟩ := List.mem_flatMap.1 hb
  exact ne_zero_of_mem_utf8EncodeChar (fun h ↦ hs (h ▸ hc)) hmem

/-! ### Longest prefixes -/

/-- `t` is the longest prefix of `s` with a property. -/
structure LongestPrefix (property : String → Prop) (s t : String) : Prop where
  isPrefix : t.toList <+: s.toList
  holds : property t
  longest : ∀ u : String, u.toList <+: s.toList → property u → u.toList <+: t.toList

/-- A text with the property is its own longest prefix. -/
theorem LongestPrefix.eq_self {property : String → Prop} {s t : String}
    (h : LongestPrefix property s t) (hs : property s) : t = s := by
  have hst := h.longest s List.prefix_rfl hs
  exact String.toList_inj.1 (h.isPrefix.eq_of_length_le hst.length_le)

/-- A text takes at most so many bytes. -/
def Fits (budget : Nat) (s : String) : Prop := (utf8 s).length ≤ budget

/-- A text takes at most so many bytes and has no zero character. -/
def FitsPadded (budget : Nat) (s : String) : Prop := Fits budget s ∧ '\x00' ∉ s.toList

theorem prefix_fittingChars {budget : Nat} {cs ds : List Char} (hinit : ds <+: cs)
    (hfits : (ds.flatMap String.utf8EncodeChar).length ≤ budget) :
    ds <+: fittingChars budget cs := by
  induction cs generalizing budget ds with
  | nil => exact List.prefix_nil.1 hinit ▸ List.nil_prefix
  | cons c cs ih =>
    cases ds with
    | nil => exact List.nil_prefix
    | cons d ds =>
      obtain ⟨rfl, htail⟩ := List.cons_prefix_cons.1 hinit
      rw [List.flatMap_cons, List.length_append, String.length_utf8EncodeChar] at hfits
      rw [fittingChars, if_pos (by omega)]
      exact List.cons_prefix_cons.2 ⟨rfl, ih htail (by omega)⟩

theorem longestPrefix_fitting (budget : Nat) (s : String) :
    LongestPrefix (Fits budget) s (fitting budget s) where
  isPrefix := by simpa [fitting] using fittingChars_isPrefix budget s.toList
  holds := by simpa [Fits, utf8, fitting] using length_utf8_fittingChars budget s.toList
  longest u hinit hfits := by simpa [fitting] using prefix_fittingChars hinit hfits

theorem longestPrefix_padded (budget : Nat) (s : String) :
    LongestPrefix (FitsPadded budget) s (padded budget s) where
  isPrefix := by
    have h := (longestPrefix_fitting budget (beforeZero s)).isPrefix
    refine h.trans ?_
    simpa [beforeZero] using List.takeWhile_prefix (l := s.toList) (· ≠ '\x00')
  holds := by
    have h := longestPrefix_fitting budget (beforeZero s)
    refine ⟨h.holds, fun hzero ↦ ?_⟩
    have hmem := h.isPrefix.subset hzero
    rw [beforeZero, String.toList_ofList] at hmem
    simpa using List.mem_takeWhile_imp hmem
  longest u hinit hfits := by
    apply (longestPrefix_fitting budget (beforeZero s)).longest u _ hfits.1
    obtain ⟨rest, hrest⟩ := hinit
    rw [beforeZero, String.toList_ofList, ← hrest, List.takeWhile_append_of_pos]
    · exact List.prefix_append _ _
    · intro c hc
      exact decide_eq_true fun h ↦ hfits.2 (h ▸ hc)

theorem fits_fitting (budget : Nat) (s : String) : Fits budget (fitting budget s) :=
  (longestPrefix_fitting budget s).holds

theorem fitsPadded_padded (budget : Nat) (s : String) : FitsPadded budget (padded budget s) :=
  (longestPrefix_padded budget s).holds

theorem fitting_eq_self {budget : Nat} {s : String} (h : Fits budget s) : fitting budget s = s :=
  (longestPrefix_fitting budget s).eq_self h

theorem padded_eq_self {budget : Nat} {s : String} (h : FitsPadded budget s) :
    padded budget s = s :=
  (longestPrefix_padded budget s).eq_self h

/-! ### Texts in buffers -/

namespace Buffer

variable {n : Nat}

theorem toList_ofBytes {bytes : List UInt8} (h : bytes.length ≤ n) :
    (ofBytes n bytes).toList = bytes ++ List.replicate (n - bytes.length) 0 := by
  rw [ofBytes, toList_tableOf, List.take_of_length_le h]

/-- A counted text is read as it was written. -/
theorem text_ofBytes_utf8 {s : String} (h : Fits n s) :
    (ofBytes n (utf8 s)).text (utf8 s).length = s := by
  rw [text, toList_ofBytes h, List.take_left, lossyText_utf8]

/-- A padded text is read as it was written. -/
theorem paddedText_ofPadded (s : String) : (ofPadded n s).paddedText = padded n s := by
  have hfits := fitsPadded_padded n s
  rw [ofPadded, paddedText, toList_ofBytes hfits.1, List.takeWhile_append_of_pos]
  · rw [List.takeWhile_replicate]
    simp
  · intro b hb
    exact decide_eq_true (ne_zero_of_mem_utf8 hfits.2 hb)

end Buffer

end Turnstile
