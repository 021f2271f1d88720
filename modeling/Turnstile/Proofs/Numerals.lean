import Turnstile.Proofs.Doubles
import Turnstile.Proofs.Reading

/-!
# Numbers and their texts

A number is read from digits, perhaps with a point, perhaps with an exponent
(`reads_number_whole`, `reads_number_positional`, `reads_number_scientific`), up to something that
cannot belong to it (`NumberEnd`).

An integer of 64 bits is written in its digits and stays an integer (`numeralText_toString`). A
finite double is written in the digits of its shortest decimal: with zeros after them, around a
point, after a point and zeros, or with an exponent. Between these forms and the decimal only zeros
are moved, so all of them are read as the double (`Shown.numeralBody_of_point`,
`Shown.numeralBody_scientific`). A double is never read as an integer, because every form has a
point or an exponent (`numeralText_jsonNumber`).
-/

set_option autoImplicit false
set_option relaxedAutoImplicit false

namespace Turnstile

namespace Json

namespace Reader

/-! ### Reading digits -/

/-- The digits of an integer as they are written: a leading zero stands alone. -/
structure Whole (digits : List UInt8) : Prop where
  allDigits : digits.all isDigit
  leading : digits = [0x30] ∨ ∃ b more, digits = b :: more ∧ b ≠ 0x30

/-- No digit stands next. -/
def DigitsEnd (rest : List UInt8) : Prop := ∀ b ∈ rest.head?, isDigit b = false

theorem reads_integerDigits {digits rest : List UInt8} (h : Whole digits) (hrest : DigitsEnd rest) :
    Reads integerDigits (digits ++ rest) (.ok digits) rest := by
  rcases h.leading with rfl | ⟨b, more, rfl, hb⟩
  · refine (reads_next 0x30 rest).bind ?_
    simp only [if_true]
    refine (reads_peek rest).bind ?_
    cases hnext : rest.head? with
    | none => exact Reads.pure _ rest
    | some d =>
      simp only [hrest d hnext]
      exact Reads.pure _ rest
  · have hall := h.allDigits
    rw [List.all_cons, Bool.and_eq_true] at hall
    refine (reads_next b (more ++ rest)).bind ?_
    simp only [if_neg hb, hall.1, if_true]
    exact (reads_takeWhile_append hall.2 hrest).bind (Reads.pure _ rest)

theorem reads_fractionDigits {digits rest : List UInt8} (hdigits : digits.all isDigit)
    (hne : digits ≠ []) (hrest : DigitsEnd rest) :
    Reads fractionDigits (0x2E :: (digits ++ rest)) (.ok digits) rest := by
  refine (reads_discard _ _).bind ((reads_takeWhile_append hdigits hrest).bind ?_)
  simp only [List.isEmpty_eq_false_iff.2 hne]
  exact Reads.pure _ rest

/-- The number that digits spell after a number that was read. -/
theorem le_foldl_digits (digits : List UInt8) (n : Nat) :
    n ≤ digits.foldl (fun n b ↦ 10 * n + (b.toNat - 48)) n := by
  induction digits generalizing n with
  | nil => exact le_rfl
  | cons b digits ih =>
    have hstep : n ≤ 10 * n + (b.toNat - 48) := by omega
    exact hstep.trans (ih _)

/-- An exponent within the bound does not pass it on the way. -/
theorem overflowAt_eq_none {digits : List UInt8} {n : Nat} (length : Nat)
    (h : digits.foldl (fun n b ↦ 10 * n + (b.toNat - 48)) n ≤ exponentBound) :
    overflowAt n length digits = none := by
  induction digits generalizing n length with
  | nil => rfl
  | cons b digits ih =>
    have hstep := (le_foldl_digits digits (10 * n + (b.toNat - 48))).trans h
    rw [overflowAt, if_neg (by omega)]
    exact ih _ h

theorem reads_nextIsOneOf (a b : UInt8) (bytes : List UInt8) :
    Reads (nextIsOneOf a b) bytes (.ok (bytes.head? = some a || bytes.head? = some b)) bytes :=
  (reads_peek bytes).bind (Reads.pure _ bytes)

/-- The sign of an exponent. -/
def exponentSign (negative : Bool) : UInt8 := if negative then 0x2D else 0x2B

theorem reads_exponentPart {isZero : Bool} (negative : Bool) {digits rest : List UInt8}
    (hdigits : digits.all isDigit) (hne : digits ≠ []) (hbound : ofDigits digits ≤ exponentBound)
    (hrest : DigitsEnd rest) :
    Reads (exponentPart isZero) (0x65 :: exponentSign negative :: (digits ++ rest))
      (.ok (if negative then -(ofDigits digits : Int) else ofDigits digits)) rest := by
  obtain ⟨b, more, rfl⟩ := List.exists_cons_of_ne_nil hne
  have hall := hdigits
  rw [List.all_cons, Bool.and_eq_true] at hall
  have hrun : (more ++ rest).takeWhile isDigit = more := takeWhile_run hall.2 hrest
  have hsign : (exponentSign negative = 0x2D) = (negative = true) := by cases negative <;> decide
  have hsigned : (decide (exponentSign negative = 0x2B) || decide (exponentSign negative = 0x2D)) =
      true := by cases negative <;> decide
  refine (reads_discard _ _).bind ((reads_peek _).bind ((reads_nextIsOneOf _ _ _).bind ?_))
  simp only [List.head?_cons, Option.some.injEq, hsigned, if_true]
  refine (reads_discard _ _).bind ((reads_next b (more ++ rest)).bind ?_)
  simp only [hall.1]
  refine Reads.get_bind fun taken ahead ↦ ?_
  simp only [hrun, overflowAt_eq_none 0 hbound]
  refine (reads_takeWhile_append hall.2 hrest).bind ?_
  simp only [hsign]
  exact Reads.pure _ rest

/-- The text of a fraction: a point and digits, or nothing. -/
def fractionText : Option (List UInt8) → List UInt8
  | none => []
  | some digits => 0x2E :: digits

/-- The digits of a fraction as they are written: at least one follows a point. -/
def Fraction (fraction : Option (List UInt8)) : Prop :=
  ∀ digits ∈ fraction, digits.all isDigit ∧ digits ≠ []

/-- Neither a digit nor a point stands next. -/
structure DecimalEnd (rest : List UInt8) : Prop where
  digits : DigitsEnd rest
  point : rest.head? ≠ some 0x2E

/-- Nothing that could belong to a number stands next. -/
structure NumberEnd (rest : List UInt8) : Prop extends DecimalEnd rest where
  exponent : (rest.head? = some 0x65 || rest.head? = some 0x45) = false

theorem digitsEnd_fractionText {fraction : Option (List UInt8)} {rest : List UInt8}
    (hrest : DigitsEnd rest) : DigitsEnd (fractionText fraction ++ rest) := by
  cases fraction with
  | none => exact hrest
  | some digits =>
    intro b hb
    rw [fractionText, List.cons_append, List.head?_cons, Option.mem_some_iff] at hb
    rw [← hb]
    decide

/-- The digits of a number, before and after the point. -/
theorem reads_number {negative : Bool} {whole rest last : List UInt8}
    (fraction : Option (List UInt8)) {outcome : Except Cause Numeral} (hwhole : Whole whole)
    (hfraction : Fraction fraction) (hrest : DecimalEnd rest)
    (hnext : Reads
      (do
        if ← nextIsOneOf 0x65 0x45 then
          let e ← exponentPart ((whole ++ fraction.getD []).all (· = 0x30))
          decimal negative (whole ++ fraction.getD []) (-((fraction.getD []).length : Int) + e)
        else if fraction.isSome then
          decimal negative (whole ++ fraction.getD []) (-((fraction.getD []).length : Int))
        else wholeNumber negative (whole ++ fraction.getD [])) rest outcome last) :
    Reads (number negative) (whole ++ (fractionText fraction ++ rest)) outcome last := by
  refine (reads_integerDigits hwhole (digitsEnd_fractionText hrest.digits)).bind
    ((reads_peek _).bind ?_)
  cases fraction with
  | none =>
    have hpoint : ¬(fractionText none ++ rest).head? = some 0x2E := hrest.point
    simp only [if_neg hpoint]
    exact (Reads.pure _ rest).bind hnext
  | some digits =>
    obtain ⟨hdigits, hne⟩ := hfraction digits rfl
    have hpoint : (fractionText (some digits) ++ rest).head? = some 0x2E := rfl
    simp only [if_pos hpoint]
    exact (reads_fractionDigits hdigits hne hrest.digits).bind ((Reads.pure _ rest).bind hnext)

theorem reads_number_whole {negative : Bool} {whole rest : List UInt8}
    {outcome : Except Cause Numeral} (hwhole : Whole whole) (hrest : NumberEnd rest)
    (hnumber : Reads (wholeNumber negative whole) rest outcome rest) :
    Reads (number negative) (whole ++ rest) outcome rest := by
  refine reads_number none hwhole nofun hrest.toDecimalEnd ?_
  refine (reads_nextIsOneOf _ _ rest).bind ?_
  rw [hrest.exponent]
  simpa using hnumber

theorem reads_number_positional {negative : Bool} {whole fraction rest : List UInt8}
    {outcome : Except Cause Numeral} (hwhole : Whole whole) (hfraction : fraction.all isDigit)
    (hne : fraction ≠ []) (hrest : NumberEnd rest)
    (hdecimal : Reads (decimal negative (whole ++ fraction) (-(fraction.length : Int))) rest outcome
      rest) :
    Reads (number negative) (whole ++ 0x2E :: (fraction ++ rest)) outcome rest := by
  refine reads_number (some fraction) hwhole ?_ hrest.toDecimalEnd ?_
  · rintro digits ⟨⟩
    exact ⟨hfraction, hne⟩
  refine (reads_nextIsOneOf _ _ rest).bind ?_
  rw [hrest.exponent]
  exact hdecimal

theorem reads_number_scientific {negative : Bool} {whole digits rest : List UInt8}
    {fraction : Option (List UInt8)} {outcome : Except Cause Numeral} (negativeExponent : Bool)
    (hwhole : Whole whole) (hfraction : Fraction fraction) (hdigits : digits.all isDigit)
    (hne : digits ≠ []) (hbound : ofDigits digits ≤ exponentBound) (hrest : DigitsEnd rest)
    (hdecimal : Reads (decimal negative (whole ++ fraction.getD [])
      (-((fraction.getD []).length : Int) +
        if negativeExponent then -(ofDigits digits : Int) else ofDigits digits))
      rest outcome rest) :
    Reads (number negative)
      (whole ++ (fractionText fraction ++
        0x65 :: exponentSign negativeExponent :: (digits ++ rest)))
      outcome rest := by
  refine reads_number _ hwhole hfraction ⟨?_, by simp⟩ ?_
  · rintro b ⟨⟩
    decide
  refine (reads_nextIsOneOf _ _ _).bind ?_
  rw [List.head?_cons, decide_eq_true rfl, Bool.true_or, if_pos rfl]
  exact (reads_exponentPart negativeExponent hdigits hne hbound hrest).bind hdecimal

theorem reads_decimal {negative : Bool} {digits : List UInt8} {e : Int} {x : Binary64}
    (h : Binary64.ofDecimal negative (ofDigits digits) e = x) (hx : x.isFinite)
    (rest : List UInt8) :
    Reads (decimal negative digits e) rest (.ok (.float x)) rest := by
  have hinfinite : x.isInfinite = false := by
    have hfinite : x.magnitude < Binary64.infinityMagnitude := of_decide_eq_true hx
    exact decide_eq_false hfinite.ne
  rw [decimal]
  simp only [h, hinfinite]
  exact Reads.pure _ rest

/-! ### Texts made of digits -/

/-- The bytes of characters that are digits. -/
def digitBytes (cs : List Char) : List UInt8 := cs.map fun c ↦ UInt8.ofNat c.toNat

theorem isDigit_bounds {c : Char} (h : c.isDigit) : 48 ≤ c.toNat ∧ c.toNat ≤ 57 := by
  simp only [Char.isDigit, Bool.and_eq_true, decide_eq_true_eq] at h
  exact ⟨h.1, h.2⟩

theorem toNat_digitByte {c : Char} (h : c.isDigit) : (UInt8.ofNat c.toNat).toNat = c.toNat := by
  have hbounds := isDigit_bounds h
  rw [UInt8.toNat_ofNat']
  omega

theorem utf8_digits {cs : List Char} (h : ∀ c ∈ cs, c.isDigit) :
    utf8 (String.ofList cs) = digitBytes cs := by
  rw [utf8_ofList]
  induction cs with
  | nil => rfl
  | cons c cs ih =>
    have hbounds := isDigit_bounds (h c List.mem_cons_self)
    have hone : String.utf8EncodeChar c = [UInt8.ofNat c.toNat] := by
      have hascii : c.val.toNat ≤ 0x7F := by
        change c.toNat ≤ 0x7F
        omega
      rw [String.utf8EncodeChar]
      simp only [if_pos hascii]
      rfl
    rw [List.flatMap_cons, hone, ih fun c hc ↦ h c (List.mem_cons_of_mem _ hc)]
    rfl

theorem isDigit_digitBytes {cs : List Char} (h : ∀ c ∈ cs, c.isDigit) :
    (digitBytes cs).all isDigit := by
  rw [List.all_eq_true]
  intro b hb
  obtain ⟨c, hc, rfl⟩ := List.mem_map.1 hb
  have hbounds := isDigit_bounds (h c hc)
  simp only [isDigit, Bool.and_eq_true, decide_eq_true_eq, UInt8.le_iff_toNat_le,
    toNat_digitByte (h c hc), UInt8.reduceToNat]
  exact hbounds

theorem ofDigits_digitBytes {cs : List Char} (h : ∀ c ∈ cs, c.isDigit) :
    ofDigits (digitBytes cs) = Nat.ofDigitChars 10 cs 0 := by
  rw [ofDigits, digitBytes, List.foldl_map, Nat.ofDigitChars_eq_foldl]
  refine List.foldl_ext _ _ _ fun n c hc ↦ ?_
  rw [toNat_digitByte (h c hc)]
  rfl

theorem digitBytes_append (cs ds : List Char) :
    digitBytes (cs ++ ds) = digitBytes cs ++ digitBytes ds := List.map_append

theorem length_digitBytes (cs : List Char) : (digitBytes cs).length = cs.length := List.length_map _

theorem digitBytes_ne_nil {cs : List Char} (h : cs ≠ []) : digitBytes cs ≠ [] := by
  simpa [digitBytes] using h

theorem isDigit_toDigits (n : Nat) : ∀ c ∈ Nat.toDigits 10 n, c.isDigit :=
  fun _ hc ↦ Nat.isDigit_of_mem_toDigits (by decide) (by decide) hc

/-- A positive number is written without a leading zero. -/
theorem toDigits_eq_cons {n : Nat} (h : 0 < n) :
    ∃ c more, Nat.toDigits 10 n = c :: more ∧ c ≠ '0' := by
  induction n using Nat.strong_induction_on with
  | _ n ih =>
    rw [Nat.toDigits_eq_if (by decide)]
    split_ifs with hn
    · refine ⟨_, [], rfl, ?_⟩
      interval_cases n <;> decide
    · obtain ⟨c, more, hdigits, hc⟩ := ih (n / 10) (by omega) (by omega)
      exact ⟨c, _, by rw [hdigits, List.cons_append], hc⟩

/-- Digits without a leading zero. -/
theorem whole_digitBytes {c : Char} {more : List Char} (h : ∀ d ∈ c :: more, d.isDigit)
    (hc : c ≠ '0') : Whole (digitBytes (c :: more)) where
  allDigits := isDigit_digitBytes h
  leading := by
    refine .inr ⟨_, digitBytes more, rfl, fun hzero ↦ hc (Char.ext (UInt32.toNat_inj.1 ?_))⟩
    rw [← UInt8.toNat_inj, toNat_digitByte (h c List.mem_cons_self)] at hzero
    exact hzero

theorem whole_toDigits (n : Nat) : Whole (digitBytes (Nat.toDigits 10 n)) := by
  rcases n.eq_zero_or_pos with rfl | hn
  · exact ⟨by decide, .inl rfl⟩
  · obtain ⟨c, more, hdigits, hc⟩ := toDigits_eq_cons hn
    rw [hdigits]
    exact whole_digitBytes (hdigits ▸ isDigit_toDigits n) hc

/-! ### Integers -/

theorem reads_wholeNumber_natural {n : Nat} (h : n < UInt64.size) (rest : List UInt8) :
    Reads (wholeNumber false (digitBytes (Nat.toDigits 10 n))) rest (.ok (.integer n)) rest := by
  have hn : ofDigits (digitBytes (Nat.toDigits 10 n)) = n := by
    rw [ofDigits_digitBytes (isDigit_toDigits n), Nat.ofDigitChars_ten_toDigits]
  simp only [wholeNumber, hn, if_pos h, Bool.not_false, if_true]
  exact Reads.pure _ rest

theorem reads_wholeNumber_negative {n : Nat} (hpos : 0 < n) (h : n ≤ UInt64.size / 2)
    (rest : List UInt8) :
    Reads (wholeNumber true (digitBytes (Nat.toDigits 10 n))) rest (.ok (.integer (-n))) rest := by
  have hn : ofDigits (digitBytes (Nat.toDigits 10 n)) = n := by
    rw [ofDigits_digitBytes (isDigit_toDigits n), Nat.ofDigitChars_ten_toDigits]
  simp only [wholeNumber, hn, if_neg hpos.ne', if_pos h, Bool.not_true, Bool.false_eq_true,
    if_false]
  exact Reads.pure _ rest

/-- The bytes of a sign. -/
def signBytes (negative : Bool) : List UInt8 := if negative then [0x2D] else []

/-- The integers that stay integers when they are read. -/
structure Fits64 (n : Int) : Prop where
  low : -(UInt64.size / 2 : Int) ≤ n
  high : n < UInt64.size

/-- Bytes that are read as a number after its sign. -/
structure NumeralBody (negative : Bool) (body : List UInt8) (n : Numeral) : Prop where
  first : ∃ b more, body = b :: more ∧ isDigit b
  reads : ∀ rest, NumberEnd rest → Reads (number negative) (body ++ rest) (.ok n) rest

/-- A text that is read as a number. -/
structure NumeralText (text : String) (negative : Bool) (body : List UInt8) (n : Numeral) : Prop
    extends NumeralBody negative body n where
  text : utf8 text = signBytes negative ++ body

theorem first_of_whole {whole : List UInt8} (h : Whole whole) (rest : List UInt8) :
    ∃ b more, whole ++ rest = b :: more ∧ isDigit b := by
  have hall := h.allDigits
  rcases h.leading with rfl | ⟨b, more, rfl, -⟩
  · exact ⟨0x30, rest, rfl, by decide⟩
  · rw [List.all_cons, Bool.and_eq_true] at hall
    exact ⟨b, more ++ rest, rfl, hall.1⟩

/-- An integer is read as it was written. -/
theorem numeralText_toString {n : Int} (h : Fits64 n) :
    NumeralText (toString n) (decide (n < 0)) (digitBytes (Nat.toDigits 10 n.natAbs))
      (.integer n) := by
  have htext (m : Nat) : utf8 m.repr = digitBytes (Nat.toDigits 10 m) := by
    rw [Nat.repr_eq_ofList_toDigits, utf8_digits (isDigit_toDigits m)]
  have hwhole := whole_toDigits n.natAbs
  refine ⟨⟨by simpa using first_of_whole hwhole [], fun rest hrest ↦ ?_⟩, ?_⟩
  swap
  · change utf8 n.repr = _
    rw [Int.repr_eq_if]
    by_cases hn : n < 0
    · have hneg : (-n).toNat = n.natAbs := by omega
      rw [if_neg (by omega), utf8_append, htext, decide_eq_true hn, hneg]
      rfl
    · have hpos : n.toNat = n.natAbs := by omega
      rw [if_pos (by omega), htext, decide_eq_false hn, hpos]
      rfl
  · refine reads_number_whole hwhole hrest ?_
    have hlow := h.low
    have hhigh := h.high
    by_cases hn : n < 0
    · have hneg : n = -(n.natAbs : Int) := by omega
      rw [decide_eq_true hn]
      have hread := reads_wholeNumber_negative (n := n.natAbs) (by omega) (by omega) rest
      rwa [← hneg] at hread
    · have hpos : (n.natAbs : Int) = n := by omega
      rw [decide_eq_false hn]
      have hread := reads_wholeNumber_natural (n := n.natAbs) (by omega) rest
      rwa [hpos] at hread

/-! ### Doubles -/

/-- The digits of a positive decimal without its trailing zeros, and where its point stands. -/
theorem digitsAndOrder_eq {d : Decimal} (h : 0 < d.digits) :
    ∃ c more z, d.digitsAndOrder = (c :: more, ((more.length + 1 + z : Nat) : Int) + d.exponent) ∧
      more.length + 1 + z = (Nat.toDigits 10 d.digits).length ∧ c ≠ '0' ∧
      (∀ e ∈ c :: more, e.isDigit) ∧ d.digits = Nat.ofDigitChars 10 (c :: more) 0 * 10 ^ z := by
  obtain ⟨c, tail, hall, hc⟩ := toDigits_eq_cons h
  set all := Nat.toDigits 10 d.digits with hdigits
  set kept := (all.reverse.dropWhile (· = '0')).reverse with hkept
  set zeros := all.reverse.takeWhile (· = '0') with hzeros
  have hsplit : all = kept ++ zeros.reverse := by
    rw [hkept, hzeros, ← List.reverse_append, List.takeWhile_append_dropWhile,
      List.reverse_reverse]
  have hrun : zeros.reverse = List.replicate zeros.length '0' := by
    rw [List.eq_replicate_iff]
    refine ⟨List.length_reverse, fun e he ↦ ?_⟩
    simpa using List.mem_takeWhile_imp (List.mem_reverse.1 he)
  obtain ⟨more, hmore⟩ : ∃ more, kept = c :: more := by
    cases hcase : kept with
    | nil =>
      rw [hcase, List.nil_append, hrun, hall] at hsplit
      have hmem : c ∈ List.replicate zeros.length '0' := hsplit ▸ List.mem_cons_self
      exact absurd (List.eq_of_mem_replicate hmem) hc
    | cons e more =>
      rw [hcase, hall, List.cons_append] at hsplit
      exact ⟨more, by rw [(List.cons.inj hsplit).1]⟩
  have hlength : all.length = more.length + 1 + zeros.length := by
    rw [hsplit, hmore, List.length_append, List.length_cons, List.length_reverse]
  refine ⟨c, more, zeros.length, ?_, hlength.symm, hc, fun e he ↦ ?_, ?_⟩
  · rw [← hmore, ← hlength]
    rfl
  · refine isDigit_toDigits d.digits e ?_
    rw [← hdigits, hsplit, hmore]
    exact List.mem_append_left _ he
  · have hvalue := Nat.ofDigitChars_ten_toDigits (n := d.digits)
    rw [← hdigits, hsplit, hmore, hrun, Nat.ofDigitChars_append, Nat.ofDigitChars_replicate_zero]
      at hvalue
    rw [Nat.mul_comm, hvalue]

/-- A decimal that reads back as `x`, by its digits from the first one on and the number of zeros
after them. -/
structure Shown (x : Binary64) (d : Decimal) (c : Char) (more : List Char) (z : Nat) : Prop where
  readsBack : x.ReadsBack d
  leading : c ≠ '0'
  allDigits : ∀ e ∈ c :: more, e.isDigit
  value : d.digits = Nat.ofDigitChars 10 (c :: more) 0 * 10 ^ z

namespace Shown

variable {x : Binary64} {d : Decimal} {c : Char} {more : List Char} {z : Nat}

/-- Where the point stands. -/
def order (d : Decimal) (more : List Char) (z : Nat) : Int :=
  ((more.length + 1 + z : Nat) : Int) + d.exponent

theorem isDigit_zeros (n : Nat) : ∀ e ∈ List.replicate n '0', e.isDigit := by
  intro e he
  rw [List.eq_of_mem_replicate he]
  decide

/-- The digits around a point are read as the double if they are the digits of the decimal between
zeros, and the point stands in its place. -/
theorem numeralBody_of_point (h : Shown x d c more z) (hx : x.isFinite) (whole fraction : List Char)
    (zeros : Nat) (hwhole : Whole (digitBytes whole)) (hdigits : ∀ e ∈ whole ++ fraction, e.isDigit)
    (hne : fraction ≠ [])
    (hvalue : Nat.ofDigitChars 10 (whole ++ fraction) 0 =
      Nat.ofDigitChars 10 (c :: more) 0 * 10 ^ zeros)
    (hpoint : -(fraction.length : Int) + zeros = z + d.exponent) (hzeros : zeros ≤ 20) :
    NumeralBody x.isNegative (digitBytes whole ++ 0x2E :: digitBytes fraction) (.float x) where
  first := first_of_whole hwhole _
  reads rest hrest := by
    rw [List.append_assoc, List.cons_append]
    refine reads_number_positional hwhole
      (isDigit_digitBytes fun e he ↦ hdigits e (List.mem_append_right _ he))
      (digitBytes_ne_nil hne) hrest (reads_decimal ?_ hx rest)
    rw [← digitBytes_append, ofDigits_digitBytes hdigits, length_digitBytes]
    exact h.readsBack.shifted h.value hvalue hpoint hzeros

theorem ofDigitChars_zeros (n : Nat) (cs : List Char) :
    Nat.ofDigitChars 10 (List.replicate n '0' ++ cs) 0 = Nat.ofDigitChars 10 cs 0 := by
  rw [Nat.ofDigitChars_append, Nat.ofDigitChars_replicate_zero, Nat.mul_zero]

/-- The point stands before the first digit, perhaps with zeros in between. -/
theorem numeralBody_pointFirst (h : Shown x d c more z) (hx : x.isFinite) (n : Nat)
    (hplace : (more.length : Int) + 1 + z + d.exponent = -n) :
    NumeralBody x.isNegative
      (utf8 ("0." ++ String.ofList (List.replicate n '0' ++ c :: more))) (.float x) := by
  have hz : '0'.isDigit := by decide
  have hdigits := List.forall_mem_append.2 ⟨isDigit_zeros n, h.allDigits⟩
  have hbody := h.numeralBody_of_point hx ['0'] (List.replicate n '0' ++ c :: more) 0
    ⟨by decide, .inl rfl⟩ (List.forall_mem_cons.2 ⟨hz, hdigits⟩) (by simp)
    (by
      rw [List.singleton_append, ← List.cons_append, ← List.replicate_succ, ofDigitChars_zeros,
        Nat.pow_zero, Nat.mul_one])
    (by
      rw [List.length_append, List.length_replicate, List.length_cons]
      push_cast
      omega)
    (by decide)
  rw [utf8_append, utf8_digits hdigits]
  exact hbody

/-- The point stands behind the last digit, perhaps with zeros in between. -/
theorem numeralBody_pointLast (h : Shown x d c more z) (hx : x.isFinite) (n : Nat) (hn : n < 20)
    (hplace : (z : Int) + d.exponent = n) :
    NumeralBody x.isNegative
      (utf8 (String.ofList (c :: more ++ List.replicate n '0') ++ ".0")) (.float x) := by
  have hdigits := List.forall_mem_append.2 ⟨h.allDigits, isDigit_zeros n⟩
  have hwhole : Whole (digitBytes (c :: (more ++ List.replicate n '0'))) :=
    whole_digitBytes hdigits h.leading
  have hbody := h.numeralBody_of_point hx (c :: more ++ List.replicate n '0') ['0'] (n + 1) hwhole
    (List.forall_mem_append.2 ⟨hdigits, isDigit_zeros 1⟩) (by simp)
    (by
      rw [List.append_assoc, ← List.replicate_succ', Nat.ofDigitChars_append,
        Nat.ofDigitChars_replicate_zero, Nat.mul_comm])
    (by
      rw [List.length_singleton]
      push_cast
      omega)
    hn
  rw [utf8_append, utf8_digits hdigits]
  exact hbody

/-- The point stands between two digits. -/
theorem numeralBody_pointInside (h : Shown x d c more z) (hx : x.isFinite) (n : Nat)
    (hn : n < more.length) (hplace : (more.length : Int) + z + d.exponent = n) :
    NumeralBody x.isNegative
      (utf8 (String.ofList ((c :: more).take (n + 1)) ++ "." ++
        String.ofList ((c :: more).drop (n + 1)))) (.float x) := by
  have hsplit : c :: more.take n ++ more.drop n = c :: more := by
    rw [List.cons_append, List.take_append_drop]
  have hdigits := h.allDigits
  rw [← hsplit] at hdigits
  obtain ⟨hbefore, hafter⟩ := List.forall_mem_append.1 hdigits
  have hbody := h.numeralBody_of_point hx (c :: more.take n) (more.drop n) 0
    (whole_digitBytes hbefore h.leading) hdigits
    (by
      rw [ne_eq, List.drop_eq_nil_iff]
      omega)
    (by rw [hsplit, Nat.pow_zero, Nat.mul_one])
    (by
      rw [List.length_drop]
      push_cast [hn.le]
      omega)
    (by decide)
  rw [List.take_succ_cons, List.drop_succ_cons, utf8_append, utf8_append, utf8_digits hbefore,
    utf8_digits hafter, List.append_assoc]
  exact hbody

/-- The positional text of a double is read as it. -/
theorem numeralBody_positional (h : Shown x d c more z) (hx : x.isFinite)
    (horder : order d more z ≤ 16) :
    NumeralBody x.isNegative (utf8 (Decimal.positional (c :: more) (order d more z) ".0"))
      (.float x) := by
  generalize ho : order d more z = o at horder
  have hplace : (more.length : Int) + 1 + z + d.exponent = o := by
    rw [← ho, order]
    push_cast
    ring
  rw [Decimal.positional]
  simp only [List.length_cons]
  split_ifs with hsmall hlarge
  · exact h.numeralBody_pointFirst hx _ (by omega)
  · exact h.numeralBody_pointLast hx _ (by omega) (by push_cast; omega)
  · obtain ⟨n, rfl⟩ : ∃ n : Nat, o = n + 1 := ⟨(o - 1).toNat, by omega⟩
    push_cast at hlarge
    exact h.numeralBody_pointInside hx n (by omega) (by omega)

/-- The digits after the first one, which stand behind a point if there are any. -/
def pointed : List Char → Option (List UInt8)
  | [] => none
  | c :: more => some (digitBytes (c :: more))

/-- The text with an exponent: the first digit, the digits behind a point, and the exponent with
its sign. -/
theorem utf8_scientific (hdigits : ∀ a ∈ c :: more, a.isDigit) {o e : Int} (he : o - 1 = e) :
    utf8 (Decimal.scientific (c :: more) o) = digitBytes [c] ++
      (fractionText (pointed more) ++
        0x65 :: exponentSign (decide (e < 0)) :: digitBytes (Nat.toDigits 10 e.natAbs)) := by
  obtain ⟨hfirst, hmore⟩ := List.forall_mem_cons.1 hdigits
  have hsingle : ∀ e ∈ [c], e.isDigit := by simpa using hfirst
  have hpoint : utf8 (if (c :: more).length ≤ 1 then "" else ".") ++ digitBytes more =
      fractionText (pointed more) := by
    cases more with
    | nil => rfl
    | cons a more =>
      rw [if_neg (by simp)]
      rfl
  have hsign : utf8 (if e < 0 then "e-" else "e+") = [0x65, exponentSign (decide (e < 0))] := by
    by_cases hneg : e < 0
    · rw [if_pos hneg, decide_eq_true hneg]
      rfl
    · rw [if_neg hneg, decide_eq_false hneg]
      rfl
  have hexponent : utf8 (toString e.natAbs) = digitBytes (Nat.toDigits 10 e.natAbs) := by
    rw [Nat.toString_eq_ofList_toDigits, utf8_digits (isDigit_toDigits _)]
  rw [Decimal.scientific]
  simp only [he, utf8_append, hsign, hexponent, List.take_succ_cons, List.take_zero,
    List.drop_succ_cons, List.drop_zero, utf8_digits hsingle, utf8_digits hmore, ← hpoint,
    List.append_assoc, List.cons_append, List.nil_append]

/-- The sign and the digits of an exponent spell it. -/
theorem signed_natAbs (e : Int) :
    (if decide (e < 0) = true then
      -(ofDigits (digitBytes (Nat.toDigits 10 e.natAbs)) : Int)
      else ofDigits (digitBytes (Nat.toDigits 10 e.natAbs))) = e := by
  rw [ofDigits_digitBytes (isDigit_toDigits _), Nat.ofDigitChars_ten_toDigits]
  by_cases hneg : e < 0
  · rw [decide_eq_true hneg, if_pos rfl]
    omega
  · rw [decide_eq_false hneg, if_neg Bool.false_ne_true]
    omega

/-- The text of a double with an exponent is read as it. -/
theorem numeralBody_scientific (h : Shown x d c more z) (hx : x.isFinite)
    (horder : (order d more z - 1).natAbs ≤ exponentBound) :
    NumeralBody x.isNegative (utf8 (Decimal.scientific (c :: more) (order d more z)))
      (.float x) := by
  rw [utf8_scientific h.allDigits rfl]
  generalize he : order d more z - 1 = e at horder
  have hplace : (more.length : Int) + z + d.exponent = e := by
    rw [← he, order]
    push_cast
    ring
  obtain ⟨hfirst, hmore⟩ := List.forall_mem_cons.1 h.allDigits
  have hsingle : ∀ e ∈ [c], e.isDigit := by simpa using hfirst
  have hwhole : Whole (digitBytes [c]) := whole_digitBytes hsingle h.leading
  refine ⟨first_of_whole hwhole _, fun rest hrest ↦ ?_⟩
  have hspelled : ofDigits (digitBytes (Nat.toDigits 10 e.natAbs)) = e.natAbs := by
    rw [ofDigits_digitBytes (isDigit_toDigits _), Nat.ofDigitChars_ten_toDigits]
  have hgetD : (pointed more).getD [] = digitBytes more := by cases more <;> rfl
  rw [List.append_assoc, List.append_assoc, List.cons_append, List.cons_append]
  refine reads_number_scientific _ hwhole ?_ (isDigit_digitBytes (isDigit_toDigits _))
    (digitBytes_ne_nil Nat.toDigits_ne_nil) (hspelled.trans_le horder) hrest.digits
    (reads_decimal ?_ hx rest)
  · rintro digits hdigits
    cases more with
    | nil => exact absurd hdigits (Option.not_mem_none _)
    | cons a more =>
      obtain rfl := Option.some.inj hdigits
      exact ⟨isDigit_digitBytes hmore, digitBytes_ne_nil (List.cons_ne_nil _ _)⟩
  · rw [signed_natAbs, hgetD, ← digitBytes_append, List.singleton_append,
      ofDigits_digitBytes h.allDigits, length_digitBytes]
    refine h.readsBack.shifted h.value (k := 0) (Nat.mul_one _).symm ?_ (by decide)
    rw [← hplace]
    push_cast
    ring

end Shown

/-- A finite double is read as it was written. -/
theorem numeralText_jsonNumber {x : Binary64} (hx : x.isFinite) :
    ∃ body, NumeralText x.jsonNumber x.isNegative body (.float x) := by
  have hsigned {text : String} (h : NumeralBody x.isNegative (utf8 text) (.float x)) :
      NumeralText (x.signText ++ text) x.isNegative (utf8 text) (.float x) := by
    refine ⟨h, ?_⟩
    rw [utf8_append, Binary64.signText]
    cases x.isNegative <;> rfl
  by_cases hzero : x.magnitude = 0
  · refine ⟨utf8 "0.0", ?_⟩
    rw [Binary64.jsonNumber, if_pos hzero]
    refine hsigned ⟨⟨0x30, [0x2E, 0x30], rfl, by decide⟩, fun rest hrest ↦ ?_⟩
    have hwhole : Whole [0x30] := ⟨by decide, .inl rfl⟩
    have hfraction : ([0x30] : List UInt8).all isDigit := by decide
    refine reads_number_positional hwhole hfraction (by decide) hrest (reads_decimal ?_ hx rest)
    refine Eq.trans ?_ x.ofMagnitude_magnitude
    rw [hzero]
    rfl
  · have hreadsBack := Binary64.readsBack_shortest .even hx
    have hdigits := hreadsBack.digits_pos hzero
    obtain ⟨c, more, z, hshown, hlength, hc, hall, hvalue⟩ := digitsAndOrder_eq hdigits
    have h : Shown x (x.shortest .even) c more z := ⟨hreadsBack, hc, hall, hvalue⟩
    have hcount : more.length + 1 + z ≤ 1000 := by
      rw [hlength]
      refine Nat.toDigits_length 10 _ 1000 (by decide) (hreadsBack.digits_lt.trans ?_)
      decide +kernel
    rw [Binary64.jsonNumber, if_neg hzero, hshown]
    simp only
    split_ifs with hrange
    · exact ⟨_, hsigned (h.numeralBody_positional hx (by rw [Shown.order]; omega))⟩
    · refine ⟨_, hsigned (h.numeralBody_scientific hx ?_)⟩
      have hlow := hreadsBack.exponent_ge
      have hhigh := hreadsBack.exponent_le
      rw [Shown.order, exponentBound]
      omega

theorem ne_of_isDigit {b c : UInt8} (hb : isDigit b) (hc : isDigit c = false) : b ≠ c := by
  rintro rfl
  exact Bool.false_ne_true (hc.symm.trans hb)

theorem isBlank_of_isDigit {b : UInt8} (hb : isDigit b) : isBlank b = false := by
  have hne {c : UInt8} (hc : isDigit c = false) : decide (b = c) = false :=
    decide_eq_false (ne_of_isDigit hb hc)
  rw [isBlank, hne (by decide), hne (by decide), hne (by decide), hne (by decide)]
  rfl

/-- A number is handed on wherever a value may start. -/
theorem reads_numeral {expected : String} {accept : Numeral → Reader Json} {text : String}
    {negative : Bool} {body blanks rest last : List UInt8} {n : Numeral}
    {outcome : Except Cause Json} (h : NumeralText text negative body n) (hblanks : Blank blanks)
    (hrest : NumberEnd rest) (haccept : Reads (accept n) rest outcome last) :
    Reads (numeral expected accept) (blanks ++ (utf8 text ++ rest)) outcome last := by
  have hread := (h.reads rest hrest).bind haccept
  obtain ⟨b, more, hbody, hb⟩ := h.first
  rw [h.text]
  cases negative with
  | true =>
    refine (reads_startOfValue hblanks (by decide)).bind (Reads.settle ?_)
    rw [if_pos rfl]
    exact (reads_discard _ _).bind hread
  | false =>
    rw [hbody] at hread
    rw [signBytes, if_neg Bool.false_ne_true, List.nil_append, hbody]
    refine (reads_startOfValue hblanks (isBlank_of_isDigit hb)).bind (Reads.settle ?_)
    rw [if_neg (ne_of_isDigit hb (by decide)), if_pos hb]
    exact hread

end Reader

end Json

end Turnstile
