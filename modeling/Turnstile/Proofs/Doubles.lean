import Mathlib.Data.Int.Log
import Mathlib.Data.Nat.Digits.Defs
import Mathlib.Algebra.Order.Floor.Semifield
import Mathlib.Data.Rat.Floor
import Mathlib.Tactic.FieldSimp
import Mathlib.Tactic.Linarith
import Mathlib.Tactic.NormNum
import Mathlib.Tactic.Positivity
import Mathlib.Tactic.Ring
import Turnstile.Binary64.Shortest

/-!
# Doubles and the decimals that read back as them

A numeral is read by rounding the rational that it denotes, and a double is written as a shortest
decimal that is rounded to it. Rounding is a function of the rational alone: the place of the last
bit is told by a logarithm (`exponentOfRatio_eq`), and remainders are compared by their quotients
(`roundQuotient_congr`), so that any numerator and denominator of one rational give the same double,
`nearest` (`ofRatio_eq_nearest`). A decimal that is far too large or too small is settled by an
estimate of its order, and settled rightly (`ofDecimal_eq_nearest`) as long as it does not have so
many digits that the estimate is off.

A finite double is the one nearest to its own value (`nearest_value`), so its exact expansion reads
back (`readsBack_exactDecimal`). The shortest decimal does, because the search accepts a decimal
only after reading it back, and falls back on the exact expansion where it finds none
(`readsBack_shortest`). Zeros that are moved between the digits and the exponent change nothing
(`ReadsBack.shifted`): this is how a text can place the point.
-/

set_option autoImplicit false
set_option relaxedAutoImplicit false

namespace Turnstile

namespace Binary64

/-! ### Rounding depends on the quotient alone -/

theorem roundQuotient_congr {a b a' b' : Nat} (hb : 0 < b) (hb' : 0 < b')
    (h : (a : ℚ) / b = (a' : ℚ) / b') : roundQuotient a b = roundQuotient a' b' := by
  have hfloor : a / b = a' / b' := by
    rw [← Nat.floor_div_eq_div (K := ℚ) a b, h, Nat.floor_div_eq_div]
  have hmod (n d : Nat) (hd : 0 < d) : (n : ℚ) / d = (n / d : Nat) + (n % d : Nat) / d := by
    have hsplit : ((d * (n / d) + n % d : Nat) : ℚ) = n := by rw [Nat.div_add_mod]
    push_cast at hsplit
    field_simp
    linarith
  have hrest : ((a % b : Nat) : ℚ) / b = ((a' % b' : Nat) : ℚ) / b' := by
    have hleft := hmod a b hb
    have hright := hmod a' b' hb'
    rw [h, hright, hfloor] at hleft
    linarith
  have hpos : (0 : ℚ) < b := by exact_mod_cast hb
  have hpos' : (0 : ℚ) < b' := by exact_mod_cast hb'
  have hmore (n d : Nat) (hd : (0 : ℚ) < d) :
      d < 2 * (n % d) ↔ 1 < 2 * (((n % d : Nat) : ℚ) / d) := by
    rw [← mul_div_assoc, one_lt_div hd]
    exact_mod_cast Iff.rfl
  have hhalf (n d : Nat) (hd : (0 : ℚ) < d) :
      2 * (n % d) = d ↔ 2 * (((n % d : Nat) : ℚ) / d) = 1 := by
    rw [← mul_div_assoc, div_eq_one_iff_eq hd.ne']
    exact_mod_cast Iff.rfl
  simp only [roundQuotient, hmore _ _ hpos, hmore _ _ hpos', hhalf _ _ hpos, hhalf _ _ hpos',
    hfloor, hrest]

/-- A scaled quotient is positive below. -/
theorem scaled_pos {a b : Nat} (hb : 0 < b) (q : Int) : 0 < (scaled a b q).2 := by
  unfold scaled
  split_ifs
  · exact Nat.mul_pos hb (Nat.pow_pos (by decide))
  · exact hb

theorem scaled_eq {a b : Nat} (q : Int) :
    ((scaled a b q).1 : ℚ) / (scaled a b q).2 = (a : ℚ) / b * 2 ^ (-q) := by
  unfold scaled
  split_ifs with h
  · have hq : ((q.toNat : Nat) : Int) = q := Int.toNat_of_nonneg h
    rw [← hq, zpow_neg, zpow_natCast]
    simp only [Int.toNat_natCast, Nat.pow_eq, Nat.cast_mul, Nat.cast_pow, Nat.cast_ofNat]
    rw [div_mul_eq_div_div, div_eq_mul_inv]
  · have hq : (((-q).toNat : Nat) : Int) = -q := Int.toNat_of_nonneg (by omega)
    rw [← hq, zpow_natCast]
    simp only [Nat.pow_eq, Nat.cast_mul, Nat.cast_pow, Nat.cast_ofNat]
    simp only [hq]
    ring

/-- The power of two of the last place that a double near a rational has. -/
def lastPlace (v : ℚ) : Int := max (-1074) (Int.log 2 v - 52)

/-- A quotient lies between the powers of two that the logarithms of its parts tell. -/
theorem log_div_bounds {a b : Nat} (ha : 0 < a) (hb : 0 < b) :
    (a.log2 : Int) - b.log2 - 1 ≤ Int.log 2 ((a : ℚ) / b) ∧
      Int.log 2 ((a : ℚ) / b) < (a.log2 : Int) - b.log2 + 1 := by
  have hbq : (0 : ℚ) < b := by exact_mod_cast hb
  have hv : (0 : ℚ) < (a : ℚ) / b := div_pos (by exact_mod_cast ha) hbq
  have hpow (n : Nat) : (0 : ℚ) < ((2 : Nat) : ℚ) ^ n := by positivity
  have hself {n : Nat} (hn : 0 < n) : ((2 : Nat) : ℚ) ^ n.log2 ≤ n := by
    exact_mod_cast Nat.log2_self_le hn.ne'
  have hnext (n : Nat) : (n : ℚ) < ((2 : Nat) : ℚ) ^ (n.log2 + 1) := by
    exact_mod_cast Nat.lt_log2_self
  constructor
  · rw [← Int.zpow_le_iff_le_log (by decide) hv, sub_sub, zpow_sub₀ (by norm_num),
      ← Nat.cast_succ, zpow_natCast, zpow_natCast]
    exact div_le_div₀ (by positivity) (hself ha) hbq (hnext b).le
  · rw [← Int.lt_zpow_iff_log_lt (by decide) hv, sub_add_eq_add_sub, zpow_sub₀ (by norm_num),
      ← Nat.cast_succ, zpow_natCast, zpow_natCast]
    exact div_lt_div₀ (hnext a) (hself hb) (hpow _).le (hpow _)

/-- Whether a quotient has fewer than 53 bits above some place. -/
theorem scaled_div_lt_iff (a : Nat) {b : Nat} (hb : 0 < b) (q : Int) :
    (scaled a b (q - 52)).1 / (scaled a b (q - 52)).2 < 2 ^ 52 ↔
      (a : ℚ) / b < ((2 : Nat) : ℚ) ^ q := by
  have hd := scaled_pos (a := a) hb (q - 52)
  have hsplit : ((2 : Nat) : ℚ) ^ q = 2 ^ 52 * 2 ^ (q - 52) := by
    rw [← zpow_natCast, ← zpow_add₀ (by norm_num)]
    norm_num
  have hunit : (0 : ℚ) < 2 ^ (q - 52) := zpow_pos (by norm_num) _
  rw [Nat.div_lt_iff_lt_mul hd, hsplit, ← div_lt_iff₀ hunit, div_eq_mul_inv, ← zpow_neg,
    ← scaled_eq, div_lt_iff₀ (by exact_mod_cast hd)]
  exact_mod_cast Iff.rfl

theorem exponentOfRatio_eq {a b : Nat} (ha : 0 < a) (hb : 0 < b) :
    exponentOfRatio a b = lastPlace ((a : ℚ) / b) := by
  have hv : (0 : ℚ) < (a : ℚ) / b :=
    div_pos (by exact_mod_cast ha) (by exact_mod_cast hb)
  obtain ⟨hlow, hhigh⟩ := log_div_bounds ha hb
  unfold exponentOfRatio lastPlace
  simp only [Nat.pow_eq, scaled_div_lt_iff a hb]
  -- the guess is the greater of the two, unless the quotient is below it
  by_cases hless : (a : ℚ) / b < ((2 : Nat) : ℚ) ^ ((a.log2 : Int) - b.log2)
  · have hlog := (Int.lt_zpow_iff_log_lt (by decide) hv).1 hless
    rw [if_pos hless]
    congr 1
    omega
  · have hlog := (Int.zpow_le_iff_le_log (by decide) hv).1 (not_lt.1 hless)
    rw [if_neg hless]
    congr 1
    omega

/-- The double nearest to a rational. -/
def nearest (negative : Bool) (v : ℚ) : Binary64 := ofRatio negative v.num.natAbs v.den

theorem ofRatio_congr (negative : Bool) {a b a' b' : Nat} (hb : 0 < b) (hb' : 0 < b')
    (h : (a : ℚ) / b = (a' : ℚ) / b') : ofRatio negative a b = ofRatio negative a' b' := by
  have hbq : (0 : ℚ) < b := by exact_mod_cast hb
  have hbq' : (0 : ℚ) < b' := by exact_mod_cast hb'
  by_cases ha : a = 0
  · have ha' : a' = 0 := by
      rw [ha, Nat.cast_zero, zero_div, eq_comm, div_eq_zero_iff] at h
      exact_mod_cast h.resolve_right hbq'.ne'
    rw [ofRatio, ofRatio, if_pos ha, if_pos ha']
  · have ha' : a' ≠ 0 := by
      rintro rfl
      rw [Nat.cast_zero, zero_div, div_eq_zero_iff] at h
      exact ha (by exact_mod_cast h.resolve_right hbq.ne')
    have hexponent : exponentOfRatio a b = exponentOfRatio a' b' := by
      rw [exponentOfRatio_eq (Nat.pos_of_ne_zero ha) hb,
        exponentOfRatio_eq (Nat.pos_of_ne_zero ha') hb', h]
    have hround (q : Int) : roundQuotient (scaled a b q).1 (scaled a b q).2 =
        roundQuotient (scaled a' b' q).1 (scaled a' b' q).2 := by
      refine roundQuotient_congr (scaled_pos hb q) (scaled_pos hb' q) ?_
      rw [scaled_eq, scaled_eq, h]
    rw [ofRatio, ofRatio, if_neg ha, if_neg ha', hexponent]
    simp only [hround]

theorem ofRatio_eq_nearest (negative : Bool) {a b : Nat} (hb : 0 < b) :
    ofRatio negative a b = nearest negative ((a : ℚ) / b) := by
  refine ofRatio_congr negative hb (Rat.den_pos _) ?_
  have hnum : (0 : ℚ) ≤ (a : ℚ) / b := by positivity
  have hcast : ((((a : ℚ) / b).num.natAbs : Nat) : ℚ) = ((a : ℚ) / b).num := by
    rw [← Int.cast_natCast, Int.natAbs_of_nonneg (Rat.num_nonneg.2 hnum)]
  rw [hcast, Rat.num_div_den]

/-- How `nearest` rounds a positive rational. -/
theorem nearest_eq {v : ℚ} (hv : 0 < v) (negative : Bool) :
    ∃ n d : Nat, 0 < d ∧ (n : ℚ) / d = v * 2 ^ (-lastPlace v) ∧
      nearest negative v = ofMagnitude negative
        (min ((lastPlace v + 1074).toNat * 2 ^ 52 + roundQuotient n d) infinityMagnitude) := by
  have hnum : 0 < v.num := Rat.num_pos.2 hv
  have hvalue : ((v.num.natAbs : Nat) : ℚ) / v.den = v := by
    rw [← Int.cast_natCast, Int.natAbs_of_nonneg hnum.le, Rat.num_div_den]
  have hplace := exponentOfRatio_eq (Int.natAbs_pos.2 hnum.ne') v.den_pos
  rw [hvalue] at hplace
  refine ⟨(scaled v.num.natAbs v.den (lastPlace v)).1, (scaled v.num.natAbs v.den (lastPlace v)).2,
    scaled_pos v.den_pos _, ?_, ?_⟩
  · rw [scaled_eq, hvalue]
  · rw [nearest, ofRatio, if_neg (Int.natAbs_ne_zero.2 hnum.ne'), hplace]
    rfl

theorem roundQuotient_mul (n : Nat) {d : Nat} (hd : 0 < d) : roundQuotient (n * d) d = n := by
  simp [roundQuotient, Nat.mul_div_cancel n hd, hd.ne]

theorem le_roundQuotient {n a b : Nat} (hb : 0 < b) (h : (n : ℚ) ≤ (a : ℚ) / b) :
    n ≤ roundQuotient a b := by
  have hfloor : n ≤ a / b := by
    rw [le_div_iff₀ (by exact_mod_cast hb)] at h
    exact (Nat.le_div_iff_mul_le hb).2 (by exact_mod_cast h)
  unfold roundQuotient
  simp only
  split_ifs <;> omega

theorem roundQuotient_eq_zero {a b : Nat} (hb : 0 < b) (h : (a : ℚ) / b < 1 / 2) :
    roundQuotient a b = 0 := by
  have hless : 2 * a < b := by
    rw [div_lt_iff₀ (by exact_mod_cast hb)] at h
    have hdouble : (2 * a : ℚ) < b := by linarith
    exact_mod_cast hdouble
  have hmod : a % b = a := Nat.mod_eq_of_lt (by omega)
  have hdiv : a / b = 0 := Nat.div_eq_of_lt (by omega)
  simp only [roundQuotient, hmod, hdiv]
  rw [if_neg (by omega)]

/-- What is too large becomes an infinity. -/
theorem nearest_of_large {v : ℚ} (h : 2 ^ 1024 ≤ v) (negative : Bool) :
    nearest negative v = ofMagnitude negative infinityMagnitude := by
  have hv : 0 < v := lt_of_lt_of_le (by positivity) h
  have hlog : 1024 ≤ Int.log 2 v := (Int.zpow_le_iff_le_log (by decide) hv).1 (by exact_mod_cast h)
  obtain ⟨n, d, hd, hquotient, hnearest⟩ := nearest_eq hv negative
  have hplace : lastPlace v = Int.log 2 v - 52 := max_eq_right (by omega)
  rw [hplace] at hquotient hnearest
  have hround : 2 ^ 52 ≤ roundQuotient n d := by
    refine le_roundQuotient hd ?_
    have hself := Int.zpow_log_le_self (b := 2) (by decide) hv
    have hunit : (0 : ℚ) < 2 ^ (-(Int.log 2 v - 52)) := zpow_pos (by norm_num) _
    rw [hquotient]
    calc ((2 ^ 52 : Nat) : ℚ) = 2 ^ Int.log 2 v * 2 ^ (-(Int.log 2 v - 52)) := by
          rw [← zpow_add₀ (by norm_num), ← sub_eq_add_neg, sub_sub_cancel]
          norm_num
      _ ≤ v * 2 ^ (-(Int.log 2 v - 52)) := by
          exact mul_le_mul_of_nonneg_right (by exact_mod_cast hself) hunit.le
  rw [hnearest, Nat.min_eq_right]
  have hbinade : 2046 ≤ (Int.log 2 v - 52 + 1074).toNat := by omega
  calc infinityMagnitude = 2046 * 2 ^ 52 + 2 ^ 52 := by decide
    _ ≤ _ := Nat.add_le_add (Nat.mul_le_mul_right _ hbinade) hround

/-- What is too small vanishes. -/
theorem nearest_of_small {v : ℚ} (hv : 0 < v) (h : v < 2 ^ (-1075 : Int)) (negative : Bool) :
    nearest negative v = zero negative := by
  have hlog : Int.log 2 v < -1075 :=
    (Int.lt_zpow_iff_log_lt (by decide) hv).1 (by rwa [Nat.cast_ofNat])
  obtain ⟨n, d, hd, hquotient, hnearest⟩ := nearest_eq hv negative
  have hplace : lastPlace v = -1074 := max_eq_left (by omega)
  rw [hplace] at hquotient hnearest
  have hround : roundQuotient n d = 0 := by
    refine roundQuotient_eq_zero hd ?_
    have hunit : (0 : ℚ) < 2 ^ (-(-1074) : Int) := zpow_pos (by norm_num) _
    have hhalf : (2 : ℚ) ^ (-1075 : Int) * 2 ^ (-(-1074) : Int) = 1 / 2 := by
      rw [← zpow_add₀ (by norm_num)]
      norm_num
    rw [hquotient, ← hhalf]
    exact mul_lt_mul_of_pos_right h hunit
  rw [hnearest, hround]
  rfl

/-! ### The value of a double -/

/-- The value of a finite double without its sign. -/
def value (x : Binary64) : ℚ := x.significand * 2 ^ x.exponent

theorem ofMagnitude_magnitude (x : Binary64) : ofMagnitude x.isNegative x.magnitude = x := by
  obtain ⟨bits⟩ := x
  have hlt := bits.toNat_lt
  have hsplit : bits.toNat % 2 ^ 63 + (if 2 ^ 63 ≤ bits.toNat then 2 ^ 63 else 0) = bits.toNat := by
    split_ifs <;> omega
  rw [ofMagnitude, isNegative, magnitude]
  simp only [Nat.pow_eq, decide_eq_true_eq, hsplit, UInt64.ofNat_toNat]

/-- Place and significand make up the magnitude. -/
theorem magnitude_eq (x : Binary64) :
    (x.exponent + 1074).toNat * 2 ^ 52 + x.significand = x.magnitude := by
  have hsplit : x.exponentField * 2 ^ 52 + x.magnitude % 2 ^ 52 = x.magnitude := by
    rw [exponentField, Nat.mul_comm]
    exact Nat.div_add_mod _ _
  by_cases hsubnormal : x.exponentField = 0
  · rw [exponent, significand, if_pos hsubnormal, if_pos hsubnormal]
    change 0 * 2 ^ 52 + x.magnitude = x.magnitude
    rw [Nat.zero_mul, Nat.zero_add]
  · have hplace : ((x.exponentField : Int) - 1075 + 1074).toNat = x.exponentField - 1 := by omega
    have hcarry : (x.exponentField - 1) * 2 ^ 52 + 2 ^ 52 = x.exponentField * 2 ^ 52 := by
      rw [← Nat.succ_mul, Nat.succ_eq_add_one, Nat.sub_add_cancel (Nat.pos_of_ne_zero hsubnormal)]
    rw [exponent, significand, if_neg hsubnormal, if_neg hsubnormal, hplace, Nat.pow_eq,
      Nat.add_left_comm, hcarry, Nat.add_comm, hsplit]

/-- The last place of the value of a double is the place of its significand. -/
theorem lastPlace_value {x : Binary64} (h : 0 < x.significand) :
    lastPlace x.value = x.exponent := by
  have hmod : x.magnitude % 2 ^ 52 < 2 ^ 52 := Nat.mod_lt _ (by decide)
  have hunit : (0 : ℚ) < 2 ^ x.exponent := zpow_pos (by norm_num) _
  have hv : 0 < x.value := mul_pos (by exact_mod_cast h) hunit
  have hbelow (n : Nat) (hn : x.significand < 2 ^ n) : Int.log 2 x.value < n + x.exponent := by
    refine (Int.lt_zpow_iff_log_lt (by decide) hv).1 ?_
    rw [Nat.cast_ofNat, zpow_add₀ (by norm_num), zpow_natCast, value]
    exact mul_lt_mul_of_pos_right (by exact_mod_cast hn) hunit
  by_cases hsubnormal : x.exponentField = 0
  · have hsignificand : x.significand < 2 ^ 52 := by
      rw [exponentField, Nat.pow_eq, Nat.div_eq_zero_iff] at hsubnormal
      rw [significand, exponentField, Nat.pow_eq, Nat.div_eq_of_lt (by omega), if_pos rfl]
      omega
    have hexponent : x.exponent = -1074 := by rw [exponent, if_pos hsubnormal]
    have hlog := hbelow 52 hsignificand
    rw [lastPlace, hexponent]
    omega
  · have hexponent : x.exponent = (x.exponentField : Int) - 1075 := by
      rw [exponent, if_neg hsubnormal]
    have hsignificand : x.significand = x.magnitude % 2 ^ 52 + 2 ^ 52 := by
      rw [significand, if_neg hsubnormal, Nat.pow_eq]
    have hlog := hbelow 53 (by omega)
    have habove : 52 + x.exponent ≤ Int.log 2 x.value := by
      refine (Int.zpow_le_iff_le_log (by decide) hv).1 ?_
      rw [Nat.cast_ofNat, zpow_add₀ (by norm_num), value]
      refine mul_le_mul_of_nonneg_right ?_ hunit.le
      have hwide : 2 ^ 52 ≤ x.significand := by omega
      exact_mod_cast hwide
    rw [lastPlace]
    omega

/-- A double is the one nearest to its value. -/
theorem nearest_value {x : Binary64} (h : x.isFinite) : nearest x.isNegative x.value = x := by
  have hfinite : x.magnitude < infinityMagnitude := of_decide_eq_true h
  by_cases hzero : x.magnitude = 0
  · have hsignificand : x.significand = 0 := by
      simp [significand, exponentField, hzero]
    have hvalue : x.value = 0 := by simp [value, hsignificand]
    rw [hvalue]
    refine Eq.trans ?_ x.ofMagnitude_magnitude
    rw [hzero]
    rfl
  · have hsignificand : 0 < x.significand := by
      unfold significand
      split_ifs
      · omega
      · simp only [Nat.pow_eq]
        omega
    have hpos : (0 : ℚ) < x.significand := by exact_mod_cast hsignificand
    have hunit : (0 : ℚ) < 2 ^ x.exponent := zpow_pos (by norm_num) _
    have hv : 0 < x.value := mul_pos hpos hunit
    have hplace : lastPlace x.value = x.exponent := lastPlace_value hsignificand
    obtain ⟨n, d, hd, hquotient, hnearest⟩ := nearest_eq hv x.isNegative
    have hround : roundQuotient n d = x.significand := by
      rw [← roundQuotient_mul x.significand Nat.one_pos]
      refine roundQuotient_congr hd Nat.one_pos ?_
      rw [hquotient, hplace, value, mul_assoc, ← zpow_add₀ (by norm_num), add_neg_cancel]
      simp
    rw [hnearest, hround, hplace, magnitude_eq, Nat.min_eq_left hfinite.le, ofMagnitude_magnitude]

/-! ### Decimals -/

/-- Three digits take ten bits at most. -/
theorem pow_ten_le_pow_two (n : Nat) : 10 ^ (3 * (n / 10)) ≤ 2 ^ n :=
  calc 10 ^ (3 * (n / 10)) = (10 ^ 3) ^ (n / 10) := pow_mul 10 3 _
    _ ≤ (2 ^ 10) ^ (n / 10) := Nat.pow_le_pow_left (by decide) _
    _ = 2 ^ (10 * (n / 10)) := (pow_mul 2 10 _).symm
    _ ≤ 2 ^ n := Nat.pow_le_pow_right (by decide) (Nat.mul_div_le n 10)

/-- Thirteen bits fit four digits. -/
theorem pow_two_le_pow_ten (n : Nat) : 2 ^ n ≤ 10 ^ (4 * (n / 13 + 1)) :=
  calc 2 ^ n ≤ 2 ^ (13 * (n / 13 + 1)) := Nat.pow_le_pow_right (by decide) (by omega)
    _ = (2 ^ 13) ^ (n / 13 + 1) := pow_mul 2 13 _
    _ ≤ (10 ^ 4) ^ (n / 13 + 1) := Nat.pow_le_pow_left (by decide) _
    _ = 10 ^ (4 * (n / 13 + 1)) := (pow_mul 10 4 _).symm

/-- A decimal of a large order is too large, unless it has so many digits that the estimate of the
order is off. -/
theorem le_decimal_of_order {digits : Nat} (hzero : digits ≠ 0) (h : digits.log2 ≤ 3000) {e : Int}
    (horder : 400 < (digits.log2 : Int) * 30103 / 100000 + e) :
    (2 : ℚ) ^ 1024 ≤ digits * 10 ^ e := by
  have hten : (0 : ℚ) < 10 ^ e := zpow_pos (by norm_num) _
  have hlow : (10 : ℚ) ^ (3 * (digits.log2 / 10)) ≤ digits := by
    exact_mod_cast (pow_ten_le_pow_two _).trans (Nat.log2_self_le hzero)
  have hbound : (360 : Int) ≤ ((3 * (digits.log2 / 10) : Nat) : Int) + e := by omega
  calc (2 : ℚ) ^ 1024 ≤ 10 ^ (360 : Int) := by
        have hpow : 2 ^ 1024 ≤ 10 ^ 360 := by decide +kernel
        exact_mod_cast hpow
    _ ≤ 10 ^ (((3 * (digits.log2 / 10) : Nat) : Int) + e) :=
      zpow_le_zpow_right₀ (by norm_num) hbound
    _ = 10 ^ (3 * (digits.log2 / 10)) * 10 ^ e := by
      rw [zpow_add₀ (by norm_num), zpow_natCast]
    _ ≤ digits * 10 ^ e := mul_le_mul_of_nonneg_right hlow hten.le

/-- A decimal of a small order is too small. -/
theorem decimal_lt_of_order {digits : Nat} (h : digits.log2 ≤ 3000) {e : Int}
    (horder : (digits.log2 : Int) * 30103 / 100000 + e < -400) :
    (digits : ℚ) * 10 ^ e < 2 ^ (-1075 : Int) := by
  have hten : (0 : ℚ) < 10 ^ e := zpow_pos (by norm_num) _
  have hhigh : (digits : ℚ) < 10 ^ (4 * ((digits.log2 + 1) / 13 + 1)) := by
    exact_mod_cast Nat.lt_log2_self.trans_le (pow_two_le_pow_ten _)
  have hbound : ((4 * ((digits.log2 + 1) / 13 + 1) : Nat) : Int) + e ≤ (-360 : Int) := by omega
  calc (digits : ℚ) * 10 ^ e < 10 ^ (4 * ((digits.log2 + 1) / 13 + 1)) * 10 ^ e :=
      mul_lt_mul_of_pos_right hhigh hten
    _ = 10 ^ (((4 * ((digits.log2 + 1) / 13 + 1) : Nat) : Int) + e) := by
      rw [zpow_add₀ (by norm_num), zpow_natCast]
    _ ≤ 10 ^ (-360 : Int) := zpow_le_zpow_right₀ (by norm_num) hbound
    _ ≤ 2 ^ (-1075 : Int) := by
      have hpow : 2 ^ 1075 ≤ 10 ^ 360 := by decide +kernel
      rw [zpow_neg, zpow_neg]
      refine inv_anti₀ (zpow_pos (by norm_num) _) ?_
      exact_mod_cast hpow

/-- A decimal is read as the double nearest to it, also where its order of magnitude settles it. -/
theorem ofDecimal_eq_nearest (negative : Bool) {digits : Nat} (h : digits.log2 ≤ 3000) (e : Int) :
    ofDecimal negative digits e = nearest negative (digits * 10 ^ e) := by
  by_cases hzero : digits = 0
  · rw [ofDecimal, if_pos hzero, hzero, Nat.cast_zero, zero_mul]
    rfl
  have hvalue : (0 : ℚ) < digits * 10 ^ e :=
    mul_pos (by exact_mod_cast Nat.pos_of_ne_zero hzero) (zpow_pos (by norm_num) _)
  have hreach : decimalReach = 400 := rfl
  rw [ofDecimal, if_neg hzero]
  simp only [hreach]
  by_cases hlarge : (400 : Int) < (digits.log2 : Int) * 30103 / 100000 + e
  · rw [if_pos hlarge]
    exact (nearest_of_large (le_decimal_of_order hzero h hlarge) negative).symm
  rw [if_neg hlarge]
  by_cases hsmall : (digits.log2 : Int) * 30103 / 100000 + e < -400
  · rw [if_pos hsmall]
    exact (nearest_of_small hvalue (decimal_lt_of_order h hsmall) negative).symm
  rw [if_neg hsmall]
  split_ifs with hsign
  · obtain ⟨n, rfl⟩ := Int.eq_ofNat_of_zero_le hsign
    rw [ofRatio_eq_nearest _ Nat.one_pos]
    simp
  · obtain ⟨n, rfl⟩ : ∃ n : Nat, e = -n := ⟨(-e).toNat, by omega⟩
    rw [Nat.pow_eq, ofRatio_eq_nearest _ (Nat.pow_pos (by decide))]
    simp [div_eq_mul_inv]

theorem log2_lt_of_lt {n k : Nat} (hk : 0 < k) (h : n < 2 ^ k) : n.log2 < k := by
  by_cases hzero : n = 0
  · rwa [hzero]
  · exact (Nat.log2_lt hzero).2 h

/-- A decimal that reads back as a double, with digits and an exponent that are not too large. -/
structure ReadsBack (x : Binary64) (d : Decimal) : Prop where
  reads : ofDecimal x.isNegative d.digits d.exponent = x
  digits_lt : d.digits < 2 ^ 2900
  exponent_ge : -1100 ≤ d.exponent
  exponent_le : d.exponent ≤ 1100

theorem magnitude_zero (negative : Bool) : (zero negative).magnitude = 0 := by
  cases negative <;> rfl

theorem ReadsBack.digits_pos {x : Binary64} {d : Decimal} (h : x.ReadsBack d)
    (hx : x.magnitude ≠ 0) : 0 < d.digits := by
  rw [Nat.pos_iff_ne_zero]
  intro hzero
  have hreads := h.reads
  rw [ofDecimal, if_pos hzero] at hreads
  rw [← hreads, magnitude_zero] at hx
  exact hx rfl

theorem significand_lt (x : Binary64) : x.significand < 2 ^ 53 := by
  have hmod : x.magnitude % 2 ^ 52 < 2 ^ 52 := Nat.mod_lt _ (by decide)
  by_cases hsubnormal : x.exponentField = 0
  · have hsmall : x.magnitude < 2 ^ 52 := by
      rw [exponentField, Nat.pow_eq, Nat.div_eq_zero_iff] at hsubnormal
      omega
    rw [significand, if_pos hsubnormal]
    exact hsmall.trans (by decide)
  · rw [significand, if_neg hsubnormal, Nat.pow_eq]
    exact (Nat.add_lt_add_right hmod _).trans_le (by decide)

theorem exponent_ge (x : Binary64) : -1074 ≤ x.exponent := by
  unfold exponent
  split_ifs <;> omega

theorem exponent_le {x : Binary64} (h : x.isFinite) : x.exponent ≤ 971 := by
  have hfinite : x.magnitude < 0x7FF * Nat.pow 2 52 := of_decide_eq_true h
  have hfield : x.exponentField < 0x7FF := Nat.div_lt_of_lt_mul (by rwa [Nat.mul_comm])
  unfold exponent
  split_ifs <;> omega

theorem pow_five_le_pow_two (n : Nat) : 5 ^ n ≤ 2 ^ (7 * (n / 3 + 1)) :=
  calc 5 ^ n ≤ 5 ^ (3 * (n / 3 + 1)) := Nat.pow_le_pow_right (by decide) (by omega)
    _ = (5 ^ 3) ^ (n / 3 + 1) := pow_mul 5 3 _
    _ ≤ (2 ^ 7) ^ (n / 3 + 1) := Nat.pow_le_pow_left (by decide) _
    _ = 2 ^ (7 * (n / 3 + 1)) := (pow_mul 2 7 _).symm

theorem significand_mul_pow_two_lt (x : Binary64) {n k : Nat} (h : 53 + n ≤ k) :
    x.significand * 2 ^ n < 2 ^ k := by
  calc x.significand * 2 ^ n < 2 ^ 53 * 2 ^ n :=
        Nat.mul_lt_mul_of_pos_right x.significand_lt (Nat.pow_pos (by decide))
    _ = 2 ^ (53 + n) := (pow_add 2 53 n).symm
    _ ≤ 2 ^ k := Nat.pow_le_pow_right (by decide) h

theorem significand_mul_pow_five_lt (x : Binary64) {n k : Nat} (h : 53 + 7 * (n / 3 + 1) ≤ k) :
    x.significand * 5 ^ n < 2 ^ k :=
  calc x.significand * 5 ^ n ≤ x.significand * 2 ^ (7 * (n / 3 + 1)) :=
        Nat.mul_le_mul_left _ (pow_five_le_pow_two n)
    _ < 2 ^ k := x.significand_mul_pow_two_lt h

/-- The exact expansion of a double reads back. -/
theorem readsBack_exactDecimal {x : Binary64} (h : x.isFinite) : x.ReadsBack x.exactDecimal := by
  have hlow := x.exponent_ge
  have hhigh := exponent_le h
  have hread {d : Decimal} (hd : d.digits < 2 ^ 2900)
      (hvalue : (d.digits : ℚ) * 10 ^ d.exponent = x.value) :
      ofDecimal x.isNegative d.digits d.exponent = x := by
    have hlog : d.digits.log2 < 2900 := log2_lt_of_lt (by decide) hd
    rw [ofDecimal_eq_nearest _ (by omega), hvalue, nearest_value h]
  unfold exactDecimal
  generalize hexponent : x.exponent = e at *
  split_ifs with hsign
  · obtain ⟨n, rfl⟩ := Int.eq_ofNat_of_zero_le hsign
    have hbound : x.significand * Nat.pow 2 (n : Int).toNat < 2 ^ 2900 :=
      x.significand_mul_pow_two_lt (by omega)
    exact ⟨hread hbound (by simp [value, hexponent]), hbound, by simp only; omega,
      by simp only; omega⟩
  · obtain ⟨n, rfl⟩ : ∃ n : Nat, e = -n := ⟨(-e).toNat, by omega⟩
    have hbound : x.significand * Nat.pow 5 (-(-(n : Int))).toNat < 2 ^ 2900 :=
      x.significand_mul_pow_five_lt (by omega)
    refine ⟨hread hbound ?_, hbound, by simp only; omega, by simp only; omega⟩
    have hten : (10 : ℚ) ^ n = 5 ^ n * 2 ^ n := by
      rw [← mul_pow]
      norm_num
    have hfive : (5 : ℚ) ^ n ≠ 0 := by positivity
    have htwo : (2 : ℚ) ^ n ≠ 0 := by positivity
    simp only [value, hexponent, zpow_neg, zpow_natCast, Int.neg_neg, Int.toNat_natCast, Nat.pow_eq,
      Nat.cast_mul, Nat.cast_pow, Nat.cast_ofNat, hten]
    field_simp

/-- A decimal on a grid that is found to read back does so. -/
theorem readsBack_onGrid? {rule : TieRule} {x : Binary64} {e : Int} {d : Decimal}
    (h : onGrid? rule x e = some d) :
    ofDecimal x.isNegative d.digits e = x ∧ d.exponent = e ∧
      d.digits ≤ (inUnits x.ratio.1 x.ratio.2 e).1 / (inUnits x.ratio.1 x.ratio.2 e).2 + 1 := by
  unfold onGrid? at h
  simp only at h
  split_ifs at h with hlower hupper hupper
  · obtain rfl := Option.some.inj h
    have hnearer (n d : Nat) : nearer rule n d = n / d ∨ nearer rule n d = n / d + 1 := by
      unfold nearer
      cases rule <;> simp only <;> split_ifs <;> simp
    obtain hfloor | hfloor := hnearer (inUnits x.ratio.1 x.ratio.2 e).1
      (inUnits x.ratio.1 x.ratio.2 e).2
    · simp only [hfloor]
      exact ⟨hlower, trivial, by omega⟩
    · simp only [hfloor]
      exact ⟨hupper, trivial, le_rfl⟩
  · obtain rfl := Option.some.inj h
    exact ⟨hlower, rfl, Nat.le_succ _⟩
  · obtain rfl := Option.some.inj h
    exact ⟨hupper, rfl, le_rfl⟩

theorem ratio_lt {x : Binary64} (h : x.isFinite) :
    x.ratio.1 < 2 ^ 1024 ∧ x.ratio.2 ≤ 2 ^ 1074 := by
  have hlow := x.exponent_ge
  have hhigh := exponent_le h
  have hsignificand := x.significand_lt
  unfold ratio
  generalize x.exponent = e at *
  split_ifs with hsign
  · obtain ⟨n, rfl⟩ := Int.eq_ofNat_of_zero_le hsign
    have hone (k : Nat) : 1 ≤ 2 ^ k := Nat.one_le_two_pow
    exact ⟨x.significand_mul_pow_two_lt (by omega), hone 1074⟩
  · refine ⟨hsignificand.trans_le (pow_le_pow_right₀ (by decide) (by decide)), ?_⟩
    have hmono {m k : Nat} (hle : m ≤ k) : 2 ^ m ≤ 2 ^ k := Nat.pow_le_pow_right (by decide) hle
    exact hmono (by omega)

theorem decimalOrder_mem {x : Binary64} (h : x.isFinite) :
    -324 ≤ decimalOrder x.ratio.1 x.ratio.2 ∧ decimalOrder x.ratio.1 x.ratio.2 ≤ 325 := by
  obtain ⟨hnumerator, hdenominator⟩ := ratio_lt h
  generalize x.ratio.1 = a at *
  generalize x.ratio.2 = b at *
  have hcount (n : Nat) (hn : n ≤ a + b) : digitCount n ≤ 325 := by
    refine Nat.toDigits_length 10 n 325 (by decide) ?_
    have hpow : 2 ^ 1024 + 2 ^ 1074 < 10 ^ 325 := by decide +kernel
    exact (hn.trans (Nat.add_le_add hnumerator.le hdenominator)).trans_lt hpow
  unfold decimalOrder
  split_ifs
  · have hle := hcount (a / b) ((Nat.div_le_self a b).trans (Nat.le_add_right a b))
    omega
  · have hdiv := Nat.div_le_self (b + a - 1) a
    have hle := hcount ((b + a - 1) / a - 1) (by omega)
    omega

/-- Finer units multiply the numerator by a power of ten. -/
theorem inUnits_le (a b : Nat) {e : Int} {n : Nat} (h : -e ≤ n) :
    (inUnits a b e).1 ≤ a * 10 ^ n := by
  unfold inUnits
  split_ifs
  · exact Nat.le_mul_of_pos_right _ (Nat.pow_pos (by decide))
  · rw [Nat.pow_eq]
    exact Nat.mul_le_mul_left _ (Nat.pow_le_pow_right (by decide) (by omega))

/-- The shortest decimal of a double reads back. -/
theorem readsBack_shortest (rule : TieRule) {x : Binary64} (h : x.isFinite) :
    x.ReadsBack (x.shortest rule) := by
  obtain ⟨hlow, hhigh⟩ := decimalOrder_mem h
  obtain ⟨hnumerator, -⟩ := ratio_lt h
  unfold shortest
  simp only
  generalize decimalOrder x.ratio.1 x.ratio.2 = order at *
  have hsearch (fuel digits : Nat) (hfuel : digits + fuel ≤ 18) :
      x.ReadsBack (shortestFrom rule x order fuel digits) := by
    induction fuel generalizing digits with
    | zero => exact readsBack_exactDecimal h
    | succ fuel ih =>
      unfold shortestFrom
      cases hgrid : onGrid? rule x (order - digits) with
      | none => exact ih (digits + 1) (by omega)
      | some d =>
        obtain ⟨hreads, hexponent, hdigits⟩ := readsBack_onGrid? hgrid
        have hunits : (inUnits x.ratio.1 x.ratio.2 (order - digits)).1 ≤ x.ratio.1 * 10 ^ 341 :=
          inUnits_le _ _ (by omega)
        have hbound : x.ratio.1 * 10 ^ 341 + 1 < 2 ^ 2900 := by
          have hpow : 2 ^ 1024 * 10 ^ 341 + 1 < 2 ^ 2900 := by decide +kernel
          exact (Nat.add_le_add_right (Nat.mul_le_mul_right _ hnumerator.le) 1).trans_lt hpow
        refine ⟨by rwa [hexponent], ?_, by simp only [hexponent]; omega,
          by simp only [hexponent]; omega⟩
        calc d.digits ≤ _ := hdigits
          _ ≤ x.ratio.1 * 10 ^ 341 + 1 := Nat.succ_le_succ ((Nat.div_le_self _ _).trans hunits)
          _ < 2 ^ 2900 := hbound
  exact hsearch 17 1 (by decide)

theorem log2_mul_pow_ten_le (n k : Nat) : (n * 10 ^ k).log2 ≤ n.log2 + 4 * k := by
  refine Nat.lt_succ_iff.1 (log2_lt_of_lt (Nat.succ_pos _) ?_)
  calc n * 10 ^ k ≤ n * (2 ^ 4) ^ k := Nat.mul_le_mul_left _ (Nat.pow_le_pow_left (by decide) _)
    _ = n * 2 ^ (4 * k) := by rw [pow_mul]
    _ < 2 ^ (n.log2 + 1) * 2 ^ (4 * k) :=
      Nat.mul_lt_mul_of_pos_right Nat.lt_log2_self (Nat.pow_pos (by decide))
    _ = 2 ^ (n.log2 + 4 * k + 1) := by rw [← pow_add, Nat.add_right_comm]

/-- A decimal that reads back does so with zeros moved between its digits and its exponent. -/
theorem ReadsBack.shifted {x : Binary64} {d : Decimal} (h : x.ReadsBack d) {n z k digits : Nat}
    {e : Int} (hd : d.digits = n * 10 ^ z) (hdigits : digits = n * 10 ^ k)
    (he : e + k = z + d.exponent) (hk : k ≤ 20) : ofDecimal x.isNegative digits e = x := by
  have hlog : d.digits.log2 < 2900 := log2_lt_of_lt (by decide) h.digits_lt
  have hn : n.log2 ≤ d.digits.log2 := by
    rw [hd, Nat.log2_eq_log_two, Nat.log2_eq_log_two]
    exact Nat.log_mono_right (Nat.le_mul_of_pos_right n (Nat.pow_pos (by decide)))
  have hshifted : digits.log2 ≤ n.log2 + 4 * k := hdigits ▸ log2_mul_pow_ten_le n k
  have hten : (10 : ℚ) ≠ 0 := by norm_num
  have hvalue : (digits : ℚ) * 10 ^ e = d.digits * 10 ^ d.exponent := by
    rw [hd, hdigits, Nat.cast_mul, Nat.cast_mul, Nat.cast_pow, Nat.cast_pow, Nat.cast_ofNat,
      mul_assoc, mul_assoc, ← zpow_natCast, ← zpow_natCast, ← zpow_add₀ hten, ← zpow_add₀ hten,
      add_comm, he]
  rw [ofDecimal_eq_nearest _ (by omega), hvalue, ← ofDecimal_eq_nearest _ (by omega), h.reads]

end Binary64

end Turnstile
