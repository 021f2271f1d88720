import Turnstile.Binary64.Basic

/-!
# The fewest digits that read back

The decimal chosen for a finite non-zero double is the one with the fewest digits that `ofDecimal`
rounds to it, and the nearest of those. With `n` digits the candidates are the two neighbours of the
value on the grid of the `n`-digit decimals; the first `n` for which one of them reads back wins.
Seventeen digits always suffice, and the search ends there.
-/

set_option autoImplicit false
set_option relaxedAutoImplicit false

namespace Turnstile

/-- The decimal `digits * 10 ^ exponent`. -/
structure Decimal where
  digits : Nat
  exponent : Int
deriving DecidableEq, Repr

/-- Which neighbour is chosen when two are equally near. -/
inductive TieRule
  | upper
  | even
deriving DecidableEq, Repr

namespace Binary64

/-- The value of a finite double without its sign, as a quotient. -/
def ratio (x : Binary64) : Nat × Nat :=
  if 0 ≤ x.exponent then (x.significand * Nat.pow 2 x.exponent.toNat, 1)
  else (x.significand, Nat.pow 2 (-x.exponent).toNat)

/-- The number of decimal digits of `n`. -/
def digitCount (n : Nat) : Nat := (Nat.toDigits 10 n).length

/-- The least `e` with `a / b < 10 ^ e`, for a positive quotient: the number of digits before the
point, or minus the number of zeros after it. -/
def decimalOrder (a b : Nat) : Int :=
  if b ≤ a then digitCount (a / b)
  else 1 - digitCount ((b + a - 1) / a - 1)

/-- `a / b` in units of `10 ^ e`, as a quotient. -/
def inUnits (a b : Nat) (e : Int) : Nat × Nat :=
  if 0 ≤ e then (a, b * Nat.pow 10 e.toNat) else (a * Nat.pow 10 (-e).toNat, b)

/-- Which of the neighbours `floor` and `floor + 1` of `a / b` is chosen if both read back. -/
def nearer (rule : TieRule) (a b : Nat) : Nat :=
  let floor := a / b
  let rest := 2 * (a % b)
  if rest < b then floor
  else if b < rest then floor + 1
  else match rule with
    | .upper => floor + 1
    | .even => if floor % 2 = 0 then floor else floor + 1

/-- The neighbour of `x` on the grid of `10 ^ e` that reads back as `x`, the nearer one of two. -/
def onGrid? (rule : TieRule) (x : Binary64) (e : Int) : Option Decimal :=
  let (a, b) := x.ratio
  let (n, d) := inUnits a b e
  let floor := n / d
  let lower := ofDecimal x.isNegative floor e = x
  let upper := ofDecimal x.isNegative (floor + 1) e = x
  if lower then
    if upper then some ⟨nearer rule n d, e⟩ else some ⟨floor, e⟩
  else if upper then some ⟨floor + 1, e⟩
  else none

/-- The exact value of `x`, whose expansion ends because the denominator is a power of two. -/
def exactDecimal (x : Binary64) : Decimal :=
  if 0 ≤ x.exponent then ⟨x.significand * Nat.pow 2 x.exponent.toNat, 0⟩
  else ⟨x.significand * Nat.pow 5 (-x.exponent).toNat, x.exponent⟩

/-- The search through the grids, from the one of `order - digits` on. The exact value ends it. -/
def shortestFrom (rule : TieRule) (x : Binary64) (order : Int) : Nat → Nat → Decimal
  | 0, _ => x.exactDecimal
  | fuel + 1, digits =>
    match onGrid? rule x (order - digits) with
    | some decimal => decimal
    | none => shortestFrom rule x order fuel (digits + 1)

/-- The decimal with the fewest digits that reads back as the finite non-zero double `x`. -/
def shortest (rule : TieRule) (x : Binary64) : Decimal :=
  let (a, b) := x.ratio
  shortestFrom rule x (decimalOrder a b) 17 1

end Binary64

end Turnstile
