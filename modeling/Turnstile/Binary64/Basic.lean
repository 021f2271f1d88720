/-!
# Double-precision numbers as bit patterns

A number is kept as its 64 bits, so every statement about it is one about natural numbers. A finite
number is `significand * 2 ^ exponent` with its sign. `ofRatio` rounds a quotient of natural numbers
to the nearest double, ties to the even significand, and `ofDecimal` a decimal.
-/

set_option autoImplicit false
set_option relaxedAutoImplicit false

namespace Turnstile

/-- A double-precision number, told apart from others by its bits. -/
structure Binary64 where
  bits : UInt64
deriving DecidableEq, Repr, Inhabited

namespace Binary64

/-- Whether the sign bit is set. -/
def isNegative (x : Binary64) : Bool := Nat.pow 2 63 ≤ x.bits.toNat

/-- The bits without the sign. -/
def magnitude (x : Binary64) : Nat := x.bits.toNat % Nat.pow 2 63

/-- The biased exponent. -/
def exponentField (x : Binary64) : Nat := x.magnitude / Nat.pow 2 52

/-- The magnitude of the infinities. -/
def infinityMagnitude : Nat := 0x7FF * Nat.pow 2 52

def isNaN (x : Binary64) : Bool := infinityMagnitude < x.magnitude

def isInfinite (x : Binary64) : Bool := x.magnitude = infinityMagnitude

def isFinite (x : Binary64) : Bool := x.magnitude < infinityMagnitude

/-- The integer that a finite number multiplies with a power of two. -/
def significand (x : Binary64) : Nat :=
  if x.exponentField = 0 then x.magnitude else x.magnitude % Nat.pow 2 52 + Nat.pow 2 52

/-- The power of two that belongs to the significand. -/
def exponent (x : Binary64) : Int :=
  if x.exponentField = 0 then -1074 else (x.exponentField : Int) - 1075

/-- The number with the given sign and magnitude bits. -/
def ofMagnitude (negative : Bool) (magnitude : Nat) : Binary64 :=
  ⟨UInt64.ofNat (magnitude + if negative then Nat.pow 2 63 else 0)⟩

/-- Zero with a sign. -/
def zero (negative : Bool) : Binary64 := ofMagnitude negative 0

/-- The quotient of `a` and `b` rounded to the nearest integer, a half to the even one. -/
def roundQuotient (a b : Nat) : Nat :=
  let floor := a / b
  let rest := 2 * (a % b)
  if b < rest ∨ (rest = b ∧ floor % 2 = 1) then floor + 1 else floor

/-- `a / b / 2 ^ q` as a quotient. -/
def scaled (a b : Nat) (q : Int) : Nat × Nat :=
  if 0 ≤ q then (a, b * Nat.pow 2 q.toNat) else (a * Nat.pow 2 (-q).toNat, b)

/-- The power of two under which the significand of `a / b` has its full width, or the least one
there is. -/
def exponentOfRatio (a b : Nat) : Int :=
  let guess : Int := (Nat.log2 a : Int) - Nat.log2 b - 52
  let (n, d) := scaled a b guess
  max (-1074) (if n / d < Nat.pow 2 52 then guess - 1 else guess)

/-- The double nearest to `a / b`, ties to the even significand; what is too large becomes an
infinity. Adding the significand to the shifted exponent carries a significand that was rounded up
to the next power of two. -/
def ofRatio (negative : Bool) (a b : Nat) : Binary64 :=
  if a = 0 then zero negative
  else
    let q := exponentOfRatio a b
    let (n, d) := scaled a b q
    let magnitude := (q + 1074).toNat * Nat.pow 2 52 + roundQuotient n d
    ofMagnitude negative (min magnitude infinityMagnitude)

/-- The double nearest to an integer. -/
def ofNat (negative : Bool) (n : Nat) : Binary64 := ofRatio negative n 1

/-- A decimal with this many digits before the point overflows, and one with this many zeros after
it vanishes. -/
def decimalReach : Int := 400

/-- The double nearest to `digits * 10 ^ e`. Decimals far outside the range are settled by their
order of magnitude, so no large power is computed for them. -/
def ofDecimal (negative : Bool) (digits : Nat) (e : Int) : Binary64 :=
  if digits = 0 then zero negative
  else
    let order : Int := (Nat.log2 digits : Int) * 30103 / 100000 + e
    if decimalReach < order then ofMagnitude negative infinityMagnitude
    else if order < -decimalReach then zero negative
    else if 0 ≤ e then ofRatio negative (digits * Nat.pow 10 e.toNat) 1
    else ofRatio negative digits (Nat.pow 10 (-e).toNat)

/-- The double with the value of a single-precision number given by its bits. The payload of a NaN
is kept and made quiet. -/
def ofSingleBits (bits : UInt32) : Binary64 :=
  let n := bits.toNat
  let negative : Bool := Nat.pow 2 31 ≤ n
  let e := n / Nat.pow 2 23 % 256
  let fraction := n % Nat.pow 2 23
  if e = 255 then
    if fraction = 0 then ofMagnitude negative infinityMagnitude
    else ofMagnitude negative (infinityMagnitude + (Nat.pow 2 51 ||| fraction * Nat.pow 2 29))
  else if e = 0 then ofRatio negative fraction (Nat.pow 2 149)
  else ofRatio negative ((fraction + Nat.pow 2 23) * Nat.pow 2 e) (Nat.pow 2 150)

end Binary64

end Turnstile
