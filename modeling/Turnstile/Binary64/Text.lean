import Turnstile.Binary64.Shortest

/-!
# Two texts of a double

Both texts show the digits that `Binary64.shortest` chooses. `display` is positional throughout;
`jsonNumber` changes to an exponent outside a range and always shows that it is no integer.
-/

set_option autoImplicit false
set_option relaxedAutoImplicit false

namespace Turnstile

namespace Decimal

/-- The digits without trailing zeros, and the position of the point: the value is `0.d₁d₂… * 10 ^
order`. -/
def digitsAndOrder (d : Decimal) : List Char × Int :=
  let all := Nat.toDigits 10 d.digits
  ((all.reverse.dropWhile (· = '0')).reverse, all.length + d.exponent)

/-- Digits with a point and without exponent; `fraction` says what follows an integer. -/
def positional (digits : List Char) (order : Int) (fraction : String) : String :=
  let count : Int := digits.length
  if order ≤ 0 then
    "0." ++ String.ofList (List.replicate (-order).toNat '0' ++ digits)
  else if count ≤ order then
    String.ofList (digits ++ List.replicate (order - count).toNat '0') ++ fraction
  else
    String.ofList (digits.take order.toNat) ++ "." ++ String.ofList (digits.drop order.toNat)

/-- One digit before the point, and a signed exponent. -/
def scientific (digits : List Char) (order : Int) : String :=
  let e := order - 1
  let point := if digits.length ≤ 1 then "" else "."
  String.ofList (digits.take 1) ++ point ++ String.ofList (digits.drop 1) ++
    (if e < 0 then "e-" else "e+") ++ toString e.natAbs

end Decimal

namespace Binary64

/-- The sign in front of a text. -/
def signText (x : Binary64) : String := if x.isNegative then "-" else ""

/-- The text of a double where it is shown to a reader: never an exponent, no fraction for an
integer, and of two equally near decimals the upper one. -/
def display (x : Binary64) : String :=
  if x.isNaN then "NaN"
  else if x.isInfinite then x.signText ++ "inf"
  else if x.magnitude = 0 then x.signText ++ "0"
  else
    let (digits, order) := (x.shortest .upper).digitsAndOrder
    x.signText ++ Decimal.positional digits order ""

/-- The text of a finite double in a JSON document: positional while the leading digit stands
between the fifth place after the point and the sixteenth before it, with an exponent otherwise. -/
def jsonNumber (x : Binary64) : String :=
  if x.magnitude = 0 then x.signText ++ "0.0"
  else
    let (digits, order) := (x.shortest .even).digitsAndOrder
    let e := order - 1
    x.signText ++
      if -5 ≤ e ∧ e ≤ 15 then Decimal.positional digits order ".0"
      else Decimal.scientific digits order

end Binary64

end Turnstile
