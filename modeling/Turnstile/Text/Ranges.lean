/-!
# Ranges of code points

A class of characters is given by ranges of code points, the first and the last of each, in order.
-/

set_option autoImplicit false
set_option relaxedAutoImplicit false

namespace Turnstile

namespace Ranges

/-- Whether one of the ranges from index `low` up to `high` holds `n`, by halving. -/
def holdsFrom (ranges : Array (Nat × Nat)) (n : Nat) : Nat → Nat → Nat → Bool
  | 0, _, _ => false
  | fuel + 1, low, high =>
    if high ≤ low then false
    else
      let middle := (low + high) / 2
      match ranges[middle]? with
      | none => false
      | some (first, last) =>
        if n < first then holdsFrom ranges n fuel low middle
        else if last < n then holdsFrom ranges n fuel (middle + 1) high
        else true

/-- Whether one of the ranges holds `n`. -/
def holds (ranges : Array (Nat × Nat)) (n : Nat) : Bool :=
  holdsFrom ranges n (ranges.size + 1) 0 ranges.size

end Ranges

end Turnstile
