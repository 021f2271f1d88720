import Turnstile.Bytes.Packed
import Turnstile.Bytes.Table
import Turnstile.Text.Cut

/-!
# Text in buffers of fixed size

A counted buffer keeps the number of its bytes beside it and may hold zero characters. A padded
buffer ends at its first zero byte.
-/

set_option autoImplicit false
set_option relaxedAutoImplicit false

namespace Turnstile

/-- A buffer of `n` bytes. -/
abbrev Buffer (n : Nat) := Vector UInt8 n

namespace Buffer

variable {n : Nat}

/-- The buffer of zero bytes. -/
def zero (n : Nat) : Buffer n := Vector.replicate n 0

/-- The first `n` of `bytes`, filled up with zero bytes. -/
def ofBytes (n : Nat) (bytes : List UInt8) : Buffer n := tableOf n 0 bytes

/-- The buffer that holds what fits of `s`. -/
def ofText (n : Nat) (s : String) : Buffer n := ofBytes n (utf8 (fitting n s))

/-- The buffer that holds what fits of `s` before its first zero character. -/
def ofPadded (n : Nat) (s : String) : Buffer n := ofBytes n (utf8 (padded n s))

/-- The text of the first `count` bytes; a larger count reads the whole buffer. -/
def text (b : Buffer n) (count : Nat) : String := lossyText (b.toList.take count)

/-- The text before the first zero byte. -/
def paddedText (b : Buffer n) : String := lossyText (b.toList.takeWhile (· ≠ 0))

end Buffer

end Turnstile
