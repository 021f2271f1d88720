/-!
# Text as bytes

`utf8` writes a text, and `lossyText` reads any byte string: each maximal part that is no prefix of
a well-formed character becomes one replacement character. The reader is a machine that knows, after
a lead byte, how many continuation bytes are owed and in which range the next one lies, so a part is
abandoned at the first byte that cannot continue it, and that byte is read again from the start.
-/

set_option autoImplicit false
set_option relaxedAutoImplicit false

namespace Turnstile

/-- The bytes of a text. -/
def utf8 (s : String) : List UInt8 := s.toList.flatMap String.utf8EncodeChar

/-- The character shown for bytes that spell none. -/
def replacementChar : Char := '\uFFFD'

/-- A character whose lead byte has been read: its bits so far, the number of bytes still owed and
the range of the next one. -/
structure OpenChar where
  owed : Nat
  bits : Nat
  low : UInt8
  high : UInt8
deriving DecidableEq, Repr

/-- What a byte means where a character may start. -/
inductive Lead
  | whole (c : Char)
  | opens (o : OpenChar)
deriving DecidableEq, Repr

/-- The reading of a byte at the start of a character. The ranges of the second byte keep out
overlong forms, surrogates and everything above the last code point. -/
def Lead.ofByte (b : UInt8) : Lead :=
  let tail (owed mask : Nat) (low high : UInt8) : Lead :=
    .opens ⟨owed, b.toNat % mask, low, high⟩
  if b < 0x80 then .whole (Char.ofNat b.toNat)
  else if b < 0xC2 then .whole replacementChar
  else if b < 0xE0 then tail 1 32 0x80 0xBF
  else if b = 0xE0 then tail 2 16 0xA0 0xBF
  else if b = 0xED then tail 2 16 0x80 0x9F
  else if b < 0xF0 then tail 2 16 0x80 0xBF
  else if b = 0xF0 then tail 3 8 0x90 0xBF
  else if b < 0xF4 then tail 3 8 0x80 0xBF
  else if b = 0xF4 then tail 3 8 0x80 0x8F
  else .whole replacementChar

/-- The character that `o` becomes with a continuation byte, or the state after it. -/
def OpenChar.extend (o : OpenChar) (b : UInt8) : Lead :=
  let bits := o.bits * 64 + b.toNat % 64
  if o.owed ≤ 1 then .whole (Char.ofNat bits) else .opens ⟨o.owed - 1, bits, 0x80, 0xBF⟩

/-- The characters of a byte string, from a state between characters (`none`) or inside one. -/
def lossyFrom : Option OpenChar → List UInt8 → List Char
  | none, [] => []
  | some _, [] => [replacementChar]
  | none, b :: bs =>
    match Lead.ofByte b with
    | .whole c => c :: lossyFrom none bs
    | .opens o => lossyFrom (some o) bs
  | some o, b :: bs =>
    if o.low ≤ b ∧ b ≤ o.high then
      match o.extend b with
      | .whole c => c :: lossyFrom none bs
      | .opens o => lossyFrom (some o) bs
    else
      replacementChar ::
        match Lead.ofByte b with
        | .whole c => c :: lossyFrom none bs
        | .opens o => lossyFrom (some o) bs

/-- The text that a byte string spells, with a replacement character for every part that spells
nothing. -/
def lossyText (bytes : List UInt8) : String := String.ofList (lossyFrom none bytes)

/-- Whether a byte string spells a text, from a state between characters or inside one. -/
def wellFormedFrom : Option OpenChar → List UInt8 → Bool
  | none, [] => true
  | some _, [] => false
  | none, b :: bs =>
    match Lead.ofByte b with
    | .whole _ => b < 0x80 && wellFormedFrom none bs
    | .opens o => wellFormedFrom (some o) bs
  | some o, b :: bs =>
    o.low ≤ b && b ≤ o.high &&
      match o.extend b with
      | .whole _ => wellFormedFrom none bs
      | .opens o => wellFormedFrom (some o) bs

/-- The length of the longest start of a byte string that spells whole characters. Inside a
character, `opened` of its bytes have been read. -/
def spelledFrom : Option OpenChar → Nat → List UInt8 → Nat
  | _, _, [] => 0
  | none, _, b :: bs =>
    match Lead.ofByte b with
    | .whole _ => if b < 0x80 then spelledFrom none 0 bs + 1 else 0
    | .opens o => spelledFrom (some o) 1 bs
  | some o, opened, b :: bs =>
    if o.low ≤ b ∧ b ≤ o.high then
      match o.extend b with
      | .whole _ => spelledFrom none 0 bs + (opened + 1)
      | .opens o => spelledFrom (some o) (opened + 1) bs
    else 0

/-- The number of bytes before the first part that spells nothing. -/
def spelledLength (bytes : List UInt8) : Nat := spelledFrom none 0 bytes

/-- The text that a byte string spells, if it is well formed throughout. -/
def textOfUtf8? (bytes : List UInt8) : Option String :=
  if wellFormedFrom none bytes then some (lossyText bytes) else none

end Turnstile
