import Turnstile.Json.Fault
import Turnstile.Text.Utf8

/-!
# Scanning a JSON document byte by byte

A cursor stands between the bytes taken and the bytes left, and remembers whether the next byte has
been looked at: faults are placed after the last byte looked at. A `Reader` is a computation over a
cursor that may stop with a fault and leaves the cursor where it stopped, so that the value around a
fault can still be finished.

Two scanners of strings and numbers stand side by side. The checked one yields the value. The other
one passes over values that nobody asked for, and asks less of them: it does not pair surrogates,
and no number is too large for it.
-/

set_option autoImplicit false
set_option relaxedAutoImplicit false

namespace Turnstile

namespace Json

/-- A place in a document. -/
structure Cursor where
  rest : List UInt8
  taken : Nat
  ahead : Bool
deriving DecidableEq, Repr

namespace Cursor

/-- The start of a document. -/
def start (bytes : List UInt8) : Cursor := ⟨bytes, 0, false⟩

/-- The number of bytes looked at. -/
def looked (c : Cursor) : Nat := c.taken + if c.ahead then 1 else 0

/-- The cursor after looking at the next byte. -/
def peeked (c : Cursor) : Cursor := { c with ahead := !c.rest.isEmpty }

/-- The cursor after the next byte. -/
def advance (c : Cursor) : Cursor :=
  match c.rest with
  | [] => ⟨[], c.taken, false⟩
  | _ :: rest => ⟨rest, c.taken + 1, false⟩

end Cursor

/-- A computation that moves a cursor and may stop with a fault. -/
abbrev Reader := ExceptT Fault (StateM Cursor)

namespace Reader

/-- The outcome of a reader, and the cursor it leaves. -/
def runAt {α : Type} (r : Reader α) (c : Cursor) : Except Fault α × Cursor := r c

/-- A reader given by what it does to a cursor. -/
def ofRun {α : Type} (run : Cursor → Except Fault α × Cursor) : Reader α := run

/-- Stop with a fault placed after the last byte looked at. -/
def fail {α : Type} (cause : Cause) : Reader α :=
  ofRun fun c ↦ (.error ⟨cause, some c.looked⟩, c)

/-- Stop with a fault placed `back` bytes before the last byte looked at. -/
def failBefore {α : Type} (back : Nat) (cause : Cause) : Reader α :=
  ofRun fun c ↦ (.error ⟨cause, some (c.looked - back)⟩, c)

/-- Stop with a mismatch that the value around it will place. -/
def reject {α : Type} (m : Mismatch) : Reader α := throw ⟨.mismatch m, none⟩

/-- Place a fault of `r` that has no place yet where `r` stopped. -/
def settle {α : Type} (r : Reader α) : Reader α :=
  ofRun fun c ↦
    match r.runAt c with
    | (.ok a, c) => (.ok a, c)
    | (.error f, c) => (.error { f with looked := f.looked <|> some c.looked }, c)

/-- Run `first` and then `second`, whether or not `first` stopped with a fault; the first fault of
the two is the outcome. -/
def thenAlways {α : Type} (first : Reader α) (second : Reader Unit) : Reader α :=
  ofRun fun c ↦
    match first.runAt c with
    | (.error f, c) => (.error f, (second.runAt c).2)
    | (.ok a, c) =>
      match second.runAt c with
      | (.ok _, c) => (.ok a, c)
      | (.error f, c) => (.error f, c)

/-- The next byte, which stays in place. -/
def peek : Reader (Option UInt8) := ofRun fun c ↦ (.ok c.rest.head?, c.peeked)

/-- The next byte, which is taken. -/
def next : Reader (Option UInt8) := ofRun fun c ↦ (.ok c.rest.head?, c.advance)

/-- Take a byte that has been looked at. -/
def discard : Reader Unit := ofRun fun c ↦ (.ok (), c.advance)

/-- The longest run of bytes with a property; the byte after it is looked at. -/
def takeWhile (p : UInt8 → Bool) : Reader (List UInt8) :=
  ofRun fun c ↦
    let run := c.rest.takeWhile p
    (.ok run, Cursor.peeked ⟨c.rest.dropWhile p, c.taken + run.length, false⟩)

/-- The bytes that JSON allows between its parts. -/
def isBlank (b : UInt8) : Bool := b = 0x20 || b = 0x0A || b = 0x09 || b = 0x0D

/-- The first byte after blanks, which stays in place. -/
def skipBlanks : Reader (Option UInt8) := do
  let _ ← takeWhile isBlank
  peek

/-- The first byte after blanks, where the document must go on with a value. -/
def startOfValue : Reader UInt8 := do
  match ← skipBlanks with
  | some b => pure b
  | none => fail (.endOfInput .value)

/-- The rest of a word whose first letter has been taken. -/
def word : List UInt8 → Reader Unit
  | [] => pure ()
  | expected :: rest => do
    match ← next with
    | none => fail (.endOfInput .value)
    | some b => if b = expected then word rest else fail (.breach .identifierExpected)

/-! ### Strings -/

/-- Where a scanner of strings stands: between characters, after a backslash, inside the four digits
of a code unit, or after the first half of a surrogate pair. -/
inductive StringState
  | plain
  | escape
  | digits (seen : List UInt8) (high : Option Nat)
  | pairBackslash (high : Nat)
  | pairLetter (high : Nat)
deriving DecidableEq, Repr

/-- The byte that a one-letter escape stands for. -/
def escapedByte? (b : UInt8) : Option UInt8 :=
  if b = 0x22 ∨ b = 0x5C ∨ b = 0x2F then some b
  else if b = 0x62 then some 0x08
  else if b = 0x66 then some 0x0C
  else if b = 0x6E then some 0x0A
  else if b = 0x72 then some 0x0D
  else if b = 0x74 then some 0x09
  else none

/-- The number that hexadecimal digits spell, last digit first. -/
def codeUnit? : List UInt8 → Option Nat
  | [] => some 0
  | b :: bs =>
    match hexValue? (Char.ofNat b.toNat), codeUnit? bs with
    | some d, some n => some (16 * n + d)
    | _, _ => none

/-- One step inside a string. -/
inductive StringStep
  | goes (state : StringState) (bytes : List UInt8)
  | ends
  | stops (b : Breach)

/-- What the code unit `n` means after an optional first half of a pair. -/
def unitStep (high : Option Nat) (n : Nat) : StringStep :=
  match high with
  | none =>
    if 0xDC00 ≤ n ∧ n ≤ 0xDFFF then .stops .loneSurrogate
    else if 0xD800 ≤ n ∧ n ≤ 0xDBFF then .goes (.pairBackslash n) []
    else .goes .plain (String.utf8EncodeChar (Char.ofNat n))
  | some high =>
    if 0xDC00 ≤ n ∧ n ≤ 0xDFFF then
      let point := (high - 0xD800) * 0x400 + (n - 0xDC00) + 0x10000
      .goes .plain (String.utf8EncodeChar (Char.ofNat point))
    else .stops .loneSurrogate

/-- What byte `b` does in a state, with the bytes it contributes. A scanner that does not check
pairs goes on after any code unit. -/
def stringStep (checked : Bool) (state : StringState) (b : UInt8) : StringStep :=
  match state with
  | .plain =>
    if b = 0x22 then .ends
    else if b = 0x5C then .goes .escape []
    else if b < 0x20 then .stops .controlCharacter
    else .goes .plain [b]
  | .escape =>
    if b = 0x75 then .goes (.digits [] none) []
    else match escapedByte? b with
      | some byte => .goes .plain [byte]
      | none => .stops .invalidEscape
  | .digits seen high =>
    let seen := b :: seen
    if seen.length < 4 then .goes (.digits seen high) []
    else match codeUnit? seen with
      | none => .stops .invalidEscape
      | some n => if checked then unitStep high n else .goes .plain []
  | .pairBackslash high =>
    if b = 0x5C then .goes (.pairLetter high) [] else .stops .unfinishedEscape
  | .pairLetter high =>
    if b = 0x75 then .goes (.digits [] (some high)) [] else .stops .unfinishedEscape

/-- The bytes of a string up to its closing quote, last byte first, and the cursor after it. -/
def scanString (checked : Bool) : StringState → List UInt8 → List UInt8 → Nat →
    Except Cause (List UInt8) × Cursor
  | _, _, [], taken => (.error (.endOfInput .string), ⟨[], taken, false⟩)
  | state, bytes, b :: rest, taken =>
    match stringStep checked state b with
    | .ends => (.ok bytes, ⟨rest, taken + 1, false⟩)
    | .stops breach => (.error (.breach breach), ⟨rest, taken + 1, false⟩)
    | .goes state more => scanString checked state (more.reverse ++ bytes) rest (taken + 1)

/-- The rest of a string whose opening quote has been taken. Bytes that spell nothing are noticed
when the string has ended, and placed by counting back from there the bytes that the string stands
for: an escape counts as the character it stands for. -/
def stringBody : Reader String := do
  let scanned ← ofRun fun c ↦
    let (outcome, c) := scanString true .plain [] c.rest c.taken
    (.ok outcome, c)
  match scanned with
  | .error cause => fail cause
  | .ok reversed =>
    let bytes := reversed.reverse
    match textOfUtf8? bytes with
    | some s => pure s
    | none => failBefore (bytes.length - spelledLength bytes) (.breach .invalidCodePoint)

/-- The rest of a string that nobody asked for. -/
def skipString : Reader Unit := do
  let scanned ← ofRun fun c ↦
    let (outcome, c) := scanString false .plain [] c.rest c.taken
    (.ok outcome, c)
  match scanned with
  | .error cause => fail cause
  | .ok _ => pure ()

/-! ### Numbers -/

/-- A number as it was written: integers of 64 bits stay integers. -/
inductive Numeral
  | integer (n : Int)
  | float (x : Binary64)
deriving DecidableEq, Repr

def isDigit (b : UInt8) : Bool := 0x30 ≤ b && b ≤ 0x39

/-- The number that digits spell. -/
def ofDigits (digits : List UInt8) : Nat := digits.foldl (fun n b ↦ 10 * n + (b.toNat - 48)) 0

/-- Whether the next byte is one of two; it stays in place. -/
def nextIsOneOf (a b : UInt8) : Reader Bool := do
  let byte ← peek
  pure (byte = some a || byte = some b)

/-- The digits of an integer. A leading zero stands alone. -/
def integerDigits : Reader (List UInt8) := do
  match ← next with
  | none => fail (.endOfInput .value)
  | some b =>
    if b = 0x30 then
      match ← peek with
      | some d => if isDigit d then fail (.breach .invalidNumber) else pure [b]
      | none => pure [b]
    else if isDigit b then
      let more ← takeWhile isDigit
      pure (b :: more)
    else fail (.breach .invalidNumber)

/-- The digits after a point, of which there must be one. -/
def fractionDigits : Reader (List UInt8) := do
  discard
  let digits ← takeWhile isDigit
  if digits.isEmpty then
    match ← peek with
    | some _ => fail (.breach .invalidNumber)
    | none => fail (.endOfInput .value)
  else pure digits

/-- The digits of an exponent are counted up to here; beyond, only its sign matters. -/
def exponentBound : Nat := 2147483647

/-- The length of the shortest start of `digits` whose number passes the bound. -/
def overflowAt (n : Nat) (length : Nat) : List UInt8 → Option Nat
  | [] => none
  | b :: bs =>
    let n := 10 * n + (b.toNat - 48)
    if exponentBound < n then some (length + 1) else overflowAt n (length + 1) bs

/-- The signed exponent, or its sign alone if it passes the bound. A number other than zero is out
of range as soon as its positive exponent passes the bound. -/
def exponentPart (isZero : Bool) : Reader Int := do
  discard
  let negative := (← peek) = some 0x2D
  if ← nextIsOneOf 0x2B 0x2D then discard
  match ← next with
  | none => fail (.endOfInput .value)
  | some b =>
    if !isDigit b then fail (.breach .invalidNumber)
    else
      let c ← get
      let digits := b :: c.rest.takeWhile isDigit
      match overflowAt 0 0 digits with
      | some length =>
        if !isZero && !negative then
          set { c with rest := c.rest.drop (length - 1), taken := c.taken + (length - 1) }
          fail (.breach .numberOutOfRange)
        else
          let _ ← takeWhile isDigit
          pure (-(exponentBound : Int))
      | none =>
        let _ ← takeWhile isDigit
        pure (if negative then -(ofDigits digits : Int) else ofDigits digits)

/-- A decimal with a fraction or an exponent. -/
def decimal (negative : Bool) (digits : List UInt8) (exponent : Int) : Reader Numeral := do
  let x := Binary64.ofDecimal negative (ofDigits digits) exponent
  if x.isInfinite then fail (.breach .numberOutOfRange) else pure (.float x)

/-- A number without fraction and exponent: an integer if it has 64 bits, and a double otherwise.
Negative zero is a double. -/
def wholeNumber (negative : Bool) (digits : List UInt8) : Reader Numeral :=
  let n := ofDigits digits
  if !negative then
    if n < UInt64.size then pure (.integer n) else decimal negative digits 0
  else if n = 0 then pure (.float (Binary64.zero true))
  else if n ≤ UInt64.size / 2 then pure (.integer (-n))
  else decimal negative digits 0

/-- A number whose sign has been taken. -/
def number (negative : Bool) : Reader Numeral := do
  let whole ← integerDigits
  let fraction ← do
    if (← peek) = some 0x2E then
      let fraction ← fractionDigits
      pure (some fraction)
    else pure none
  let digits := whole ++ fraction.getD []
  let scale : Int := -((fraction.getD []).length : Int)
  if ← nextIsOneOf 0x65 0x45 then
    let e ← exponentPart (digits.all (· = 0x30))
    decimal negative digits (scale + e)
  else if fraction.isSome then decimal negative digits scale
  else wholeNumber negative digits

/-- A number that nobody asked for, after its sign. A missing digit is a breach also where the
document ends. -/
def skipNumber : Reader Unit := do
  let digit : Reader Unit := do
    match ← next with
    | some b => if isDigit b then pure () else fail (.breach .invalidNumber)
    | none => fail (.breach .invalidNumber)
  match ← next with
  | none => fail (.breach .invalidNumber)
  | some b =>
    if b = 0x30 then
      match ← peek with
      | some d => if isDigit d then fail (.breach .invalidNumber)
      | none => pure ()
    else if isDigit b then
      let _ ← takeWhile isDigit
    else fail (.breach .invalidNumber)
  if (← peek) = some 0x2E then
    discard
    let digits ← takeWhile isDigit
    if digits.isEmpty then fail (.breach .invalidNumber)
  if ← nextIsOneOf 0x65 0x45 then
    discard
    if ← nextIsOneOf 0x2B 0x2D then discard
    digit
    let _ ← takeWhile isDigit

/-! ### Values that nobody asked for -/

/-- The brackets around a place, innermost first: `true` for an object. -/
abbrev Brackets := List Bool

/-- A scalar, or the bracket that opens. -/
def skipScalar (b : UInt8) : Reader (Option Bool) := do
  if b = 0x6E then discard; word [0x75, 0x6C, 0x6C]; pure none
  else if b = 0x74 then discard; word [0x72, 0x75, 0x65]; pure none
  else if b = 0x66 then discard; word [0x61, 0x6C, 0x73, 0x65]; pure none
  else if b = 0x2D then discard; skipNumber; pure none
  else if isDigit b then skipNumber; pure none
  else if b = 0x22 then discard; skipString; pure none
  else if b = 0x5B then discard; pure (some false)
  else if b = 0x7B then discard; pure (some true)
  else fail (.breach .valueExpected)

/-- The key and the colon before a member that is skipped. -/
def skipKey : Reader Unit := do
  match ← skipBlanks with
  | some 0x22 => discard
  | some _ => fail (.breach .keyNotString)
  | none => fail (.endOfInput .object)
  skipString
  match ← skipBlanks with
  | some 0x3A => discard
  | some _ => fail (.breach .colonExpected)
  | none => fail (.endOfInput .object)

/-- Pass over a scalar or an opening bracket. The result has the brackets around the place after it,
and whether an item ends there. -/
def skipOne (brackets : Brackets) : Reader (Brackets × Bool) := do
  let b ← startOfValue
  match ← skipScalar b with
  | some isObject => pure (isObject :: brackets, false)
  | none => pure (brackets, true)

/-- Pass over what is left inside brackets. Every round takes a byte, so the bytes that were left
count the rounds. -/
def skipFrom : List UInt8 → Brackets → Bool → Reader Unit
  | _, [], _ => pure ()
  | [], _ :: _, _ => fail (.breach .valueExpected)
  | _ :: rounds, isObject :: outer, afterItem => do
    match ← skipBlanks with
    | none => fail (.endOfInput (if isObject then .object else .list))
    | some b =>
      if b = (if isObject then 0x7D else 0x5D) then
        discard
        skipFrom rounds outer true
      else
        if afterItem then
          if b = 0x2C then discard
          else if isObject then fail (.breach .objectSeparatorExpected)
          else fail (.breach .listSeparatorExpected)
        if isObject then skipKey
        let (brackets, afterItem) ← skipOne (isObject :: outer)
        skipFrom rounds brackets afterItem

/-- Pass over a value that nobody asked for. -/
def skipValue : Reader Unit := do
  let c ← get
  let (brackets, afterItem) ← skipOne []
  skipFrom c.rest brackets afterItem

end Reader

end Json

end Turnstile
