import Turnstile.Bytes.Hex
import Turnstile.Pattern.Basic
import Turnstile.Text.Trimmed

/-!
# Escapes in patterns

What stands behind a backslash, inside brackets and outside of them. A pattern is written between
braces itself, so that it holds no closing brace: an escape that needs one is never complete. There
are no tables of properties, so that a class by property is refused as well.
-/

set_option autoImplicit false
set_option relaxedAutoImplicit false

namespace Turnstile

namespace Pattern

/-- The characters behind space and comments. A comment ends with its line. -/
def afterSpace (inComment : Bool) : List Char → List Char
  | [] => []
  | c :: cs =>
    if inComment then afterSpace (c ≠ '\n') cs
    else if isSpace c then afterSpace false cs
    else if c = '#' then afterSpace true cs
    else c :: cs

/-- The characters behind space and comments, if those are passed over. -/
def skip (isVerbose : Bool) (cs : List Char) : List Char :=
  if isVerbose then afterSpace false cs else cs

/-- What an escape stands for. -/
inductive Escape
  | literal (l : Literal)
  | shorthand (isNegated : Bool)
  | edge (isWord : Bool)
deriving DecidableEq, Repr

/-- The number that some hexadecimal digits spell after another number, and what follows them.
Space may stand between them where it is passed over. -/
def readHex (isVerbose : Bool) (value : Nat) : Nat → List Char → Option (Nat × List Char)
  | 0, cs => some (value, cs)
  | _, [] => none
  | digits + 1, c :: cs => do
    let d ← hexValue? c
    readHex isVerbose (16 * value + d) digits (skip isVerbose cs)

/-- The character with a number of so many digits. -/
def readCodePoint (isVerbose : Bool) (digits : Nat) (cs : List Char) :
    Option (Char × List Char) := do
  let (n, rest) ← readHex isVerbose 0 digits (skip isVerbose cs)
  if n.isValidChar then some (Char.ofNat n, rest) else none

/-- The control character that a letter stands for. -/
def control? : Char → Option Char
  | 'a' => some '\x07'
  | 't' => some '\t'
  | 'n' => some '\n'
  | 'v' => some '\x0b'
  | 'f' => some '\x0c'
  | 'r' => some '\r'
  | _ => none

/-- Whether a character may stand for itself behind a backslash. -/
def isEscapable (c : Char) : Bool := c.toNat < 128 && !c.isAlphanum

/-- The escape of a single character. -/
def escape? (c : Char) : Option Escape :=
  if ['d', 's', 'w'].contains c then some (.shorthand false)
  else if ['D', 'S', 'W'].contains c then some (.shorthand true)
  else if ['b', 'B', '<', '>'].contains c then some (.edge true)
  else if ['A', 'z'].contains c then some (.edge false)
  else if isEscapable c then some (.literal ⟨c, false⟩)
  else (control? c).map fun c ↦ .literal ⟨c, false⟩

/-- Read what follows a backslash. -/
def readEscape (isVerbose : Bool) : List Char → Option (Escape × List Char)
  | [] => none
  | c :: cs => do
    let digits := if c = 'x' then 2 else if c = 'u' then 4 else if c = 'U' then 8 else 0
    if digits = 0 then return (← escape? c, cs)
    let (d, rest) ← readCodePoint isVerbose digits cs
    return (.literal ⟨d, c = 'x'⟩, rest)

end Pattern

end Turnstile
