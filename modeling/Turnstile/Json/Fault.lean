import Turnstile.Binary64.Text
import Turnstile.Text.Quoted

/-!
# What can be wrong with a JSON document

A document may end too early, break the grammar of JSON, or be JSON of the wrong shape. A fault says
which, and how many bytes had been looked at when it was noticed: its line and column are counted
from there.
-/

set_option autoImplicit false
set_option relaxedAutoImplicit false

namespace Turnstile

namespace Json

/-- What the end of the document leaves unfinished. -/
inductive Unfinished
  | list
  | object
  | string
  | value
deriving DecidableEq, Repr

/-- Breaches of the grammar. -/
inductive Breach
  | colonExpected
  | listSeparatorExpected
  | objectSeparatorExpected
  | identifierExpected
  | valueExpected
  | invalidEscape
  | invalidNumber
  | numberOutOfRange
  | invalidCodePoint
  | controlCharacter
  | keyNotString
  | loneSurrogate
  | trailingComma
  | trailingCharacters
  | unfinishedEscape
  | tooDeep
deriving DecidableEq, Repr

/-- What stood where something else was expected. -/
inductive Found
  | null
  | bool (b : Bool)
  | integer (n : Int)
  | float (x : Binary64)
  | string (s : String)
  | list
  | object
  | bareVariant
deriving DecidableEq, Repr

/-- Ways in which JSON has the wrong shape. -/
inductive Mismatch
  | wrongType (found : Found) (expected : String)
  | wrongValue (found : Found) (expected : String)
  | wrongLength (length : Nat) (expected : String)
  | unknownVariant (name : String) (known : List String)
  | missingField (name : String)
  | duplicateField (name : String)
deriving DecidableEq, Repr

/-- The cause of a fault. -/
inductive Cause
  | endOfInput (what : Unfinished)
  | breach (b : Breach)
  | mismatch (m : Mismatch)
deriving DecidableEq, Repr

/-- The three classes of faults. -/
inductive Category
  | ending
  | grammar
  | shape
deriving DecidableEq, Repr

/-- A cause, and the number of bytes looked at; `none` while a mismatch waits for the value around
it to be finished. -/
structure Fault where
  cause : Cause
  looked : Option Nat
deriving DecidableEq, Repr

def Cause.category : Cause → Category
  | .endOfInput _ => .ending
  | .breach _ => .grammar
  | .mismatch _ => .shape

def Unfinished.message : Unfinished → String
  | .list => "EOF while parsing a list"
  | .object => "EOF while parsing an object"
  | .string => "EOF while parsing a string"
  | .value => "EOF while parsing a value"

def Breach.message : Breach → String
  | .colonExpected => "expected `:`"
  | .listSeparatorExpected => "expected `,` or `]`"
  | .objectSeparatorExpected => "expected `,` or `\x7d`"
  | .identifierExpected => "expected ident"
  | .valueExpected => "expected value"
  | .invalidEscape => "invalid escape"
  | .invalidNumber => "invalid number"
  | .numberOutOfRange => "number out of range"
  | .invalidCodePoint => "invalid unicode code point"
  | .controlCharacter => "control character (\\u0000-\\u001F) found while parsing a string"
  | .keyNotString => "key must be a string"
  | .loneSurrogate => "lone leading surrogate in hex escape"
  | .trailingComma => "trailing comma"
  | .trailingCharacters => "trailing characters"
  | .unfinishedEscape => "unexpected end of hex escape"
  | .tooDeep => "recursion limit exceeded"

def Found.message : Found → String
  | .null => "null"
  | .bool b => "boolean `" ++ (if b then "true" else "false") ++ "`"
  | .integer n => "integer `" ++ toString n ++ "`"
  | .float x => "floating point `" ++ x.jsonNumber ++ "`"
  | .string s => "string " ++ quoted s
  | .list => "sequence"
  | .object => "map"
  | .bareVariant => "unit variant"

/-- Names between backticks, as a message lists the alternatives. -/
def alternatives : List String → String
  | [] => "there are no variants"
  | [a] => "expected `" ++ a ++ "`"
  | [a, b] => "expected `" ++ a ++ "` or `" ++ b ++ "`"
  | names => "expected one of " ++ ", ".intercalate (names.map fun n ↦ "`" ++ n ++ "`")

def Mismatch.message : Mismatch → String
  | .wrongType found expected => "invalid type: " ++ found.message ++ ", expected " ++ expected
  | .wrongValue found expected => "invalid value: " ++ found.message ++ ", expected " ++ expected
  | .wrongLength length expected =>
    "invalid length " ++ toString length ++ ", expected " ++ expected
  | .unknownVariant name known => "unknown variant `" ++ name ++ "`, " ++ alternatives known
  | .missingField name => "missing field `" ++ name ++ "`"
  | .duplicateField name => "duplicate field `" ++ name ++ "`"

def Cause.message : Cause → String
  | .endOfInput what => what.message
  | .breach b => b.message
  | .mismatch m => m.message

/-- The line and the column reached after the first `looked` bytes: lines count from one, columns
count the bytes since the last line break. -/
def lineAndColumn (bytes : List UInt8) (looked : Nat) : Nat × Nat :=
  (bytes.take looked).foldl
    (fun place b ↦ if b = 0x0A then (place.1 + 1, 0) else (place.1, place.2 + 1)) (1, 0)

/-- The message with the place at which the fault was noticed. -/
def Fault.located (bytes : List UInt8) (f : Fault) : String :=
  match f.looked with
  | none => f.cause.message
  | some looked =>
    let (line, column) := lineAndColumn bytes looked
    f.cause.message ++ " at line " ++ toString line ++ " column " ++ toString column

end Json

end Turnstile
