import Turnstile.Binary64.Text
import Turnstile.Bytes.Hex

/-!
# JSON values and their text

An object keeps its members in the order in which they are written. `Json.compact` writes a value
without blanks, `Json.pretty` one item a line. Numbers that are no finite doubles have no JSON form
and are written as `null`.
-/

set_option autoImplicit false
set_option relaxedAutoImplicit false

namespace Turnstile

/-- A JSON value. Integers and doubles are told apart, as their texts are. -/
inductive Json
  | null
  | bool (b : Bool)
  | int (n : Int)
  | float (x : Binary64)
  | string (s : String)
  | array (items : List Json)
  | object (members : List (String × Json))
deriving Repr, Inhabited

namespace Json

/-- A character inside a JSON string: the two that would end it, and the controls, are escaped. -/
def stringChar (c : Char) : String :=
  match c with
  | '"' => "\\\""
  | '\\' => "\\\\"
  | '\x08' => "\\b"
  | '\x0c' => "\\f"
  | '\n' => "\\n"
  | '\r' => "\\r"
  | '\t' => "\\t"
  | c =>
    if c.toNat < 32 then
      String.ofList ['\\', 'u', '0', '0', hexDigit (c.toNat / 16), hexDigit (c.toNat % 16)]
    else String.singleton c

/-- The text of a string. -/
def stringText (s : String) : String :=
  "\"" ++ String.join (s.toList.map stringChar) ++ "\""

/-- The text of a value that has no items. -/
def scalarText : Json → String
  | .null => "null"
  | .bool b => if b then "true" else "false"
  | .int n => toString n
  | .float x => if x.isFinite then x.jsonNumber else "null"
  | .string s => stringText s
  | .array _ => "[]"
  | .object _ => "\x7b\x7d"

mutual

/-- The text without blanks. -/
def compact : Json → String
  | .array items => "[" ++ compactItems true items ++ "]"
  | .object members => "\x7b" ++ compactMembers true members ++ "\x7d"
  | scalar => scalarText scalar

/-- The items of an array, with a comma before each but the first. -/
def compactItems : Bool → List Json → String
  | _, [] => ""
  | first, item :: items =>
    (if first then "" else ",") ++ compact item ++ compactItems false items

/-- The members of an object, with a comma before each but the first. -/
def compactMembers : Bool → List (String × Json) → String
  | _, [] => ""
  | first, (key, value) :: members =>
    (if first then "" else ",") ++ stringText key ++ ":" ++ compact value ++
      compactMembers false members

end

/-- A line break and the blanks before an item at a depth. -/
def lineBreak (depth : Nat) : String := "\n" ++ String.ofList (List.replicate (2 * depth) ' ')

mutual

/-- The text with one item a line, two blanks a level. Empty arrays and objects stay on one line. -/
def prettyAt (depth : Nat) : Json → String
  | .array [] => "[]"
  | .array (item :: items) =>
    "[" ++ lineBreak (depth + 1) ++ prettyAt (depth + 1) item ++
      prettyItems (depth + 1) items ++ lineBreak depth ++ "]"
  | .object [] => "\x7b\x7d"
  | .object ((key, value) :: members) =>
    "\x7b" ++ lineBreak (depth + 1) ++ stringText key ++ ": " ++ prettyAt (depth + 1) value ++
      prettyMembers (depth + 1) members ++ lineBreak depth ++ "\x7d"
  | scalar => scalarText scalar

/-- The items after the first one of an array. -/
def prettyItems (depth : Nat) : List Json → String
  | [] => ""
  | item :: items => "," ++ lineBreak depth ++ prettyAt depth item ++ prettyItems depth items

/-- The members after the first one of an object. -/
def prettyMembers (depth : Nat) : List (String × Json) → String
  | [] => ""
  | (key, value) :: members =>
    "," ++ lineBreak depth ++ stringText key ++ ": " ++ prettyAt depth value ++
      prettyMembers depth members

end

/-- The text with one item a line. -/
def pretty (j : Json) : String := prettyAt 0 j

end Json

end Turnstile
