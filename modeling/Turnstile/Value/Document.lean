import Turnstile.Json.Reader
import Turnstile.Value.Basic

/-!
# Values in documents

A value is written as an object whose only key is the name of its arm, an unsupported one as that
name alone.
-/

set_option autoImplicit false
set_option relaxedAutoImplicit false

namespace Turnstile

namespace Value

def toJson (v : Value) : Json :=
  let arm (contents : Json) : Json := .object [(v.tag.armName, contents)]
  match v with
  | .number _ n => arm (.int n.toInt)
  | .bool b => arm (.bool b)
  | .float x => arm (.float x)
  | .count _ n => arm (.int n.toNat)
  | .text _ s => arm (.string s)
  | .unsupported => .string v.tag.armName

/-- The contents that an arm is read with. -/
def Tag.contents : Tag → Option (Json.Reader Json)
  | .number _ => some Json.Reader.signed64
  | .bool => some Json.Reader.boolean
  | .float => some Json.Reader.double
  | .count _ => some Json.Reader.unsigned64
  | .text _ => some Json.Reader.text
  | .unsupported => none

/-- The name of an arm, alone. -/
def Tag.reader : Json.Reader Json := Json.Reader.names (Tag.all.map Tag.armName)

def reader : Json.Reader Json :=
  Json.Reader.choice (Tag.all.map fun t ↦ ⟨t.armName, t.contents⟩)

/-- The value that a tag makes of contents. -/
def ofContents? : Tag → Json → Option Value
  | .number kind, .int n => some (.number kind (Int64.ofInt n))
  | .bool, .bool b => some (.bool b)
  | .float, .float x => some (.float x)
  | .count kind, .int n => some (.count kind (UInt64.ofNat n.toNat))
  | .text kind, .string s => some (.text kind s)
  | _, _ => none

def ofJson? : Json → Option Value
  | .string name => if name = Tag.unsupported.armName then some .unsupported else none
  | .object [(name, contents)] => do ofContents? (← Tag.ofArmName? name) contents
  | _ => none

end Value

end Turnstile
