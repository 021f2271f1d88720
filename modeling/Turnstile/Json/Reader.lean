import Turnstile.Json.Basic
import Turnstile.Json.Cursor

/-!
# Reading JSON of an expected shape

A reader is built from the shape that is expected: integers of a range, lists, records with named
fields, choices between variants. It goes through the document once, so the fault reported is the
first one met, whether of grammar or of shape, and yields the value in its written form: the fields
of a record in their declared order, absent ones filled in, unknown ones gone. Records may also be
written as lists of their fields, and a variant without contents as its name alone.
-/

set_option autoImplicit false
set_option relaxedAutoImplicit false

namespace Turnstile

namespace Json

namespace Reader

/-- What stands at the cursor, where something else was expected. Scalars are read to their end. -/
def whatStands : Reader Found := do
  match ← peek with
  | some 0x6E => discard; word [0x75, 0x6C, 0x6C]; pure .null
  | some 0x74 => discard; word [0x72, 0x75, 0x65]; pure (.bool true)
  | some 0x66 => discard; word [0x61, 0x6C, 0x73, 0x65]; pure (.bool false)
  | some 0x2D => discard; found (← number true)
  | some 0x22 => discard; pure (.string (← stringBody))
  | some 0x5B => pure .list
  | some 0x7B => pure .object
  | some b => if isDigit b then found (← number false) else fail (.breach .valueExpected)
  | none => fail (.breach .valueExpected)
where
  found : Numeral → Reader Found
    | .integer n => pure (.integer n)
    | .float x => pure (.float x)

/-- Stop because what stands at the cursor is not what was expected. -/
def mismatched {α : Type} (expected : String) : Reader α :=
  settle do reject (.wrongType (← whatStands) expected)

/-! ### Scalars -/

/-- A number handed to `accept`. -/
def numeral (expected : String) (accept : Numeral → Reader Json) : Reader Json := do
  let b ← startOfValue
  settle do
    if b = 0x2D then discard; accept (← number true)
    else if isDigit b then accept (← number false)
    else mismatched expected

/-- An integer from `low` to `high`. -/
def integer (expected : String) (low high : Int) : Reader Json :=
  numeral expected fun
    | .integer n =>
      if low ≤ n ∧ n ≤ high then pure (.int n) else reject (.wrongValue (.integer n) expected)
    | .float x => reject (.wrongType (.float x) expected)

def unsigned8 : Reader Json := integer "u8" 0 (UInt8.size - 1)

def unsigned32 : Reader Json := integer "u32" 0 (UInt32.size - 1)

def unsigned64 : Reader Json := integer "u64" 0 (UInt64.size - 1)

/-- An index or a count. -/
def size : Reader Json := integer "usize" 0 (UInt64.size - 1)

def signed32 : Reader Json := integer "i32" Int32.minValue.toInt Int32.maxValue.toInt

def signed64 : Reader Json := integer "i64" Int64.minValue.toInt Int64.maxValue.toInt

/-- A double, which may be written as an integer. -/
def double : Reader Json :=
  numeral "f64" fun
    | .integer n => pure (.float (Binary64.ofNat (n < 0) n.natAbs))
    | .float x => pure (.float x)

def boolean : Reader Json := do
  let b ← startOfValue
  if b = 0x74 then discard; word [0x72, 0x75, 0x65]; pure (.bool true)
  else if b = 0x66 then discard; word [0x61, 0x6C, 0x73, 0x65]; pure (.bool false)
  else mismatched "a boolean"

/-- A string, or a mismatch that names what was expected instead. -/
def stringFor (expected : String) : Reader String := do
  let b ← startOfValue
  if b = 0x22 then discard; stringBody else mismatched expected

def text : Reader Json := do return .string (← stringFor "a string")

/-- `null`, where nothing else can stand. -/
def unit : Reader Unit := do
  let b ← startOfValue
  if b = 0x6E then discard; word [0x75, 0x6C, 0x6C] else mismatched "unit"

/-- A value or `null`. -/
def optional (r : Reader Json) : Reader Json := do
  if (← skipBlanks) = some 0x6E then discard; word [0x75, 0x6C, 0x6C]; pure .null else r

/-! ### Lists -/

/-- Whether a list goes on; the comma between items is taken. -/
def hasItem (first : Bool) : Reader Bool := do
  match ← skipBlanks with
  | none => fail (.endOfInput .list)
  | some b =>
    if b = 0x5D then pure false
    else if first then pure true
    else if b = 0x2C then
      discard
      match ← skipBlanks with
      | some 0x5D => fail (.breach .trailingComma)
      | some _ => pure true
      | none => fail (.endOfInput .value)
    else fail (.breach .listSeparatorExpected)

/-- The bracket that ends a list. -/
def endOfList : Reader Unit := do
  match ← skipBlanks with
  | some 0x5D => discard
  | some 0x2C =>
    discard
    if (← skipBlanks) = some 0x5D then fail (.breach .trailingComma)
    else fail (.breach .trailingCharacters)
  | some _ => fail (.breach .trailingCharacters)
  | none => fail (.endOfInput .list)

/-- The items of a list, last one first. Every item takes a byte, so the bytes from the opening
bracket on count the rounds. -/
def itemsFrom (r : Reader Json) : List UInt8 → Bool → List Json → Reader (List Json)
  | [], _, items => pure items
  | _ :: rounds, first, items => do
    if ← hasItem first then
      let item ← r
      itemsFrom r rounds false (item :: items)
    else pure items

/-- A list of values. -/
def list (r : Reader Json) : Reader Json := do
  let b ← startOfValue
  settle do
    if b = 0x5B then
      let c ← get
      discard
      let items ← thenAlways (itemsFrom r c.rest true []) endOfList
      pure (.array items.reverse)
    else mismatched "a sequence"

/-! ### Objects -/

/-- Whether an object goes on; the comma between members is taken. -/
def hasMember (first : Bool) : Reader Bool := do
  match ← skipBlanks with
  | none => fail (.endOfInput .object)
  | some b =>
    if b = 0x7D then pure false
    else if b = 0x2C ∧ first = false then
      discard
      match ← skipBlanks with
      | some 0x22 => pure true
      | some 0x7D => fail (.breach .trailingComma)
      | some _ => fail (.breach .keyNotString)
      | none => fail (.endOfInput .value)
    else if first then
      if b = 0x22 then pure true else fail (.breach .keyNotString)
    else fail (.breach .objectSeparatorExpected)

/-- The bracket that ends an object. -/
def endOfObject : Reader Unit := do
  match ← skipBlanks with
  | some 0x7D => discard
  | some 0x2C => fail (.breach .trailingComma)
  | some _ => fail (.breach .trailingCharacters)
  | none => fail (.endOfInput .object)

/-- The colon after a key. -/
def colon : Reader Unit := do
  match ← skipBlanks with
  | some 0x3A => discard
  | some _ => fail (.breach .colonExpected)
  | none => fail (.endOfInput .object)

/-- A key at which the cursor stands. -/
def key : Reader String := do discard; stringBody

/-- The members of an object whose keys are free, last one first. The bytes from the opening bracket
on count the rounds. -/
def membersFrom (r : Reader Json) : List UInt8 → Bool → List (String × Json) →
    Reader (List (String × Json))
  | [], _, members => pure members
  | _ :: rounds, first, members => do
    if ← hasMember first then
      let name ← key
      colon
      let value ← r
      membersFrom r rounds false ((name, value) :: members)
    else pure members

/-- An object whose keys are free. -/
def map (r : Reader Json) : Reader Json := do
  let b ← startOfValue
  settle do
    if b = 0x7B then
      let c ← get
      discard
      let members ← thenAlways (membersFrom r c.rest true []) endOfObject
      pure (.object members.reverse)
    else mismatched "a map"

/-! ### Records -/

/-- What an absent field means. -/
inductive Absence
  /-- The field must be there. -/
  | refused
  /-- An object without it has `null` there; a list of fields must still hold it. -/
  | null
  /-- The field has a value of its own when it is absent. -/
  | default (value : Json)

/-- A field of a record. -/
structure Field where
  name : String
  value : Reader Json
  absence : Absence

/-- The values read so far, in the order of the fields. -/
abbrev Slots := List (Option Json)

/-- The fields of a record in an object. The bytes from the opening bracket on count the rounds. -/
def fieldsFrom (fields : List Field) : List UInt8 → Bool → Slots → Reader Slots
  | [], _, slots => pure slots
  | _ :: rounds, first, slots => do
    if ← hasMember first then
      let name ← key
      match fields.findIdx? (·.name = name) with
      | none =>
        colon
        skipValue
        fieldsFrom fields rounds false slots
      | some i =>
        if ((slots[i]?).bind id).isSome then reject (.duplicateField name)
        else
          colon
          let value ← (fields[i]?.map (·.value)).getD (fail (.breach .valueExpected))
          fieldsFrom fields rounds false (slots.set i (some value))
    else pure slots

/-- The fields in their order, absent ones filled in. -/
def filled : List Field → Slots → Except Mismatch (List (String × Json))
  | [], _ => .ok []
  | f :: fs, slots => do
    let value ← match slots.head?.bind id, f.absence with
      | some value, _ => .ok value
      | none, .refused => .error (.missingField f.name)
      | none, .null => .ok .null
      | none, .default value => .ok value
    let rest ← filled fs slots.tail
    return (f.name, value) :: rest

/-- The fields of a record in a list: `index` counts them, and `expected` names the record. -/
def fieldsInOrder (expected : String) : List Field → Nat → Reader (List (String × Json))
  | [], _ => pure []
  | f :: fs, index => do
    let value ←
      if ← hasItem (index = 0) then f.value
      else match f.absence with
        | .default value => pure value
        | _ => reject (.wrongLength index expected)
    let rest ← fieldsInOrder expected fs (index + 1)
    pure ((f.name, value) :: rest)

/-- The name of a record, with the number of its fields. -/
def recordSize (name : String) (count : Nat) : String :=
  name ++ " with " ++ toString count ++ if count = 1 then " element" else " elements"

/-- A record, as an object or as a list of its fields. -/
def record (name : String) (fields : List Field) : Reader Json := do
  let b ← startOfValue
  settle do
    if b = 0x7B then
      let c ← get
      discard
      let members : Reader (List (String × Json)) := do
        let slots ← fieldsFrom fields c.rest true (fields.map fun _ ↦ none)
        match filled fields slots with
        | .ok members => pure members
        | .error m => reject m
      return .object (← thenAlways members endOfObject)
    else if b = 0x5B then
      discard
      let members := fieldsInOrder (recordSize name fields.length) fields 0
      return .object (← thenAlways members endOfList)
    else mismatched name

/-! ### Choices -/

/-- A variant, with a reader of its contents if it has any. -/
structure Variant where
  name : String
  contents : Option (Reader Json)

/-- The variant whose name stands at the cursor. -/
def variant (variants : List Variant) : Reader Variant := do
  settle do
    let name ← key
    match variants.find? (·.name = name) with
    | some v => pure v
    | none => reject (.unknownVariant name (variants.map (·.name)))

/-- A choice between variants: a name alone, or an object with the name as its only key. -/
def choice (variants : List Variant) : Reader Json := do
  match ← skipBlanks with
  | some 0x22 =>
    let v ← variant variants
    match v.contents with
    | none => pure (.string v.name)
    | some _ => reject (.wrongType .bareVariant "newtype variant")
  | some 0x7B =>
    discard
    match ← skipBlanks with
    | some 0x22 => pure ()
    | some 0x7D => fail (.breach .valueExpected)
    | some _ => fail (.breach .keyNotString)
    | none => fail (.endOfInput .object)
    let v ← variant variants
    colon
    let value ← match v.contents with
      | none => do unit; pure (.string v.name)
      | some r => do pure (.object [(v.name, ← r)])
    match ← skipBlanks with
    | some 0x7D => discard; pure value
    | some _ => fail (.breach .valueExpected)
    | none => fail (.endOfInput .object)
  | some _ => fail (.breach .valueExpected)
  | none => fail (.endOfInput .value)

/-- A choice between names. -/
def names (list : List String) : Reader Json := choice (list.map fun name ↦ ⟨name, none⟩)

/-! ### Values of any shape -/

/-- A value of any shape, with readers for lists and objects. -/
def valueWith (lists objects : Reader Json) : Reader Json := do
  match ← startOfValue with
  | 0x6E => do unit; pure .null
  | 0x74 | 0x66 => boolean
  | 0x22 => text
  | 0x5B => lists
  | 0x7B => objects
  | _ =>
    numeral "a value" fun
      | .integer n => pure (.int n)
      | .float x => pure (.float x)

/-- A value with at most so many lists and objects inside one another. -/
def valueWithin : Nat → Reader Json
  | 0 => valueWith (fail (.breach .tooDeep)) (fail (.breach .tooDeep))
  | depth + 1 => valueWith (list (valueWithin depth)) (map (valueWithin depth))

/-- How many lists and objects may stand inside one another in a document of any shape. -/
def depthBound : Nat := 127

/-! ### Documents -/

/-- One value and nothing after it. -/
def document {α : Type} (r : Reader α) (bytes : List UInt8) : Except Fault α :=
  let whole : Reader α := do
    let value ← r
    match ← skipBlanks with
    | none => pure value
    | some _ => fail (.breach .trailingCharacters)
  (whole.runAt (Cursor.start bytes)).1

end Reader

/-- The value of any shape that a text spells. -/
def parse (text : String) : Except Fault Json :=
  Reader.document (Reader.valueWithin Reader.depthBound) (utf8 text)

end Json

end Turnstile
