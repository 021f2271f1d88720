import Turnstile.Limits
import Turnstile.Text.Buffer
import Turnstile.Value.Basic

/-!
# The stored form of a value

A record has a field for every way in which a value can be stored, and its tag says which of them
counts. Encoding leaves the others zero, and decoding does not look at them. Counts are stored in
the signed field by their bits.
-/

set_option autoImplicit false
set_option relaxedAutoImplicit false

namespace Turnstile

/-- A stored value. -/
structure ValueRecord where
  tag : Int32
  /-- The mark of an unsupported value, zero otherwise. -/
  mark : Int32
  integer : Int64
  float : UInt64
  boolean : UInt8
  gap : Buffer 3
  textLength : UInt32
  text : Buffer Limits.text
deriving DecidableEq, Repr

namespace ValueRecord

/-- The fields of a record in the order of their offsets. -/
abbrev Fields :=
  Int32 × Int32 × Int64 × UInt64 × UInt8 × Buffer 3 × UInt32 × Buffer Limits.text

def fields (r : ValueRecord) : Fields :=
  (r.tag, r.mark, r.integer, r.float, r.boolean, r.gap, r.textLength, r.text)

/-- The record with the given fields. -/
def ofFields : Fields → ValueRecord
  | (tag, mark, integer, float, boolean, gap, textLength, text) =>
    ⟨tag, mark, integer, float, boolean, gap, textLength, text⟩

instance : Packed ValueRecord := Packed.through fields ofFields

instance : LawfulPacked ValueRecord :=
  Packed.lawful_through fields ofFields (fun _ ↦ rfl) (fun _ ↦ rfl)

/-- The record of zero bytes. -/
def zero : ValueRecord := ⟨0, 0, 0, 0, 0, Buffer.zero 3, 0, Buffer.zero Limits.text⟩

/-- The value that a record holds. An unknown tag holds none. -/
def value (r : ValueRecord) : Value :=
  match Value.Tag.ofNumber? r.tag with
  | some (.number kind) => .number kind r.integer
  | some .bool => .bool (r.boolean ≠ 0)
  | some .float => .float ⟨r.float⟩
  | some (.count kind) => .count kind r.integer.toUInt64
  | some (.text kind) => .text kind (r.text.text r.textLength.toNat)
  | some .unsupported => .unsupported
  | none => .unsupported

end ValueRecord

/-- The record that holds a value. A text is cut to its buffer. -/
def Value.record (v : Value) : ValueRecord :=
  let blank := { ValueRecord.zero with tag := v.tag.code }
  match v with
  | .number _ n => { blank with integer := n }
  | .bool b => { blank with boolean := if b then 1 else 0 }
  | .float x => { blank with float := x.bits }
  | .count _ n => { blank with integer := n.toInt64 }
  | .text _ s =>
    let kept := utf8 (fitting Limits.text s)
    { blank with
      textLength := UInt32.ofNat kept.length
      text := Buffer.ofBytes Limits.text kept }
  | .unsupported => { blank with mark := Value.unsupportedMark }

end Turnstile
