import Turnstile.Limits
import Turnstile.Text.Buffer

/-!
# Rows of the coverage table

A row holds the id of a block, cut to its buffer, and its hits.
-/

set_option autoImplicit false
set_option relaxedAutoImplicit false

namespace Turnstile

/-- A stored block id. -/
structure BlockId where
  length : UInt32
  gap : UInt32
  bytes : Buffer Limits.blockId
deriving DecidableEq, Repr

namespace BlockId

/-- The fields of a record in the order of their offsets. -/
abbrev Fields := UInt32 × UInt32 × Buffer Limits.blockId

def fields (r : BlockId) : Fields := (r.length, r.gap, r.bytes)

/-- The record with the given fields. -/
def ofFields : Fields → BlockId
  | (length, gap, bytes) => ⟨length, gap, bytes⟩

instance : Packed BlockId := Packed.through fields ofFields

instance : LawfulPacked BlockId :=
  Packed.lawful_through fields ofFields (fun _ ↦ rfl) (fun _ ↦ rfl)

/-- The record of zero bytes. -/
def zero : BlockId := ⟨0, 0, Buffer.zero _⟩

/-- The record that holds what fits of an id. -/
def ofText (id : String) : BlockId :=
  let kept := utf8 (fitting Limits.blockId id)
  ⟨UInt32.ofNat kept.length, 0, Buffer.ofBytes _ kept⟩

/-- The id that a record holds. -/
def text (r : BlockId) : String := r.bytes.text r.length.toNat

end BlockId

/-- A row of the coverage table. -/
structure BlockRow where
  hits : UInt64
  id : BlockId
deriving DecidableEq, Repr

namespace BlockRow

/-- The fields of a record in the order of their offsets. -/
abbrev Fields := UInt64 × BlockId

def fields (r : BlockRow) : Fields := (r.hits, r.id)

/-- The record with the given fields. -/
def ofFields : Fields → BlockRow
  | (hits, id) => ⟨hits, id⟩

instance : Packed BlockRow := Packed.through fields ofFields

instance : LawfulPacked BlockRow :=
  Packed.lawful_through fields ofFields (fun _ ↦ rfl) (fun _ ↦ rfl)

/-- The row of zero bytes. -/
def zero : BlockRow := ⟨0, BlockId.zero⟩

end BlockRow

end Turnstile
