import Turnstile.Slot.Bytes

/-!
# Regions

A region is the memory that reporters and the scheduler share: four slots, and the bytes that fill
its last page. Its bytes are read and written slot by slot, because there are too many of them to
write out. `size_region` says that the parts add up to the length that files are checked against.
-/

set_option autoImplicit false
set_option relaxedAutoImplicit false

namespace Turnstile

/-- The index of a slot. -/
abbrev SlotIndex := Fin Limits.slots

/-- A shared region. -/
structure Region where
  slots : Vector Slot Limits.slots
  /-- The bytes after the last slot, which nobody uses. -/
  padding : Buffer 3968
deriving DecidableEq

namespace Region

/-- The fields of a region in the order of their offsets. -/
abbrev Fields := Vector Slot Limits.slots × Buffer 3968

def fields (r : Region) : Fields := (r.slots, r.padding)

/-- The region with the given fields. -/
def ofFields : Fields → Region
  | (slots, padding) => ⟨slots, padding⟩

instance : Packed Region := Packed.through fields ofFields

instance : LawfulPacked Region :=
  Packed.lawful_through fields ofFields (fun _ ↦ rfl) (fun _ ↦ rfl)

theorem size_region : Packed.size Region = Limits.regionLength := by decide

/-- The region of zero bytes. -/
def zero : Region := ⟨Vector.replicate _ Slot.zero, Buffer.zero _⟩

/-- The region with every slot prepared for first use. -/
def stamp (r : Region) : Region := { r with slots := r.slots.map Slot.stamp }

/-- A region before any report. -/
def fresh : Region := zero.stamp

/-- The slot index that a number is. -/
def slotIndex (n : Nat) : Except Error SlotIndex :=
  if h : n < Limits.slots then .ok ⟨n, h⟩ else .error (.slotOutOfRange n)

def slot (r : Region) (i : SlotIndex) : Slot := r.slots[i]

def setSlot (r : Region) (i : SlotIndex) (s : Slot) : Region :=
  { r with slots := r.slots.set i s }

/-- The first slot that was laid out by another version. -/
def foreignSlot? (r : Region) : Option SlotIndex :=
  (List.finRange Limits.slots).find? fun i ↦ (r.slot i).version ≠ Limits.layoutVersion

/-- Whether every slot was laid out by this version. -/
def checkLayout (r : Region) : Except Error Unit :=
  match r.foreignSlot? with
  | some i => .error (.wrongVersion i (r.slot i).version)
  | none => .ok ()

/-! ### Bytes -/

/-- Where the bytes of a slot start. -/
def slotStart (i : Nat) : Nat := i * Slot.length

/-- The part of the `count` bytes at `offset` that lies in the `length` bytes at `start`: its
place there and its length. -/
def overlap (offset count start length : Nat) : Nat × Nat :=
  let first := max offset start
  (first - start, min (offset + count) (start + length) - first)

/-- `count` bytes from `offset` on, as far as the region reaches. -/
def bytesAt (r : Region) (offset count : Nat) : List UInt8 :=
  let inSlots := (List.finRange Limits.slots).flatMap fun (i : SlotIndex) ↦
    let (place, length) := overlap offset count (slotStart i) Slot.length
    if length = 0 then [] else (r.slot i).readFrom (length + 1) place length
  let (place, length) := overlap offset count (slotStart Limits.slots) r.padding.size
  inSlots ++ (r.padding.toList.drop place).take length

/-- The region with `bytes` written from `offset` on, as far as it reaches. -/
def write (r : Region) (offset : Nat) (bytes : List UInt8) : Region :=
  let piece (start length : Nat) : Nat × List UInt8 :=
    let (place, length) := overlap offset bytes.length start length
    (place, (bytes.drop (start + place - offset)).take length)
  let r := (List.finRange Limits.slots).foldl (fun r (i : SlotIndex) ↦
    match piece (slotStart i) Slot.length with
    | (_, []) => r
    | (place, bytes) => r.setSlot i ((r.slot i).writeFrom (bytes.length + 1) place bytes)) r
  match piece (slotStart Limits.slots) r.padding.size with
  | (_, []) => r
  | (place, bytes) =>
    { r with padding := Buffer.ofBytes _ (overlay r.padding.toList place bytes) }

/-- The region with zeros from `offset` on. -/
def clearFrom (r : Region) (offset : Nat) : Region where
  slots := Vector.ofFn fun i ↦ (r.slot i).clearFrom (offset - slotStart i)
  padding := Buffer.ofBytes _ (r.padding.toList.take (offset - slotStart Limits.slots))

end Region

end Turnstile
