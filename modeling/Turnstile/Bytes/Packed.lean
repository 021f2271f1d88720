import Turnstile.Bytes.Word

/-!
# Records of fixed size

A type is `Packed` when each of its values takes the same number of bytes. Words, pairs and vectors
of packed types are packed, and a structure is packed through the tuple of its fields
(`Packed.through`). `LawfulPacked` says that a value and its bytes determine each other: packing
fills the declared size, unpacking reads back what was packed whatever follows it, and packing what
was unpacked from a record of the right length gives the same bytes.
-/

set_option autoImplicit false
set_option relaxedAutoImplicit false

namespace Turnstile

/-- Values that are stored in the same number of bytes each. -/
class Packed (α : Type) where
  /-- The number of bytes of every value. -/
  size : Nat
  /-- The bytes of a value. -/
  pack : α → List UInt8
  /-- The value stored in the first `size` bytes; missing bytes count as zero. -/
  unpack : List UInt8 → α

/-- Packing and unpacking are inverse on records of the declared size. -/
class LawfulPacked (α : Type) [Packed α] : Prop where
  length_pack (a : α) : (Packed.pack a).length = Packed.size α
  unpack_pack (a : α) (rest : List UInt8) : Packed.unpack (Packed.pack a ++ rest) = a
  pack_unpack (bytes : List UInt8) (h : bytes.length = Packed.size α) :
    Packed.pack (Packed.unpack bytes : α) = bytes

namespace Packed

/-- A structure is stored as the tuple of its fields. -/
@[reducible] def through {α β : Type} [Packed β] (fields : α → β) (build : β → α) : Packed α where
  size := Packed.size β
  pack a := pack (fields a)
  unpack bytes := build (unpack bytes)

theorem lawful_through {α β : Type} [Packed β] [LawfulPacked β] (fields : α → β) (build : β → α)
    (build_fields : ∀ a, build (fields a) = a) (fields_build : ∀ b, fields (build b) = b) :
    @LawfulPacked α (through fields build) :=
  letI : Packed α := through fields build
  { length_pack := fun a ↦ LawfulPacked.length_pack (fields a)
    unpack_pack := fun a rest ↦ by
      change build (unpack (pack (fields a) ++ rest)) = a
      rw [LawfulPacked.unpack_pack, build_fields]
    pack_unpack := fun bytes h ↦ by
      change pack (fields (build (unpack bytes : β))) = bytes
      rw [fields_build]
      exact LawfulPacked.pack_unpack bytes h }

/-! ### Words -/

instance : Packed UInt8 where
  size := 1
  pack b := [b]
  unpack bytes := bytes.headD 0

instance : LawfulPacked UInt8 where
  length_pack _ := rfl
  unpack_pack _ _ := rfl
  pack_unpack bytes h := by
    match bytes, h with
    | [_], _ => rfl

instance : Packed UInt32 where
  size := 4
  pack n := littleEndian 4 n.toNat
  unpack bytes := UInt32.ofNat (ofLittleEndian (bytes.take 4))

instance : LawfulPacked UInt32 where
  length_pack n := length_littleEndian 4 n.toNat
  unpack_pack n rest := by
    change UInt32.ofNat (ofLittleEndian ((littleEndian 4 n.toNat ++ rest).take 4)) = n
    rw [List.take_append_of_le_length (by simp), List.take_of_length_le (by simp),
      ofLittleEndian_littleEndian]
    have := n.toNat_lt
    rw [Nat.mod_eq_of_lt (by omega), UInt32.ofNat_toNat]
  pack_unpack bytes h := by
    change bytes.length = 4 at h
    change littleEndian 4 (UInt32.ofNat (ofLittleEndian (bytes.take 4))).toNat = bytes
    have hlt := ofLittleEndian_lt bytes
    rw [List.take_of_length_le (by omega), UInt32.toNat_ofNat_of_lt' (by rw [h] at hlt; exact hlt),
      ← h, littleEndian_ofLittleEndian]

instance : Packed UInt64 where
  size := 8
  pack n := littleEndian 8 n.toNat
  unpack bytes := UInt64.ofNat (ofLittleEndian (bytes.take 8))

instance : LawfulPacked UInt64 where
  length_pack n := length_littleEndian 8 n.toNat
  unpack_pack n rest := by
    change UInt64.ofNat (ofLittleEndian ((littleEndian 8 n.toNat ++ rest).take 8)) = n
    rw [List.take_append_of_le_length (by simp), List.take_of_length_le (by simp),
      ofLittleEndian_littleEndian]
    have := n.toNat_lt
    rw [Nat.mod_eq_of_lt (by omega), UInt64.ofNat_toNat]
  pack_unpack bytes h := by
    change bytes.length = 8 at h
    change littleEndian 8 (UInt64.ofNat (ofLittleEndian (bytes.take 8))).toNat = bytes
    have hlt := ofLittleEndian_lt bytes
    rw [List.take_of_length_le (by omega), UInt64.toNat_ofNat_of_lt' (by rw [h] at hlt; exact hlt),
      ← h, littleEndian_ofLittleEndian]

/-- A signed word is stored as the unsigned word of the same bits. -/
instance : Packed Int32 := through Int32.toUInt32 UInt32.toInt32

instance : LawfulPacked Int32 := lawful_through _ _ (fun _ ↦ rfl) (fun _ ↦ rfl)

instance : Packed Int64 := through Int64.toUInt64 UInt64.toInt64

instance : LawfulPacked Int64 := lawful_through _ _ (fun _ ↦ rfl) (fun _ ↦ rfl)

/-! ### Pairs and vectors -/

section

variable {α β : Type} [Packed α] [Packed β]

/-- What is unpacked from a long enough record does not depend on the bytes after it. -/
theorem unpack_take [LawfulPacked α] (bytes : List UInt8) (h : Packed.size α ≤ bytes.length) :
    (unpack (bytes.take (Packed.size α)) : α) = unpack bytes := by
  have hlen : (bytes.take (Packed.size α)).length = Packed.size α := by
    rw [List.length_take]; omega
  have hbytes : pack (unpack (bytes.take (Packed.size α)) : α) ++ bytes.drop (Packed.size α) =
      bytes := by
    rw [LawfulPacked.pack_unpack _ hlen, List.take_append_drop]
  have hread := LawfulPacked.unpack_pack (unpack (bytes.take (Packed.size α)) : α)
    (bytes.drop (Packed.size α))
  rw [hbytes] at hread
  exact hread.symm

instance : Packed (α × β) where
  size := Packed.size α + Packed.size β
  pack p := pack p.1 ++ pack p.2
  unpack bytes := (unpack bytes, unpack (bytes.drop (Packed.size α)))

instance [LawfulPacked α] [LawfulPacked β] : LawfulPacked (α × β) where
  length_pack p := by
    change (pack p.1 ++ pack p.2).length = Packed.size α + Packed.size β
    rw [List.length_append, LawfulPacked.length_pack, LawfulPacked.length_pack]
  unpack_pack p rest := by
    change (unpack ((pack p.1 ++ pack p.2) ++ rest),
      unpack (((pack p.1 ++ pack p.2) ++ rest).drop (Packed.size α))) = p
    rw [List.append_assoc, LawfulPacked.unpack_pack, ← LawfulPacked.length_pack p.1,
      List.drop_left, LawfulPacked.unpack_pack]
  pack_unpack bytes h := by
    change bytes.length = Packed.size α + Packed.size β at h
    change pack (unpack bytes : α) ++ pack (unpack (bytes.drop (Packed.size α)) : β) = bytes
    rw [← unpack_take bytes (by omega),
      LawfulPacked.pack_unpack _ (by rw [List.length_take]; omega),
      LawfulPacked.pack_unpack _ (by rw [List.length_drop]; omega), List.take_append_drop]

/-- The values of `n` records that follow one another. -/
def unpackMany (α : Type) [Packed α] : Nat → List UInt8 → List α
  | 0, _ => []
  | n + 1, bytes => unpack bytes :: unpackMany α n (bytes.drop (Packed.size α))

@[simp] theorem length_unpackMany (n : Nat) (bytes : List UInt8) :
    (unpackMany α n bytes).length = n := by
  induction n generalizing bytes with
  | zero => rfl
  | succ n ih => simp [unpackMany, ih]

theorem unpackMany_flatMap [LawfulPacked α] (as : List α) (rest : List UInt8) :
    unpackMany α as.length (as.flatMap pack ++ rest) = as := by
  induction as with
  | nil => rfl
  | cons a as ih =>
    rw [List.length_cons, List.flatMap_cons, List.append_assoc, unpackMany,
      LawfulPacked.unpack_pack, ← LawfulPacked.length_pack a, List.drop_left, ih]

theorem flatMap_unpackMany [LawfulPacked α] (n : Nat) (bytes : List UInt8)
    (h : bytes.length = n * Packed.size α) : (unpackMany α n bytes).flatMap pack = bytes := by
  induction n generalizing bytes with
  | zero => simpa [unpackMany, eq_comm] using h
  | succ n ih =>
    rw [Nat.succ_mul] at h
    rw [unpackMany, List.flatMap_cons, ← unpack_take bytes (by omega),
      LawfulPacked.pack_unpack _ (by rw [List.length_take]; omega),
      ih _ (by rw [List.length_drop]; omega), List.take_append_drop]

instance (n : Nat) : Packed (Vector α n) where
  size := n * Packed.size α
  pack v := v.toList.flatMap pack
  unpack bytes := ⟨(unpackMany α n bytes).toArray, by simp⟩

instance (n : Nat) [LawfulPacked α] : LawfulPacked (Vector α n) where
  length_pack v := by
    have key : ∀ as : List α, (as.flatMap pack).length = as.length * Packed.size α := by
      intro as
      induction as with
      | nil => simp
      | cons a as ih =>
        rw [List.flatMap_cons, List.length_append, ih, LawfulPacked.length_pack, List.length_cons,
          Nat.succ_mul, Nat.add_comm]
    change (v.toList.flatMap pack).length = n * Packed.size α
    rw [key, Vector.length_toList]
  unpack_pack v rest := by
    apply Vector.toList_inj.1
    change (unpackMany α n (v.toList.flatMap pack ++ rest)).toArray.toList = v.toList
    have h := unpackMany_flatMap v.toList rest
    rwa [Vector.length_toList] at h
  pack_unpack bytes h := flatMap_unpackMany n bytes h

end

end Packed

end Turnstile
