/-!
# Sparse pictures of a byte string

A record that is mostly zero is described by its maximal runs of non-zero bytes, and changed by
patches laid over it.
-/

set_option autoImplicit false
set_option relaxedAutoImplicit false

namespace Turnstile

/-- A stretch of bytes at an offset. -/
structure ByteRun where
  offset : Nat
  bytes : List UInt8
deriving DecidableEq, Repr

namespace ByteRun

/-- One step of `ofBytes`: `run` holds, last byte first, the run that ends just before `position`.
-/
def collect (position : Nat) (run : List UInt8) : List UInt8 → List ByteRun
  | [] => if run.isEmpty then [] else [⟨position - run.length, run.reverse⟩]
  | b :: bs =>
    if b = 0 then
      if run.isEmpty then collect (position + 1) [] bs
      else ⟨position - run.length, run.reverse⟩ :: collect (position + 1) [] bs
    else collect (position + 1) (b :: run) bs

/-- The maximal runs of non-zero bytes, in order. -/
def ofBytes (bytes : List UInt8) : List ByteRun := collect 0 [] bytes

end ByteRun

/-- `patch` laid over `bytes` from `offset` on. What would reach past the end is dropped. -/
def overlay (bytes : List UInt8) (offset : Nat) (patch : List UInt8) : List UInt8 :=
  bytes.take offset ++ (patch.take (bytes.length - offset) ++
    bytes.drop (offset + patch.length))

theorem length_overlay (bytes : List UInt8) (offset : Nat) (patch : List UInt8)
    (h : offset ≤ bytes.length) : (overlay bytes offset patch).length = bytes.length := by
  simp only [overlay, List.length_append, List.length_take, List.length_drop]
  omega

/-- The patches laid over `bytes` in order; `none` if one of them does not fit. -/
def applyPatches (bytes : List UInt8) : List ByteRun → Option (List UInt8)
  | [] => some bytes
  | p :: ps =>
    if p.offset + p.bytes.length ≤ bytes.length then
      applyPatches (overlay bytes p.offset p.bytes) ps
    else none

end Turnstile
