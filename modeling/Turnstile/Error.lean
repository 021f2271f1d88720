import Turnstile.Limits
import Turnstile.Mode
import Turnstile.Posix.PathRefusal

/-!
# Failures of the control plane

Each cause of a failure, and its wording in `Error.message`.
-/

set_option autoImplicit false
set_option relaxedAutoImplicit false

namespace Turnstile

/-- Why an operation of the control plane failed. -/
inductive Error
  /-- The system refused an operation on a descriptor or a clock. -/
  | os (e : ErrorNumber)
  /-- The file at a path cannot be used. -/
  | path (r : PathRefusal)
  /-- A file does not have the length of a region. -/
  | wrongSize (actual : Nat)
  /-- A slot was laid out by another version. -/
  | wrongVersion (slot : Nat) (found : UInt32)
  /-- The process already maps the region that it inherited. -/
  | alreadyMapped
  /-- The settings name no slot. -/
  | noSlotGiven
  | slotOutOfRange (slot : Nat)
  | invalidTransition (old new : Mode)
  /-- The mode word of a slot is the word of no mode. -/
  | unknownMode (word : Int32)
  /-- The task table has no entry for an id. -/
  | unknownTask (id : Int64)
deriving DecidableEq, Repr

namespace Error

def message : Error → String
  | .os e => e.message
  | .path r => r.message
  | .wrongSize actual =>
    "shared region is " ++ toString actual ++ " bytes, expected " ++ toString Limits.regionLength
  | .wrongVersion slot found =>
    "slot " ++ toString slot ++ " carries layout version " ++ toString found.toNat ++
      ", expected " ++ toString Limits.layoutVersion.toNat
  | .alreadyMapped => "the inherited shared region is already mapped in this process"
  | .noSlotGiven => "no slot index was given to the instrumented runtime"
  | .slotOutOfRange slot =>
    "slot " ++ toString slot ++ " is out of range, the region has " ++ toString Limits.slots ++
      " slots"
  | .invalidTransition old new => "cannot move slot from " ++ old.name ++ " to " ++ new.name
  | .unknownMode word => "unexpected mode word " ++ toString word.toInt
  | .unknownTask id => "no task with gid " ++ toString id.toInt ++ " in the task table"

end Error

end Turnstile
