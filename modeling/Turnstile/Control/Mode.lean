import Turnstile.Region

/-!
# Selecting modes

The scheduler selects the mode of a slot under its lock. A slot whose replay has ended stays as it
is, and a slot whose program has finished can only record. Ending the replay takes no lock, so that
it works also while one is stuck.
-/

set_option autoImplicit false
set_option relaxedAutoImplicit false

namespace Turnstile

namespace Mode

/-- Whether the scheduler may move a slot from one mode to another. -/
def admits (old new : Mode) : Bool :=
  !(old.isTerminal || (old = .finished && new.isControlled))

end Mode

namespace Slot

/-- Select a mode; the result is the previous one. -/
def select (s : Slot) (m : ControlMode) : Slot × Except Error Mode :=
  s.guarded fun s ↦
    match s.mode with
    | .error e => (s, .error e)
    | .ok old =>
      if old.admits m.mode then (s.setMode m.mode, .ok old)
      else (s, .error (.invalidTransition old m.mode))

end Slot

namespace Region

/-- Select a mode in one slot; the result is the previous one. -/
def select (r : Region) (i : SlotIndex) (m : ControlMode) : Region × Except Error Mode :=
  let (s, previous) := (r.slot i).select m
  (r.setSlot i s, previous)

/-- Select a mode in some slots, one after another up to the first that refuses. -/
def selectIn (r : Region) (m : ControlMode) : List SlotIndex → Region × Except Error Unit
  | [] => (r, .ok ())
  | i :: rest =>
    match r.select i m with
    | (r, .ok _) => r.selectIn m rest
    | (r, .error e) => (r, .error e)

/-- Select a mode in every slot. Slots before one that refuses stay changed. -/
def selectAll (r : Region) (m : ControlMode) : Region × Except Error Unit :=
  r.selectIn m (List.finRange Limits.slots)

/-- End the replay in every slot, which releases every waiting reporter. -/
def endReplay (r : Region) : Region := { r with slots := r.slots.map (·.setMode .replayEnded) }

/-- Whether no slot is locked. -/
def isUnlocked (r : Region) : Bool := r.slots.all Slot.isUnlocked

end Region

end Turnstile
