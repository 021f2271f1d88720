import Turnstile.Session.World

/-!
# What the scheduler does

The acts of the scheduler on the open region. It may hold the locks of slots from act to act, also
of a region that is no longer open; what would then wait for such a lock is refused, since nobody
else could free it.
-/

set_option autoImplicit false
set_option relaxedAutoImplicit false

namespace Turnstile

namespace Session

/-- Whose choice a round follows. -/
inductive Chooser
  | reporter
  | replayer (name : String)
  /-- The task under an id. -/
  | task (id : Int64)
  /-- The task of an identity. -/
  | identity (site ordinal : UInt64)
  | nobody
  | breakdown
deriving DecidableEq, Repr

/-- What the scheduler sees in a slot. -/
structure SlotView where
  slot : SlotIndex
  mode : Except Error Mode
  waiting : Bool
  running : Task
  blocking : Option Int32
  epoch : UInt64
  appends : UInt64

/-- How a task is looked up. -/
inductive Lookup
  | id (id : Int64)
  | identity (site ordinal : UInt64)
deriving DecidableEq, Repr

/-- A policy without a state that answers every offer alike. -/
def fixedPolicy (answer : Slot → Option Task) : Policy Unit :=
  ⟨fun _ _ s ↦ pure ((), match answer s with
    | some t => .grant t
    | none => .wait)⟩

namespace Act

/-- A slot whose lock is held. -/
def heldSlot (l : HeldLock) : Act Slot := do return ((← get).region l.place).slot l.slot

def setHeldSlot (l : HeldLock) (s : Slot) : Act Unit :=
  modify fun w ↦ w.setRegion ((w.region l.place).setSlot l.slot s) l.place

/-- Do something to a slot under its lock. That is the lock that is held, wherever its region is, or
the one of the open region, taken for this once. -/
def guarded {α : Type} (n : Nat) (body : SlotIndex → Slot → Slot × α) : Act α := do
  match (← get).heldLock? n with
  | some l =>
    let (s, a) := body l.slot (← heldSlot l)
    setHeldSlot l s
    return a
  | none =>
    let _ ← openPlace
    let i ← slotIndex n
    let (s, a) := (← slot i).guarded (body i)
    setSlot i s
    return a

/-- Refuse to wait for the lock of a slot while the scheduler holds one of that number, whatever
region it is in. -/
def checkUnlocked (n : Nat) : Act Unit := do
  if ((← get).heldLock? n).isSome then throw .locked

/-- Refuse to wait for any lock while the scheduler holds one. -/
def checkAllUnlocked : Act Unit := do
  unless (← get).held.isEmpty do throw .locked

/-- The mode of a slot. -/
def mode (n : Nat) : Act Mode := do
  let _ ← openPlace
  controlled (← slot (← slotIndex n)).mode

/-- Select a mode in a slot; the result is the previous one. -/
def selectMode (n : Nat) (m : ControlMode) : Act Mode := do
  checkUnlocked n
  let r ← openRegion
  let i ← slotIndex n
  let (r, previous) := r.select i m
  setOpenRegion r
  controlled previous

/-- Select a mode in every slot. -/
def selectModeInAll (m : ControlMode) : Act Unit := do
  checkAllUnlocked
  let r ← openRegion
  let (r, outcome) := r.selectAll m
  setOpenRegion r
  controlled outcome

def endReplay : Act Unit := do setOpenRegion (← openRegion).endReplay

/-- A round under a policy, with its summary if it came to its end. -/
def roundBy {σ : Type} (policy : Policy σ) (state : σ) : Act (Option RoundSummary × σ) := do
  let round ← noted ((← openRegion).round policy state)
  setOpenRegion round.region
  return (if round.isComplete then some round.summary else none, round.state)

/-- A scheduling round. -/
def round (chooser : Chooser) : Act RoundSummary := do
  checkAllUnlocked
  let _ ← openPlace
  let replayer ← match chooser with
    | .replayer name => do pure (some (name, ← needed (← get).replayers[name]?))
    | _ => pure none
  let stateless (policy : Policy Unit) : Act (Option RoundSummary) := do
    return (← roundBy policy ()).1
  let summary ← match chooser, replayer with
    | _, some (name, replayer) => do
      let (summary, replayer) ← roundBy Replayer.policy replayer
      modify fun w ↦ { w with replayers := w.replayers.insert name replayer }
      pure summary
    | .task id, none => stateless (fixedPolicy (·.task? id))
    | .identity site ordinal, none => stateless (fixedPolicy (·.findTask? site ordinal))
    | .nobody, none => stateless (fixedPolicy fun _ ↦ none)
    | .breakdown, none => stateless ⟨fun _ _ _ ↦ pure ((), .breakdown)⟩
    | _, none => stateless .runReporter
  match summary with
  | some summary => return summary
  | none => throw .crash

/-- Let go of a lock. -/
def release (l : HeldLock) : Act Unit := do setHeldSlot l (← heldSlot l).release

/-- Take the lock of a slot of the open region and hold it, if it is free. A lock that was held in
its stead is let go of then. -/
def lock (n : Nat) : Act Bool := do
  let place ← openPlace
  let i ← slotIndex n
  let s ← slot i
  if s.isUnlocked then
    setSlot i s.acquire
    let previous := (← get).heldLock? n
    modify fun w ↦ { w with held := ⟨i, place⟩ :: w.held.filter (·.slot ≠ i) }
    previous.forM release
    return true
  else return false

/-- Let go of the lock that is held of a slot. The result is whether one was. -/
def unlock (n : Nat) : Act Bool := do
  match (← get).heldLock? n with
  | some l =>
    release l
    modify fun w ↦ { w with held := w.held.filter (·.slot ≠ l.slot) }
    return true
  | none => return false

/-- What the scheduler sees in a slot. -/
def view (n : Nat) : Act SlotView :=
  guarded n fun i s ↦
    let (s', blocking) := s.blockingCall
    (s', ⟨i, s.mode, s.hasRequest, s.runningTask, blocking, s.epoch, s.log.appends⟩)

/-- The tasks of a slot. -/
def tasks (n : Nat) : Act (List Task) := guarded n fun _ s ↦ (s, s.taskList)

/-- A task of a slot. -/
def find (n : Nat) (key : Lookup) : Act (Option Task) :=
  guarded n fun _ s ↦ (s, match key with
    | .id id => s.task? id
    | .identity site ordinal => s.findTask? site ordinal)

/-- Grant a task to a slot. The result is the epoch afterwards. -/
def grant (n : Nat) (t : Task) : Act UInt64 := do
  let epoch ← guarded n fun _ s ↦
    let (s, granted) := s.grant t
    (s, if granted then some s.epoch else none)
  match epoch with
  | some epoch => return epoch
  | none => throw .crash

/-- Grant the task under an id to a slot. -/
def grantById (n : Nat) (id : Int64) : Act UInt64 := do
  let t ← needed (← find n (.id id))
  grant n t

/-- The log of a slot. -/
def log (n : Nat) : Act (EventLog Limits.logEntries) := do
  let _ ← openPlace
  return (← slot (← slotIndex n)).log

/-- The events of a log that are still there. -/
def snapshot (n : Nat) : Act (List Event) := do noted (← log n).snapshot

/-- The events of a log from an append on. -/
def drain (n : Nat) (start : UInt64) : Act Drained := do noted ((← log n).readSince start)

/-- The coverage of a slot. -/
def coverage (n : Nat) : Act Coverage := do
  let _ ← openPlace
  match (← slot (← slotIndex n)).coverage? with
  | some c => return c
  | none => throw .crash

/-! ### Bytes -/

/-- The layout version of a slot. -/
def version (n : Nat) : Act UInt32 := do
  let _ ← openPlace
  return (← slot (← slotIndex n)).version

/-- Write bytes into a slot. -/
def poke (n : Nat) (offset : Nat) (bytes : List UInt8) : Act Unit := do
  let _ ← openPlace
  let i ← slotIndex n
  setSlot i (← needed ((← slot i).write? offset bytes))

/-- Read bytes of a slot. -/
def peek (n : Nat) (offset count : Nat) : Act (List UInt8) := do
  let _ ← openPlace
  needed ((← slot (← slotIndex n)).read? offset count)

end Act

end Session

end Turnstile
