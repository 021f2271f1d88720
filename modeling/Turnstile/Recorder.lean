import Turnstile.Region
import Turnstile.Schedule

/-!
# Recording a schedule

A recorder reads the logs of all slots, each from where it stopped reading, and keeps the events in
the order of their stamps, events of one stamp in the order of the slots, and events of one slot as
they were appended. It has to read often enough that no log wraps around in between; what was
overwritten counts as lost. Counts have 64 bits: reading stops where one of them overflows.
-/

set_option autoImplicit false
set_option relaxedAutoImplicit false

namespace Turnstile

/-- A recording in progress. -/
structure Recorder where
  /-- Where each log is read on. -/
  cursors : Vector UInt64 Limits.slots
  events : List Event
  lost : UInt64
  /-- The coverage of every slot as last read; empty before the first reading. -/
  coverage : List Coverage

namespace Recorder

/-- A recording before its first reading. -/
def start : Recorder := ⟨Vector.replicate _ 0, [], 0, []⟩

/-- Whether an event may stand before another. -/
def precedes (a b : Event) : Bool :=
  a.stamp < b.stamp || (a.stamp = b.stamp && a.slot ≤ b.slot)

/-- The events in the order of the recording. -/
def sorted (events : List Event) : List Event := events.mergeSort precedes

/-- Read the log of a slot. The result is the number of new events, unless the number of lost ones
overflows. -/
def drainSlot (r : Recorder) (region : Region) (i : SlotIndex) : Noted (Recorder × Option Nat) := do
  let drained ← (region.slot i).log.readSince (r.cursors.get i)
  Noted.noteIf (0 < drained.lost) (.lostWhileRecording i drained.lost)
  if r.lost.toNat + drained.lost < UInt64.size then
    return ({ r with
      lost := r.lost + UInt64.ofNat drained.lost
      cursors := r.cursors.set i drained.next i.isLt
      events := r.events ++ drained.events }, some drained.events.length)
  else return (r, none)

/-- Read the logs of some slots, `fresh` new events having been read before. -/
def drainSlots (region : Region) :
    List SlotIndex → Recorder → Nat → Noted (Recorder × Option Nat)
  | [], r, fresh => pure (r, some fresh)
  | i :: rest, r, fresh => do
    match ← r.drainSlot region i with
    | (r, some n) => drainSlots region rest r (fresh + n)
    | (r, none) => return (r, none)

/-- Read all logs and the coverage of all slots. The result is the number of new events, unless a
count overflows. -/
def drain (r : Recorder) (region : Region) : Noted (Recorder × Option Nat) := do
  match ← drainSlots region (List.finRange Limits.slots) r 0 with
  | (r, none) => return (r, none)
  | (r, some fresh) =>
    let r := { r with events := sorted r.events }
    match region.slots.toList.mapM Slot.coverage? with
    | some coverage => return ({ r with coverage := coverage }, some fresh)
    | none => return (r, none)

/-- The recorded schedule. -/
def finish (r : Recorder) : Schedule :=
  { Schedule.ofEvents r.events with
    lost := r.lost
    coverage := if r.coverage.all Coverage.isEmpty then [] else r.coverage }

end Recorder

end Turnstile
