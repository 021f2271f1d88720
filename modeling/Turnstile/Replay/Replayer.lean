import Turnstile.Control.Round
import Turnstile.Replay.Cursor
import Turnstile.Schedule

/-!
# Replaying a schedule

Each grant takes one recorded event and resumes the task that made it. Tasks are told by their
identity, since ids differ between runs. A request that does not fit the recording is a desync: it
is counted, and the reporting task is resumed instead. A strict replayer keeps the recorded order of
all slots, so a slot is only granted when it owns the next event; otherwise every slot keeps its own
order.
-/

set_option autoImplicit false
set_option relaxedAutoImplicit false

namespace Turnstile

/-- A schedule being replayed. -/
structure Replayer where
  cursor : ReplayCursor Event
  strict : Bool
  desyncs : Nat
deriving DecidableEq

namespace Replayer

/-- A strict replayer at the start of a schedule. -/
def ofSchedule (s : Schedule) : Noted Replayer := do
  Noted.noteIf (0 < s.lost) (.scheduleHasGaps s.lost.toNat)
  return ⟨.ofList s.events, true, 0⟩

/-- Let slots overtake one another. -/
def perSlot (r : Replayer) : Replayer := { r with strict := false }

def isExhausted (r : Replayer) : Bool := r.cursor.isExhausted

def remaining (r : Replayer) : Nat := r.cursor.remaining

/-- How many events were replayed. -/
def replayed (r : Replayer) : Nat := r.cursor.consumed

/-- Where the event stands that a slot replays next. -/
def placeFor? (r : Replayer) (i : SlotIndex) : Option Nat :=
  let owned (e : Event) : Bool := e.slot.toNat = i
  if r.strict then
    match r.cursor.peek? with
    | some e => if owned e then some 0 else none
    | none => none
  else r.cursor.position? owned

/-- Take the event that a slot replays next. -/
def takeFor (r : Replayer) (i : SlotIndex) : Replayer × Option Event :=
  match r.placeFor? i with
  | some place =>
    let (cursor, e) := r.cursor.takeNth place
    ({ r with cursor := cursor }, e)
  | none => (r, none)

/-- The task to resume in a slot, if the slot owns an event to be replayed. -/
def choose (r : Replayer) (i : SlotIndex) (s : Slot) : Noted (Replayer × Choice) :=
  match r.takeFor i with
  | (r, none) => pure (r, .wait)
  | (r, some e) =>
    let reporter := s.runningTask
    if reporter.identity = e.task.identity then
      pure (r, .grant ((s.findTask? e.task.site e.task.ordinal).getD reporter))
    else
      ⟨({ r with desyncs := r.desyncs + 1 }, .grant reporter),
        [.desync i r.replayed e.display reporter.display]⟩

/-- Replaying as a policy. -/
def policy : Policy Replayer := ⟨choose⟩

end Replayer

end Turnstile
