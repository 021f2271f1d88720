import Turnstile.Slot.Basic

/-!
# The handshake

A reporter that has to wait raises a request in the directive word and polls until the scheduler has
answered it or the mode no longer calls for control. Request and polls each hold the lock of the
slot. A poll that ends the wait leaves the directive idle; one that does not changes nothing.
-/

set_option autoImplicit false
set_option relaxedAutoImplicit false

namespace Turnstile

/-- What a reporting task does next. -/
inductive Resume
  /-- Go on; nobody chose. -/
  | carryOn
  /-- The scheduler chose this task. -/
  | run (t : Task)
  /-- The replay is over; go on without control. -/
  | released
deriving DecidableEq, Repr

namespace Mode

/-- Whether a report under this mode waits for the scheduler. -/
def suspends : Mode → Bool
  | .firstEvent | .replayActive | .exploreActive => true
  | _ => false

end Mode

namespace Slot

/-- Raise a request. -/
def request (s : Slot) : Slot :=
  (s.guarded fun s ↦ (s.setDirective .requested, ())).1

/-- What a waiting reporter finds, if its wait is over. -/
def answer? (s : Slot) : Option Resume :=
  match s.mode? with
  | some .replayEnded => some .released
  | some .replayActive | some .exploreActive =>
    if s.directive? = some .proceed then some (.run s.runningTask) else none
  | some .firstEvent => none
  | some .recordActive | some .finished | some .uninitialized | none => some .carryOn

/-- Take the answer, if there is one. -/
def takeAnswer (s : Slot) : Slot × Option Resume :=
  match s.answer? with
  | some r => (s.setDirective .idle, some r)
  | none => (s, none)

/-- One poll of a wait. -/
def poll (s : Slot) : Slot × Option Resume := s.guarded takeAnswer

/-- The mode under which a report goes on. The first report in a slot moves it out of its first
mode. -/
def enter (s : Slot) : Slot × Except Error Mode :=
  match s.mode? with
  | some .uninitialized => (s.setMode .firstEvent, .ok .firstEvent)
  | some m => (s, .ok m)
  | none => (s, .error (.unknownMode s.modeWord))

/-- Show a task as the one that reported last, with the call in which it is blocked. The word of the
call is guarded by its own lock, which is free afterwards. -/
def publish (s : Slot) (t : Task) : Slot :=
  { s with
    callLock := 0
    running := t.record
    callWord := match t.call with
      | some c => c.number
      | none => Call.noNumber }

/-- Whether nobody holds the lock of the call word. -/
def isCallUnlocked (s : Slot) : Bool := s.callLock = 0

/-- Append an event to the log, and its task to the task table. -/
def record (s : Slot) (e : Event) : Slot :=
  { s with log := s.log.append e.record }.setTaskRecord e.task.id e.task.record

/-- Count an event of the program's own scheduler. -/
def advance (s : Slot) : Slot := { s with epoch := s.epoch + 1 }

end Slot

end Turnstile
