import Turnstile.Backoff
import Turnstile.Reporter.Basic

/-!
# Reports

A report appends an event to the log, shows its task as the running one and then, if the mode asks
for it, waits for the scheduler. It is made in phases: publishing the task, raising the request,
polling for the answer. In each of them it may find a lock taken by somebody else, and in the last
one it may find no answer yet; it then pauses, and `Reporter.resume` goes on where it paused. A
pause begins with the first step of the pace that yields to others.

`Reporter.announce` is a report up to the raised request. The first poll follows at once
(`Reported.polled`), so a report that was neither held up nor answered pauses between two polls.
-/

set_option autoImplicit false
set_option relaxedAutoImplicit false

namespace Turnstile

/-- How far a paused report has come. -/
inductive Phase
  /-- Its event is logged, and its task is to be shown as the running one. -/
  | publishing (t : Task) (kind : EventKind)
  /-- Its request is to be raised. -/
  | requesting
  /-- Its answer is awaited. -/
  | polling
deriving DecidableEq, Repr

/-- A paused report. -/
structure Wait where
  phase : Phase
  pace : Backoff
deriving DecidableEq, Repr

/-- Where a report stands. -/
inductive Progress
  | ended (outcome : Except Error Resume)
  | paused (w : Wait)

/-- A reporter and its slot after a piece of a report. -/
structure Reported where
  reporter : Reporter
  slot : Slot
  progress : Progress

/-- A message that a report stands for beside its event. -/
inductive Traffic
  | sent
  | received
deriving DecidableEq, Repr

namespace Payload

/-- The call that a payload carries. -/
def call? : Payload → Option Call
  | .call c => some c
  | _ => none

end Payload

namespace Reporter

/-- Poll for the answer. A wait adds its steps to the tally when it ends. -/
def poll (r : Reporter) (s : Slot) (pace : Backoff) : Reported :=
  if s.isUnlocked then
    match s.poll with
    | (s, some resume) =>
      ⟨{ r with tally.spins := r.tally.spins + pace.snoozes }, s, .ended (.ok resume)⟩
    | (s, none) => ⟨r, s, .paused ⟨.polling, pace.toYield⟩⟩
  else ⟨r, s, .paused ⟨.polling, pace.toYield⟩⟩

/-- Raise the request. -/
def request (r : Reporter) (s : Slot) (pace : Backoff) : Reported :=
  if s.isUnlocked then ⟨r, s.request, .paused ⟨.polling, pace.reset⟩⟩
  else ⟨r, s, .paused ⟨.requesting, pace.toYield⟩⟩

/-- Wait for the scheduler. -/
def await (r : Reporter) (s : Slot) : Reported :=
  { r with tally.suspensions := r.tally.suspensions + 1 }.request s (.start r.spinLimit)

/-- Go on as the mode says. While recording, decisions of the program's own scheduler count the
epochs. -/
def proceed (r : Reporter) (s : Slot) (kind : EventKind) : Reported :=
  match s.enter with
  | (s, .error e) => ⟨r, s, .ended (.error e)⟩
  | (s, .ok mode) =>
    let s := if mode = .recordActive ∧ kind = .schedule then s.advance else s
    if r.enforcing && mode.suspends then r.await s else ⟨r, s, .ended (.ok .carryOn)⟩

/-- Show the task as the running one and go on. -/
def publish (r : Reporter) (s : Slot) (t : Task) (kind : EventKind) (pace : Backoff) : Reported :=
  if s.isCallUnlocked then r.proceed (s.publish t) kind
  else ⟨r, s, .paused ⟨.publishing t kind, pace.toYield⟩⟩

/-- The event of a report. Its task carries the call that the payload carries. -/
def event (r : Reporter) (s : Slot) (t : Task) (payload : Payload) (stamp : UInt64) : Event where
  slot := UInt64.ofNat r.slot
  task := { t with call := payload.call? }
  epoch := s.epoch
  stamp := stamp
  payload := payload

/-- Report an event of a task, at the time `stamp`, up to the raised request. -/
def announce (r : Reporter) (s : Slot) (id : Int64) (payload : Payload) (stamp : UInt64) :
    Reported :=
  match s.task? id with
  | none => ⟨r, s, .ended (.error (.unknownTask id))⟩
  | some t =>
    let e := r.event s t payload stamp
    { r with tally.reports := r.tally.reports + 1 }.publish (s.record e) e.task payload.kind
      (.start Limits.spins)

end Reporter

/-- A report whose request has been raised, after its first poll. -/
def Reported.polled (x : Reported) : Reported :=
  match x.progress with
  | .paused ⟨.polling, pace⟩ => x.reporter.poll x.slot pace
  | _ => x

namespace Reporter

/-- Report an event of a task, at the time `stamp`. -/
def report (r : Reporter) (s : Slot) (id : Int64) (payload : Payload) (stamp : UInt64) :
    Reported :=
  (r.announce s id payload stamp).polled

/-- Go on with a paused report. -/
def resume (r : Reporter) (s : Slot) (w : Wait) : Reported :=
  match w.phase with
  | .publishing t kind => (r.publish s t kind w.pace).polled
  | .requesting => (r.request s w.pace).polled
  | .polling => r.poll s w.pace

/-- Count a message, once the report that stands for it is over. -/
def credit (r : Reporter) : Traffic → Reporter
  | .sent => { r with tally.sends := r.tally.sends + 1 }
  | .received => { r with tally.receives := r.tally.receives + 1 }

end Reporter

end Turnstile
