import Turnstile.Session.World

/-!
# Recording and replaying in a session

Recorders, finished schedules and replayers are kept under names of their own.
-/

set_option autoImplicit false
set_option relaxedAutoImplicit false

namespace Turnstile

namespace Session

namespace Act

def setRecorder (name : String) (r : Recorder) : Act Unit :=
  modify fun w ↦ { w with recorders := w.recorders.insert name r }

/-- Begin a recording. -/
def startRecorder (name : String) : Act Unit := setRecorder name .start

/-- Read all logs. The result is the number of new events, with the recording. -/
def record (name : String) : Act (Nat × Recorder) := do
  let r ← needed (← get).recorders[name]?
  let (r, fresh) ← noted (r.drain (← openRegion))
  setRecorder name r
  match fresh with
  | some fresh => return (fresh, r)
  | none => throw .crash

/-- End a recording and keep its schedule. -/
def finishRecorder (name : String) : Act Schedule := do
  let r ← needed (← get).recorders[name]?
  let s := r.finish
  modify fun w ↦ { w with
    recorders := w.recorders.erase name
    schedules := w.schedules.insert name s }
  return s

/-- A schedule that was kept. -/
def keptSchedule (name : String) : Act Schedule := do needed (← get).schedules[name]?

/-- Begin to replay a schedule. -/
def startReplayer (name : String) (s : Schedule) (perSlot : Bool) : Act Unit := do
  let r ← noted (Replayer.ofSchedule s)
  let r := if perSlot then r.perSlot else r
  modify fun w ↦ { w with replayers := w.replayers.insert name r }

def replayer (name : String) : Act Replayer := do needed (← get).replayers[name]?

end Act

end Session

end Turnstile
