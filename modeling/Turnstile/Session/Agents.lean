import Turnstile.Session.Errand

/-!
# What agents do

The acts of reporters and probes, reports apart. A probe that is switched off does nothing, and says
so by having no result.
-/

set_option autoImplicit false
set_option relaxedAutoImplicit false

namespace Turnstile

namespace Session

/-- What a reporter says about itself. -/
structure ReporterState where
  tally : Tally
  mode : Option Mode
  slot : SlotIndex
  coverage : Coverage

/-- What a probe says about itself. -/
structure ProbeState where
  tally : Option Tally
  slot : Option SlotIndex
  enabled : Bool
deriving DecidableEq, Repr

/-- What an agent says about itself. -/
inductive AgentState
  | reporter (s : ReporterState)
  | probe (s : ProbeState)

namespace Act

def setClock (c : Clock) : Act Unit := modify fun w ↦ { w with clock := c }

/-- Attach a reporter to a slot of the open region. -/
def attach (who : String) (slot : Nat) (enforcing : Bool) (spinLimit : UInt32) :
    Act SlotIndex := do
  checkFree who
  let place ← openPlace
  let i ← slotIndex slot
  replaceAgent who (.reporter (.attach i ((← openRegion).slot i) enforcing spinLimit) place)
  return i

/-- Bring in a probe over the open region. The result is whether it is switched on. -/
def instrument (who : String) (settings : Settings) : Act Bool := do
  checkFree who
  let place ← openPlace
  let p ← controlled (Probe.ofRegion settings (← openRegion) place)
  replaceAgent who (.probe p)
  return p.isEnabled

/-- Bring in a probe that attaches when it is first used. Its descriptor is open on the file at
`path`, if one is given. -/
def instrumentLazily (who : String) (settings : Settings) (path : Option String) : Act Bool := do
  checkFree who
  let backing ← match path with
    | none => pure none
    | some path =>
      match (← disk).find (pathWithin path) with
      | .ok name => pure (some name)
      | .error r => throw (.file r)
  let p := Probe.unattached settings backing
  replaceAgent who (.probe p)
  return p.isEnabled

def drop (who : String) : Act Unit := do
  let _ ← agent who
  removeAgent who

/-- The slot of a reporter. -/
def slotOf (r : Reporter) (place : Place) : Act Slot := do
  return ((← get).region place).slot r.slot

/-- Spawn one task. -/
def spawnOne (who : String) (id : Int64) (site : UInt64) (label : String) :
    Act (Option Task) := do
  match ← reporter? who (← agent who) with
  | none => return none
  | some (r, place) =>
    let (r, s, t) ← noted (r.spawn (← slotOf r place) id site label)
    keep who r place s
    return some t

/-- Spawn tasks at one site, under consecutive ids; the result is the last of them. -/
def spawn (who : String) (id : Int64) (site : UInt64) (label : String) : Nat → Act (Option Task)
  | 0 => do
    let _ ← agent who
    return none
  | 1 => spawnOne who id site label
  | count + 1 => do
    let _ ← spawnOne who id site label
    spawn who (id + 1) site label count

/-- The task that a reporter finds under an id. -/
def showTask (who : String) (id : Int64) : Act (Option Task) := do
  match ← agent who with
  | .reporter r place => return (← slotOf r place).task? id
  | .probe _ => throw .senseless

/-- Move a task to a status. A probe does not tell the task. -/
def setStatus (who : String) (id : Int64) (status : StatusWord) : Act (Option Task) := do
  let a ← agent who
  match ← reporter? who a with
  | none => return none
  | some (r, place) =>
    let (s, t) ← controlled (← noted (r.setStatus (← slotOf r place) id status))
    keep who r place s
    match a with
    | .reporter _ _ => return some t
    | .probe _ => return none

/-- Count one hit on a block. -/
def blockOne (who : String) (id : String) : Act Unit := do
  match ← reporter? who (← agent who) with
  | none => return
  | some (r, place) =>
    let (r, s) ← noted (r.reportBlock (← slotOf r place) id)
    keep who r place s

/-- Count hits on blocks, in order. -/
def block (who : String) (ids : List String) : Act Unit := do
  let _ ← agent who
  ids.forM (blockOne who)

/-- What an agent says about itself. -/
def state (who : String) : Act AgentState := do
  match ← agent who with
  | .reporter r place =>
    let s ← slotOf r place
    let some coverage := s.coverage? | throw .crash
    return .reporter ⟨r.tally, s.mode?, r.slot, coverage⟩
  | .probe p =>
    return .probe ⟨p.attached.map (·.reporter.tally), p.attached.map (·.reporter.slot),
      p.isEnabled⟩

/-- Say that the program has no tasks left. A probe does not mind if the slot is not controlled. -/
def finish (who : String) : Act Unit := do
  let a ← agent who
  match ← reporter? who a with
  | none => return
  | some (r, place) =>
    match (← slotOf r place).finish, a with
    | .ok s, _ => keep who r place s
    | .error (.invalidTransition _ _), .probe _ => return
    | .error e, _ => throw (.control e)

end Act

end Session

end Turnstile
