import Turnstile.Clock
import Turnstile.Probe
import Turnstile.Recorder
import Turnstile.Replay.Replayer

/-!
# Sessions

A session plays reporters, probes and the scheduler against one another in a single thread. What
would wait in a program of its own is put aside as an errand, and every turn gives each errand one
chance to go on. A session either has one region in memory, open from the start, or a disk of its
own on which regions are created and opened.

An `Act` is a piece of a session. It may fail, and what it has done until then stays done.
-/

set_option autoImplicit false
set_option relaxedAutoImplicit false

namespace Turnstile

namespace Session

/-- Why an act has no result. -/
inductive Failure
  /-- The control plane refused. -/
  | control (e : Error)
  /-- The session itself could not use a file. -/
  | file (r : PathRefusal)
  /-- There is a zero byte in an argument or a variable of a command. -/
  | zeroByte
  /-- The bytes of a file spell no text. -/
  | noText
  /-- A count overflowed, or another assumption broke that a program does not survive. -/
  | crash
  /-- The agent has a report that still waits. -/
  | busy
  /-- The scheduler itself holds a lock that the act would wait for. -/
  | locked
  /-- The act makes no sense here. -/
  | senseless
deriving DecidableEq, Repr

/-- Somebody who reports. -/
inductive Agent
  | reporter (r : Reporter) (place : Place)
  | probe (p : Probe)

/-- Reports to be made in a row. -/
structure Errand where
  agent : String
  task : Int64
  payload : Payload
  traffic : Option Traffic
  /-- Whether the agent gives up where it cannot reach its slot. -/
  vital : Bool
  /-- How many reports follow the present one. -/
  left : Nat

/-- An errand whose present report waits. -/
structure Pause where
  errand : Errand
  wait : Wait

/-- A lock that the scheduler holds from act to act. -/
structure HeldLock where
  slot : SlotIndex
  /-- The place of the region that the slot is in. -/
  place : Place

/-- The state of a session. -/
structure World where
  /-- The region of a session without a disk. -/
  memory : Region
  disk : Option Disk
  /-- The region on which the scheduler acts. -/
  opened : Option Place
  agents : Std.TreeMap String Agent
  /-- The errands that wait, in the order in which they began to. -/
  pauses : List Pause
  clock : Clock
  /-- The locks that the scheduler holds, at most one for each slot number. They stay held when
  another region is opened. -/
  held : List HeldLock
  recorders : Std.TreeMap String Recorder
  schedules : Std.TreeMap String Schedule
  replayers : Std.TreeMap String Replayer
  /-- Whether the process maps the region that it inherited. -/
  mapped : Bool

namespace World

/-- A session over a fresh region in memory. -/
def overMemory : World where
  memory := .fresh
  disk := none
  opened := some .memory
  agents := ∅
  pauses := []
  clock := .start
  held := []
  recorders := ∅
  schedules := ∅
  replayers := ∅
  mapped := false

/-- A session over an empty disk. -/
def overDisk : World := { overMemory with disk := some .empty, opened := none }

/-- The region at a place. -/
def region (w : World) : Place → Region
  | .memory => w.memory
  | .file name => ((w.disk.getD .empty).file name).image

def setRegion (w : World) (r : Region) : Place → World
  | .memory => { w with memory := r }
  | .file name =>
    match w.disk with
    | some d => { w with disk := some (d.put name { d.file name with image := r }) }
    | none => w

/-- The lock that the scheduler holds of a slot with this number. -/
def heldLock? (w : World) (n : Nat) : Option HeldLock := w.held.find? (·.slot = n)

/-- Whether an agent has a report that waits. -/
def isBusy (w : World) (agent : String) : Bool := w.pauses.any (·.errand.agent = agent)

end World

/-- A piece of a session. -/
abbrev Act := ExceptT Failure (StateT World Noted)

namespace Act

/-- The outcome of an act, and the session after it. -/
def runIn {α : Type} (act : Act α) (w : World) : Noted (Except Failure α × World) := act w

/-- An act given by what it does to a session. -/
def ofRun {α : Type} (run : World → Noted (Except Failure α × World)) : Act α := run

/-- A result with notices. -/
def noted {α : Type} (x : Noted α) : Act α :=
  ofRun fun w ↦ ⟨(.ok x.value, w), x.notices⟩

/-- A result of the control plane. -/
def controlled {α : Type} : Except Error α → Act α
  | .ok a => pure a
  | .error e => throw (.control e)

/-- What has to be there for an act to make sense. -/
def needed {α : Type} : Option α → Act α
  | some a => pure a
  | none => throw .senseless

/-! ### Regions -/

/-- The place of the region on which the scheduler acts. -/
def openPlace : Act Place := do needed (← get).opened

/-- The region on which the scheduler acts. -/
def openRegion : Act Region := do
  let place ← openPlace
  return (← get).region place

def setOpenRegion (r : Region) : Act Unit := do
  let place ← openPlace
  modify (·.setRegion r place)

/-- The slot that a number is. -/
def slotIndex (n : Nat) : Act SlotIndex := controlled (Region.slotIndex n)

/-- A slot of the open region. -/
def slot (i : SlotIndex) : Act Slot := do return (← openRegion).slot i

def setSlot (i : SlotIndex) (s : Slot) : Act Unit := do
  setOpenRegion ((← openRegion).setSlot i s)

/-- The disk of a session that has one. -/
def disk : Act Disk := do needed (← get).disk

def setDisk (d : Disk) : Act Unit := modify fun w ↦ { w with disk := some d }

/-- The path of a file in the directory of the session. No path at all leads to the directory. -/
def pathWithin (path : String) : String := if path = "" then "." else path

/-! ### Agents -/

/-- An agent that is free to act. -/
def agent (who : String) : Act Agent := do
  let w ← get
  let a ← needed w.agents[who]?
  if w.isBusy who then throw .busy
  return a

def setAgent (who : String) (a : Agent) : Act Unit :=
  modify fun w ↦ { w with agents := w.agents.insert who a }

/-- Let an agent go. A region that it had inherited is unmapped. -/
def removeAgent (who : String) : Act Unit :=
  modify fun w ↦
    let unmaps := match w.agents[who]? with
      | some (.probe p) => p.holdsInherited
      | _ => false
    { w with agents := w.agents.erase who, mapped := w.mapped && !unmaps }

/-- Put an agent in the place of a free one, or of none. -/
def replaceAgent (who : String) (a : Agent) : Act Unit := do
  removeAgent who
  setAgent who a

/-- Refuse to replace an agent whose report waits. -/
def checkFree (who : String) : Act Unit := do
  if (← get).isBusy who then throw .busy

/-- The attachment of a probe, made now if need be. -/
def reach (who : String) (p : Probe) : Act Attachment := do
  let w ← get
  let (mapped, reached) := p.reach (w.disk.getD .empty) w.mapped
  set { w with mapped := mapped }
  match reached with
  | .attached a =>
    setAgent who (.probe { p with attached := some a })
    return a
  | .failed e => throw (.control e)
  | .crashed => throw .crash

/-- The reporter of an agent and the place of its region; none if the agent is switched off. -/
def reporter? (who : String) (a : Agent) : Act (Option (Reporter × Place)) := do
  match a with
  | .reporter r place => return some (r, place)
  | .probe p =>
    if p.isEnabled then
      let a ← reach who p
      return some (a.reporter, a.place)
    else return none

/-- Keep a reporter and its slot after it has acted. -/
def keep (who : String) (r : Reporter) (place : Place) (s : Slot) : Act Unit :=
  modify fun w ↦
    let w := w.setRegion ((w.region place).setSlot r.slot s) place
    let agents := w.agents.modify who fun
      | .reporter _ place => .reporter r place
      | .probe p => .probe { p with attached := p.attached.map ({ · with reporter := r }) }
    { w with agents := agents }

end Act

end Session

end Turnstile
