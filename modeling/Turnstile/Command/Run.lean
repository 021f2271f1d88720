import Turnstile.Command.Inspection
import Turnstile.Command.Job
import Turnstile.Command.LogFilter
import Turnstile.Recorder
import Turnstile.Replay.Replayer

/-!
# Running commands

What each command does to the disk and what it writes. Nobody else acts on a region meanwhile: a
replay that finds no slot at its next recorded event would therefore wait for nothing, and gives up
at once however long it was told to wait.
-/

set_option autoImplicit false
set_option relaxedAutoImplicit false

namespace Turnstile

namespace Schedule

/-- The schedule without the events of other slots. -/
def only (s : Schedule) (slot : Nat) : Schedule :=
  { s with events := s.events.filter (·.slot.toNat = slot) }

end Schedule

namespace Region

/-- Rounds that follow a replayer until it is exhausted or a round grants nothing. A round that
grants something takes an event, so that the events that remain bound the number of rounds. -/
def replayRounds : Nat → Region → Replayer → Noted (Round Replayer)
  | 0, r, p => pure ⟨r, p, .none, true⟩
  | rounds + 1, r, p =>
    if p.isExhausted then pure ⟨r, p, .none, true⟩
    else do
      let round ← r.round Replayer.policy p
      if round.isComplete && !round.summary.granted.isEmpty then
        replayRounds rounds round.region round.state
      else return round

/-- Lead a region through the events that remain, until no slot is at its next one. -/
def replay (r : Region) (p : Replayer) : Noted (Round Replayer) := replayRounds p.remaining r p

end Region

namespace Job

/-- The numbers of the slots that a command is about. It does not survive the number after which
there is none. -/
def slotNumbers : Option Nat → Job (List Nat)
  | none => return List.range Limits.slots
  | some n => if n + 1 < UInt64.size then return [n] else throw .crash

def createRegion (path : String) (mode : Option ControlMode) : Job Unit := do
  let (d, name) ← succeeding (.creating path) ((← disk).createRegion path)
  setDisk d
  if let some m := mode then
    let (r, selected) := (d.file name).image.selectAll m
    keep name r
    succeeding (.selecting m) selected
  let created ← paint .greenBold "Created"
  print (created ++ " " ++ path ++ " (" ++ toString Limits.regionLength ++ " bytes)")

/-- Look at some slots, one after another. -/
def inspectSlots (withTasks : Bool) : List Nat → Region → Job (Region × List SlotState)
  | [], r => return (r, [])
  | n :: rest, r => do
    let i ← succeeding .inspecting (Region.slotIndex n)
    let (s, state) := (r.slot i).inspect i withTasks
    let some state := state | throw .crash
    waitUntil (r.slot i).canLook
    let (r, states) ← inspectSlots withTasks rest (r.setSlot i s)
    return (r, state :: states)

def inspectRegion (path : String) (slot : Option Nat) (withTasks json : Bool) : Job Unit := do
  let (name, r) ← openRegion path
  let (r, states) ← inspectSlots withTasks (← slotNumbers slot) r
  keep name r
  if json then print (Json.array (states.map SlotState.toJson)).pretty
  else
    let colored := (← get).colored
    for line in states.flatMap (·.lines colored) do print line

/-- Select a mode in some slots, one after another. -/
def selectSlots (name : String) (m : ControlMode) : List Nat → Region → Job Unit
  | [], _ => return
  | n :: rest, r => do
    let i ← succeeding (.selectingIn m n) (Region.slotIndex n)
    waitUntil (r.slot i).isUnlocked
    let (r, previous) := r.select i m
    keep name r
    let previous ← succeeding (.selectingIn m n) previous
    let word ← paint .bold m.word
    print ("slot " ++ toString n ++ ": " ++ previous.name ++ " -> " ++ word)
    selectSlots name m rest r

def selectMode (path : String) (m : ControlMode) (slot : Option Nat) : Job Unit := do
  let (name, r) ← openRegion path
  selectSlots name m (← slotNumbers slot) r

def endReplay (path : String) : Job Unit := do
  let (name, r) ← openRegion path
  keep name r.endReplay

def dumpLogs (path : String) (output : Option String) (slot : Option Nat) : Job Unit := do
  let (_, r) ← openRegion path
  let (recorder, fresh) ← noted (Recorder.start.drain r)
  if fresh.isNone then throw .crash
  if 0 < recorder.lost then
    let warning ← paint .yellowBold "WARNING:"
    remark (warning ++ " " ++ toString recorder.lost.toNat ++
      " events were overwritten before they could be read")
  let schedule := slot.elim recorder.finish recorder.finish.only
  match output with
  | none => print schedule.text
  | some file =>
    save (.saving file) file schedule.document
    let wrote ← paint .greenBold "Wrote"
    remark (wrote ++ " " ++ toString schedule.events.length ++ " events to " ++ file)

/-- The schedule in a file. -/
def loadSchedule (path : String) : Job Schedule := do
  let d ← disk
  let name ← succeeding (.loading path) (d.find path)
  let document := d.leading name
  succeeding (.understanding path document) (Schedule.ofDocument document)

def replaySchedule (path schedule : String) (perSlot : Bool) (patience : Nat) : Job Unit := do
  let schedule ← loadSchedule schedule
  let (name, r) ← openRegion path
  let replayer ← noted (Replayer.ofSchedule schedule)
  let unlocked := (List.finRange Limits.slots).takeWhile fun i ↦ (r.slot i).isUnlocked
  let (r, started) := r.selectIn .replay unlocked
  keep name r
  succeeding .startingReplay started
  waitUntil (unlocked.length = Limits.slots)
  let round ← noted (r.replay (if perSlot then replayer.perSlot else replayer))
  keep name round.region
  unless round.isComplete do throw .crash
  let p := round.state
  unless p.isExhausted do log (.stalled patience p.remaining)
  keep name round.region.endReplay
  let verdict ←
    if p.isExhausted && p.desyncs = 0 then paint .greenBold "Replayed"
    else paint .redBold "Diverged"
  print (verdict ++ " " ++ toString p.replayed ++ " events, " ++ toString p.desyncs ++
    " desyncs, " ++ toString p.remaining ++ " not replayed")

end Job

namespace Command

/-- The job of a command. -/
def job : Command → Job Unit
  | .create region mode => Job.createRegion region mode
  | .inspect region slot withTasks json => Job.inspectRegion region slot withTasks json
  | .select region mode slot => Job.selectMode region mode slot
  | .endReplay region => Job.endReplay region
  | .dump region output slot => Job.dumpLogs region output slot
  | .replay region schedule perSlot patience =>
    Job.replaySchedule region schedule perSlot patience

end Command

/-- What running a command line comes to. -/
structure Outcome where
  disk : Disk
  out : String
  err : String
  /-- The exit code; none if the command never ends, since it waits for a lock. -/
  code : Option Nat

namespace Outcome

/-- The outcome of a command line that runs no command. -/
def still (d : Disk) (out err : String) (code : Nat) : Outcome := ⟨d, out, err, some code⟩

/-- The outcome of a job. -/
def ofJob (result : Except Halt Unit) (w : Workplace) : Outcome :=
  match result with
  | .ok () => ⟨w.disk, w.out, w.err, some 0⟩
  | .error (.failure t) => ⟨w.disk, w.out, w.err ++ t.text w.colored, some 1⟩
  | .error .crash => ⟨w.disk, w.out, w.err, some 101⟩
  | .error .blocked => ⟨w.disk, w.out, w.err, none⟩

end Outcome

namespace Command

/-- The name and the version of the program. -/
def versionLine : String := "dara 0.0.0\n"

def usage : String :=
  "Usage: dara [-l LEVEL] [--log-file FILE] COMMAND\n\nCommands:\n" ++ summary ++ "\n"

/-- Whether output is painted. The environment can force it, forbid it, or leave it to whether the
output is a terminal. -/
def isColored (env : Options.Environment) (terminal : Bool) : Bool :=
  if (env.lookup "CLICOLOR_FORCE").any (· ≠ "0") then true
  else if (env.lookup "NO_COLOR").isSome then false
  else terminal && env.lookup "CLICOLOR" ≠ some "0"

/-- Run a command line. -/
def run (env : Options.Environment) (terminal : Bool) (args : List String) (d : Disk) : Outcome :=
  match Invocation.read env args with
  | .ok invocation =>
    let job := do
      Job.openLog
      (LogFilter.remarks ((env.lookup "RUST_LOG").getD "")).forM Job.remark
      invocation.command.job
    let (result, w) := Job.runIn job {
      disk := d
      out := ""
      err := ""
      colored := isColored env terminal
      level := invocation.level
      logFile := invocation.logFile }
    .ofJob result w
  | .error .help => .still d usage "" 0
  | .error .version => .still d versionLine "" 0
  | .error r => .still d "" ("error: " ++ r.message ++ "\n\n" ++ usage) 2

end Command

end Turnstile
