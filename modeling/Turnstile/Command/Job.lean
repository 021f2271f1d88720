import Turnstile.Command.Invocation
import Turnstile.Command.Paint
import Turnstile.Disk.Basic
import Turnstile.Schedule

/-!
# Jobs at a terminal

A job works on a disk and writes to two streams, one for results and one for everything else. It may
end early; what it has written and changed until then stays.
-/

set_option autoImplicit false
set_option relaxedAutoImplicit false

namespace Turnstile

/-- Why a command failed: what it was about to do, and the cause if that is another failure. -/
inductive Trouble
  | openingLog (path : String) (cause : PathRefusal)
  | creating (region : String) (cause : Error)
  | mapping (region : String) (cause : Error)
  | selecting (m : ControlMode) (cause : Error)
  | selectingIn (m : ControlMode) (slot : Nat) (cause : Error)
  | loading (schedule : String) (cause : PathRefusal)
  /-- The document in a schedule file is refused. -/
  | understanding (schedule : String) (document : List UInt8) (cause : Schedule.Refusal)
  | startingReplay (cause : Error)
  | saving (schedule : String) (cause : PathRefusal)
  | inspecting (cause : Error)

namespace Trouble

/-- The message, and the message of the cause. -/
def messages : Trouble → List String
  | .openingLog path r => ["Failed to open log file " ++ path, r.message]
  | .creating region e => ["Failed to create region " ++ region, e.message]
  | .mapping region e => ["Failed to map region " ++ region, e.message]
  | .selecting m e => ["Failed to select " ++ m.word ++ " mode", e.message]
  | .selectingIn m slot e =>
    ["Failed to select " ++ m.word ++ " mode in slot " ++ toString slot, e.message]
  | .loading schedule r => ["Failed to load schedule " ++ schedule, r.message]
  | .understanding schedule document (.fault f) =>
    ["Failed to load schedule " ++ schedule, f.located document]
  | .understanding schedule _ (.version s) =>
    ["Failed to load schedule " ++ schedule, s.versionMismatch]
  | .startingReplay e => ["Failed to start the replay", e.message]
  | .saving schedule r => ["Failed to write schedule to " ++ schedule, r.message]
  | .inspecting e => [e.message]

/-- What is written about a failure. -/
def text (colored : Bool) (t : Trouble) : String :=
  match t.messages with
  | [] => ""
  | message :: causes =>
    Paint.redBold.applyIf colored "Error" ++ ": " ++ message ++ "\n" ++
      String.join (causes.map fun cause ↦
        "     " ++ Paint.dimmedBold.applyIf colored ">" ++ " " ++ cause ++ "\n")

end Trouble

/-- How a job ends before its end. -/
inductive Halt
  | failure (t : Trouble)
  /-- A count overflowed, which a command does not survive. -/
  | crash
  /-- A slot is locked. The command waits for as long as it is. -/
  | blocked

/-- The state of a job. -/
structure Workplace where
  disk : Disk
  /-- What was written about results. -/
  out : String
  /-- What was written about everything else. -/
  err : String
  /-- Whether both are painted. -/
  colored : Bool
  level : LogLevel
  logFile : Option String

/-- Something that a command does. -/
abbrev Job := ExceptT Halt (StateM Workplace)

namespace Job

/-- The outcome of a job, and the workplace after it. -/
def runIn {α : Type} (job : Job α) (w : Workplace) : Except Halt α × Workplace := job w

/-- A result that may be a failure. -/
def succeeding {ε α : Type} (trouble : ε → Trouble) : Except ε α → Job α
  | .ok a => pure a
  | .error e => throw (.failure (trouble e))

def disk : Job Disk := do return (← get).disk

def setDisk (d : Disk) : Job Unit := modify fun w ↦ { w with disk := d }

/-- A text in a paint, if texts are painted. -/
def paint (p : Paint) (s : String) : Job String := do return p.applyIf (← get).colored s

/-- Write a line about results. -/
def print (s : String) : Job Unit := modify fun w ↦ { w with out := w.out ++ s ++ "\n" }

/-- Write a line about something else. -/
def remark (s : String) : Job Unit := modify fun w ↦ { w with err := w.err ++ s ++ "\n" }

/-- Write a file. What is written to one of the two streams as a file appears there. -/
def save (trouble : PathRefusal → Trouble) (path : String) (bytes : List UInt8) : Job Unit := do
  let (d, name) ← succeeding trouble ((← disk).write path bytes)
  let text := lossyText bytes
  modify fun w ↦
    let w := { w with disk := d }
    match Device.ofName? name with
    | some .output => { w with out := w.out ++ text }
    | some .errors => { w with err := w.err ++ text }
    | _ => w

/-- The line of the log for a notice, without the time and the module that stand before the
message. -/
def logLine (n : Notice) : String :=
  (match n.level with
    | .warning => "WARN "
    | .error => "ERROR ") ++ n.message

/-- Write a notice to the log. -/
def log (n : Notice) : Job Unit := do
  let w ← get
  if w.level.admits n then
    match w.logFile with
    | none => remark (logLine n)
    | some path =>
      if let .ok name := w.disk.find path then
        let f := w.disk.file name
        setDisk (w.disk.put name (f.write f.length (utf8 (logLine n ++ "\n"))))

/-- A result with notices, which go to the log. -/
def noted {α : Type} (x : Noted α) : Job α := do
  x.notices.forM log
  return x.value

/-- Begin the log. A log file that is there already is emptied. -/
def openLog : Job Unit := do
  if let some path := (← get).logFile then
    save (.openingLog path) path []

/-- The name of the file in which a region is, and the region. -/
def openRegion (path : String) : Job (String × Region) := do
  let d ← disk
  let name ← succeeding (.mapping path) (d.openRegion path)
  return (name, (d.file name).image)

/-- Keep a region in the file in which it is. -/
def keep (name : String) (r : Region) : Job Unit := do
  let d ← disk
  setDisk (d.put name { d.file name with image := r })

/-- Wait until something is unlocked, which it is or never will be. -/
def waitUntil (unlocked : Bool) : Job Unit := do
  unless unlocked do throw .blocked

end Job

end Turnstile
