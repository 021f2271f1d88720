import Turnstile.Json.Reader
import Turnstile.Text.Quoted

/-!
# Modes and directives

The mode word of a slot tells what the scheduler asked for and how far the reporter has come. Under
the two controlled modes a report waits for a grant, and the directive word carries the request and
the answer.
-/

set_option autoImplicit false
set_option relaxedAutoImplicit false

namespace Turnstile

/-- The mode of a slot. -/
inductive Mode
  | uninitialized
  /-- The reporter has reported and waits for a mode. -/
  | firstEvent
  | replayActive
  | recordActive
  | exploreActive
  /-- The program has no tasks left. -/
  | finished
  /-- The replay is over: every waiting report is released and none waits again. -/
  | replayEnded
deriving DecidableEq, Repr

namespace Mode

/-- Every mode. -/
def all : List Mode :=
  [.uninitialized, .firstEvent, .replayActive, .recordActive, .exploreActive, .finished,
    .replayEnded]

/-- The word of a mode. -/
def code : Mode → Int32
  | .uninitialized => 0
  | .firstEvent => 1
  | .replayActive => 2
  | .recordActive => 3
  | .exploreActive => 4
  | .finished => -1
  | .replayEnded => -4

/-- The mode of a word. -/
def ofCode? (n : Int32) : Option Mode := all.find? (·.code = n)

def name : Mode → String
  | .uninitialized => "Uninitialized"
  | .firstEvent => "FirstEvent"
  | .replayActive => "ReplayActive"
  | .recordActive => "RecordActive"
  | .exploreActive => "ExploreActive"
  | .finished => "Finished"
  | .replayEnded => "ReplayEnded"

/-- Whether reports wait for grants. -/
def isControlled : Mode → Bool
  | .replayActive | .exploreActive => true
  | _ => false

/-- Whether the scheduler cannot leave the mode. -/
def isTerminal : Mode → Bool
  | .replayEnded => true
  | _ => false

def reader : Json.Reader Json := Json.Reader.names (all.map name)

theorem ofCode?_code (m : Mode) : ofCode? m.code = some m := by cases m <;> rfl

theorem code_of_ofCode? {n : Int32} {m : Mode} (h : ofCode? n = some m) : m.code = n := by
  simpa using List.find?_some h

end Mode

/-- A mode that the scheduler can select. -/
inductive ControlMode
  | record
  | replay
  | explore
deriving DecidableEq, Repr

namespace ControlMode

/-- Every selectable mode. -/
def all : List ControlMode := [.record, .replay, .explore]

/-- The name on a command line. -/
def word : ControlMode → String
  | .record => "record"
  | .replay => "replay"
  | .explore => "explore"

/-- The name in a document. -/
def name : ControlMode → String
  | .record => "Record"
  | .replay => "Replay"
  | .explore => "Explore"

/-- The mode that a slot enters. -/
def mode : ControlMode → Mode
  | .record => .recordActive
  | .replay => .replayActive
  | .explore => .exploreActive

/-- The selectable mode that a word names, in letters of either case. -/
def ofWord? (s : String) : Option ControlMode :=
  let lowered := String.ofList (s.toList.map Char.toLower)
  all.find? (·.word = lowered)

/-- What is said about a word that names no mode. -/
def unknownWord (s : String) : String :=
  "unknown mode " ++ quoted s ++ ", expected record, replay or explore"

def reader : Json.Reader Json := Json.Reader.names (all.map name)

end ControlMode

/-- The word by which a reporter asks for a decision and is answered. -/
inductive Directive
  | idle
  /-- The reporter waits for a decision. -/
  | requested
  /-- The scheduler has chosen a task. -/
  | proceed
deriving DecidableEq, Repr

namespace Directive

/-- Every directive, in the order of the numbers. -/
def all : List Directive := [.idle, .requested, .proceed]

def code : Directive → UInt32
  | .idle => 0
  | .requested => 1
  | .proceed => 2

/-- The directive with a number. -/
def ofCode? (n : UInt32) : Option Directive := all.find? (·.code = n)

def name : Directive → String
  | .idle => "Idle"
  | .requested => "Requested"
  | .proceed => "Proceed"

def reader : Json.Reader Json := Json.Reader.names (all.map name)

theorem ofCode?_code (d : Directive) : ofCode? d.code = some d := by cases d <;> rfl

end Directive

end Turnstile
