import Turnstile.Command.LogLevel
import Turnstile.Mode

/-!
# Invocations

A command line names a command after the options that all commands share. The arguments of the
command are read in full before the values of the shared options are checked, so that a request for
help with a command is met whatever stands in front of the command.
-/

set_option autoImplicit false
set_option relaxedAutoImplicit false

namespace Turnstile

/-- What can be done to a region from outside. Every command names the file of its region. -/
inductive Command
  /-- Create a region; a mode may be selected in every slot right away. -/
  | create (region : String) (mode : Option ControlMode)
  /-- Show every slot, or one of them. -/
  | inspect (region : String) (slot : Option Nat) (withTasks json : Bool)
  /-- Select a mode in every slot, or in one of them. -/
  | select (region : String) (mode : ControlMode) (slot : Option Nat)
  /-- End the replay in every slot. -/
  | endReplay (region : String)
  /-- Write the events that the logs hold as a schedule. -/
  | dump (region : String) (output : Option String) (slot : Option Nat)
  /-- Lead a region through a schedule. -/
  | replay (region schedule : String) (perSlot : Bool) (patience : Nat)
deriving DecidableEq, Repr

namespace Command

/-- The path of the region. -/
def region : Command → String
  | .create region _ => region
  | .inspect region _ _ _ => region
  | .select region _ _ => region
  | .endReplay region => region
  | .dump region _ _ => region
  | .replay region _ _ _ => region

/-- The path of the schedule that is read or written, if it is in a file. -/
def schedule? : Command → Option String
  | .dump _ output _ => output
  | .replay _ schedule _ _ => some schedule
  | _ => none

/-- Whether the region may be another one afterwards. -/
def changesRegion : Command → Bool
  | .inspect .. | .dump .. => false
  | _ => true

/-- Whether a schedule is written to a file. -/
def writesSchedule : Command → Bool
  | .dump _ output _ => output.isSome
  | _ => false

end Command

/-- A command with the options that all commands share. -/
structure Invocation where
  level : LogLevel
  /-- The file for the log, if it does not go to the terminal. -/
  logFile : Option String
  command : Command
deriving DecidableEq, Repr

namespace Command

open Options

/-- How a command is written: the names it has, what follows them, and the command that it makes. -/
structure Form where
  names : List String
  spec : Spec
  command? : Found → Option Command

def anyText (_ : String) : Bool := true

def isIndex (s : String) : Bool := (natural? UInt64.size s).isSome

def isMode (s : String) : Bool := (ControlMode.ofWord? s).isSome

/-- The file of the region, which may also come from the environment. -/
def regionOperand : Operand := ⟨"REGION", some "DARA_REGION", anyText⟩

def slotFlag : Flag := ⟨"slot", some 's', none, some isIndex⟩

def switch (name : String) : Flag := ⟨name, none, none, none⟩

def region? (found : Found) : Option String := valueOf found "REGION"

def slot? (found : Found) : Option Nat := (valueOf found "slot").bind (natural? UInt64.size)

/-- The forms of all commands. -/
def forms : List Form := [
  { names := ["create"]
    spec := ⟨[⟨"mode", none, none, some isMode⟩], [regionOperand], false⟩
    command? := fun found ↦ do
      return .create (← region? found) ((valueOf found "mode").bind ControlMode.ofWord?) },
  { names := ["inspect", "ls"]
    spec := ⟨[slotFlag, switch "tasks", switch "json"], [regionOperand], false⟩
    command? := fun found ↦ do
      return .inspect (← region? found) (slot? found) (isGiven found "tasks")
        (isGiven found "json") },
  { names := ["mode"]
    spec := ⟨[slotFlag], [regionOperand, ⟨"MODE", none, isMode⟩], false⟩
    command? := fun found ↦ do
      return .select (← region? found)
        (← (valueOf found "MODE").bind ControlMode.ofWord?) (slot? found) },
  { names := ["end-replay"]
    spec := ⟨[], [regionOperand], false⟩
    command? := fun found ↦ do return .endReplay (← region? found) },
  { names := ["dump"]
    spec := ⟨[⟨"output", some 'o', none, some anyText⟩, slotFlag], [regionOperand], false⟩
    command? := fun found ↦ do
      return .dump (← region? found) (valueOf found "output") (slot? found) },
  { names := ["replay"]
    spec := ⟨[switch "per-slot", ⟨"stall-timeout", none, none, some isIndex⟩],
      [regionOperand, ⟨"SCHEDULE", none, anyText⟩], false⟩
    command? := fun found ↦ do
      return .replay (← region? found) (← valueOf found "SCHEDULE") (isGiven found "per-slot")
        (((valueOf found "stall-timeout").bind (natural? UInt64.size)).getD 30) }]

/-- Why arguments that ask for help make no command: the help is there, for everything or for one
command, or what it is asked for is no command. -/
def refusalOfHelp : List String → Refusal
  | [] => .help
  | [name] =>
    if name = "help" || forms.any (·.names.contains name) then .help else .unknownCommand
  | _ => .unknownCommand

/-- The command that arguments give, the first of which is its name. -/
def read (env : Environment) : List String → Except Refusal Command
  | [] => .error .missingCommand
  | name :: args =>
    match forms.find? (·.names.contains name) with
    | some form => do
      match form.command? (← Options.read form.spec env args) with
      | some command => return command
      | none => throw .missingArgument
    | none => .error (if name = "help" then refusalOfHelp args else .unknownCommand)

/-- One line for each command. -/
def summary : String :=
  "\n".intercalate (forms.map fun form ↦
    "  " ++ " ".intercalate (form.names.take 1 ++ form.spec.operands.map (·.name)))

end Command

namespace Invocation

open Options

/-- The options that all commands share. -/
def spec : Spec where
  flags := [
    ⟨"log", some 'l', some "DARA_LOG", some fun s ↦ (LogLevel.ofWord? s).isSome⟩,
    ⟨"log-file", none, some "DARA_LOG_FILE", some Command.anyText⟩]
  operands := []
  hasVersion := true

/-- The invocation that arguments and environment give. -/
def read (env : Environment) (args : List String) : Except Refusal Invocation := do
  let (found, rest) ← readLeading spec [] none args
  let command ← Command.read env rest
  let found ← complete spec env found none
  return {
    level := ((valueOf found "log").bind LogLevel.ofWord?).getD .warn
    logFile := valueOf found "log-file"
    command := command }

end Invocation

end Turnstile
