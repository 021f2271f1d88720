import Turnstile.Bytes.Hex
import Turnstile.Json.Reader

/-!
# The status of a task

The states are numbered as the monitored scheduler numbers them; two of them are never entered. The
status word in a table carries a state and, while a scan looks at the task, one more bit. A word may
also hold no state at all, and is kept as it is.
-/

set_option autoImplicit false
set_option relaxedAutoImplicit false

namespace Turnstile

/-- The state of a task. -/
inductive TaskStatus
  | idle
  | runnable
  | running
  | syscall
  | waiting
  | moribundUnused
  | dead
  | enqueueUnused
  | copyStack
deriving DecidableEq, Repr

namespace TaskStatus

/-- Every state, in the order of the numbers. -/
def all : List TaskStatus :=
  [.idle, .runnable, .running, .syscall, .waiting, .moribundUnused, .dead, .enqueueUnused,
    .copyStack]

def code : TaskStatus → UInt32
  | .idle => 0
  | .runnable => 1
  | .running => 2
  | .syscall => 3
  | .waiting => 4
  | .moribundUnused => 5
  | .dead => 6
  | .enqueueUnused => 7
  | .copyStack => 8

/-- The state with a number. -/
def ofCode? (n : UInt32) : Option TaskStatus := all.find? (·.code = n)

def name : TaskStatus → String
  | .idle => "Idle"
  | .runnable => "Runnable"
  | .running => "Running"
  | .syscall => "Syscall"
  | .waiting => "Waiting"
  | .moribundUnused => "MoribundUnused"
  | .dead => "Dead"
  | .enqueueUnused => "EnqueueUnused"
  | .copyStack => "CopyStack"

def reader : Json.Reader Json := Json.Reader.names (all.map name)

/-- The moves that a task makes, besides staying where it is. -/
def moves : List (TaskStatus × TaskStatus) := [
  (.idle, .dead),
  (.idle, .runnable),
  (.dead, .runnable),
  (.runnable, .running),
  (.running, .syscall),
  (.running, .waiting),
  (.running, .runnable),
  (.running, .dead),
  (.running, .copyStack),
  (.syscall, .running),
  (.syscall, .runnable),
  (.waiting, .runnable),
  (.waiting, .copyStack),
  (.copyStack, .running),
  (.copyStack, .waiting)]

/-- Whether a task may go from one state to another. -/
def canBecome (old new : TaskStatus) : Bool := old = new || moves.contains (old, new)

theorem ofCode?_code (s : TaskStatus) : ofCode? s.code = some s := by cases s <;> rfl

end TaskStatus

/-- A status word as it stands in a table. -/
structure StatusWord where
  word : UInt32
deriving DecidableEq, Repr

namespace StatusWord

def reader : Json.Reader Json := Json.Reader.unsigned32

/-- The bit of a scan in progress. -/
def scanBit : UInt32 := 0x1000

/-- The word of a state outside a scan. -/
def ofStatus (s : TaskStatus) : StatusWord := ⟨s.code⟩

/-- The word of a state during a scan. Only the first five states are scanned. -/
def scanning? (s : TaskStatus) : Option StatusWord :=
  if s.code ≤ TaskStatus.waiting.code then some ⟨s.code ||| scanBit⟩ else none

def isScanning (w : StatusWord) : Bool := w.word &&& scanBit ≠ 0

/-- The state that a word carries, if it is one. -/
def status? (w : StatusWord) : Option TaskStatus :=
  TaskStatus.ofCode? (w.word &&& ~~~scanBit)

def display (w : StatusWord) : String :=
  match w.status? with
  | some s => if w.isScanning then s.name ++ "+scan" else s.name
  | none => "status#" ++ hexNumber w.word.toNat

end StatusWord

end Turnstile
