import Turnstile.Coverage.Basic
import Turnstile.Coverage.Block
import Turnstile.Error
import Turnstile.Slot.EventLog

/-!
# Slots

A slot is the control block that a reporter and the scheduler share: two lock words, the mode, the
number of the call the program is blocked in, the layout version, the directive, the task that
reported or was granted last, the task table, the epoch, the event log and the coverage table. Each
word is kept as it stands in memory, so a slot with damaged words is a slot like any other.
-/

set_option autoImplicit false
set_option relaxedAutoImplicit false

namespace Turnstile

/-- A control block. -/
structure Slot where
  /-- Serializes the handshake. -/
  lock : UInt32
  /-- Guards the number of the blocking call. -/
  callLock : UInt32
  modeWord : Int32
  callWord : Int32
  version : UInt32
  directiveWord : UInt32
  running : TaskRecord
  tasks : Vector TaskRecord Limits.tasks
  epoch : UInt64
  log : EventLog Limits.logEntries
  blockCount : UInt64
  rows : Vector BlockRow Limits.blocks
deriving DecidableEq

namespace Slot

/-- The slot of zero bytes. -/
def zero : Slot where
  lock := 0
  callLock := 0
  modeWord := 0
  callWord := 0
  version := 0
  directiveWord := 0
  running := TaskRecord.zero
  tasks := Vector.replicate _ TaskRecord.zero
  epoch := 0
  log := EventLog.empty _
  blockCount := 0
  rows := Vector.replicate _ BlockRow.zero

/-- A slot prepared for first use: no call, no task, and the present layout version. -/
def stamp (s : Slot) : Slot :=
  { s with
    callWord := Call.noNumber
    running := TaskRecord.idle
    version := Limits.layoutVersion }

/-- A slot before any report. -/
def fresh : Slot := zero.stamp

/-! ### Words -/

def mode? (s : Slot) : Option Mode := Mode.ofCode? s.modeWord

/-- The mode, or the failure to know it. -/
def mode (s : Slot) : Except Error Mode :=
  match s.mode? with
  | some m => .ok m
  | none => .error (.unknownMode s.modeWord)

def setMode (s : Slot) (m : Mode) : Slot := { s with modeWord := m.code }

def directive? (s : Slot) : Option Directive := Directive.ofCode? s.directiveWord

def setDirective (s : Slot) (d : Directive) : Slot := { s with directiveWord := d.code }

/-- Whether the reporter waits for a decision. -/
def hasRequest (s : Slot) : Bool := s.directive? = some .requested

/-- Whether the reporter waits for a decision under a mode that gives it one. -/
def isOffered (s : Slot) : Bool := (s.mode?.any Mode.isControlled) && s.hasRequest

/-- Whether nobody holds the lock. -/
def isUnlocked (s : Slot) : Bool := s.lock = 0

def acquire (s : Slot) : Slot := { s with lock := 1 }

def release (s : Slot) : Slot := { s with lock := 0 }

/-- What `body` does while the lock is held. The lock is free again afterwards, however `body`
ends. -/
def guarded {α : Type} (s : Slot) (body : Slot → Slot × α) : Slot × α :=
  let (s, a) := body s.acquire
  (s.release, a)

/-- The number of the call that the program is blocked in, read under its lock. -/
def blockingCall (s : Slot) : Slot × Option Int32 :=
  let s := { s with callLock := 1 }
  let number := if s.callWord = Call.noNumber then none else some s.callWord
  ({ s with callLock := 0 }, number)

/-! ### Tasks -/

/-- The table entry of an id. -/
def taskIndex (id : Int64) : Fin Limits.tasks :=
  Limits.place Limits.tasks_pos (id.toInt % Limits.tasks).toNat

/-- The record in the table entry of an id. -/
def taskRecord (s : Slot) (id : Int64) : TaskRecord := s.tasks[taskIndex id]

def setTaskRecord (s : Slot) (id : Int64) (r : TaskRecord) : Slot :=
  { s with tasks := s.tasks.set (taskIndex id) r }

/-- The task with an id. -/
def task? (s : Slot) (id : Int64) : Option Task :=
  let r := s.taskRecord id
  if r.isEmpty = false ∧ r.id = id then some r.task else none

/-- Every task of the table, in the order of the entries. -/
def taskList (s : Slot) : List Task :=
  (s.tasks.toList.filter (·.isEmpty = false)).map TaskRecord.task

/-- The first entry of the table that holds the task of an identity. -/
def findTask? (s : Slot) (site ordinal : UInt64) : Option Task :=
  (s.tasks.toList.find? fun r ↦ r.isEmpty = false ∧ r.site = site ∧ r.ordinal = ordinal).map
    TaskRecord.task

/-- The task that reported last, or was granted last. -/
def runningTask (s : Slot) : Task := s.running.task

/-! ### Coverage -/

/-- The number of rows that are in use. -/
def publishedRows (s : Slot) : Nat := min s.blockCount.toNat Limits.blocks

/-- The rows in use. -/
def usedRows (s : Slot) : List BlockRow := s.rows.toList.take s.publishedRows

/-- The coverage in the table, unless the hits of rows with one id overflow. -/
def coverage? (s : Slot) : Option Coverage :=
  Coverage.ofList? (s.usedRows.map fun row ↦ (row.id.text, row.hits))

/-- One more hit on a row. Hits wrap around. -/
def addHit (s : Slot) (row : Nat) : Slot :=
  let index := Limits.place Limits.blocks_pos row
  let old := s.rows[index]
  { s with rows := s.rows.set index { old with hits := old.hits + 1 } }

/-- A first hit on a block, in a row that is in use from now on together with all before it. -/
def publishRow (s : Slot) (row : Nat) (id : String) : Slot :=
  { s with
    rows := s.rows.set (Limits.place Limits.blocks_pos row) ⟨1, BlockId.ofText id⟩
    blockCount := UInt64.ofNat row + 1 }

/-! ### Grants -/

/-- Whether the epoch can be advanced. -/
def canAdvance (s : Slot) : Bool := s.epoch.toNat + 1 < UInt64.size

/-- Let the waiting reporter resume a task, and advance the epoch. At the last epoch the task is
written and the epoch wraps around, but the answer is not given: the result says whether it was. -/
def grant (s : Slot) (t : Task) : Slot × Bool :=
  let answered := s.canAdvance
  let s := { s with running := t.record, epoch := s.epoch + 1 }
  if answered then (s.setDirective .proceed, true) else (s, false)

end Slot

end Turnstile
