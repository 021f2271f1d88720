import Turnstile.Command.Paint
import Turnstile.Region

/-!
# Inspecting slots

What a slot shows to somebody who looks at it from outside. Its coverage is read without the lock,
everything else under it; afterwards the slot is as it was, provided that its locks were free.
-/

set_option autoImplicit false
set_option relaxedAutoImplicit false

namespace Turnstile

/-- The state of a slot as it is shown. -/
structure SlotState where
  slot : SlotIndex
  /-- The mode; none where the mode word is the word of no mode. -/
  mode : Option Mode
  waiting : Bool
  epoch : UInt64
  /-- How many events the slot has logged. -/
  logged : UInt64
  /-- How many blocks its coverage has. -/
  blocks : Nat
  blockingCall : Option Int32
  /-- The task that reported or was granted last; none before the first. -/
  running : Option Task
  /-- The task table, if it is to be shown. -/
  tasks : Option (List Task)

namespace Slot

/-- Look at a slot, its number of blocks being known. -/
def look (i : SlotIndex) (withTasks : Bool) (blocks : Nat) (s : Slot) : Slot × SlotState :=
  s.guarded fun s ↦
    let (s, blockingCall) := s.blockingCall
    let running := s.runningTask
    (s, {
      slot := i
      mode := s.mode?
      waiting := s.hasRequest
      epoch := s.epoch
      logged := s.log.appends
      blocks := blocks
      blockingCall := blockingCall
      running := if running.id = 0 then none else some running
      tasks := if withTasks then some s.taskList else none })

/-- Whether nobody holds a lock that looking at the slot takes. -/
def canLook (s : Slot) : Bool := s.isUnlocked && s.callLock = 0

/-- Look at a slot. There is nothing to show where its hits of one block overflow. -/
def inspect (i : SlotIndex) (withTasks : Bool) (s : Slot) : Slot × Option SlotState :=
  match s.coverage? with
  | some c =>
    let (s, state) := s.look i withTasks c.blocks
    (s, some state)
  | none => (s, none)

end Slot

namespace SlotState

def toJson (s : SlotState) : Json :=
  .object ([
    ("slot", .int s.slot.val),
    ("mode", s.mode.elim .null fun m ↦ .string m.name),
    ("waiting", .bool s.waiting),
    ("epoch", .int s.epoch.toNat),
    ("logged", .int s.logged.toNat),
    ("covered_blocks", .int s.blocks),
    ("blocking_syscall", s.blockingCall.elim .null fun n ↦ .string (callName n)),
    ("running", s.running.elim .null Task.toJson)] ++
    match s.tasks with
    | some tasks => [("tasks", .array (tasks.map Task.toJson))]
    | none => [])

/-- The paint of a mode. -/
def modePaint : Mode → Paint
  | .recordActive => .green
  | .replayActive | .exploreActive => .cyan
  | .firstEvent => .yellow
  | .uninitialized | .finished | .replayEnded => .dimmed

/-- A text with blanks after it, up to a width. -/
def column (width : Nat) (s : String) : String :=
  s ++ String.ofList (List.replicate (width - s.length) ' ')

/-- The first line. -/
def headline (colored : Bool) (s : SlotState) : String :=
  let mode := match s.mode with
    | some m => (modePaint m).applyIf colored (column 14 m.name)
    | none => Paint.red.applyIf colored (column 14 "unknown")
  Paint.bold.applyIf colored ("slot " ++ toString s.slot.val) ++ " " ++ mode ++
    " epoch " ++ column 6 (toString s.epoch.toNat) ++
    " logged " ++ column 6 (toString s.logged.toNat) ++
    " blocks " ++ column 5 (toString s.blocks) ++
    if s.waiting then " " ++ Paint.yellowBold.applyIf colored "waiting" else ""

/-- The lines in which a slot is shown. -/
def lines (colored : Bool) (s : SlotState) : List String :=
  [s.headline colored] ++
    (s.running.toList.map fun t ↦ "    running " ++ t.display) ++
    (s.blockingCall.toList.map fun n ↦ "    blocked in " ++ callName n) ++
    ((s.tasks.getD []).map fun t ↦ "    " ++ Paint.dimmed.applyIf colored t.display)

def text (colored : Bool) (s : SlotState) : String :=
  String.join ((s.lines colored).map (· ++ "\n"))

end SlotState

end Turnstile
