import Std.Data.HashMap
import Turnstile.Handshake
import Turnstile.Notice
import Turnstile.Region

/-!
# Reporters

A reporter is the side of a monitored program. It is attached to one slot, numbers the tasks that
are spawned at one site, knows the row of every block that it has seen, and counts its own reports.
Attaching picks up the rows that are in use, so that a second reporter goes on counting in them. The
reporter is the authority on the states of tasks: an odd change is noticed and made all the same.
-/

set_option autoImplicit false
set_option relaxedAutoImplicit false

namespace Turnstile

/-- What a reporter counts. -/
structure Tally where
  reports : Nat
  /-- Reports that waited for the scheduler. -/
  suspensions : Nat
  /-- Steps of the waits for the scheduler. -/
  spins : Nat
  sends : Nat
  receives : Nat
  /-- Hits on blocks for which the table had no row. -/
  droppedBlocks : Nat
deriving DecidableEq, Repr

namespace Tally

def zero : Tally := ⟨0, 0, 0, 0, 0, 0⟩

def toJson (t : Tally) : Json :=
  .object [
    ("reports", .int t.reports),
    ("suspensions", .int t.suspensions),
    ("spins", .int t.spins),
    ("sends", .int t.sends),
    ("receives", .int t.receives),
    ("dropped_blocks", .int t.droppedBlocks)]

end Tally

/-- A reporter attached to a slot. -/
structure Reporter where
  slot : SlotIndex
  /-- Whether reports wait where the mode asks for it. -/
  enforcing : Bool
  spinLimit : UInt32
  /-- How many tasks were spawned at each site. -/
  spawned : Std.HashMap UInt64 UInt64
  /-- The row of every block seen so far. -/
  rows : Std.HashMap String Nat
  tally : Tally

namespace Reporter

/-- The rows that are in use; of two rows with one id the later counts. -/
def rowsOf (s : Slot) : Std.HashMap String Nat :=
  s.usedRows.zipIdx.foldl (fun rows (row, i) ↦ rows.insert row.id.text i) ∅

/-- A reporter that starts on a slot. -/
def attach (i : SlotIndex) (s : Slot) (enforcing : Bool) (spinLimit : UInt32) : Reporter :=
  ⟨i, enforcing, spinLimit, ∅, rowsOf s, .zero⟩

/-- A new task, under the next number at its site. -/
def spawn (r : Reporter) (s : Slot) (id : Int64) (site : UInt64) (label : String) :
    Noted (Reporter × Slot × Task) := do
  Noted.noteIf (id = 0) (.emptyTaskId (hexNumber site.toNat))
  let ordinal := r.spawned.getD site 0
  let t := Task.spawned id site ordinal label
  return ({ r with spawned := r.spawned.insert site (ordinal + 1) }, s.setTaskRecord id t.record, t)

/-- What is noticed about a change of a status. -/
def statusNotice? (slot : Nat) (id : Int64) (old new : StatusWord) : Option Notice :=
  match old.status?, new.status? with
  | some a, some b =>
    if a.canBecome b then none else some (.oddTransition slot id.toInt a.name b.name)
  | _, _ => some (.unknownStatus slot id.toInt old.display new.display)

/-- Move a task to a status. -/
def setStatus (r : Reporter) (s : Slot) (id : Int64) (status : StatusWord) :
    Noted (Except Error (Slot × Task)) :=
  match s.task? id with
  | none => pure (.error (.unknownTask id))
  | some t =>
    let moved := { t with status := status }
    ⟨.ok (s.setTaskRecord id moved.record, moved),
      (statusNotice? r.slot id t.status status).toList⟩

/-- Count a hit on a block. Once every row is in use, hits on other blocks are dropped, the first of
them with a notice. -/
def reportBlock (r : Reporter) (s : Slot) (id : String) : Noted (Reporter × Slot) :=
  match r.rows[id]? with
  | some row => pure (r, s.addHit row)
  | none =>
    let row := r.rows.size
    if row < Limits.blocks then
      pure ({ r with rows := r.rows.insert id row }, s.publishRow row id)
    else
      ⟨({ r with tally.droppedBlocks := r.tally.droppedBlocks + 1 }, s),
        if r.tally.droppedBlocks = 0 then [.coverageFull r.slot Limits.blocks id] else []⟩

end Reporter

namespace Slot

/-- Tell the scheduler that the program has no tasks left. Only a controlled slot can finish. -/
def finish (s : Slot) : Except Error Slot := do
  let m ← s.mode
  if m.isControlled then return s.setMode .finished
  else throw (.invalidTransition m .finished)

end Slot

end Turnstile
