import Turnstile.Bytes.Runs
import Turnstile.Slot.Basic

/-!
# The bytes of a slot

A slot takes 127043616 bytes, far too many to write out, so single stretches are read and written
part by part. A part is a word or a table entry, and `Part.at?` finds the part in which an offset
lies.
-/

set_option autoImplicit false
set_option relaxedAutoImplicit false

namespace Turnstile

namespace Slot

/-- The fields of a slot in the order of their offsets. -/
abbrev Fields :=
  UInt32 × UInt32 × Int32 × Int32 × UInt32 × UInt32 × TaskRecord ×
    Vector TaskRecord Limits.tasks × UInt64 × EventLog Limits.logEntries × UInt64 ×
    Vector BlockRow Limits.blocks

def fields (s : Slot) : Fields :=
  (s.lock, s.callLock, s.modeWord, s.callWord, s.version, s.directiveWord, s.running, s.tasks,
    s.epoch, s.log, s.blockCount, s.rows)

/-- The slot with the given fields. -/
def ofFields : Fields → Slot
  | (lock, callLock, modeWord, callWord, version, directiveWord, running, tasks, epoch, log,
      blockCount, rows) =>
    ⟨lock, callLock, modeWord, callWord, version, directiveWord, running, tasks, epoch, log,
      blockCount, rows⟩

instance : Packed Slot := Packed.through fields ofFields

instance : LawfulPacked Slot :=
  Packed.lawful_through fields ofFields (fun _ ↦ rfl) (fun _ ↦ rfl)

/-- A part of a slot that is read and written whole. -/
inductive Part
  | lock
  | callLock
  | mode
  | call
  | version
  | directive
  | running
  | task (i : Fin Limits.tasks)
  | epoch
  | cursor
  | entry (i : Fin Limits.logEntries)
  | blockCount
  | row (i : Fin Limits.blocks)
deriving DecidableEq, Repr

/-- Where the task table starts. -/
def tasksOffset : Nat := 24 + Packed.size TaskRecord

/-- Where the epoch stands. -/
def epochOffset : Nat := tasksOffset + Limits.tasks * Packed.size TaskRecord

/-- Where the event records start. -/
def entriesOffset : Nat := epochOffset + 16

/-- Where the number of coverage rows stands. -/
def blockCountOffset : Nat := entriesOffset + Limits.logEntries * Packed.size EventRecord

/-- Where the coverage rows start. -/
def rowsOffset : Nat := blockCountOffset + 8

/-- The number of bytes of a slot. -/
def length : Nat := rowsOffset + Limits.blocks * Packed.size BlockRow

namespace Part

def offset : Part → Nat
  | .lock => 0
  | .callLock => 4
  | .mode => 8
  | .call => 12
  | .version => 16
  | .directive => 20
  | .running => 24
  | .task i => tasksOffset + i * Packed.size TaskRecord
  | .epoch => epochOffset
  | .cursor => epochOffset + 8
  | .entry i => entriesOffset + i * Packed.size EventRecord
  | .blockCount => blockCountOffset
  | .row i => rowsOffset + i * Packed.size BlockRow

def size : Part → Nat
  | .running | .task _ => Packed.size TaskRecord
  | .epoch | .cursor | .blockCount => 8
  | .entry _ => Packed.size EventRecord
  | .row _ => Packed.size BlockRow
  | _ => 4

/-- The part in which an offset lies. -/
def at? (offset : Nat) : Option Part :=
  if offset < 4 then some .lock
  else if offset < 8 then some .callLock
  else if offset < 12 then some .mode
  else if offset < 16 then some .call
  else if offset < 20 then some .version
  else if offset < 24 then some .directive
  else if offset < tasksOffset then some .running
  else if offset < epochOffset then
    let n := (offset - tasksOffset) / Packed.size TaskRecord
    some (.task (Limits.place Limits.tasks_pos n))
  else if offset < epochOffset + 8 then some .epoch
  else if offset < entriesOffset then some .cursor
  else if offset < blockCountOffset then
    let n := (offset - entriesOffset) / Packed.size EventRecord
    some (.entry (Limits.place Limits.logEntries_pos n))
  else if offset < rowsOffset then some .blockCount
  else if offset < Slot.length then
    let n := (offset - rowsOffset) / Packed.size BlockRow
    some (.row (Limits.place Limits.blocks_pos n))
  else none

/-- The bytes of a part. -/
def bytes (s : Slot) : Part → List UInt8
  | .lock => Packed.pack s.lock
  | .callLock => Packed.pack s.callLock
  | .mode => Packed.pack s.modeWord
  | .call => Packed.pack s.callWord
  | .version => Packed.pack s.version
  | .directive => Packed.pack s.directiveWord
  | .running => Packed.pack s.running
  | .task i => Packed.pack s.tasks[i]
  | .epoch => Packed.pack s.epoch
  | .cursor => Packed.pack s.log.cursor
  | .entry i => Packed.pack s.log.entries[i]
  | .blockCount => Packed.pack s.blockCount
  | .row i => Packed.pack s.rows[i]

/-- The slot with other bytes in a part. -/
def set (s : Slot) (bytes : List UInt8) : Part → Slot
  | .lock => { s with lock := Packed.unpack bytes }
  | .callLock => { s with callLock := Packed.unpack bytes }
  | .mode => { s with modeWord := Packed.unpack bytes }
  | .call => { s with callWord := Packed.unpack bytes }
  | .version => { s with version := Packed.unpack bytes }
  | .directive => { s with directiveWord := Packed.unpack bytes }
  | .running => { s with running := Packed.unpack bytes }
  | .task i => { s with tasks := s.tasks.set i (Packed.unpack bytes) }
  | .epoch => { s with epoch := Packed.unpack bytes }
  | .cursor => { s with log := { s.log with cursor := Packed.unpack bytes } }
  | .entry i =>
    { s with log := { s.log with entries := s.log.entries.set i (Packed.unpack bytes) } }
  | .blockCount => { s with blockCount := Packed.unpack bytes }
  | .row i => { s with rows := s.rows.set i (Packed.unpack bytes) }

/-- The slot with zeros in a part. -/
def clear (s : Slot) : Part → Slot
  | .running => { s with running := TaskRecord.zero }
  | .task i => { s with tasks := s.tasks.set i TaskRecord.zero }
  | .entry i => { s with log := { s.log with entries := s.log.entries.set i EventRecord.zero } }
  | .row i => { s with rows := s.rows.set i BlockRow.zero }
  | word => word.set s []

/-- Whether a part is all zeros. -/
def isBlank (s : Slot) : Part → Bool
  | .task i => s.tasks[i] = TaskRecord.zero
  | .entry i => s.log.entries[i] = EventRecord.zero
  | .row i => s.rows[i] = BlockRow.zero
  | part => (part.bytes s).all (· = 0)

/-- Every part, in the order of the offsets. -/
def all : List Part :=
  [.lock, .callLock, .mode, .call, .version, .directive, .running] ++
    (List.finRange Limits.tasks).map .task ++ [.epoch, .cursor] ++
    (List.finRange Limits.logEntries).map .entry ++ [.blockCount] ++
    (List.finRange Limits.blocks).map .row

end Part

/-- The slot with zeros from `offset` on. -/
def clearFrom (s : Slot) (offset : Nat) : Slot :=
  if Slot.length ≤ offset then s
  else if offset = 0 then zero
  else Part.all.foldl (fun s part ↦
    if part.offset + part.size ≤ offset then s
    else if offset ≤ part.offset then part.clear s
    else part.set s ((part.bytes s).take (offset - part.offset))) s

/-- `count` bytes from `offset` on, part by part. Every round reads at least a byte. -/
def readFrom (s : Slot) : Nat → Nat → Nat → List UInt8
  | 0, _, _ => []
  | _ + 1, _, 0 => []
  | fuel + 1, offset, count =>
    match Part.at? offset with
    | none => []
    | some part =>
      let found := ((part.bytes s).drop (offset - part.offset)).take count
      found ++ readFrom s fuel (offset + found.length) (count - found.length)

/-- `count` bytes from `offset` on; `none` where they reach past the slot. -/
def read? (s : Slot) (offset count : Nat) : Option (List UInt8) :=
  if offset + count ≤ Slot.length then some (s.readFrom (count + 1) offset count) else none

/-- The slot with `bytes` written from `offset` on, part by part. Every round writes at least a
byte. -/
def writeFrom (s : Slot) : Nat → Nat → List UInt8 → Slot
  | 0, _, _ => s
  | _ + 1, _, [] => s
  | fuel + 1, offset, bytes =>
    match Part.at? offset with
    | none => s
    | some part =>
      let room := part.offset + part.size - offset
      let old := part.bytes s
      let s := part.set s (overlay old (offset - part.offset) (bytes.take room))
      writeFrom s fuel (offset + room) (bytes.drop room)

/-- The slot with `bytes` written from `offset` on; `none` where they reach past it. -/
def write? (s : Slot) (offset : Nat) (bytes : List UInt8) : Option Slot :=
  if offset + bytes.length ≤ Slot.length then some (s.writeFrom (bytes.length + 1) offset bytes)
  else none

end Slot

end Turnstile
