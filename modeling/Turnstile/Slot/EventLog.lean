import Turnstile.Event.Basic

/-!
# The event log of a slot

The log is a ring. Its cursor counts the appends since the region was made, and append `n` lives in
entry `n % capacity`, so once the ring is full every append overwrites the oldest entry. The highest
bit of the cursor is set while an entry is being written: what that append overwrites must not be
read any more.

A reader says up to where it has read. It gets the events from there on that are still in the ring,
in the order of the appends, and the number of those it missed: events overwritten, and entries that
hold no event. It copies a chunk of entries at a time and looks at the cursor again after each, to
leave out what an append may have overwritten meanwhile.
-/

set_option autoImplicit false
set_option relaxedAutoImplicit false

namespace Turnstile

/-- A ring of event records with its cursor. -/
structure EventLog (capacity : Nat) where
  cursor : UInt64
  entries : Vector EventRecord capacity
deriving DecidableEq

/-- What a reader gets from a log. -/
@[ext]
structure Drained where
  /-- The events in the order of their appends. -/
  events : List Event
  /-- How many events were missed. -/
  lost : Nat
  /-- Where to go on reading. -/
  next : UInt64
deriving DecidableEq, Repr

namespace EventLog

/-- The bit of the cursor that is set while an entry is being written. -/
def writingBit : UInt64 := 0x8000000000000000

variable {capacity : Nat}

/-- The log before the first append. -/
def empty (capacity : Nat) : EventLog capacity :=
  ⟨0, Vector.replicate capacity EventRecord.zero⟩

/-- The number of finished appends. -/
def appends (log : EventLog capacity) : UInt64 := log.cursor &&& ~~~writingBit

/-- The number of appends that have begun. -/
def begun (log : EventLog capacity) : Nat :=
  log.appends.toNat + if log.cursor &&& writingBit = 0 then 0 else 1

/-- The entry in which append `n` lives. A ring without entries has the empty one. -/
def entryAt (log : EventLog capacity) (n : Nat) : EventRecord :=
  (log.entries[n % capacity]?).getD EventRecord.zero

/-- The cursor as it stands while append `n` is written. -/
def startAppend (log : EventLog capacity) : EventLog capacity :=
  { log with cursor := log.appends ||| writingBit }

/-- One more entry, over the oldest one if the ring is full. -/
def append (log : EventLog capacity) (r : EventRecord) : EventLog capacity where
  cursor := log.appends + 1
  entries := log.entries.setIfInBounds (log.appends.toNat % capacity) r

/-- Appends below this number may have been overwritten. -/
def overwrittenBelow (log : EventLog capacity) : Nat := log.begun - capacity

/-- Entries that are copied before the cursor is looked at again. -/
def chunk : Nat := 64

/-- The entries of the appends from `first` up to `stop`. -/
def copied (log : EventLog capacity) (first stop : Nat) : List (Nat × EventRecord) :=
  (List.range' first (stop - first)).map fun n ↦ (n, log.entryAt n)

/-- What a reader has found. -/
structure Found where
  events : List Event
  /-- How many entries it had to leave out. -/
  missed : Nat
deriving DecidableEq, Repr

namespace Found

def none : Found := ⟨[], 0⟩

/-- One more event in front. -/
def keeping (f : Found) (e : Event) : Found := ⟨e :: f.events, f.missed⟩

/-- One more entry left out. -/
def missing (f : Found) : Found := ⟨f.events, f.missed + 1⟩

/-- What two stretches hold. -/
def append (f g : Found) : Found := ⟨f.events ++ g.events, f.missed + g.missed⟩

end Found

/-- The events of copied entries. Those below `safe` may have been overwritten while they were
copied. -/
def sift (safe : Nat) : List (Nat × EventRecord) → Noted Found
  | [] => pure .none
  | (n, r) :: rest =>
    if n < safe then do return (← sift safe rest).missing
    else
      match r.event? with
      | some e => do return (← sift safe rest).keeping e
      | none => do
        Noted.note (.undecodable n r.kind.toInt)
        return (← sift safe rest).missing

/-- Read the appends from `first` up to `stop`, one chunk after another. -/
def readTo (log : EventLog capacity) (stop first : Nat) : Noted Found :=
  if first < stop then do
    let next := min stop (first + chunk)
    let found ← sift log.overwrittenBelow (log.copied first next)
    return found.append (← log.readTo stop next)
  else pure .none
termination_by stop - first
decreasing_by
  have hchunk : 0 < chunk := by decide
  omega

/-- The events appended from `start` on. A reader that is ahead of the log starts again from its
end. -/
def readSince (log : EventLog capacity) (start : UInt64) : Noted Drained :=
  if log.appends < start then
    ⟨⟨[], 0, log.appends⟩, [.cursorAhead start.toNat log.appends.toNat]⟩
  else do
    let first := max start.toNat (log.appends.toNat - capacity)
    let found ← log.readTo log.appends.toNat first
    let lost := first - start.toNat + found.missed
    Noted.noteIf (0 < lost) (.overwritten lost capacity)
    return ⟨found.events, lost, log.appends⟩

/-- Every event still in the ring, oldest first. -/
def snapshot (log : EventLog capacity) : Noted (List Event) :=
  let drained := log.readSince 0
  ⟨drained.value.events, drained.notices⟩

/-- The fields of a log in the order of their offsets. -/
abbrev Fields (capacity : Nat) := UInt64 × Vector EventRecord capacity

def fields (log : EventLog capacity) : Fields capacity := (log.cursor, log.entries)

/-- The log with the given fields. -/
def ofFields : Fields capacity → EventLog capacity
  | (cursor, entries) => ⟨cursor, entries⟩

instance : Packed (EventLog capacity) := Packed.through fields ofFields

instance : LawfulPacked (EventLog capacity) :=
  Packed.lawful_through fields ofFields (fun _ ↦ rfl) (fun _ ↦ rfl)

end EventLog

end Turnstile
