/-!
# Capacities

The sizes of the shared tables and buffers. Both sides of a region read the same bytes by offset, so
every number here is part of the layout that `layoutVersion` names.
-/

set_option autoImplicit false
set_option relaxedAutoImplicit false

namespace Turnstile

namespace Limits

/-- The version stamped into every slot of a region. -/
def layoutVersion : UInt32 := 2

/-- Slots of a region. -/
abbrev slots : Nat := 4

/-- Entries of a task table. -/
abbrev tasks : Nat := 4096

/-- Entries of an event log. -/
abbrev logEntries : Nat := 4096

/-- Variables of one dump. -/
abbrev dumpVariables : Nat := 128

/-- Bytes of a text in a record. -/
abbrev text : Nat := 64

/-- Rows of a coverage table. -/
abbrev blocks : Nat := 4096

/-- Bytes of a block id in the coverage table. -/
abbrev blockId : Nat := 256

/-- Arguments of a call, and as many results. -/
abbrev callValues : Nat := 10

/-- Steps a waiting reporter spins before it starts to yield, unless told otherwise. -/
def spins : UInt32 := 64

/-- The descriptor on which a region is inherited, unless told otherwise. -/
def descriptor : Int32 := 666

/-- The length of a region in bytes: four slots, rounded up to whole pages of 4096 bytes. -/
def regionLength : Nat := 508178432

theorem tasks_pos : 0 < tasks := by decide

theorem logEntries_pos : 0 < logEntries := by decide

theorem blocks_pos : 0 < blocks := by decide

/-- The place of `n` in a table of `size` entries, around which numbers go. -/
def place {size : Nat} (positive : 0 < size) (n : Nat) : Fin size :=
  ⟨n % size, Nat.mod_lt n positive⟩

end Limits

end Turnstile
