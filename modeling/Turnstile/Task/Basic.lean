import Turnstile.Call.Basic
import Turnstile.Task.Status

/-!
# Tasks

A task of a monitored program has an id, which is unique within one run, and an identity that names
it across runs: the program counter that spawned it, and how many tasks were spawned there before.
Its record tells by a word of its own whether the task carries a call, so a call whose number stands
for no call is lost when it is stored. A record with id zero is an empty table entry.
-/

set_option autoImplicit false
set_option relaxedAutoImplicit false

namespace Turnstile

/-- A task. -/
structure Task where
  status : StatusWord
  id : Int64
  /-- The program counter that spawned the task. -/
  site : UInt64
  /-- How many tasks were spawned at the site before. -/
  ordinal : UInt64
  /-- The function that spawned the task. -/
  label : String
  /-- The call that the task is blocked in. -/
  call : Option Call
deriving DecidableEq, Repr

namespace Task

/-- A task that has just been spawned. -/
def spawned (id : Int64) (site ordinal : UInt64) (label : String) : Task :=
  ⟨.ofStatus .idle, id, site, ordinal, padded Limits.text label, none⟩

/-- The name of a task across runs. -/
def identity (t : Task) : UInt64 × UInt64 := (t.site, t.ordinal)

/-- The text of a task in a trace. -/
def display (t : Task) : String :=
  "g" ++ toString t.id.toInt ++ " [" ++ t.status.display ++ "] " ++ t.label ++ "@" ++
    hexNumber t.site.toNat ++ "#" ++ toString t.ordinal.toNat ++
    match t.call with
    | some c => " in " ++ c.display
    | none => ""

/-! ### Documents -/

def toJson (t : Task) : Json :=
  .object [
    ("status", .int t.status.word.toNat),
    ("gid", .int t.id.toInt),
    ("gpc", .int t.site.toNat),
    ("routine_count", .int t.ordinal.toNat),
    ("func_info", .string t.label),
    ("syscall", match t.call with
      | some c => c.toJson
      | none => .null)]

def reader : Json.Reader Json :=
  Json.Reader.record "struct TaskDescriptor" [
    ⟨"status", Json.Reader.unsigned32, .refused⟩,
    ⟨"gid", Json.Reader.signed64, .refused⟩,
    ⟨"gpc", Json.Reader.unsigned64, .refused⟩,
    ⟨"routine_count", Json.Reader.unsigned64, .refused⟩,
    ⟨"func_info", Json.Reader.text, .refused⟩,
    ⟨"syscall", Json.Reader.optional Call.reader, .null⟩]

def ofJson? : Json → Option Task
  | .object [(_, .int status), (_, .int id), (_, .int site), (_, .int ordinal),
      (_, .string label), (_, call)] => do
    let call ← match call with
      | .null => some none
      | call => (Call.ofJson? call).map some
    return {
      status := ⟨UInt32.ofNat status.toNat⟩
      id := Int64.ofInt id
      site := UInt64.ofNat site.toNat
      ordinal := UInt64.ofNat ordinal.toNat
      label := label
      call := call }
  | _ => none

end Task

/-- A stored task. -/
structure TaskRecord where
  status : UInt32
  /-- The number of the call that the task carries, or the number that stands for none. -/
  callNumber : Int32
  id : Int64
  site : UInt64
  ordinal : UInt64
  label : Buffer Limits.text
  call : CallRecord
deriving DecidableEq, Repr

namespace TaskRecord

/-- The fields of a record in the order of their offsets. -/
abbrev Fields :=
  UInt32 × Int32 × Int64 × UInt64 × UInt64 × Buffer Limits.text × CallRecord

def fields (r : TaskRecord) : Fields :=
  (r.status, r.callNumber, r.id, r.site, r.ordinal, r.label, r.call)

/-- The record with the given fields. -/
def ofFields : Fields → TaskRecord
  | (status, callNumber, id, site, ordinal, label, call) =>
    ⟨status, callNumber, id, site, ordinal, label, call⟩

instance : Packed TaskRecord := Packed.through fields ofFields

instance : LawfulPacked TaskRecord :=
  Packed.lawful_through fields ofFields (fun _ ↦ rfl) (fun _ ↦ rfl)

/-- The record of zero bytes. -/
def zero : TaskRecord := ⟨0, 0, 0, 0, 0, Buffer.zero _, CallRecord.zero⟩

/-- What a slot holds before any task has run in it. -/
def idle : TaskRecord := { zero with callNumber := Call.noNumber }

/-- Whether a table entry holds no task. -/
def isEmpty (r : TaskRecord) : Bool := r.id = 0

/-- The task that a record holds. -/
def task (r : TaskRecord) : Task where
  status := ⟨r.status⟩
  id := r.id
  site := r.site
  ordinal := r.ordinal
  label := r.label.paddedText
  call := if r.callNumber = Call.noNumber then none else some r.call.call

end TaskRecord

/-- The record that holds a task. -/
def Task.record (t : Task) : TaskRecord where
  status := t.status.word
  callNumber := match t.call with
    | some c => c.number
    | none => Call.noNumber
  id := t.id
  site := t.site
  ordinal := t.ordinal
  label := Buffer.ofPadded _ t.label
  call := match t.call with
    | some c => c.record
    | none => CallRecord.zero

end Turnstile
