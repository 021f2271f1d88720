import Turnstile.Event.Payload

/-!
# Events

An event tells which slot reported it, the task it concerns, the epoch of the slot and the time of
the report. Its record has a place for each payload, of which the kind selects one; encoding leaves
the others zero, and decoding does not look at them. A record of an unknown kind, or of a negative
slot, holds no event.
-/

set_option autoImplicit false
set_option relaxedAutoImplicit false

namespace Turnstile

/-- An entry of the event log. -/
structure Event where
  /-- The slot that reported the event. -/
  slot : UInt64
  task : Task
  epoch : UInt64
  /-- Nanoseconds on a clock that all slots share. -/
  stamp : UInt64
  payload : Payload
deriving DecidableEq, Repr

namespace Event

/-- The text of an event in a trace. -/
def display (e : Event) : String :=
  let task := "g" ++ toString e.task.id.toInt
  "[p" ++ toString e.slot.toNat ++ " e" ++ toString e.epoch.toNat ++ "] " ++
    match e.payload with
    | .dump d =>
      "log " ++ d.point ++ " by " ++ task ++
        String.join (d.vars.map fun v ↦ " " ++ v.display)
    | .call c => task ++ " " ++ c.display
    | .send m => task ++ " send " ++ toString m.body.length ++ " bytes"
    | .receive m => task ++ " recv " ++ toString m.body.length ++ " bytes"
    | .schedule => "schedule " ++ e.task.display

def toJson (e : Event) : Json :=
  .object [
    ("proc_id", .int e.slot.toNat),
    ("task", e.task.toJson),
    ("epoch", .int e.epoch.toNat),
    ("stamp", .int e.stamp.toNat),
    ("payload", e.payload.toJson)]

def reader : Json.Reader Json :=
  Json.Reader.record "struct Event" [
    ⟨"proc_id", Json.Reader.size, .refused⟩,
    ⟨"task", Task.reader, .refused⟩,
    ⟨"epoch", Json.Reader.unsigned64, .refused⟩,
    ⟨"stamp", Json.Reader.unsigned64, .default (.int 0)⟩,
    ⟨"payload", Payload.reader, .refused⟩]

def ofJson? : Json → Option Event
  | .object [(_, .int slot), (_, task), (_, .int epoch), (_, .int stamp), (_, payload)] => do
    return {
      slot := UInt64.ofNat slot.toNat
      task := ← Task.ofJson? task
      epoch := UInt64.ofNat epoch.toNat
      stamp := UInt64.ofNat stamp.toNat
      payload := ← Payload.ofJson? payload }
  | _ => none

end Event

/-- A stored variable. -/
structure VariableRecord where
  name : Buffer Limits.text
  value : Buffer Limits.text
  typeName : Buffer Limits.text
deriving DecidableEq, Repr

namespace VariableRecord

/-- The fields of a record in the order of their offsets. -/
abbrev Fields := Buffer Limits.text × Buffer Limits.text × Buffer Limits.text

def fields (r : VariableRecord) : Fields := (r.name, r.value, r.typeName)

/-- The record with the given fields. -/
def ofFields : Fields → VariableRecord
  | (name, value, typeName) => ⟨name, value, typeName⟩

instance : Packed VariableRecord := Packed.through fields ofFields

instance : LawfulPacked VariableRecord :=
  Packed.lawful_through fields ofFields (fun _ ↦ rfl) (fun _ ↦ rfl)

/-- The record of zero bytes. -/
def zero : VariableRecord := ⟨Buffer.zero _, Buffer.zero _, Buffer.zero _⟩

/-- The variable that a record holds. -/
def toVariable (r : VariableRecord) : Variable :=
  ⟨r.name.paddedText, r.value.paddedText, r.typeName.paddedText⟩

end VariableRecord

/-- The record that holds a variable. -/
def Variable.record (v : Variable) : VariableRecord :=
  ⟨Buffer.ofPadded _ v.name, Buffer.ofPadded _ v.value, Buffer.ofPadded _ v.typeName⟩

/-- A stored dump. -/
structure DumpRecord where
  count : UInt64
  point : Buffer Limits.text
  vars : Vector VariableRecord Limits.dumpVariables
deriving DecidableEq, Repr

namespace DumpRecord

/-- The fields of a record in the order of their offsets. -/
abbrev Fields := UInt64 × Buffer Limits.text × Vector VariableRecord Limits.dumpVariables

def fields (r : DumpRecord) : Fields := (r.count, r.point, r.vars)

/-- The record with the given fields. -/
def ofFields : Fields → DumpRecord
  | (count, point, vars) => ⟨count, point, vars⟩

instance : Packed DumpRecord := Packed.through fields ofFields

instance : LawfulPacked DumpRecord :=
  Packed.lawful_through fields ofFields (fun _ ↦ rfl) (fun _ ↦ rfl)

/-- The record of zero bytes. -/
def zero : DumpRecord := ⟨0, Buffer.zero _, Vector.replicate _ VariableRecord.zero⟩

/-- The dump that a record holds; a count past its end reads all of it. -/
def dump (r : DumpRecord) : Dump :=
  ⟨r.point.paddedText, (r.vars.toList.take r.count.toNat).map VariableRecord.toVariable⟩

end DumpRecord

/-- The record that holds a dump. -/
def Dump.record (d : Dump) : DumpRecord where
  count := UInt64.ofNat (min d.vars.length Limits.dumpVariables)
  point := Buffer.ofPadded _ d.point
  vars := tableOf _ VariableRecord.zero (d.vars.map Variable.record)

/-- A stored message. -/
structure MessageRecord where
  length : UInt32
  gap : UInt32
  body : Buffer Limits.text
deriving DecidableEq, Repr

namespace MessageRecord

/-- The fields of a record in the order of their offsets. -/
abbrev Fields := UInt32 × UInt32 × Buffer Limits.text

def fields (r : MessageRecord) : Fields := (r.length, r.gap, r.body)

/-- The record with the given fields. -/
def ofFields : Fields → MessageRecord
  | (length, gap, body) => ⟨length, gap, body⟩

instance : Packed MessageRecord := Packed.through fields ofFields

instance : LawfulPacked MessageRecord :=
  Packed.lawful_through fields ofFields (fun _ ↦ rfl) (fun _ ↦ rfl)

/-- The record of zero bytes. -/
def zero : MessageRecord := ⟨0, 0, Buffer.zero _⟩

/-- The message that a record holds; a length past its end reads all of it. -/
def message (r : MessageRecord) : Message := ⟨r.body.toList.take r.length.toNat⟩

end MessageRecord

/-- The record that holds a message. -/
def Message.record (m : Message) : MessageRecord where
  length := UInt32.ofNat (min m.body.length Limits.text)
  gap := 0
  body := Buffer.ofBytes _ m.body

/-- A stored event. -/
structure EventRecord where
  kind : Int32
  slot : Int32
  task : TaskRecord
  epoch : UInt64
  stamp : UInt64
  dump : DumpRecord
  call : CallRecord
  message : MessageRecord
deriving DecidableEq, Repr

namespace EventRecord

/-- The fields of a record in the order of their offsets. -/
abbrev Fields :=
  Int32 × Int32 × TaskRecord × UInt64 × UInt64 × DumpRecord × CallRecord × MessageRecord

def fields (r : EventRecord) : Fields :=
  (r.kind, r.slot, r.task, r.epoch, r.stamp, r.dump, r.call, r.message)

/-- The record with the given fields. -/
def ofFields : Fields → EventRecord
  | (kind, slot, task, epoch, stamp, dump, call, message) =>
    ⟨kind, slot, task, epoch, stamp, dump, call, message⟩

instance : Packed EventRecord := Packed.through fields ofFields

instance : LawfulPacked EventRecord :=
  Packed.lawful_through fields ofFields (fun _ ↦ rfl) (fun _ ↦ rfl)

/-- The record of zero bytes. -/
def zero : EventRecord :=
  ⟨0, 0, TaskRecord.zero, 0, 0, DumpRecord.zero, CallRecord.zero, MessageRecord.zero⟩

/-- The payload of a kind that a record holds. -/
def payload (r : EventRecord) : EventKind → Payload
  | .dump => .dump r.dump.dump
  | .call => .call r.call.call
  | .send => .send r.message.message
  | .receive => .receive r.message.message
  | .schedule => .schedule

/-- The event that a record holds, if it holds one. -/
def event? (r : EventRecord) : Option Event :=
  match EventKind.ofCode? r.kind with
  | none => none
  | some kind =>
    if r.slot < 0 then none
    else some ⟨UInt64.ofNat r.slot.toInt.toNat, r.task.task, r.epoch, r.stamp, r.payload kind⟩

end EventRecord

/-- The record that holds an event. The slot keeps its low 32 bits. -/
def Event.record (e : Event) : EventRecord :=
  let blank := { EventRecord.zero with
    kind := e.payload.kind.code
    slot := e.slot.toUInt32.toInt32
    task := e.task.record
    epoch := e.epoch
    stamp := e.stamp }
  match e.payload with
  | .dump d => { blank with dump := d.record }
  | .call c => { blank with call := c.record }
  | .send m => { blank with message := m.record }
  | .receive m => { blank with message := m.record }
  | .schedule => blank

end Turnstile
