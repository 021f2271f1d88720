import Turnstile.Task.Basic

/-!
# What an event carries

An event is a dump of variables at a labelled point of the program, a call, a message sent or
received, or a decision of the program's own scheduler. A dump holds at most 128 variables and a
message at most 64 bytes; `Dump.clipped` and `Message.clipped` drop the rest before a report.
-/

set_option autoImplicit false
set_option relaxedAutoImplicit false

namespace Turnstile

/-- A named value in a dump, as texts. -/
structure Variable where
  name : String
  value : String
  typeName : String
deriving DecidableEq, Repr

/-- Variables dumped at a labelled point. -/
structure Dump where
  point : String
  vars : List Variable
deriving DecidableEq, Repr

/-- The body of a message. -/
structure Message where
  body : List UInt8
deriving DecidableEq, Repr

/-- The contents of an event. -/
inductive Payload
  | dump (d : Dump)
  | call (c : Call)
  | send (m : Message)
  | receive (m : Message)
  /-- The task of the event is the one that runs next. -/
  | schedule
deriving DecidableEq, Repr

/-- The kind of an event. -/
inductive EventKind
  | dump
  | call
  | send
  | receive
  | schedule
deriving DecidableEq, Repr

namespace EventKind

/-- Every kind, in the order of the numbers. -/
def all : List EventKind := [.dump, .call, .send, .receive, .schedule]

def code : EventKind → Int32
  | .dump => 0
  | .call => 1
  | .send => 2
  | .receive => 3
  | .schedule => 4

/-- The kind with a number. -/
def ofCode? (n : Int32) : Option EventKind := all.find? (·.code = n)

def name : EventKind → String
  | .dump => "Log"
  | .call => "Syscall"
  | .send => "Send"
  | .receive => "Receive"
  | .schedule => "Schedule"

def reader : Json.Reader Json := Json.Reader.names (all.map name)

theorem ofCode?_code (k : EventKind) : ofCode? k.code = some k := by cases k <;> rfl

end EventKind

namespace Variable

/-- The variable that shows a value under a name, each text cut to its buffer. -/
def ofValue (name : String) (v : Value) : Variable :=
  ⟨padded Limits.text name, padded Limits.text v.display, v.tag.typeName⟩

/-- The text of a variable in a trace. -/
def display (v : Variable) : String := v.name ++ ":" ++ v.typeName ++ "=" ++ v.value

def toJson (v : Variable) : Json :=
  .object [("name", .string v.name), ("value", .string v.value), ("type_name", .string v.typeName)]

def reader : Json.Reader Json :=
  Json.Reader.record "struct Variable" [
    ⟨"name", Json.Reader.text, .refused⟩,
    ⟨"value", Json.Reader.text, .refused⟩,
    ⟨"type_name", Json.Reader.text, .refused⟩]

def ofJson? : Json → Option Variable
  | .object [(_, .string name), (_, .string value), (_, .string typeName)] =>
    some ⟨name, value, typeName⟩
  | _ => none

end Variable

namespace Dump

/-- The dump of variables at a point, with those that its record holds and a notice about the
others. -/
def ofVariables (point : String) (vars : List Variable) : Noted Dump := do
  let point := padded Limits.text point
  Noted.noteIf (Limits.dumpVariables < vars.length)
    (.variablesDropped point vars.length Limits.dumpVariables)
  return ⟨point, vars.take Limits.dumpVariables⟩

def toJson (d : Dump) : Json :=
  .object [("log_id", .string d.point), ("vars", .array (d.vars.map Variable.toJson))]

def reader : Json.Reader Json :=
  Json.Reader.record "struct LogEntry" [
    ⟨"log_id", Json.Reader.text, .refused⟩,
    ⟨"vars", Json.Reader.list Variable.reader, .refused⟩]

def ofJson? : Json → Option Dump
  | .object [(_, .string point), (_, .array vars)] => do
    return ⟨point, ← vars.mapM Variable.ofJson?⟩
  | _ => none

end Dump

namespace Message

/-- The message with the bytes that its record holds. -/
def clipped (body : List UInt8) : Message := ⟨body.take Limits.text⟩

def toJson (m : Message) : Json :=
  .object [("body", .array (m.body.map fun b ↦ .int b.toNat))]

def reader : Json.Reader Json :=
  Json.Reader.record "struct Message" [
    ⟨"body", Json.Reader.list Json.Reader.unsigned8, .refused⟩]

/-- A byte written as a number. -/
def byteOfJson? : Json → Option UInt8
  | .int n => some (UInt8.ofNat n.toNat)
  | _ => none

def ofJson? : Json → Option Message
  | .object [(_, .array body)] => do return ⟨← body.mapM byteOfJson?⟩
  | _ => none

end Message

namespace Payload

def kind : Payload → EventKind
  | .dump _ => .dump
  | .call _ => .call
  | .send _ => .send
  | .receive _ => .receive
  | .schedule => .schedule

def toJson (p : Payload) : Json :=
  let arm (contents : Json) : Json := .object [(p.kind.name, contents)]
  match p with
  | .dump d => arm d.toJson
  | .call c => arm c.toJson
  | .send m => arm m.toJson
  | .receive m => arm m.toJson
  | .schedule => .string p.kind.name

def reader : Json.Reader Json :=
  Json.Reader.choice [
    ⟨EventKind.dump.name, some Dump.reader⟩,
    ⟨EventKind.call.name, some Call.reader⟩,
    ⟨EventKind.send.name, some Message.reader⟩,
    ⟨EventKind.receive.name, some Message.reader⟩,
    ⟨EventKind.schedule.name, none⟩]

/-- The kind that a name stands for. -/
def kindOfName? (name : String) : Option EventKind := EventKind.all.find? (·.name = name)

def ofJson? : Json → Option Payload
  | .string name => if name = EventKind.schedule.name then some .schedule else none
  | .object [(name, contents)] => do
    match ← kindOfName? name with
    | .dump => (Dump.ofJson? contents).map .dump
    | .call => (Call.ofJson? contents).map .call
    | .send => (Message.ofJson? contents).map .send
    | .receive => (Message.ofJson? contents).map .receive
    | .schedule => none
  | _ => none

end Payload

end Turnstile
