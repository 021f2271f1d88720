import Turnstile.Coverage.Basic
import Turnstile.Event.Basic

/-!
# Schedules

A schedule is a recorded run: the events of all slots in the order of the recording, the number of
events that were missed, and the coverage of every slot. As a document it is JSON with one item a
line. `Schedule.ofDocument` accepts what `Schedule.document` writes and nothing of another layout
version.
-/

set_option autoImplicit false
set_option relaxedAutoImplicit false

namespace Turnstile

/-- A recorded run. -/
structure Schedule where
  layoutVersion : UInt32
  events : List Event
  /-- Events overwritten before they were recorded. -/
  lost : UInt64
  /-- Coverage by slot; empty if no slot reported a block. -/
  coverage : List Coverage

namespace Schedule

/-- The schedule of a list of events under the present layout. -/
def ofEvents (events : List Event) : Schedule := ⟨Limits.layoutVersion, events, 0, []⟩

instance : BEq Schedule :=
  ⟨fun a b ↦ a.layoutVersion == b.layoutVersion && a.events == b.events && a.lost == b.lost &&
    a.coverage == b.coverage⟩

/-- The events of one slot, in order. -/
def forSlot (s : Schedule) (slot : UInt64) : List Event := s.events.filter (·.slot = slot)

/-- The number of events of a kind. -/
def count (s : Schedule) (kind : EventKind) : Nat := s.events.countP (·.payload.kind = kind)

/-- The coverage of all slots together, unless a count overflows. -/
def totalCoverage? (s : Schedule) : Option Coverage := Coverage.mergeAll? s.coverage

/-- Whether the schedule was recorded under the present layout. -/
def isCurrent (s : Schedule) : Bool := s.layoutVersion = Limits.layoutVersion

/-- What is said about a schedule of another layout. -/
def versionMismatch (s : Schedule) : String :=
  "schedule was recorded with layout version " ++ toString s.layoutVersion.toNat ++
    ", this build uses " ++ toString Limits.layoutVersion.toNat

def toJson (s : Schedule) : Json :=
  .object ([
    ("layout_version", .int s.layoutVersion.toNat),
    ("events", .array (s.events.map Event.toJson)),
    ("lost", .int s.lost.toNat)] ++
    if s.coverage.isEmpty then [] else [("coverage", .array (s.coverage.map Coverage.toJson))])

def reader : Json.Reader Json :=
  Json.Reader.record "struct Schedule" [
    ⟨"layout_version", Json.Reader.unsigned32, .refused⟩,
    ⟨"events", Json.Reader.list Event.reader, .refused⟩,
    ⟨"lost", Json.Reader.unsigned64, .default (.int 0)⟩,
    ⟨"coverage", Json.Reader.list Coverage.reader, .default (.array [])⟩]

def ofJson? : Json → Option Schedule
  | .object [(_, .int version), (_, .array events), (_, .int lost), (_, .array coverage)] => do
    return {
      layoutVersion := UInt32.ofNat version.toNat
      events := ← events.mapM Event.ofJson?
      lost := UInt64.ofNat lost.toNat
      coverage := ← coverage.mapM Coverage.ofJson? }
  | _ => none

/-- The text of a schedule. -/
def text (s : Schedule) : String := s.toJson.pretty

/-- The bytes of a schedule file. -/
def document (s : Schedule) : List UInt8 := utf8 (s.text ++ "\n")

/-- Why a document is no schedule. -/
inductive Refusal
  | fault (f : Json.Fault)
  | version (s : Schedule)

/-- The schedule that a document holds. -/
def ofDocument (bytes : List UInt8) : Except Refusal Schedule :=
  let read : Json.Reader Schedule := do
    match ofJson? (← reader) with
    | some s => pure s
    | none => Json.Reader.fail (.breach .valueExpected)
  match Json.Reader.document read bytes with
  | .error f => .error (.fault f)
  | .ok s => if s.isCurrent then .ok s else .error (.version s)

end Schedule

end Turnstile
