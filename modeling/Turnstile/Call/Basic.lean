import Turnstile.Call.Catalog
import Turnstile.Limits
import Turnstile.Notice
import Turnstile.Value.Document
import Turnstile.Value.Record

/-!
# Reported calls

A call has a number, arguments and results. Its record holds ten of each; `Call.clipped` drops the
rest before a call is reported. Encoding leaves the value records past the counts zero, and decoding
reads none of them.
-/

set_option autoImplicit false
set_option relaxedAutoImplicit false

namespace Turnstile

/-- The name of an operation in a document. -/
def Operation.reader : Json.Reader Json :=
  Json.Reader.names (Operation.catalog.map (·.documentName))

/-- A call that a monitored program made. -/
structure Call where
  number : Int32
  arguments : List Value
  results : List Value
deriving DecidableEq, Repr

namespace Call

/-- The number that stands for no call. -/
def noNumber : Int32 := -1

/-- Values between brackets, separated by commas. -/
def valuesText (values : List Value) : String :=
  "(" ++ ", ".intercalate (values.map Value.display) ++ ")"

/-- The text of a call in a trace. -/
def display (c : Call) : String :=
  callName c.number ++ valuesText c.arguments ++ " -> " ++ valuesText c.results

/-- The values that a record holds, with a notice about the others. -/
def clip (number : Int32) (what : String) (values : List Value) : Noted (List Value) := do
  Noted.noteIf (Limits.callValues < values.length)
    (.valuesDropped (callName number) values.length what Limits.callValues)
  return values.take Limits.callValues

/-- The call with the values that a record holds. -/
def clipped (c : Call) : Noted Call := do
  let arguments ← clip c.number "arguments" c.arguments
  let results ← clip c.number "returns" c.results
  return { c with arguments := arguments, results := results }

/-! ### Documents -/

def toJson (c : Call) : Json :=
  .object [
    ("syscall", .int c.number.toInt),
    ("args", .array (c.arguments.map Value.toJson)),
    ("rets", .array (c.results.map Value.toJson))]

def reader : Json.Reader Json :=
  Json.Reader.record "struct SyscallRecord" [
    ⟨"syscall", Json.Reader.signed32, .refused⟩,
    ⟨"args", Json.Reader.list Value.reader, .refused⟩,
    ⟨"rets", Json.Reader.list Value.reader, .refused⟩]

def ofJson? : Json → Option Call
  | .object [(_, .int number), (_, .array arguments), (_, .array results)] => do
    return ⟨Int32.ofInt number, ← arguments.mapM Value.ofJson?, ← results.mapM Value.ofJson?⟩
  | _ => none

end Call

/-- A stored call. -/
structure CallRecord where
  number : Int32
  argumentCount : UInt32
  resultCount : UInt32
  gap : UInt32
  arguments : Vector ValueRecord Limits.callValues
  results : Vector ValueRecord Limits.callValues
deriving DecidableEq, Repr

namespace CallRecord

/-- The fields of a record in the order of their offsets. -/
abbrev Fields :=
  Int32 × UInt32 × UInt32 × UInt32 × Vector ValueRecord Limits.callValues ×
    Vector ValueRecord Limits.callValues

def fields (r : CallRecord) : Fields :=
  (r.number, r.argumentCount, r.resultCount, r.gap, r.arguments, r.results)

/-- The record with the given fields. -/
def ofFields : Fields → CallRecord
  | (number, argumentCount, resultCount, gap, arguments, results) =>
    ⟨number, argumentCount, resultCount, gap, arguments, results⟩

instance : Packed CallRecord := Packed.through fields ofFields

instance : LawfulPacked CallRecord :=
  Packed.lawful_through fields ofFields (fun _ ↦ rfl) (fun _ ↦ rfl)

/-- The record of zero bytes. -/
def zero : CallRecord :=
  ⟨0, 0, 0, 0, Vector.replicate _ ValueRecord.zero, Vector.replicate _ ValueRecord.zero⟩

/-- The values that a counted table holds; a count past its end reads all of it. -/
def values (count : UInt32) (table : Vector ValueRecord Limits.callValues) : List Value :=
  (table.toList.take count.toNat).map ValueRecord.value

/-- The call that a record holds. -/
def call (r : CallRecord) : Call :=
  ⟨r.number, values r.argumentCount r.arguments, values r.resultCount r.results⟩

/-- The table that holds the first of `values`, with zero records after them. -/
def table (values : List Value) : Vector ValueRecord Limits.callValues :=
  tableOf _ ValueRecord.zero (values.map Value.record)

end CallRecord

/-- The record that holds a call. -/
def Call.record (c : Call) : CallRecord where
  number := c.number
  argumentCount := UInt32.ofNat (min c.arguments.length Limits.callValues)
  resultCount := UInt32.ofNat (min c.results.length Limits.callValues)
  gap := 0
  arguments := CallRecord.table c.arguments
  results := CallRecord.table c.results

end Turnstile
