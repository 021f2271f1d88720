import Turnstile.Binary64.Text
import Turnstile.Bytes.Hex

/-!
# Values seen in a monitored program

Arguments, results and logged variables are recorded as values of one closed type. What has no place
in it is `unsupported`: the trace keeps its structure and loses that value.

Values that are stored alike share a constructor, and a kind says what they stand for. `Tag` is a
value without its contents.
-/

set_option autoImplicit false
set_option relaxedAutoImplicit false

namespace Turnstile

/-- What a signed number stands for. -/
inductive NumberKind
  | integer
  | integer64
  /-- Nanoseconds, of a duration or since the epoch. -/
  | time
  /-- A process id. -/
  | process
deriving DecidableEq, Repr

/-- What an unsigned number stands for. -/
inductive CountKind
  /-- The length of an array, whose items are not recorded. -/
  | array
  | pointer
deriving DecidableEq, Repr

/-- What a text stands for. -/
inductive TextKind
  | string
  | error
  | file
  | fileInfo
  | connection
  | signal
  | context
  | socketAddress
deriving DecidableEq, Repr

/-- A recorded value. -/
inductive Value
  | number (kind : NumberKind) (n : Int64)
  | bool (b : Bool)
  | float (x : Binary64)
  | count (kind : CountKind) (n : UInt64)
  | text (kind : TextKind) (s : String)
  | unsupported
deriving DecidableEq, Repr, Inhabited

namespace Value

/-- The arm of a value. -/
inductive Tag
  | number (kind : NumberKind)
  | bool
  | float
  | count (kind : CountKind)
  | text (kind : TextKind)
  | unsupported
deriving DecidableEq, Repr

def tag : Value → Tag
  | .number kind _ => .number kind
  | .bool _ => .bool
  | .float _ => .float
  | .count kind _ => .count kind
  | .text kind _ => .text kind
  | .unsupported => .unsupported

namespace Tag

/-- Every tag, in the order of the numbers. -/
def all : List Tag :=
  [.number .integer, .number .integer64, .bool, .float, .text .string, .count .array, .text .error,
    .count .pointer, .text .file, .text .fileInfo, .text .connection, .number .time,
    .number .process, .text .signal, .text .context, .text .socketAddress, .unsupported]

/-- The number under which a tag is stored. -/
def code : Tag → Int32
  | .number .integer => 0
  | .number .integer64 => 1
  | .bool => 2
  | .float => 3
  | .text .string => 4
  | .count .array => 5
  | .text .error => 6
  | .count .pointer => 7
  | .text .file => 8
  | .text .fileInfo => 9
  | .text .connection => 10
  | .number .time => 11
  | .number .process => 12
  | .text .signal => 13
  | .text .context => 14
  | .text .socketAddress => 15
  | .unsupported => 16

/-- The tag stored under a number. -/
def ofNumber? (n : Int32) : Option Tag := all.find? (·.code = n)

/-- The type name shown beside a logged variable. -/
def typeName : Tag → String
  | .number .integer => "int"
  | .number .integer64 => "int64"
  | .bool => "bool"
  | .float => "float"
  | .text .string => "string"
  | .count .array => "array"
  | .text .error => "error"
  | .count .pointer => "pointer"
  | .text .file => "file"
  | .text .fileInfo => "fileinfo"
  | .text .connection => "connection"
  | .number .time => "time"
  | .number .process => "process"
  | .text .signal => "signal"
  | .text .context => "context"
  | .text .socketAddress => "sockaddr"
  | .unsupported => "unsupported"

/-- The name of the arm in a document. -/
def armName : Tag → String
  | .number .integer => "Integer"
  | .number .integer64 => "Integer64"
  | .bool => "Bool"
  | .float => "Float"
  | .text .string => "String"
  | .count .array => "Array"
  | .text .error => "Error"
  | .count .pointer => "Pointer"
  | .text .file => "File"
  | .text .fileInfo => "FileInfo"
  | .text .connection => "Connection"
  | .number .time => "Time"
  | .number .process => "Process"
  | .text .signal => "Signal"
  | .text .context => "Context"
  | .text .socketAddress => "SockAddr"
  | .unsupported => "Unsupported"

/-- The tag of an arm. -/
def ofArmName? (name : String) : Option Tag := all.find? (·.armName = name)

theorem mem_all (t : Tag) : t ∈ all := by
  rcases t with kind | _ | _ | kind | kind | _ <;> first | decide | (cases kind <;> decide)

theorem ofNumber?_code (t : Tag) : ofNumber? t.code = some t := by
  rcases t with kind | _ | _ | kind | kind | _ <;> first | decide | (cases kind <;> decide)

end Tag

/-- The number shown for a value that was not recorded, and stored as its mark. -/
def unsupportedMark : Int32 := 2440

/-- The text of a value as a trace shows it. -/
def display : Value → String
  | .number .time n => toString n.toInt ++ "ns"
  | .number _ n => toString n.toInt
  | .bool b => if b then "true" else "false"
  | .float x => x.display
  | .count .array n => "array(len=" ++ toString n.toNat ++ ")"
  | .count .pointer n => hexNumber n.toNat
  | .text _ s => s
  | .unsupported => "unsupported(" ++ toString unsupportedMark.toInt ++ ")"

end Value

end Turnstile
