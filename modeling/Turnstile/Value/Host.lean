import Turnstile.Net.SocketAddress
import Turnstile.Posix.ErrorNumber
import Turnstile.Posix.Signal
import Turnstile.Text.Utf8
import Turnstile.Value.Basic

/-!
# Recording the values of a program

`HostValue` is what a monitored program hands over, by its type there, and `Value.ofHost` the value
that is recorded for it. A number is recorded exactly or not at all: what lies above the signed
64-bit range, and a time before the epoch, is `unsupported`.
-/

set_option autoImplicit false
set_option relaxedAutoImplicit false

namespace Turnstile

/-- A value of a monitored program. -/
inductive HostValue
  | int8 (n : Int8)
  | int16 (n : Int16)
  | int32 (n : Int32)
  | int64 (n : Int64)
  /-- A signed number of the width of an address. -/
  | signedWord (n : Int64)
  | uint8 (n : UInt8)
  | uint16 (n : UInt16)
  | uint32 (n : UInt32)
  | uint64 (n : UInt64)
  /-- An unsigned number of the width of an address. -/
  | word (n : UInt64)
  | bool (b : Bool)
  | double (x : Binary64)
  /-- A single-precision number, by its bits. -/
  | single (bits : UInt32)
  | string (s : String)
  /-- A path, which need not spell a text. -/
  | path (bytes : List UInt8)
  /-- A duration in nanoseconds. -/
  | duration (nanoseconds : Nat)
  /-- A time in nanoseconds since the epoch, negative before it. -/
  | time (nanoseconds : Int)
  | socketAddress (a : SocketAddress)
  | signal (s : Signal)
  | process (id : Int32)
  /-- A bare error number. -/
  | errorNumber (e : ErrorNumber)
  /-- The failure of an operation of the system. -/
  | osError (e : ErrorNumber)
  /-- A failure with a text of its own. -/
  | failure (message : String)
  /-- A value of any other type. -/
  | other
deriving DecidableEq, Repr

namespace Value

/-- A number of a kind, if it lies in the signed 64-bit range. -/
def ofInt (kind : NumberKind) (n : Int) : Value :=
  if Int64.minValue.toInt ≤ n ∧ n ≤ Int64.maxValue.toInt then .number kind (Int64.ofInt n)
  else .unsupported

/-- The value recorded for a value of the program. -/
def ofHost : HostValue → Value
  | .int8 n => ofInt .integer n.toInt
  | .int16 n => ofInt .integer n.toInt
  | .int32 n => ofInt .integer n.toInt
  | .int64 n => ofInt .integer64 n.toInt
  | .signedWord n => ofInt .integer n.toInt
  | .uint8 n => ofInt .integer n.toNat
  | .uint16 n => ofInt .integer n.toNat
  | .uint32 n => ofInt .integer n.toNat
  | .uint64 n => ofInt .integer64 n.toNat
  | .word n => ofInt .integer n.toNat
  | .bool b => .bool b
  | .double x => .float x
  | .single bits => .float (Binary64.ofSingleBits bits)
  | .string s => .text .string s
  | .path bytes => .text .file (lossyText bytes)
  | .duration nanoseconds => ofInt .time nanoseconds
  | .time nanoseconds => if 0 ≤ nanoseconds then ofInt .time nanoseconds else .unsupported
  | .socketAddress a => .text .socketAddress a.text
  | .signal s => .text .signal s.name
  | .process id => ofInt .process id.toInt
  | .errorNumber e => .text .error e.description
  | .osError e => .text .error e.message
  | .failure message => .text .error message
  | .other => .unsupported

end Value

end Turnstile
