/-!
# Devices

Some names are those of devices, on every disk. A device has no length and keeps nothing: what is
written to it is lost, refused, or appears somewhere else, and what is read from it is nothing or
zeros without an end.
-/

set_option autoImplicit false
set_option relaxedAutoImplicit false

namespace Turnstile

/-- What is no file but can be used like one. -/
inductive Device
  /-- It takes everything and has nothing. -/
  | null
  /-- It takes everything and has zeros without an end. -/
  | zeros
  /-- It has zeros without an end and no space. -/
  | full
  | input
  /-- The stream of results. -/
  | output
  /-- The stream of everything else. -/
  | errors
deriving DecidableEq, Repr

namespace Device

def all : List Device := [.null, .zeros, .full, .input, .output, .errors]

def name : Device → String
  | .null => "/dev/null"
  | .zeros => "/dev/zero"
  | .full => "/dev/full"
  | .input => "/dev/stdin"
  | .output => "/dev/stdout"
  | .errors => "/dev/stderr"

/-- The device under a name. -/
def ofName? (name : String) : Option Device := all.find? (·.name = name)

/-- What a reader sees of a device before it has made up its mind. -/
def leading : Device → List UInt8
  | .zeros | .full => [0, 0, 0, 0]
  | _ => []

/-- Whether a device takes bytes. -/
def takes (d : Device) (bytes : List UInt8) : Bool := d ≠ .full || bytes.isEmpty

theorem mem_all (d : Device) : d ∈ all := by cases d <;> decide

theorem ofName?_name (d : Device) : ofName? d.name = some d := by cases d <;> decide

end Device

end Turnstile
