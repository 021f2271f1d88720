import Turnstile.Notice
import Turnstile.Posix.ErrorNumber

/-!
# The clock that stamps events

All slots of a region share one clock, so that stamps of different slots can be compared. A clock
that cannot be read yields the stamp zero and a notice.
-/

set_option autoImplicit false
set_option relaxedAutoImplicit false

namespace Turnstile

/-- A clock that moves by the same step whenever it is read. -/
structure Clock where
  seconds : Int
  nanoseconds : Int
  /-- Nanoseconds between two readings. -/
  step : Int
  /-- Whether reading fails. -/
  broken : Bool
deriving DecidableEq, Repr

namespace Clock

/-- The clock one nanosecond after its start. -/
def start : Clock := ⟨0, 1, 1, false⟩

/-- The time in nanoseconds. A negative part counts as zero, and a time that 64 bits do not hold as
the last one that they do. -/
def time (c : Clock) : UInt64 :=
  UInt64.ofNat (min (UInt64.size - 1) (c.seconds.toNat * 1000000000 + c.nanoseconds.toNat))

/-- What is said of a clock that cannot be read. -/
def failure : String := "EINVAL: " ++ ErrorNumber.invalidArgument.description

/-- The time, and the clock after the reading. -/
def read (c : Clock) : Noted (UInt64 × Clock) :=
  if c.broken then ⟨(0, c), [.clockUnreadable failure]⟩
  else pure (c.time, { c with nanoseconds := c.nanoseconds + c.step })

end Clock

end Turnstile
