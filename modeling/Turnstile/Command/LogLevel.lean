import Turnstile.Notice
import Turnstile.Options.Parser

/-!
# Levels of the log

A level says which notices are worth a line in the log. Levels are written as words or as numbers.
-/

set_option autoImplicit false
set_option relaxedAutoImplicit false

namespace Turnstile

/-- Which notices are written to the log. -/
inductive LogLevel
  | off
  | error
  | warn
  | info
  | debug
  | trace
deriving DecidableEq, Repr

namespace LogLevel

/-- Every level, in the order of the numbers. -/
def all : List LogLevel := [.off, .error, .warn, .info, .debug, .trace]

def name : LogLevel → String
  | .off => "off"
  | .error => "error"
  | .warn => "warn"
  | .info => "info"
  | .debug => "debug"
  | .trace => "trace"

/-- The level that a word names: its number, or its name in letters of either case. No word at all
names the level of errors. -/
def ofWord? (s : String) : Option LogLevel :=
  match Options.natural? UInt64.size s with
  | some n => all[n]?
  | none =>
    if s = "" then some .error
    else
      let lowered := String.ofList (s.toList.map Char.toLower)
      all.find? (·.name = lowered)

/-- Whether a notice is written. -/
def admits (l : LogLevel) (n : Notice) : Bool :=
  match l, n.level with
  | .off, _ => false
  | .error, .warning => false
  | _, _ => true

end LogLevel

end Turnstile
