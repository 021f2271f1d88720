import Turnstile.Json.Reader
import Turnstile.Limits
import Turnstile.Options.Parser

/-!
# Settings of a reporter

What the launcher tells a monitored program, through its environment or on a command line. Reporting
and control are switched on by any non-empty text, and control needs reporting.
-/

set_option autoImplicit false
set_option relaxedAutoImplicit false

namespace Turnstile

/-- The settings of a reporter. -/
structure Settings where
  reporting : Option String
  control : Option String
  slot : Option UInt64
  descriptor : Int32
  spinLimit : UInt32
deriving DecidableEq, Repr

namespace Settings

/-- The settings of a program that was told nothing. -/
def initial : Settings := ⟨none, none, none, Limits.descriptor, Limits.spins⟩

/-- Whether a switch is on. -/
def isOn (switch : Option String) : Bool :=
  match switch with
  | some s => s ≠ ""
  | none => false

/-- Whether events are reported at all. -/
def reports (s : Settings) : Bool := isOn s.reporting

/-- Whether reports may wait. -/
def enforces (s : Settings) : Bool := s.reports && isOn s.control

/-! ### Documents -/

def optionalText (s : Option String) : Json :=
  match s with
  | some s => .string s
  | none => .null

def toJson (s : Settings) : Json :=
  .object [
    ("profiling", optionalText s.reporting),
    ("control", optionalText s.control),
    ("proc_id", match s.slot with
      | some n => .int n.toNat
      | none => .null),
    ("shm_fd", .int s.descriptor.toInt),
    ("spin_limit", .int s.spinLimit.toNat)]

def reader : Json.Reader Json :=
  Json.Reader.record "struct RuntimeConfig" [
    ⟨"profiling", Json.Reader.optional Json.Reader.text, .null⟩,
    ⟨"control", Json.Reader.optional Json.Reader.text, .null⟩,
    ⟨"proc_id", Json.Reader.optional Json.Reader.size, .null⟩,
    ⟨"shm_fd", Json.Reader.signed32, .refused⟩,
    ⟨"spin_limit", Json.Reader.unsigned32, .refused⟩]

/-- A text or `null`. -/
def optionalTextOf? : Json → Option (Option String)
  | .null => some none
  | .string s => some (some s)
  | _ => none

/-- An index or `null`. -/
def optionalIndexOf? : Json → Option (Option UInt64)
  | .null => some none
  | .int n => some (some (UInt64.ofNat n.toNat))
  | _ => none

def ofJson? : Json → Option Settings
  | .object [(_, reporting), (_, control), (_, slot), (_, .int descriptor),
      (_, .int spinLimit)] => do
    return {
      reporting := ← optionalTextOf? reporting
      control := ← optionalTextOf? control
      slot := ← optionalIndexOf? slot
      descriptor := Int32.ofInt descriptor
      spinLimit := UInt32.ofNat spinLimit.toNat }
  | _ => none

/-! ### Command line -/

/-- The options by which settings are given, each with its variable. -/
def spec : Options.Spec where
  flags := [
    ⟨"profiling", none, some "DARA_PROFILING", some fun _ ↦ true⟩,
    ⟨"control", none, some "DARAON", some fun _ ↦ true⟩,
    ⟨"proc-id", none, some "DARAPID", some fun s ↦ (Options.natural? UInt64.size s).isSome⟩,
    ⟨"shm-fd", none, some "DARA_SHM_FD", some fun s ↦ (Options.signed32? s).isSome⟩,
    ⟨"spin-limit", none, some "DARA_SPIN_LIMIT",
      some fun s ↦ (Options.natural? UInt32.size s).isSome⟩]
  operands := []
  hasVersion := false

/-- The settings that arguments and environment give. -/
def read (env : Options.Environment) (args : List String) :
    Except Options.Refusal Settings := do
  let found ← Options.read spec env args
  let value := Options.valueOf found
  return {
    reporting := value "profiling"
    control := value "control"
    slot := (value "proc-id").bind fun s ↦ (Options.natural? UInt64.size s).map UInt64.ofNat
    descriptor := ((value "shm-fd").bind Options.signed32?).getD Limits.descriptor
    spinLimit := ((value "spin-limit").bind fun s ↦
      (Options.natural? UInt32.size s).map UInt32.ofNat).getD Limits.spins }

end Settings

end Turnstile
