import Turnstile.Disk.Basic
import Turnstile.Reporter.Report
import Turnstile.Settings

/-!
# Probes

A probe is what a monitored program calls. Its settings may switch it off: then it does nothing.
Otherwise it attaches a reporter at its first call, to the region that the program has inherited on
a descriptor. A process maps that region once at a time; it knows by one flag whether it does. An
attempt that fails leaves the flag and the probe as they were.
-/

set_option autoImplicit false
set_option relaxedAutoImplicit false

namespace Turnstile

/-- Where a region is kept. -/
inductive Place
  /-- In memory that is no file. -/
  | memory
  /-- In the file under a name. -/
  | file (name : String)
deriving DecidableEq, Repr

/-- A reporter and the place of its region. -/
structure Attachment where
  reporter : Reporter
  place : Place
  /-- Whether the region was inherited on a descriptor. -/
  inherited : Bool

/-- A probe. -/
structure Probe where
  settings : Settings
  /-- The name of the file on which the descriptor of the settings is open. -/
  backing : Option String
  attached : Option Attachment

/-- What an attempt to attach comes to. -/
inductive Reached
  | attached (a : Attachment)
  | failed (e : Error)
  /-- The descriptor is no number that a descriptor can have; the program does not survive this. -/
  | crashed

namespace Probe

/-- A reporter with the settings of a probe, on a region at a place. -/
def attach (settings : Settings) (region : Region) (place : Place) (inherited : Bool) :
    Except Error Attachment := do
  let some n := settings.slot | throw .noSlotGiven
  let i ← Region.slotIndex n.toNat
  return ⟨.attach i (region.slot i) settings.enforces settings.spinLimit, place, inherited⟩

/-- A probe over a region that is mapped already. -/
def ofRegion (settings : Settings) (region : Region) (place : Place) : Except Error Probe := do
  return ⟨settings, none, some (← attach settings region place false)⟩

/-- A probe that attaches when it is first used. -/
def unattached (settings : Settings) (backing : Option String) : Probe := ⟨settings, backing, none⟩

def isEnabled (p : Probe) : Bool := p.settings.reports

/-- The region behind the descriptor of a probe, and where it is kept. -/
def inheritedRegion (p : Probe) (d : Disk) : Except Error (Region × Place) := do
  match p.backing with
  | none => throw (.os .badDescriptor)
  | some name => return (← (d.file name).region, .file name)

/-- Attach to the inherited region, if no probe of the process has mapped it. `mapped` is the flag
of the process, before and after. -/
def reach (p : Probe) (d : Disk) (mapped : Bool) : Bool × Reached :=
  match p.attached with
  | some a => (mapped, .attached a)
  | none =>
    if p.settings.slot.isNone then (mapped, .failed .noSlotGiven)
    else if mapped then (mapped, .failed .alreadyMapped)
    else if p.settings.descriptor = -1 then (true, .crashed)
    else
      let found := do
        let (region, place) ← p.inheritedRegion d
        attach p.settings region place true
      match found with
      | .ok a => (true, .attached a)
      | .error e => (false, .failed e)

/-- Whether dropping a probe unmaps an inherited region. -/
def holdsInherited (p : Probe) : Bool := p.attached.any (·.inherited)

end Probe

end Turnstile
