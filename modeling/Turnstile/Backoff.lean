import Turnstile.Limits

/-!
# Pacing a wait

A waiting reporter first spins, up to a limit of steps, and then yields at every step. All steps are
counted; a new wait starts again from spinning.
-/

set_option autoImplicit false
set_option relaxedAutoImplicit false

namespace Turnstile

/-- The pace of a wait. -/
structure Backoff where
  /-- Spinning steps since the wait began. -/
  step : UInt32
  /-- Spinning steps before the first yield. -/
  limit : UInt32
  /-- All steps. -/
  snoozes : Nat
deriving DecidableEq, Repr

namespace Backoff

/-- The pace before the first step. -/
def start (limit : UInt32) : Backoff := ⟨0, limit, 0⟩

/-- Whether the next step yields. -/
def yields (b : Backoff) : Bool := b.limit ≤ b.step

/-- One step. -/
def snooze (b : Backoff) : Backoff :=
  { b with
    step := if b.step < b.limit then b.step + 1 else b.step
    snoozes := b.snoozes + 1 }

/-- A new wait under the same count. -/
def reset (b : Backoff) : Backoff := { b with step := 0 }

/-- The pace after stepping up to and including the next yield. -/
def toYield (b : Backoff) : Backoff :=
  { b with
    step := if b.step < b.limit then b.limit else b.step
    snoozes := b.snoozes + (b.limit.toNat - b.step.toNat) + 1 }

end Backoff

end Turnstile
