import Turnstile.Control.Mode
import Turnstile.Notice

/-!
# Scheduling rounds

In a round every slot whose reporter waits under a controlled mode is offered to a policy, in the
order of the slots and under the lock of the slot. The policy chooses a task, or leaves the reporter
waiting. It may also break down, as a grant does at the last epoch: the round then ends there, with
what was granted before it still granted and every lock free.
-/

set_option autoImplicit false
set_option relaxedAutoImplicit false

namespace Turnstile

/-- What a policy makes of an offer. -/
inductive Choice
  | grant (t : Task)
  | wait
  | breakdown
deriving DecidableEq, Repr

/-- A way to choose which task of a waiting slot runs next. It sees the slot and cannot change
it. -/
structure Policy (σ : Type) where
  choose : σ → SlotIndex → Slot → Noted (σ × Choice)

namespace Policy

/-- Every request is granted with the task that reported, which lets the program run in its own
order. -/
def runReporter : Policy Unit := ⟨fun _ _ s ↦ pure ((), .grant s.runningTask)⟩

end Policy

/-- What became of an offer. -/
inductive Offer
  | granted (t : Task)
  | waits
  | broken
deriving DecidableEq, Repr

namespace Slot

/-- Offer a slot to a policy and carry out its choice. -/
def offer {σ : Type} (policy : Policy σ) (state : σ) (i : SlotIndex) (s : Slot) :
    Noted (Slot × σ × Offer) := do
  let s := s.acquire
  let (state, choice) ← policy.choose state i s
  match choice with
  | .wait => return (s.release, state, .waits)
  | .breakdown => return (s.release, state, .broken)
  | .grant t =>
    let (s, answered) := s.grant t
    return (s.release, state, if answered then .granted t else .broken)

end Slot

/-- The result of a round. -/
structure RoundSummary where
  /-- The slots that were granted a task, with the task. -/
  granted : List (SlotIndex × Task)
  /-- How many slots were left waiting. -/
  waiting : Nat
deriving DecidableEq, Repr

namespace RoundSummary

/-- The summary of a round without offers. -/
def none : RoundSummary := ⟨[], 0⟩

def toJson (r : RoundSummary) : Json :=
  .object [
    ("granted", .array (r.granted.map fun (i, t) ↦ .array [.int i.val, t.toJson])),
    ("waiting", .int r.waiting)]

end RoundSummary

/-- A region and the state of a policy after a round. -/
structure Round (σ : Type) where
  region : Region
  state : σ
  /-- What the round has done; if it broke down, up to there. -/
  summary : RoundSummary
  /-- Whether the round came to its end. -/
  isComplete : Bool

namespace Region

/-- A round over some slots, with what was granted so far. -/
def roundOver {σ : Type} (policy : Policy σ) :
    List SlotIndex → RoundSummary → Region → σ → Noted (Round σ)
  | [], summary, r, state => pure ⟨r, state, summary, true⟩
  | i :: rest, summary, r, state =>
    if (r.slot i).isOffered then do
      let (s, state, offer) ← Slot.offer policy state i (r.slot i)
      let r := r.setSlot i s
      match offer with
      | .granted t =>
        roundOver policy rest { summary with granted := summary.granted ++ [(i, t)] } r state
      | .waits => roundOver policy rest { summary with waiting := summary.waiting + 1 } r state
      | .broken => return ⟨r, state, summary, false⟩
    else roundOver policy rest summary r state

/-- One scheduling round. -/
def round {σ : Type} (policy : Policy σ) (r : Region) (state : σ) : Noted (Round σ) :=
  roundOver policy (List.finRange Limits.slots) .none r state

end Region

end Turnstile
