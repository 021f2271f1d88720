/-!
# Notices

What an operation has to say beside its result when something is wrong or odd: its warnings and its
errors. A notice never changes the result; it is handed over with it, in the order in which notices
arose. The texts of values that a notice shows are part of it.

Of the ordinary course of things, such as spawns, grants and changes of modes, there is nothing to
be noticed. What is told about it at the levels below a warning, which are information, debugging
and traces, changes no state and no answer, and is left out.
-/

set_option autoImplicit false
set_option relaxedAutoImplicit false

namespace Turnstile

/-- Something worth telling the operator. -/
inductive Notice
  /-- A call carried more arguments or results than a record holds. -/
  | valuesDropped (call : String) (reported : Nat) (what : String) (kept : Nat)
  /-- A dump carried more variables than a record holds. -/
  | variablesDropped (point : String) (reported kept : Nat)
  /-- A reader of a log expected more appends than there were. -/
  | cursorAhead (cursor appends : Nat)
  /-- An entry of a log holds no event. -/
  | undecodable (index : Nat) (kind : Int)
  /-- A reader of a log missed events. -/
  | overwritten (lost capacity : Nat)
  /-- A task was spawned under the id of an empty table entry. -/
  | emptyTaskId (site : String)
  /-- A task changed its status in a way that no task does. -/
  | oddTransition (slot : Nat) (task : Int) (old new : String)
  /-- A task has, or was given, a status that is not known. -/
  | unknownStatus (slot : Nat) (task : Int) (old new : String)
  /-- No time could be read. -/
  | clockUnreadable (cause : String)
  /-- A coverage table has no free row. -/
  | coverageFull (slot capacity : Nat) (block : String)
  /-- A recorder missed events of a slot. -/
  | lostWhileRecording (slot lost : Nat)
  /-- A schedule to be replayed has gaps. -/
  | scheduleHasGaps (lost : Nat)
  /-- A report did not match the recording. -/
  | desync (slot index : Nat) (expected reporter : String)
  /-- A replay gives up after this many seconds without a grant. -/
  | stalled (seconds left : Nat)
  /-- A reporter could not reach its slot and gives up. -/
  | unreachable (cause : String)
deriving DecidableEq, Repr

namespace Notice

/-- How serious a notice is. -/
inductive Level
  | warning
  | error
deriving DecidableEq, Repr

def level : Notice → Level
  | .unreachable _ => .error
  | _ => .warning

/-- The mark of a slot in front of a notice about it. -/
def slotMark (slot : Nat) : String := "[p" ++ toString slot ++ "] "

/-- A duration in whole seconds; none at all is counted in the smallest unit. -/
def durationText (seconds : Nat) : String :=
  if seconds = 0 then "0ns" else toString seconds ++ "s"

def message : Notice → String
  | .valuesDropped call reported what kept =>
    call ++ " reported " ++ toString reported ++ " " ++ what ++ ", keeping the first " ++
      toString kept
  | .variablesDropped point reported kept =>
    "log point " ++ point ++ " dumped " ++ toString reported ++ " variables, keeping the first " ++
      toString kept
  | .cursorAhead cursor appends =>
    "log cursor " ++ toString cursor ++ " is ahead of the log (" ++ toString appends ++
      " appends), restarting"
  | .undecodable index kind =>
    "skipping undecodable event " ++ toString index ++ " (kind " ++ toString kind ++ ")"
  | .overwritten lost capacity =>
    toString lost ++ " events were overwritten before they were read; the ring holds " ++
      toString capacity
  | .emptyTaskId site =>
    "task id 0 marks an empty table slot, task at " ++ site ++ " will not be found"
  | .oddTransition slot task old new =>
    slotMark slot ++ "task " ++ toString task ++ " moved from " ++ old ++ " to " ++ new
  | .unknownStatus slot task old new =>
    slotMark slot ++ "task " ++ toString task ++ " has unknown status " ++ old ++ " -> " ++ new
  | .clockUnreadable cause => "cannot read the monotonic clock: " ++ cause
  | .coverageFull slot capacity block =>
    slotMark slot ++ "coverage table is full at " ++ toString capacity ++ " blocks, dropping " ++
      block
  | .lostWhileRecording slot lost =>
    slotMark slot ++ "lost " ++ toString lost ++ " events while recording"
  | .scheduleHasGaps lost =>
    "schedule lost " ++ toString lost ++ " events while recording, expect desyncs"
  | .desync slot index expected reporter =>
    slotMark slot ++ "desync at recorded event " ++ toString index ++ ": expected " ++ expected ++
      ", but " ++ reporter ++ " reported"
  | .stalled seconds left =>
    "no slot reached its next recorded event in " ++ durationText seconds ++
      ", giving up with " ++ toString left ++ " left"
  | .unreachable cause => "dara: cannot reach the control plane: " ++ cause

end Notice

/-- A result with the notices that arose on the way to it, in order. -/
structure Noted (α : Type) where
  value : α
  notices : List Notice
deriving Repr

namespace Noted

instance : Monad Noted where
  pure a := ⟨a, []⟩
  bind x f :=
    let y := f x.value
    ⟨y.value, x.notices ++ y.notices⟩

/-- A single notice. -/
def note (n : Notice) : Noted Unit := ⟨(), [n]⟩

/-- A notice that arises under a condition. -/
def noteIf (condition : Bool) (n : Notice) : Noted Unit := ⟨(), if condition then [n] else []⟩

@[simp] theorem value_pure {α : Type} (a : α) : (pure a : Noted α).value = a := rfl

@[simp] theorem value_bind {α β : Type} (x : Noted α) (f : α → Noted β) :
    (x >>= f).value = (f x.value).value := rfl

@[simp] theorem notices_pure {α : Type} (a : α) : (pure a : Noted α).notices = [] := rfl

@[simp] theorem notices_bind {α β : Type} (x : Noted α) (f : α → Noted β) :
    (x >>= f).notices = x.notices ++ (f x.value).notices := rfl

end Noted

end Turnstile
