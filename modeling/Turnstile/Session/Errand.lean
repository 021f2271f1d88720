import Turnstile.Session.World

/-!
# Errands

An errand is a number of reports made in a row. A report that waits interrupts it; the reports after
it are made as soon as the wait is over. The errand ends with the outcome of its last report, or
with the first failure. Probes may make vital reports: one that cannot reach its slot makes the
agent give up, while one for an unknown task is dropped.
-/

set_option autoImplicit false
set_option relaxedAutoImplicit false

namespace Turnstile

namespace Session

/-- What an errand comes to. -/
inductive Response
  | resumed (r : Resume)
  /-- The agent has given up, and is gone. -/
  | aborted
deriving DecidableEq, Repr

/-- Where an errand stands. -/
inductive Standing
  | ended (r : Response)
  | paused (p : Pause)

/-- What a report carries, before it is cut to what a record holds. -/
inductive Content
  | payload (p : Payload)
  | send (body : List UInt8)
  | receive (body : List UInt8)
  | dump (point : String) (vars : List Variable)
  | call (c : Call)
  | schedule

namespace Content

def toPayload : Content → Noted Payload
  | .payload p => pure p
  | .send body => pure (.send (Message.clipped body))
  | .receive body => pure (.receive (Message.clipped body))
  | .dump point vars => do return .dump (← Dump.ofVariables point vars)
  | .call c => do return .call (← c.clipped)
  | .schedule => pure .schedule

/-- The message that a report by this name stands for. -/
def traffic? : Content → Option Traffic
  | .send _ => some .sent
  | .receive _ => some .received
  | _ => none

end Content

namespace Act

/-- Where the present report of an errand stands. -/
def settle (e : Errand) (place : Place) (reported : Reported) : Act (Resume ⊕ Wait) := do
  match reported.progress with
  | .paused w =>
    keep e.agent reported.reporter place reported.slot
    return .inr w
  | .ended (.ok resume) =>
    let r := match e.traffic with
      | some t => reported.reporter.credit t
      | none => reported.reporter
    keep e.agent r place reported.slot
    return .inl resume
  | .ended (.error err) =>
    keep e.agent reported.reporter place reported.slot
    throw (.control err)

/-- Make one report of an errand. Only a report of a known task reads the clock. -/
def reportOnce (e : Errand) (a : Agent) : Act (Resume ⊕ Wait) := do
  match ← reporter? e.agent a with
  | none => return .inl .carryOn
  | some (r, place) =>
    let s := ((← get).region place).slot r.slot
    let stamp ← if (s.task? e.task).isSome then do
        let (stamp, clock) ← noted (← get).clock.read
        modify fun w ↦ { w with clock := clock }
        pure stamp
      else pure 0
    settle e place (r.report s e.task e.payload stamp)

/-- What becomes of a failed report. -/
def forgive (e : Errand) (f : Failure) : Act (Option Response) := do
  match e.vital, f with
  | true, .control (.unknownTask _) => return some (.resumed .carryOn)
  | true, .control err =>
    noted (Noted.note (.unreachable err.message))
    removeAgent e.agent
    return some .aborted
  | _, f => throw f

/-- The outcome of an act, as a result. -/
def outcome {α : Type} (act : Act α) : Act (Except Failure α) :=
  ofRun fun w ↦ do
    let (outcome, w) ← act.runIn w
    return (.ok outcome, w)

/-- Try one report, or the rest of one. -/
def attempt (e : Errand) (report : Act (Resume ⊕ Wait)) : Act (Response ⊕ Wait) := do
  match ← outcome report with
  | .ok (.inl resume) => return .inl (.resumed resume)
  | .ok (.inr w) => return .inr w
  | .error f =>
    match ← forgive e f with
    | some response => return .inl response
    | none => throw f

/-- Make the next reports of an errand. -/
def makeReports (e : Errand) : Nat → Act Standing
  | 0 => return .ended (.resumed .carryOn)
  | left + 1 => do
    let a ← needed (← get).agents[e.agent]?
    match ← attempt e (reportOnce e a) with
    | .inr w => return .paused ⟨{ e with left := left }, w⟩
    | .inl .aborted => return .ended .aborted
    | .inl (.resumed resume) =>
      if left = 0 then return .ended (.resumed resume) else makeReports e left

/-- Go on with an errand whose report waits. -/
def resumeErrand (p : Pause) : Act Standing := do
  let e := p.errand
  let a ← needed (← get).agents[e.agent]?
  let rest : Act (Resume ⊕ Wait) := do
    match ← reporter? e.agent a with
    | none => return .inl .carryOn
    | some (r, place) =>
      let s := ((← get).region place).slot r.slot
      settle e place (r.resume s p.wait)
  match ← attempt e rest with
  | .inr w => return .paused ⟨e, w⟩
  | .inl .aborted => return .ended .aborted
  | .inl (.resumed resume) =>
    if e.left = 0 then return .ended (.resumed resume) else makeReports e e.left

/-- Report something, `count` times in a row. The result is what the errand came to, or none if it
waits. The content is cut, with its notices, before the agent is looked for. -/
def report (who : String) (task : Int64) (content : Content) (count : Nat) (vital : Bool) :
    Act (Option (Except Failure Response)) := do
  let payload ← noted content.toPayload
  let a ← agent who
  let e : Errand := match a with
    | .reporter _ _ => ⟨who, task, payload, content.traffic?, false, 0⟩
    | .probe _ => ⟨who, task, payload, none, vital, 0⟩
  match ← outcome (makeReports e count) with
  | .error f => return some (.error f)
  | .ok (.ended r) => return some (.ok r)
  | .ok (.paused p) =>
    modify fun w ↦ { w with pauses := w.pauses ++ [p] }
    return none

end Act

/-! ### Turns -/

/-- An errand that came to its end while others acted. -/
structure Woken where
  agent : String
  outcome : Except Failure Response

/-- Give each of some errands one chance to go on. The results are those that ended and those that
still wait. -/
def poll : List Pause → World → Noted (List Woken × List Pause × World)
  | [], w => pure ([], [], w)
  | p :: ps, w => do
    let (outcome, w) ← (Act.resumeErrand p).runIn w
    let (woken, waiting, w) ← poll ps w
    match outcome with
    | .ok (.paused p) => return (woken, p :: waiting, w)
    | .ok (.ended r) => return (⟨p.errand.agent, .ok r⟩ :: woken, waiting, w)
    | .error f => return (⟨p.errand.agent, .error f⟩ :: woken, waiting, w)

/-- An act, after which every errand that was waiting before it gets a chance to go on. -/
def turn {α : Type} (act : Act α) (w : World) : Noted (Except Failure α × List Woken × World) := do
  let earlier := w.pauses.length
  let (outcome, w) ← act.runIn w
  let (woken, waiting, w') ← poll (w.pauses.take earlier) w
  return (outcome, woken, { w' with pauses := waiting ++ w.pauses.drop earlier })

end Session

end Turnstile
