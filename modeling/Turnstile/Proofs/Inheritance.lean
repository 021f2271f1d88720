import Turnstile.Proofs.Engagement
import Turnstile.Proofs.Paths

/-!
# One inherited region

A process may bring in any number of probes, use them, drop them, and have them fail, in any order
and with any settings, over files with any contents (`Session.Move`). At every point at most one of
them holds the region that the process inherited. The flag is set while one does and, if no probe
was told the descriptor -1, only then. The first use of a probe maps the region or fails; while the
flag is set it fails for that reason, and where it fails everything stays as it was
(`Session.World.FirstUse`). All this is `Session.World.inheritance_after`.

The descriptor -1 makes an exception, because it is refused after the flag has been set, and in a
way that does not come back to where the flag is cleared. The flag then stays set although nobody
holds the region, for as long as the process lives (`Session.World.not_forall_mapped_iff_holds`),
and no probe can attach any more.
-/

set_option autoImplicit false
set_option relaxedAutoImplicit false

namespace Turnstile

namespace Session

/-- The agents of a session in the surroundings of another one: whatever is not their doing may have
happened. -/
def World.amid (w surroundings : World) : World :=
  { surroundings with agents := w.agents, pauses := w.pauses, mapped := w.mapped }

/-- What can happen in a session. -/
inductive Move
  | attach (who : String) (slot : Nat) (enforcing : Bool) (spinLimit : UInt32)
  | instrument (who : String) (settings : Settings)
  | instrumentLazily (who : String) (settings : Settings) (path : Option String)
  | drop (who : String)
  | spawn (who : String) (id : Int64) (site : UInt64) (label : String) (count : Nat)
  | showTask (who : String) (id : Int64)
  | setStatus (who : String) (id : Int64) (status : StatusWord)
  | block (who : String) (ids : List String)
  | state (who : String)
  | finish (who : String)
  | report (who : String) (task : Int64) (content : Content) (count : Nat) (vital : Bool)
  /-- Anything happens to files, regions, the clock and the scheduler. -/
  | elsewhere (surroundings : World)

namespace Move

/-- The session after a move. -/
def next : Move → World → World
  | attach who slot enforcing spinLimit => (Act.attach who slot enforcing spinLimit).turned
  | instrument who settings => (Act.instrument who settings).turned
  | instrumentLazily who settings path => (Act.instrumentLazily who settings path).turned
  | drop who => (Act.drop who).turned
  | spawn who id site label count => (Act.spawn who id site label count).turned
  | showTask who id => (Act.showTask who id).turned
  | setStatus who id status => (Act.setStatus who id status).turned
  | block who ids => (Act.block who ids).turned
  | state who => (Act.state who).turned
  | finish who => (Act.finish who).turned
  | report who task content count vital => (Act.report who task content count vital).turned
  | elsewhere surroundings => Act.turned (modify (·.amid surroundings))

/-- The settings of a probe that comes with a move. -/
def settings? : Move → Option Settings
  | instrument _ settings | instrumentLazily _ settings _ => some settings
  | _ => none

theorem leads_next {told : Settings → Prop} (m : Move) (htold : ∀ s, m.settings? = some s → told s)
    (w : World) : w.tenure.Leads told (m.next w).tenure := by
  cases m with
  | attach who slot enforcing spinLimit =>
    exact leads_turned (Act.stepsFrom_attach who slot enforcing spinLimit w)
  | instrument who settings =>
    exact leads_turned (Act.stepsFrom_instrument who (htold settings rfl) w)
  | instrumentLazily who settings path =>
    exact leads_turned (Act.stepsFrom_instrumentLazily who (htold settings rfl) path w)
  | drop who => exact leads_turned (Act.stepsFrom_drop who w)
  | spawn who id site label count =>
    exact leads_turned (Act.stepsFrom_spawn who id site label count w)
  | showTask who id => exact leads_turned ((Act.reads_showTask who id).stepsFrom w)
  | setStatus who id status =>
    exact leads_turned ((Act.engages_setStatus who id status).stepsFrom w)
  | block who ids => exact leads_turned (Act.stepsFrom_block who ids w)
  | state who => exact leads_turned ((Act.reads_state who).stepsFrom w)
  | finish who => exact leads_turned ((Act.engages_finish who).stepsFrom w)
  | report who task content count vital =>
    exact leads_turned (Act.stepsFrom_report who task content count vital w)
  | elsewhere surroundings =>
    exact leads_turned ((Act.stays_modify fun _ ↦ rfl).stepsFrom w)

end Move

namespace World

/-- The session after moves. -/
def after (w : World) (moves : List Move) : World := moves.foldl (fun w m ↦ m.next w) w

theorem leads_after (told : Settings → Prop) {moves : List Move}
    (htold : ∀ m ∈ moves, ∀ s, m.settings? = some s → told s) (w : World) :
    w.tenure.Leads told (w.after moves).tenure := by
  induction moves generalizing w with
  | nil => exact Tenure.leads_refl told _
  | cons m moves ih =>
    obtain ⟨hfirst, hrest⟩ := List.forall_mem_cons.1 htold
    exact (m.leads_next hfirst w).trans (ih hrest (m.next w))

/-- A session before anything has happened, with files or without. -/
def opening (files : Bool) : World := if files then overDisk else overMemory

theorem tenure_opening (files : Bool) : (opening files).tenure = ⟨false, fun _ ↦ none⟩ := by
  cases files <;> simp [opening, tenure, overDisk, overMemory]

/-- A probe that is switched on and free to act, and has not been used yet. -/
structure Idle (w : World) (who : String) (p : Probe) : Prop where
  agent : w.agents[who]? = some (.probe p)
  free : w.isBusy who = false
  enabled : p.isEnabled = true
  unattached : p.attached = none

end World

/-! ### First uses -/

/-- What a program uses its probe for. -/
inductive Use
  | spawn (id : Int64) (site : UInt64) (label : String)
  | setStatus (id : Int64) (status : StatusWord)
  | block (id : String)
  | finish
  | report (task : Int64) (content : Content)

/-- What an agent does when it is used. A report whose failure is its answer has failed. -/
def Use.act (who : String) : Use → Act Unit
  | spawn id site label => do
    let _ ← Act.spawn who id site label 1
  | setStatus id status => do
    let _ ← Act.setStatus who id status
  | block id => Act.block who [id]
  | finish => Act.finish who
  | report task content => do
    match ← Act.report who task content 1 false with
    | some (.error f) => throw f
    | _ => return

namespace Act

variable {α β : Type} {w : World} {who : String} {p : Probe}

/-- On an idle probe, an act first makes the attempt to attach. If this fails the act fails in the
same way, and otherwise it then leaves the region alone. -/
structure Attempts (who : String) (act : Act α) : Prop where
  fails : ∀ {w p e next}, w.Idle who p → ((reach who p).runIn w).value = (.error e, next) →
    (act.runIn w).value = (.error e, next)
  stays : ∀ {w p}, w.Idle who p → (act.final w).tenure = ((reach who p).final w).tenure

theorem Attempts.bind {x : Act α} {f : α → Act β} (h : x.Attempts who) (hf : ∀ a, (f a).Stays) :
    (x >>= f).Attempts who where
  fails hidle hreach := value_bind_of_error (h.fails hidle hreach) f
  stays hidle := (tenure_bind_of_stays x hf _).trans (h.stays hidle)

theorem Attempts.after_agent {x : Act α} (h : x.Attempts who) :
    Attempts who (do
      let _ ← agent who
      x) where
  fails hidle hreach :=
    (value_bind_of_ok (value_agent hidle.agent hidle.free) _).trans (h.fails hidle hreach)
  stays hidle := by
    rw [final_bind_of_ok (value_agent hidle.agent hidle.free)]
    exact h.stays hidle

theorem reporter?_of_enabled (hp : p.isEnabled) (who : String) :
    reporter? who (.probe p) = do
      let a ← reach who p
      return some (a.reporter, a.place) := by
  change (if p.isEnabled then (do
    let a ← reach who p
    return some (a.reporter, a.place)) else return none) = _
  rw [if_pos hp]

theorem value_reporter?_of_error (hp : p.isEnabled) {e : Failure} {next : World}
    (hreach : ((reach who p).runIn w).value = (.error e, next)) :
    ((reporter? who (.probe p)).runIn w).value = (.error e, next) := by
  rw [reporter?_of_enabled hp]
  exact value_bind_of_error hreach _

theorem tenure_reporter? (hp : p.isEnabled) (who : String) (w : World) :
    ((reporter? who (.probe p)).final w).tenure = ((reach who p).final w).tenure := by
  rw [reporter?_of_enabled hp]
  exact tenure_bind_of_stays _ (fun _ ↦ (reads_pure _).stays) w

theorem Engages.attempts {act : Act α} (h : act.Engages who) : act.Attempts who := by
  obtain ⟨f, hf, rfl⟩ := h
  constructor
  · intro w p e next hidle hreach
    rw [value_bind_of_ok (value_agent hidle.agent hidle.free)]
    exact value_bind_of_error (value_reporter?_of_error hidle.enabled hreach) _
  · intro w p hidle
    rw [final_bind_of_ok (value_agent hidle.agent hidle.free), tenure_bind_of_stays _ (hf _)]
    exact tenure_reporter? hidle.enabled who w

/-- A report that is not vital is not forgiven. -/
theorem forgive_of_not_vital {e : Errand} (hvital : e.vital = false) (f : Failure) :
    forgive e f = throw f := by
  unfold forgive
  rw [hvital]

theorem value_outcome {act : Act α} {result : Except Failure α} {next : World}
    (h : (act.runIn w).value = (result, next)) :
    ((outcome act).runIn w).value = (.ok result, next) := by
  change (Except.ok (act.runIn w).value.1, (act.runIn w).value.2) = _
  rw [h]

theorem value_attempt_of_error {e : Errand} (hvital : e.vital = false)
    {report : Act (Resume ⊕ Wait)} {f : Failure} {next : World}
    (hreport : (report.runIn w).value = (.error f, next)) :
    ((attempt e report).runIn w).value = (.error f, next) := by
  unfold attempt
  rw [value_bind_of_ok (value_outcome hreport)]
  simp only [forgive_of_not_vital hvital]
  rfl

theorem tenure_attempt {e : Errand} (hvital : e.vital = false) (report : Act (Resume ⊕ Wait))
    (w : World) : ((attempt e report).final w).tenure = (report.final w).tenure := by
  refine tenure_bind_of_stays (outcome report) (fun result ↦ ?_) w
  simp only [forgive_of_not_vital hvital]
  split
  · exact (reads_pure _).stays
  · exact (reads_pure _).stays
  · refine (reads_throw _).stays.bind fun response ↦ ?_
    cases response with
    | some response => exact (reads_pure _).stays
    | none => exact (reads_throw _).stays

theorem attempts_makeReports (e : Errand) (hvital : e.vital = false) :
    (makeReports e 1).Attempts e.agent := by
  have hfound : ∀ {w p}, World.Idle w e.agent p →
      ((needed w.agents[e.agent]?).runIn w).value = (.ok (.probe p), w) := by
    intro w p hidle
    rw [hidle.agent]
    rfl
  constructor
  · intro w p f next hidle hreach
    obtain ⟨g, -, heq⟩ := reportOnce_eq e (.probe p)
    have honce : ((reportOnce e (.probe p)).runIn w).value = (.error f, next) := by
      rw [heq]
      exact value_bind_of_error (value_reporter?_of_error hidle.enabled hreach) g
    rw [makeReports, value_bind_of_ok (value_get w), value_bind_of_ok (hfound hidle)]
    exact value_bind_of_error (value_attempt_of_error hvital honce) _
  · intro w p hidle
    obtain ⟨g, hg, heq⟩ := reportOnce_eq e (.probe p)
    rw [makeReports, final_bind_of_ok (value_get w), final_bind_of_ok (hfound hidle),
      tenure_bind_of_stays, tenure_attempt hvital, heq, tenure_bind_of_stays _ hg,
      tenure_reporter? hidle.enabled]
    intro result
    split
    · exact (reads_pure _).stays
    · exact (reads_pure _).stays
    · exact (reads_pure _).stays

/-- The answer to what an errand has come to. -/
def answer : Except Failure Standing → Act (Option (Except Failure Response))
  | .error f => return some (.error f)
  | .ok (.ended r) => return some (.ok r)
  | .ok (.paused p) => do
    modify fun w ↦ { w with pauses := w.pauses ++ [p] }
    return none

theorem stays_answer (result : Except Failure Standing) : (answer result).Stays := by
  match result with
  | .error f => exact (reads_pure _).stays
  | .ok (.ended r) => exact (reads_pure _).stays
  | .ok (.paused p) => exact Stays.bind (fun _ ↦ rfl) fun _ ↦ (reads_pure _).stays

/-- A report by a probe is answered with what its errand has come to. -/
theorem value_report (h : w.Idle who p) (task : Int64) (content : Content) :
    ((report who task content 1 false).runIn w).value =
      ((outcome (makeReports ⟨who, task, content.toPayload.value, none, false, 0⟩ 1) >>=
        answer).runIn w).value := by
  have hpayload : ((noted content.toPayload).runIn w).value = (.ok content.toPayload.value, w) :=
    rfl
  rw [report, value_bind_of_ok hpayload, value_bind_of_ok (value_agent h.agent h.free)]
  rfl

theorem attempts_report (who : String) (task : Int64) (content : Content) :
    ((Use.report task content).act who).Attempts who := by
  have hmake : (makeReports ⟨who, task, content.toPayload.value, none, false, 0⟩ 1).Attempts who :=
    attempts_makeReports ⟨who, task, content.toPayload.value, none, false, 0⟩ rfl
  constructor
  · intro w p f next hidle hreach
    have hanswer : ((report who task content 1 false).runIn w).value =
        (.ok (some (.error f)), next) := by
      rw [value_report hidle, value_bind_of_ok (value_outcome (hmake.fails hidle hreach))]
      rfl
    rw [Use.act, value_bind_of_ok hanswer]
    rfl
  · intro w p hidle
    rw [Use.act, tenure_bind_of_stays, final, value_report hidle]
    · exact (tenure_bind_of_stays _ stays_answer w).trans (hmake.stays hidle)
    · intro x
      split
      · exact (reads_throw _).stays
      · exact (reads_pure _).stays

end Act

theorem Use.attempts (use : Use) (who : String) : (use.act who).Attempts who := by
  cases use with
  | spawn id site label =>
    exact (Act.engages_spawnOne who id site label).attempts.bind fun _ ↦ (Act.reads_pure _).stays
  | setStatus id status =>
    exact (Act.engages_setStatus who id status).attempts.bind fun _ ↦ (Act.reads_pure _).stays
  | block id =>
    exact ((Act.engages_blockOne who id).attempts.bind fun _ ↦ (Act.reads_pure _).stays).after_agent
  | finish => exact (Act.engages_finish who).attempts
  | report task content => exact Act.attempts_report who task content

namespace World

variable {w : World} {who : String} {p : Probe}

theorem Idle.use_of_missing (h : w.Idle who p) (hslot : p.settings.slot = none) (use : Use) :
    ((use.act who).runIn w).value = (.error (.control .noSlotGiven), w) :=
  (use.attempts who).fails h (Act.value_reach_of_missing h.unattached hslot)

theorem Idle.use_of_mapped (h : w.Idle who p) (hslot : p.settings.slot ≠ none)
    (hmapped : w.mapped = true) (use : Use) :
    ((use.act who).runIn w).value = (.error (.control .alreadyMapped), w) :=
  (use.attempts who).fails h (Act.value_reach_of_mapped h.unattached hslot hmapped)

theorem Idle.use_of_impossible (h : w.Idle who p) (hslot : p.settings.slot ≠ none)
    (hmapped : w.mapped = false) (hdescriptor : p.settings.descriptor = -1) (use : Use) :
    ((use.act who).runIn w).value = (.error .crash, { w with mapped := true }) :=
  (use.attempts who).fails h
    (Act.value_reach_of_impossible h.unattached hslot hmapped hdescriptor)

theorem Idle.use_of_leadsTo (h : w.Idle who p) (hmapped : w.mapped = false)
    (hdescriptor : p.settings.descriptor ≠ -1) {i : SlotIndex} {name : String}
    (hleads : p.LeadsTo w.storage i name) (use : Use) :
    ((use.act who).final w).mapped = true ∧ ((use.act who).final w).Holds who := by
  have hslot := hleads.slot_ne_none
  obtain ⟨-, -, a, -, hinherited, -, hok⟩ | ⟨e, hmisled, -⟩ := Probe.inherit_cases hslot w.storage
  · have hstake : (Agent.probe { p with attached := some a }).stake = some (p.settings, true) := by
      simp [Agent.stake, Probe.holdsInherited, hinherited]
    have hused : ((use.act who).final w).tenure =
        ⟨true, Function.update w.tenure.probes who (some (p.settings, true))⟩ := by
      rw [(use.attempts who).stays h, Act.final,
        Act.value_reach_of_inherit_ok h.unattached hslot hmapped hdescriptor hok, tenure_insert,
        hstake]
    refine ⟨congrArg Tenure.mapped hused, ?_⟩
    rw [← holds_tenure, hused, Tenure.holds_update, if_pos rfl]
    rfl
  · exact (hmisled.not_leadsTo hleads).elim

theorem Idle.use_of_misled (h : w.Idle who p) (hslot : p.settings.slot ≠ none)
    (hmapped : w.mapped = false) (hdescriptor : p.settings.descriptor ≠ -1)
    (hmisled : ∀ i name, ¬ p.LeadsTo w.storage i name) (use : Use) :
    ∃ e, p.Misled w.storage e ∧
      ((use.act who).runIn w).value = (.error (.control e), w) := by
  obtain ⟨i, name, -, hleads, -⟩ | ⟨e, hwrong, herror⟩ := Probe.inherit_cases hslot w.storage
  · exact absurd hleads (hmisled i name)
  · exact ⟨e, hwrong, (use.attempts who).fails h
      (Act.value_reach_of_inherit_error h.unattached hslot hmapped hdescriptor herror)⟩

theorem sound_opening (files : Bool) : (opening files).tenure.Sound := by
  rw [tenure_opening]
  exact ⟨fun ha ↦ absurd ha (by simp [Tenure.holds]), fun ha ↦ absurd ha (by simp [Tenure.holds])⟩

theorem sound_after (files : Bool) (moves : List Move) :
    ((opening files).after moves).tenure.Sound :=
  (sound_opening files).leads (leads_after (fun _ ↦ True) (fun _ _ _ _ ↦ trivial) _)

/-- The flag is exact in every run in which no probe is told an impossible descriptor. -/
theorem exact_after (files : Bool) {moves : List Move}
    (hpossible : ∀ m ∈ moves, ∀ s, m.settings? = some s → s.descriptor ≠ -1) :
    ((opening files).after moves).tenure.Exact := by
  refine Tenure.Exact.leads ?_ (sound_opening files) ?_ (leads_after _ hpossible _)
  · rw [tenure_opening]
    simp [Tenure.Exact, Tenure.holds]
  · rw [tenure_opening]
    rintro who s b ⟨⟩

/-- Dropping the probe that holds the region clears the flag. -/
theorem mapped_drop (h : w.Holds who) (hfree : w.isBusy who = false) :
    ((Act.drop who).final w).mapped = false := by
  obtain ⟨p, hagent, hp⟩ := h
  have hholds : w.tenure.holds who = true := (holds_tenure w who).2 ⟨p, hagent, hp⟩
  rw [Act.drop, Act.final_bind_of_ok (Act.value_agent hagent hfree), Act.final_removeAgent]
  simp [hholds]

/-- What comes of the first use of a probe. -/
structure FirstUse (w : World) (who : String) (p : Probe) (used : Except Failure Unit × World) :
    Prop where
  missing : p.settings.slot = none → used = (.error (.control .noSlotGiven), w)
  /-- While the flag is set a use fails for that, and whoever holds the region keeps it. -/
  taken : p.settings.slot ≠ none → w.mapped = true →
    used = (.error (.control .alreadyMapped), w)
  /-- With the descriptor -1 the program does not survive, and the flag has been set. -/
  impossible : p.settings.slot ≠ none → w.mapped = false → p.settings.descriptor = -1 →
    used = (.error .crash, { w with mapped := true })
  led : ∀ i name, p.LeadsTo w.storage i name → w.mapped = false → p.settings.descriptor ≠ -1 →
    used.2.mapped = true ∧ used.2.Holds who
  /-- What the error says is so, and everything else is as it was. -/
  misled : (∀ i name, ¬ p.LeadsTo w.storage i name) → p.settings.slot ≠ none →
    w.mapped = false → p.settings.descriptor ≠ -1 →
    ∃ e, p.Misled w.storage e ∧ used = (.error (.control e), w)

theorem Idle.firstUse (h : w.Idle who p) (use : Use) :
    w.FirstUse who p ((use.act who).runIn w).value where
  missing hslot := h.use_of_missing hslot use
  taken hslot hmapped := h.use_of_mapped hslot hmapped use
  impossible hslot hmapped hdescriptor := h.use_of_impossible hslot hmapped hdescriptor use
  led _ _ hleads hmapped hdescriptor := h.use_of_leadsTo hmapped hdescriptor hleads use
  misled hmisled hslot hmapped hdescriptor :=
    h.use_of_misled hslot hmapped hdescriptor hmisled use

/-- After any run, at most one agent holds the region that the process inherited, and the flag is
set while one does. It is set only then if no probe of the run was told the descriptor -1; a flag
that is set for nobody stays set. Dropping the holder clears the flag, an attached probe reaches its
slot whatever the flag is, and the first use of any probe maps the region if the flag is clear and
the probe was led to a slot, and otherwise fails and leaves everything as it was. -/
theorem inheritance_after (files : Bool) (moves : List Move) :
    let w := (opening files).after moves
    (∀ a b, w.Holds a → w.Holds b → a = b) ∧
    (∀ a, w.Holds a → w.mapped = true) ∧
    ((∀ m ∈ moves, ∀ s, m.settings? = some s → s.descriptor ≠ -1) →
      (w.mapped = true ↔ ∃ a, w.Holds a)) ∧
    (w.mapped = true → (∀ a, ¬ w.Holds a) →
      ∀ later, (w.after later).mapped = true ∧ ∀ a, ¬ (w.after later).Holds a) ∧
    (∀ who, w.Holds who → w.isBusy who = false → ((Act.drop who).final w).mapped = false) ∧
    (∀ who p a, p.isEnabled = true → p.attached = some a →
      ((Act.reporter? who (.probe p)).runIn w).value.1 = .ok (some (a.reporter, a.place))) ∧
    ∀ who p, w.Idle who p → ∀ use : Use, w.FirstUse who p ((use.act who).runIn w).value := by
  intro w
  have hsound : w.tenure.Sound := sound_after files moves
  simp only [← holds_tenure]
  refine ⟨fun a b ↦ hsound.single, fun a ↦ hsound.flagged, exact_after files, ?_, ?_, ?_, ?_⟩
  · intro hmapped hnobody later
    have hstranded : w.tenure.Stranded := ⟨hmapped, hnobody⟩
    exact hstranded.leads (leads_after (fun _ ↦ True) (fun _ _ _ _ ↦ trivial) w)
  · intro who hholds hfree
    exact mapped_drop ((holds_tenure w who).1 hholds) hfree
  · intro who p a henabled hattached
    rw [Act.reporter?_of_enabled henabled,
      Act.value_bind_of_ok (Act.value_reach_of_attached hattached)]
    rfl
  · exact fun who p h use ↦ h.firstUse use

end World

/-! ### Two runs -/

/-- Settings of a probe for the first slot. -/
def firstSlot (descriptor : Int32) : Settings := ⟨some "1", none, some 0, descriptor, 64⟩

/-- A session with a region in the file `r`. -/
def shelf : World := { World.overDisk with disk := some (Disk.empty.put "r" (.ofRegion .fresh)) }

/-- Two probes come for the region, and one of them maps it. -/
def arrivals : List Move :=
  [.elsewhere shelf, .instrumentLazily "a" (firstSlot 900) (some "r"),
    .instrumentLazily "b" (firstSlot 900) (some "r"), .spawn "a" 1 256 "main.main" 1]

theorem find_shelf : shelf.storage.find "r" = .ok "r" :=
  Disk.find_put (Disk.place_plain (by decide)) (by decide +kernel) _

/-- Where nobody waits, an act is followed by nothing. -/
theorem turned_of_quiet {α : Type} {w : World} (hquiet : w.pauses = []) (act : Act α) :
    act.turned w = act.final w := by
  unfold Act.turned turn
  rw [hquiet]
  rfl

theorem next_instrumentLazily {w : World} (hquiet : w.pauses = []) {d : Disk}
    (hdisk : w.disk = some d) {path name : String} (hname : d.find (Act.pathWithin path) = .ok name)
    (who : String) (settings : Settings) :
    (Move.instrumentLazily who settings (some path)).next w = { w with
      agents := (w.agents.erase who).insert who (.probe (.unattached settings (some name)))
      mapped := w.mapped && !w.tenure.holds who } := by
  have hfree : ((Act.checkFree who).runIn w).value = (.ok (), w) := by
    change ((if w.isBusy who then throw .busy else pure () : Act Unit).runIn w).value = _
    rw [World.isBusy, hquiet]
    rfl
  have hfound : (Act.disk.runIn w).value = (.ok d, w) := by
    change ((Act.needed w.disk).runIn w).value = _
    rw [hdisk]
    rfl
  have hremoved : ((Act.removeAgent who).runIn w).value = (.ok (), { w with
      agents := w.agents.erase who, mapped := w.mapped && !w.tenure.holds who }) :=
    Prod.ext rfl (Act.final_removeAgent who w)
  have hreplaced : ∀ a, ((Act.replaceAgent who a).runIn w).value = (.ok (), { w with
      agents := (w.agents.erase who).insert who a
      mapped := w.mapped && !w.tenure.holds who }) :=
    fun a ↦ Act.value_bind_of_ok hremoved fun _ ↦ Act.setAgent who a
  change (Act.instrumentLazily who settings (some path)).turned w = _
  rw [turned_of_quiet hquiet, Act.instrumentLazily, Act.final_bind_of_ok hfree]
  dsimp only
  rw [Act.final_bind_of_ok hfound, hname]
  exact Act.final_bind_of_ok (hreplaced _) _

/-- The session in which both probes have come. -/
def bothThere : World := { shelf with
  agents := (((((∅ : Std.TreeMap String Agent).erase "a").insert "a"
    (.probe (.unattached (firstSlot 900) (some "r")))).erase "b").insert "b"
      (.probe (.unattached (firstSlot 900) (some "r")))) }

theorem after_arrivals : (World.opening true).after arrivals =
    bothThere.after [.spawn "a" 1 256 "main.main" 1] := by
  have hname : shelf.storage.find (Act.pathWithin "r") = .ok "r" := by
    rw [Act.pathWithin, if_neg (by decide)]
    exact find_shelf
  have hopened : (Move.elsewhere shelf).next (World.opening true) = shelf := rfl
  unfold arrivals World.after
  rw [List.foldl_cons, hopened, List.foldl_cons, next_instrumentLazily rfl rfl hname,
    List.foldl_cons, next_instrumentLazily rfl rfl hname]
  rfl

/-- Whether an agent is a probe that nobody has used. -/
def Agent.isUnused (settings : Settings) (name : String) : Agent → Bool
  | .reporter _ _ => false
  | .probe p => p.settings = settings && p.backing = some name && p.attached.isNone

theorem idle_of_isUnused {w : World} {who name : String} {settings : Settings}
    (hagent : (w.agents[who]?).any (Agent.isUnused settings name) = true)
    (hfree : w.isBusy who = false) (henabled : settings.reports = true) :
    w.Idle who (.unattached settings (some name)) := by
  obtain ⟨a, ha, hunused⟩ := (Option.any_eq_true _ _).1 hagent
  cases a with
  | reporter r place => cases hunused
  | probe p =>
    obtain ⟨s, b, x⟩ := p
    simp [Agent.isUnused] at hunused
    obtain ⟨⟨rfl, rfl⟩, rfl⟩ := hunused
    exact ⟨ha, hfree, henabled, rfl⟩

/-- Two probes come for the region. While the first holds it, the second finds it mapped; when the
first is dropped, the second maps it. -/
theorem World.inheritance_after_arrivals :
    let w := (opening true).after arrivals
    let vacated := (opening true).after (arrivals ++ [.drop "a"])
    (∃ a, w.Holds a) ∧
      ((Use.finish.act "b").runIn w).value = (.error (.control .alreadyMapped), w) ∧
      vacated.mapped = false ∧ ((Use.finish.act "b").final vacated).Holds "b" := by
  intro w vacated
  have hw : w = bothThere.after [.spawn "a" 1 256 "main.main" 1] := after_arrivals
  have hvacated : vacated = bothThere.after [.spawn "a" 1 256 "main.main" 1, .drop "a"] := by
    have happend : vacated = w.after [.drop "a"] := List.foldl_append
    rw [happend, hw]
    rfl
  have hmapped : w.mapped = true := by
    rw [hw]
    decide +kernel
  have hfree : vacated.mapped = false := by
    rw [hvacated]
    decide +kernel
  have hidle : w.Idle "b" (.unattached (firstSlot 900) (some "r")) := by
    rw [hw]
    exact idle_of_isUnused (by decide +kernel) (by decide +kernel) rfl
  have hstill : vacated.Idle "b" (.unattached (firstSlot 900) (some "r")) := by
    rw [hvacated]
    exact idle_of_isUnused (by decide +kernel) (by decide +kernel) rfl
  have hleads : (Probe.unattached (firstSlot 900) (some "r")).LeadsTo vacated.storage 0 "r" := by
    rw [hvacated]
    exact ⟨rfl, rfl, by decide +kernel, by decide +kernel⟩
  have hpossible : ∀ m ∈ arrivals, ∀ s, m.settings? = some s → s.descriptor ≠ -1 := by
    simp only [arrivals, List.forall_mem_cons, Move.settings?]
    simp [firstSlot]
  obtain ⟨-, -, hexact, -, -, -, hfirst⟩ := inheritance_after true arrivals
  obtain ⟨-, -, -, -, -, -, hnext⟩ := inheritance_after true (arrivals ++ [.drop "a"])
  exact ⟨(hexact hpossible).1 hmapped,
    (hfirst "b" _ hidle .finish).taken (by decide) hmapped, hfree,
    ((hnext "b" _ hstill .finish).led 0 "r" hleads hfree (by decide)).2⟩

/-- A probe comes that was told a descriptor that no descriptor can be, and is used. -/
def mishap : List Move :=
  [.instrumentLazily "a" (firstSlot (-1)) none, .spawn "a" 1 256 "main.main" 1]

/-- The flag may be set while nobody holds the region: it is after the mishap. -/
theorem World.not_forall_mapped_iff_holds :
    ¬ ∀ (files : Bool) (moves : List Move),
      ((opening files).after moves).mapped = true ↔ ∃ a, ((opening files).after moves).Holds a := by
  intro hall
  have hmapped : ((opening true).after mishap).mapped = true := by decide +kernel
  have hnobody : ∀ x ∈ ((opening true).after mishap).agents.toList,
      x.2.stake.all fun s ↦ !s.2 := by decide +kernel
  obtain ⟨a, p, hagent, hp⟩ := (hall true mishap).1 hmapped
  have hstake := hnobody (a, .probe p) (Std.TreeMap.mem_toList_iff_getElem?_eq_some.2 hagent)
  simp [Agent.stake, hp] at hstake

end Session

end Turnstile
