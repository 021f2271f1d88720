import Turnstile.Proofs.Scene

/-!
# The handshake is safe

The words of a slot and the report of its reporter are tied together by the `Stage` of the
handshake: no report waits, a report waits for a grant, or a report has been granted a task and has
not fetched it yet. `Station.Sound` says how the words stand in each stage, and every step of a
station leads from one stage to another along `Stage.next?`, by what becomes of the report
(`Station.Sound.step`). The history of a slot therefore is a walk along `Stage.next?`
(`Scene.sound_after`), and whatever holds of every such walk holds of every run: a report that ends
with a task was granted that task right before, while it waited (`Stage.granted_before_run`).

`Scene.handshake_safe` puts this together with what one step of a waiting station changes
(`Station.Sound.kept`), and with what a report does at once (`Station.Sound.at_once`).
-/

set_option autoImplicit false
set_option relaxedAutoImplicit false

namespace Turnstile

/-! ### What a report does -/

namespace Mode

/-- The mode under which a report goes on that finds this one. -/
def entered : Mode → Mode
  | .uninitialized => .firstEvent
  | m => m

end Mode

namespace Slot

/-- A slot in which an event was logged and its task is shown as the running one. -/
def reported (s : Slot) (e : Event) : Slot := (s.record e).publish e.task

theorem setMode_eq_self {s : Slot} {m : Mode} (h : s.mode? = some m) : s.setMode m = s := by
  have hword : m.code = s.modeWord := Mode.code_of_ofCode? h
  rw [setMode, hword]

theorem enter_eq {s : Slot} {m : Mode} (h : s.mode? = some m) :
    s.enter = (s.setMode m.entered, .ok m.entered) := by
  have hsame := setMode_eq_self h
  unfold enter
  rw [h]
  cases m with
  | uninitialized => rfl
  | firstEvent | replayActive | recordActive | exploreActive | finished | replayEnded =>
    exact congrArg (fun x ↦ (x, _)) hsame.symm

theorem request_eq {s : Slot} (h : s.lock = 0) : s.request = s.setDirective .requested := by
  change (s.acquire.setDirective .requested).release = s.setDirective .requested
  have hfree : (s.setDirective .requested).acquire.release = s.setDirective .requested :=
    release_acquire h
  exact hfree

theorem poll_eq {s : Slot} (h : s.lock = 0) : s.poll = s.takeAnswer := by
  have hfree := release_acquire h
  have hanswer : s.acquire.answer? = s.answer? := rfl
  unfold poll guarded takeAnswer
  rw [hanswer]
  cases s.answer? with
  | none => exact congrArg (fun x ↦ (x, _)) hfree
  | some a => exact congrArg (fun x : Slot ↦ (x.setDirective .idle, some a)) hfree

theorem select_eq {s : Slot} (h : s.lock = 0) (m : ControlMode) :
    (s.select m).1 = s ∨ (s.select m).1 = s.setMode m.mode := by
  have hfree := release_acquire h
  cases hmode : s.acquire.mode with
  | error e =>
    simp only [select, guarded, hmode]
    exact .inl hfree
  | ok old =>
    by_cases hadmits : old.admits m.mode
    · simp only [select, guarded, hmode, hadmits, if_true]
      exact .inr (congrArg (·.setMode m.mode) hfree)
    · simp only [select, guarded, hmode, hadmits]
      exact .inl hfree

theorem eq_setMode_of_finish {s s' : Slot} (h : s.finish = .ok s') :
    s' = s.setMode .finished := by
  unfold finish at h
  cases hmode : s.mode with
  | error e =>
    rw [hmode] at h
    cases h
  | ok m =>
    rw [hmode] at h
    by_cases hcontrolled : m.isControlled
    · have hfinished : s.setMode .finished = s' := by
        simpa [bind, Except.bind, pure, Except.pure, hcontrolled] using h
      exact hfinished.symm
    · simp [bind, Except.bind, hcontrolled] at h

end Slot

namespace Reporter

variable {r : Reporter} {s : Slot} {id : Int64} {t : Task} {m : Mode}

/-- The report of an unknown task is refused. -/
theorem announce_of_unknown (h : s.task? id = none) (payload : Payload) (stamp : UInt64) :
    r.announce s id payload stamp = ⟨r, s, .ended (.error (.unknownTask id))⟩ := by
  unfold announce
  rw [h]

/-- How a report goes on once its task is shown, in a slot with a free lock and a known mode. -/
theorem proceed_eq (hlock : s.lock = 0) (hmode : s.mode? = some m) (kind : EventKind) :
    let entered := s.setMode m.entered
    r.proceed s kind =
      if r.enforcing && m.entered.suspends then
        ⟨{ r with tally.suspensions := r.tally.suspensions + 1 },
          entered.setDirective .requested, .paused ⟨.polling, .start r.spinLimit⟩⟩
      else
        ⟨r, if m.entered = .recordActive ∧ kind = .schedule then entered.advance else entered,
          .ended (.ok .carryOn)⟩ := by
  intro entered
  have hentered : entered.lock = 0 := hlock
  have hfree : entered.isUnlocked = true := by simp [Slot.isUnlocked, hentered]
  have hrequest : entered.request = entered.setDirective .requested := Slot.request_eq hentered
  unfold proceed
  rw [Slot.enter_eq hmode]
  by_cases hwaits : (r.enforcing && m.entered.suspends) = true
  · have hcontrolled : m.entered ≠ .recordActive := by
      intro hrecord
      simp [hrecord, Mode.suspends] at hwaits
    simp only [hwaits, hcontrolled, false_and, if_true, if_false, await, request]
    change (if entered.isUnlocked = true then _ else _) = _
    rw [if_pos hfree, hrequest]
    rfl
  · simp only [hwaits]
    rfl

/-- What a report does in a slot with free locks and a known mode, up to its request. -/
theorem announce_eq (hlock : s.lock = 0) (hcall : s.callLock = 0) (hmode : s.mode? = some m)
    (htask : s.task? id = some t) (payload : Payload) (stamp : UInt64) :
    let entered := (s.reported (r.event s t payload stamp)).setMode m.entered
    r.announce s id payload stamp =
      if r.enforcing && m.entered.suspends then
        ⟨{ r with
            tally.reports := r.tally.reports + 1, tally.suspensions := r.tally.suspensions + 1 },
          entered.setDirective .requested, .paused ⟨.polling, .start r.spinLimit⟩⟩
      else
        ⟨{ r with tally.reports := r.tally.reports + 1 },
          if m.entered = .recordActive ∧ payload.kind = .schedule then entered.advance else entered,
          .ended (.ok .carryOn)⟩ := by
  have hunlocked : (s.record (r.event s t payload stamp)).isCallUnlocked = true := by
    have hkept : (s.record (r.event s t payload stamp)).callLock = s.callLock := rfl
    simp [Slot.isCallUnlocked, hkept, hcall]
  have hshownLock : (s.reported (r.event s t payload stamp)).lock = 0 := hlock
  have hshownMode : (s.reported (r.event s t payload stamp)).mode? = some m := hmode
  unfold announce
  rw [htask]
  simp only [publish, hunlocked, if_true]
  exact proceed_eq hshownLock hshownMode payload.kind

/-- A poll in a slot with a free lock. -/
theorem resume_eq (hlock : s.lock = 0) (pace : Backoff) :
    r.resume s ⟨.polling, pace⟩ = match s.answer? with
      | some a => ⟨{ r with tally.spins := r.tally.spins + pace.snoozes },
          s.setDirective .idle, .ended (.ok a)⟩
      | none => ⟨r, s, .paused ⟨.polling, pace.toYield⟩⟩ := by
  have hfree : s.isUnlocked = true := by simp [Slot.isUnlocked, hlock]
  unfold resume
  simp only [poll, hfree, if_true, Slot.poll_eq hlock, Slot.takeAnswer]
  cases s.answer? <;> rfl

end Reporter

/-! ### Stages -/

/-- How far the handshake of a slot has come. -/
inductive Stage
  /-- No report waits. -/
  | idle
  /-- A report waits for a grant. -/
  | requested
  /-- A report waits that has been granted a task and has not fetched it. -/
  | granted (t : Task)

namespace Stage

/-- What the directive word says in a stage. -/
def directive : Stage → Directive
  | .idle => .idle
  | .requested => .requested
  | .granted _ => .proceed

/-- The stage after what becomes of a report, if that can happen in this stage. Only a report that
was granted a task ends with one, and with what is read back of that task. -/
def next? : Stage → Happening → Option Stage
  | .idle, .suspended => some .requested
  | .idle, .ended (.ok .carryOn) => some .idle
  | .idle, .ended (.error _) => some .idle
  | .requested, .granted t => some (.granted t)
  | .requested, .ended (.ok .carryOn) => some .idle
  | .requested, .ended (.ok .released) => some .idle
  | .granted t, .ended (.ok (.run u)) => if u = t.record.task then some .idle else none
  | .granted _, .ended (.ok .carryOn) => some .idle
  | .granted _, .ended (.ok .released) => some .idle
  | _, _ => none

/-- The stage after a history. -/
def walk? (stage : Stage) (history : List Happening) : Option Stage := history.foldlM next? stage

theorem walk?_append (stage : Stage) (history new : List Happening) :
    stage.walk? (history ++ new) = (stage.walk? history).bind (·.walk? new) :=
  List.foldlM_append

theorem walk?_single (stage : Stage) (h : Happening) : stage.walk? [h] = stage.next? h := by
  simp [walk?]

/-- The last step of a walk. -/
theorem walk?_concat_eq_some {stage last : Stage} {history : List Happening} {h : Happening}
    (hwalk : stage.walk? (history ++ [h]) = some last) :
    ∃ before, stage.walk? history = some before ∧ before.next? h = some last := by
  rw [walk?_append] at hwalk
  obtain ⟨before, hbefore, hlast⟩ := Option.bind_eq_some_iff.1 hwalk
  rw [walk?_single] at hlast
  exact ⟨before, hbefore, hlast⟩

/-- A request is raised when a report begins to wait. -/
theorem eq_of_next?_requested {stage : Stage} {h : Happening}
    (hnext : stage.next? h = some .requested) : h = .suspended := by
  cases h with
  | suspended => rfl
  | granted t => cases stage <;> simp [next?] at hnext
  | ended outcome =>
    cases outcome with
    | error e => cases stage <;> simp [next?] at hnext
    | ok a => cases stage <;> cases a <;> simp [next?] at hnext

/-- A task is granted to a request. -/
theorem eq_of_next?_granted {stage : Stage} {h : Happening} {t : Task}
    (hnext : stage.next? h = some (.granted t)) : stage = .requested ∧ h = .granted t := by
  cases h with
  | suspended => cases stage <;> simp [next?] at hnext
  | granted u =>
    cases stage with
    | requested => exact ⟨rfl, by simpa [next?] using hnext⟩
    | idle | granted v => simp [next?] at hnext
  | ended outcome =>
    cases outcome with
    | error e => cases stage <;> simp [next?] at hnext
    | ok a => cases stage <;> cases a <;> simp [next?] at hnext

/-- A report ends with a task only when one has been granted and not fetched. -/
theorem eq_of_next?_run {stage last : Stage} {t : Task}
    (hnext : stage.next? (.ended (.ok (.run t))) = some last) :
    ∃ u, stage = .granted u ∧ t = u.record.task := by
  cases stage with
  | idle | requested => simp [next?] at hnext
  | granted u =>
    by_cases hsame : t = u.record.task
    · exact ⟨u, rfl, hsame⟩
    · simp [next?, hsame] at hnext

/-- A request is the last thing that happened before it is answered. -/
theorem suspended_before_requested {history : List Happening}
    (hwalk : idle.walk? history = some .requested) :
    ∃ earlier, history = earlier ++ [.suspended] := by
  obtain rfl | ⟨earlier, h, rfl⟩ := List.eq_nil_or_concat' history
  · simp [walk?] at hwalk
  · obtain ⟨before, -, hnext⟩ := walk?_concat_eq_some hwalk
    exact ⟨earlier, by rw [eq_of_next?_requested hnext]⟩

/-- A grant directly follows the request that it answers. -/
theorem suspended_before_granted {history : List Happening} {t : Task}
    (hwalk : idle.walk? history = some (.granted t)) :
    ∃ earlier, history = earlier ++ [.suspended, .granted t] := by
  obtain rfl | ⟨before, h, rfl⟩ := List.eq_nil_or_concat' history
  · simp [walk?] at hwalk
  · obtain ⟨stage, hbefore, hnext⟩ := walk?_concat_eq_some hwalk
    obtain ⟨rfl, rfl⟩ := eq_of_next?_granted hnext
    obtain ⟨earlier, rfl⟩ := suspended_before_requested hbefore
    exact ⟨earlier, List.append_assoc earlier [.suspended] [.granted t]⟩

/-- A report that ends with a task was granted it in its own wait, and nobody has fetched that grant
before. -/
theorem granted_before_run {before later : List Happening} {t : Task} {last : Stage}
    (hwalk : idle.walk? (before ++ .ended (.ok (.run t)) :: later) = some last) :
    ∃ earlier u, before = earlier ++ [.suspended, .granted u] ∧ t = u.record.task := by
  rw [List.append_cons, walk?_append] at hwalk
  obtain ⟨stage, hended, -⟩ := Option.bind_eq_some_iff.1 hwalk
  obtain ⟨waiting, hbefore, hnext⟩ := walk?_concat_eq_some hended
  obtain ⟨u, rfl, htask⟩ := eq_of_next?_run hnext
  obtain ⟨earlier, hearlier⟩ := suspended_before_granted hbefore
  exact ⟨earlier, u, hearlier, htask⟩

theorem eq_requested_of_directive {stage : Stage}
    (h : Directive.ofCode? stage.directive.code = some .requested) : stage = .requested := by
  rw [Directive.ofCode?_code] at h
  cases stage with
  | requested => rfl
  | idle | granted t => exact absurd h (by simp [directive])

theorem eq_granted_of_directive {stage : Stage}
    (h : Directive.ofCode? stage.directive.code = some .proceed) : ∃ t, stage = .granted t := by
  rw [Directive.ofCode?_code] at h
  cases stage with
  | granted t => exact ⟨t, rfl⟩
  | idle | requested => exact absurd h (by simp [directive])

end Stage

namespace Station

variable {i : SlotIndex} {p : Station} {stage : Stage}

/-- A station in a stage of the handshake. Its locks are free, its mode is known, and the directive
word tells the stage. -/
structure Sound (i : SlotIndex) (p : Station) (stage : Stage) : Prop where
  lock : p.slot.lock = 0
  callLock : p.slot.callLock = 0
  mode : ∃ m, p.slot.mode? = some m
  directive : p.slot.directiveWord = stage.directive.code
  running : ∀ t, stage = .granted t → p.slot.running = t.record
  reporter : ∀ seat, p.seat = some seat → seat.reporter.slot = i
  /-- Since the locks are free, a report waits for nothing but its answer. -/
  phase : ∀ r w, p.seat = some ⟨r, some w⟩ → w.phase = .polling
  waits : p.waits = true ↔ stage ≠ .idle

theorem Sound.of_fresh (i : SlotIndex) : Sound i ⟨.fresh, none⟩ .idle where
  lock := rfl
  callLock := rfl
  mode := ⟨.uninitialized, rfl⟩
  directive := rfl
  running := by rintro t ⟨⟩
  reporter := by rintro seat ⟨⟩
  phase := by rintro r w ⟨⟩
  waits := by simp [Station.waits]

/-- A station at which no report waits any more. -/
theorem Sound.of_idle {s : Slot} {r : Reporter} {m : Mode} (hlock : s.lock = 0)
    (hcall : s.callLock = 0) (hmode : s.mode? = some m)
    (hdirective : s.directiveWord = Directive.idle.code) (hreporter : r.slot = i) :
    Sound i ⟨s, some ⟨r, none⟩⟩ .idle where
  lock := hlock
  callLock := hcall
  mode := ⟨m, hmode⟩
  directive := hdirective
  running := by rintro t ⟨⟩
  reporter := by rintro seat ⟨⟩; exact hreporter
  phase := by rintro r w ⟨⟩
  waits := by simp [Station.waits]

/-- A station at which a report has raised its request. -/
theorem Sound.of_requested {s : Slot} {r : Reporter} {m : Mode} {pace : Backoff}
    (hlock : s.lock = 0) (hcall : s.callLock = 0) (hmode : s.mode? = some m)
    (hdirective : s.directiveWord = Directive.requested.code) (hreporter : r.slot = i) :
    Sound i ⟨s, some ⟨r, some ⟨.polling, pace⟩⟩⟩ .requested where
  lock := hlock
  callLock := hcall
  mode := ⟨m, hmode⟩
  directive := hdirective
  running := by rintro t ⟨⟩
  reporter := by rintro seat ⟨⟩; exact hreporter
  phase := by rintro r w ⟨⟩; rfl
  waits := by simp [Station.waits]

theorem Sound.eq_idle (h : Sound i p stage) (hidle : p.waits = false) : stage = .idle := by
  by_contra hstage
  have hwaits := h.waits.2 hstage
  rw [hidle] at hwaits
  exact absurd hwaits (by decide)

/-- Another mode changes nothing in the handshake. -/
theorem Sound.setMode (h : Sound i p stage) (m : Mode) :
    Sound i ⟨p.slot.setMode m, p.seat⟩ stage where
  lock := h.lock
  callLock := h.callLock
  mode := ⟨m, Mode.ofCode?_code m⟩
  directive := h.directive
  running := h.running
  reporter := h.reporter
  phase := h.phase
  waits := h.waits

/-- The scheduler offers a slot only while its report waits for a grant. -/
theorem Sound.eq_requested (h : Sound i p stage) (hoffered : p.slot.isOffered) :
    stage = .requested := by
  apply Stage.eq_requested_of_directive
  have hrequest : p.slot.hasRequest = true := by
    unfold Slot.isOffered at hoffered
    exact (Bool.and_eq_true_iff.1 hoffered).2
  rw [← h.directive]
  exact of_decide_eq_true hrequest

/-- A turn of a round grants a task to a request, or changes nothing in the handshake. -/
theorem Sound.turn (h : Sound i p stage) {s : Slot} {g : Option Task} (hturn : p.slot.Turn s g) :
    ∃ next, stage.walk? (g.toList.map .granted) = some next ∧ Sound i ⟨s, p.seat⟩ next := by
  cases hturn with
  | passed => exact ⟨stage, rfl, h⟩
  | granted t hoffered _ =>
    obtain rfl := h.eq_requested hoffered
    refine ⟨.granted t, rfl, h.lock, h.callLock, h.mode, rfl, ?_, h.reporter, h.phase, ?_⟩
    · rintro u ⟨⟩
      rfl
    · exact iff_of_true (h.waits.2 (by simp)) (by simp)
  | broken t hoffered _ =>
    obtain rfl := h.eq_requested hoffered
    refine ⟨.requested, rfl, h.lock, h.callLock, h.mode, h.directive, ?_, h.reporter, h.phase,
      h.waits⟩
    rintro u ⟨⟩

/-- What a waiting report can be answered. -/
theorem answer?_eq_some {s : Slot} {a : Resume} (h : s.answer? = some a) :
    a = .carryOn ∨ a = .released ∨ a = .run s.runningTask ∧ s.directive? = some .proceed := by
  unfold Slot.answer? at h
  match hmode : s.mode? with
  | some .replayEnded =>
    rw [hmode] at h
    exact .inr (.inl (Option.some.inj h).symm)
  | some .replayActive | some .exploreActive =>
    rw [hmode] at h
    by_cases hproceed : s.directive? = some .proceed
    · have hrun : some (Resume.run s.runningTask) = some a := (if_pos hproceed).symm.trans h
      exact .inr (.inr ⟨(Option.some.inj hrun).symm, hproceed⟩)
    · have hnone : none = some a := (if_neg hproceed).symm.trans h
      exact absurd hnone (by simp)
  | some .firstEvent =>
    rw [hmode] at h
    exact absurd h (by simp)
  | some .recordActive | some .finished | some .uninitialized | none =>
    rw [hmode] at h
    exact .inl (Option.some.inj h).symm

theorem Sound.poll (h : Sound i p stage) :
    ∃ next, stage.walk? (p.act i .poll).2 = some next ∧ Sound i (p.act i .poll).1 next := by
  obtain ⟨s, seat⟩ := p
  obtain ⟨m, hmode⟩ := h.mode
  match seat with
  | none => exact ⟨stage, rfl, h⟩
  | some ⟨r, none⟩ => exact ⟨stage, rfl, h⟩
  | some ⟨r, some ⟨phase, pace⟩⟩ =>
    obtain rfl : phase = .polling := h.phase r ⟨phase, pace⟩ rfl
    have hreporter : r.slot = i := h.reporter _ rfl
    have hwaiting : stage ≠ .idle := h.waits.1 rfl
    simp only [act, Reporter.resume_eq h.lock]
    cases hanswer : s.answer? with
    | none => exact ⟨stage, rfl, { h with
        reporter := by rintro seat ⟨⟩; exact hreporter
        phase := by rintro r w ⟨⟩; rfl }⟩
    | some a =>
      simp only [settle]
      refine ⟨.idle, ?_, .of_idle h.lock h.callLock hmode rfl hreporter⟩
      rw [Stage.walk?_single]
      obtain rfl | rfl | ⟨rfl, hproceed⟩ := answer?_eq_some hanswer
      · cases stage with
        | idle => exact absurd rfl hwaiting
        | requested | granted t => rfl
      · cases stage with
        | idle => exact absurd rfl hwaiting
        | requested | granted t => rfl
      · have hdirective : Directive.ofCode? stage.directive.code = some .proceed := by
          rw [← h.directive]
          exact hproceed
        obtain ⟨t, rfl⟩ := Stage.eq_granted_of_directive hdirective
        have hrunning : s.runningTask = t.record.task := congrArg TaskRecord.task (h.running t rfl)
        exact if_pos hrunning

theorem Sound.report (h : Sound i p stage) (id : Int64) (payload : Payload) (stamp : UInt64) :
    ∃ next, stage.walk? (p.act i (.report id payload stamp)).2 = some next ∧
      Sound i (p.act i (.report id payload stamp)).1 next := by
  obtain ⟨s, seat⟩ := p
  obtain ⟨m, hmode⟩ := h.mode
  match seat with
  | none => exact ⟨stage, rfl, h⟩
  | some ⟨r, some w⟩ => exact ⟨stage, rfl, h⟩
  | some ⟨r, none⟩ =>
    have hreporter : r.slot = i := h.reporter _ rfl
    obtain rfl := h.eq_idle rfl
    cases htask : s.task? id with
    | none =>
      simp only [act, Reporter.announce_of_unknown htask, settle]
      exact ⟨.idle, rfl, h⟩
    | some t =>
      have hannounce := r.announce_eq h.lock h.callLock hmode htask payload stamp
      simp only [act, hannounce]
      by_cases hwaits : (r.enforcing && m.entered.suspends) = true
      · simp only [hwaits, if_true, settle]
        exact ⟨.requested, rfl,
          .of_requested h.lock rfl (Mode.ofCode?_code m.entered) rfl hreporter⟩
      · simp only [hwaits, settle]
        refine ⟨.idle, rfl, ?_⟩
        by_cases hadvance : m.entered = .recordActive ∧ payload.kind = .schedule
        · rw [if_pos hadvance]
          exact .of_idle h.lock rfl (Mode.ofCode?_code m.entered) h.directive hreporter
        · rw [if_neg hadvance]
          exact .of_idle h.lock rfl (Mode.ofCode?_code m.entered) h.directive hreporter

/-- What a reporter does beside its reports leaves the words of the handshake alone. -/
theorem Sound.keep {s s' : Slot} {r r' : Reporter} (h : Sound i ⟨s, some ⟨r, none⟩⟩ stage)
    (hlock : s'.lock = s.lock) (hcall : s'.callLock = s.callLock)
    (hmode : ∃ m, s'.mode? = some m) (hdirective : s'.directiveWord = s.directiveWord)
    (hslot : r'.slot = r.slot) : Sound i ⟨s', some ⟨r', none⟩⟩ stage := by
  obtain ⟨m, hm⟩ := hmode
  have hidle := h.eq_idle rfl
  rw [hidle]
  refine .of_idle (hlock.trans h.lock) (hcall.trans h.callLock) hm ?_ (hslot.trans ?_)
  · rw [hdirective, h.directive, hidle]
    rfl
  · exact h.reporter _ rfl

/-- Every act leads from one stage to another along what becomes of the report. -/
theorem Sound.act (h : Sound i p stage) (a : Act) :
    ∃ next, stage.walk? (p.act i a).2 = some next ∧ Sound i (p.act i a).1 next := by
  cases a with
  | report id payload stamp => exact h.report id payload stamp
  | poll => exact h.poll
  | select m =>
    refine ⟨stage, rfl, ?_⟩
    obtain hsame | hmode := Slot.select_eq h.lock m
    · simp only [Station.act, hsame]
      exact h
    · simp only [Station.act, hmode]
      exact h.setMode m.mode
  | attach enforcing spinLimit =>
    obtain ⟨s, seat⟩ := p
    cases seat with
    | some seat => exact ⟨stage, rfl, h⟩
    | none =>
      obtain ⟨m, hmode⟩ := h.mode
      obtain rfl := h.eq_idle rfl
      exact ⟨.idle, rfl, .of_idle h.lock h.callLock hmode h.directive rfl⟩
  | detach =>
    obtain ⟨s, seat⟩ := p
    match seat with
    | none | some ⟨r, some w⟩ => exact ⟨stage, rfl, h⟩
    | some ⟨r, none⟩ =>
      obtain rfl := h.eq_idle rfl
      refine ⟨.idle, rfl, { h with reporter := ?_, phase := ?_ }⟩
      · rintro seat ⟨⟩
      · rintro r w ⟨⟩
  | spawn id site label =>
    obtain ⟨s, seat⟩ := p
    match seat with
    | none | some ⟨r, some w⟩ => exact ⟨stage, rfl, h⟩
    | some ⟨r, none⟩ => exact ⟨stage, rfl, h.keep rfl rfl h.mode rfl rfl⟩
  | setStatus id status =>
    obtain ⟨s, seat⟩ := p
    match seat with
    | none | some ⟨r, some w⟩ => exact ⟨stage, rfl, h⟩
    | some ⟨r, none⟩ =>
      cases htask : s.task? id with
      | none =>
        simp only [Station.act, Reporter.setStatus, htask, Noted.value_pure]
        exact ⟨stage, rfl, h⟩
      | some t =>
        simp only [Station.act, Reporter.setStatus, htask]
        exact ⟨stage, rfl, h.keep rfl rfl h.mode rfl rfl⟩
  | hit block =>
    obtain ⟨s, seat⟩ := p
    match seat with
    | none | some ⟨r, some w⟩ => exact ⟨stage, rfl, h⟩
    | some ⟨r, none⟩ =>
      cases hrow : r.rows[block]? with
      | some row =>
        simp only [Station.act, Reporter.reportBlock, hrow, Noted.value_pure]
        exact ⟨stage, rfl, h.keep rfl rfl h.mode rfl rfl⟩
      | none =>
        by_cases hroom : r.rows.size < Limits.blocks
        · simp only [Station.act, Reporter.reportBlock, hrow, hroom, if_true, Noted.value_pure]
          exact ⟨stage, rfl, h.keep rfl rfl h.mode rfl rfl⟩
        · simp only [Station.act, Reporter.reportBlock, hrow, hroom, if_false]
          exact ⟨stage, rfl, h.keep rfl rfl h.mode rfl rfl⟩
  | finish =>
    obtain ⟨s, seat⟩ := p
    match seat with
    | none | some ⟨r, some w⟩ => exact ⟨stage, rfl, h⟩
    | some ⟨r, none⟩ =>
      cases hfinish : s.finish with
      | error e =>
        simp only [Station.act, hfinish]
        exact ⟨stage, rfl, h⟩
      | ok s' =>
        simp only [Station.act, hfinish]
        obtain rfl := Slot.eq_setMode_of_finish hfinish
        exact ⟨stage, rfl, h.setMode .finished⟩

/-- Every step leads from one stage to another along what becomes of the report. -/
theorem Sound.step (h : Sound i p stage) {new : List Happening} {q : Station} {breakdown : Prop}
    (hstep : Step i p breakdown new q) :
    ∃ next, stage.walk? new = some next ∧ Sound i q next := by
  cases hstep with
  | still => exact ⟨stage, rfl, h⟩
  | act a => exact h.act a
  | endReplay => exact ⟨stage, rfl, h.setMode .replayEnded⟩
  | round hturn _ => exact h.turn hturn

/-- The directive word tells whether a report waits. -/
theorem Sound.directive?_eq (h : Sound i p stage) : p.slot.directive? = some stage.directive := by
  rw [Slot.directive?, h.directive, Directive.ofCode?_code]

theorem Sound.idle_iff (h : Sound i p stage) :
    p.slot.directive? = some .idle ↔ p.waits = false := by
  rw [h.directive?_eq, ← Bool.not_eq_true, h.waits]
  cases stage <;> simp [Stage.directive]

theorem Sound.raised_iff (h : Sound i p stage) :
    p.slot.directive? = some .requested ∨ p.slot.directive? = some .proceed ↔ p.waits = true := by
  rw [h.directive?_eq, h.waits]
  cases stage <;> simp [Stage.directive]

/-- Only a round grants. -/
theorem granted_notMem_act (a : Act) (t : Task) : .granted t ∉ (p.act i a).2 := by
  have hsettle (x : Reported) {paused : List Happening} (h : .granted t ∉ paused) :
      .granted t ∉ (settle x paused).2 := by
    unfold settle
    cases x.progress with
    | ended outcome => simp
    | paused w => exact h
  obtain ⟨s, seat⟩ := p
  match seat, a with
  | some ⟨r, none⟩, .report id payload stamp => exact hsettle _ (by simp)
  | some ⟨r, some w⟩, .poll => exact hsettle _ (by simp)
  | some ⟨r, none⟩, .setStatus id status =>
    simp only [act]
    cases (r.setStatus s id status).value <;> exact List.not_mem_nil
  | some ⟨r, none⟩, .finish =>
    simp only [act]
    cases s.finish <;> exact List.not_mem_nil
  | none, a => cases a <;> exact List.not_mem_nil
  | some ⟨r, none⟩, .attach _ _ | some ⟨r, none⟩, .detach | some ⟨r, none⟩, .spawn _ _ _
  | some ⟨r, none⟩, .hit _ | some ⟨r, none⟩, .poll | some ⟨r, none⟩, .select _ =>
    exact List.not_mem_nil
  | some ⟨r, some w⟩, .attach _ _ | some ⟨r, some w⟩, .detach | some ⟨r, some w⟩, .spawn _ _ _
  | some ⟨r, some w⟩, .setStatus _ _ | some ⟨r, some w⟩, .hit _ | some ⟨r, some w⟩, .finish
  | some ⟨r, some w⟩, .report _ _ _ | some ⟨r, some w⟩, .select _ => exact List.not_mem_nil

/-- While a report waits, no step adds to the log or changes a task, and only a grant changes the
task that is shown as the running one, be it one at which the round breaks down. -/
theorem Sound.kept (h : Sound i p stage) (hwaits : p.waits = true) {new : List Happening}
    {q : Station} {breakdown : Prop} (hstep : Step i p breakdown new q) :
    q.slot.log = p.slot.log ∧ q.slot.tasks = p.slot.tasks ∧
      (q.slot.running = p.slot.running ∨ ∃ t : Task, q.slot.running = t.record ∧
        (new = [.granted t] ∨ p.slot.canAdvance = false ∧ breakdown)) := by
  cases hstep with
  | still => exact ⟨rfl, rfl, .inl rfl⟩
  | endReplay => exact ⟨rfl, rfl, .inl rfl⟩
  | round hturn hsame =>
    cases hturn with
    | passed => exact ⟨rfl, rfl, .inl rfl⟩
    | granted t _ _ => exact ⟨rfl, rfl, .inr ⟨t, rfl, .inl rfl⟩⟩
    | broken t _ hlast =>
      obtain hslot | hbroken := hsame rfl
      · rw [hslot]
        exact ⟨rfl, rfl, .inl rfl⟩
      · exact ⟨rfl, rfl, .inr ⟨t, rfl, .inr ⟨hlast, hbroken⟩⟩⟩
  | act a =>
    obtain ⟨s, seat⟩ := p
    match seat with
    | none | some ⟨r, none⟩ => exact absurd hwaits (by simp [Station.waits])
    | some ⟨r, some ⟨phase, pace⟩⟩ =>
      cases a with
      | poll =>
        obtain rfl : phase = .polling := h.phase r ⟨phase, pace⟩ rfl
        simp only [Station.act, Reporter.resume_eq h.lock]
        cases s.answer? with
        | none => exact ⟨rfl, rfl, .inl rfl⟩
        | some a => exact ⟨rfl, rfl, .inl rfl⟩
      | select m =>
        obtain hsame | hmode := Slot.select_eq h.lock m
        · simp [Station.act, hsame]
        · simp only [Station.act, hmode]
          exact ⟨rfl, rfl, .inl rfl⟩
      | attach _ _ | detach | spawn _ _ _ | setStatus _ _ | hit _ | finish | report _ _ _ =>
        exact ⟨rfl, rfl, .inl rfl⟩

/-- A report waits if its reporter is enforcing and the mode does not let it go on. Otherwise it
ends at once. Either way it is refused if its task is unknown, and then nothing changes. -/
theorem Sound.at_once (h : Sound i p stage) {r : Reporter} (hseat : p.seat = some ⟨r, none⟩)
    {m : Mode} (hmode : p.slot.mode? = some m) (id : Int64) (payload : Payload) (stamp : UInt64) :
    let q := p.act i (.report id payload stamp)
    if p.slot.task? id = none then
      q.2 = [.ended (.error (.unknownTask id))] ∧ q.1 = p
    else if r.enforcing = false ∨ m = .recordActive ∨ m = .finished ∨ m = .replayEnded then
      q.2 = [.ended (.ok .carryOn)] ∧ q.1.waits = false ∧
        q.1.slot.directiveWord = p.slot.directiveWord
    else q.2 = [.suspended] ∧ q.1.waits = true := by
  obtain ⟨s, seat⟩ := p
  obtain rfl : seat = some ⟨r, none⟩ := hseat
  intro q
  by_cases htask : s.task? id = none
  · have hq : q = (⟨s, some ⟨r, none⟩⟩, [.ended (.error (.unknownTask id))]) := by
      simp only [q, Station.act, Reporter.announce_of_unknown htask, settle]
    rw [if_pos htask, hq]
    exact ⟨rfl, rfl⟩
  · obtain ⟨t, ht⟩ := Option.ne_none_iff_exists'.1 htask
    have hannounce := r.announce_eq h.lock h.callLock hmode ht payload stamp
    have hfree : (r.enforcing && m.entered.suspends) = false ↔
        r.enforcing = false ∨ m = .recordActive ∨ m = .finished ∨ m = .replayEnded := by
      cases r.enforcing <;> cases m <;> simp [Mode.entered, Mode.suspends]
    rw [if_neg htask]
    by_cases hends : (r.enforcing && m.entered.suspends) = false
    · rw [if_pos (hfree.1 hends)]
      simp only [q, Station.act, hannounce, hends, settle]
      refine ⟨rfl, rfl, ?_⟩
      by_cases hadvance : m.entered = .recordActive ∧ payload.kind = .schedule
      · rw [if_pos hadvance]
        rfl
      · rw [if_neg hadvance]
        rfl
    · rw [if_neg (fun hcase ↦ hends (hfree.2 hcase))]
      have hwaits : (r.enforcing && m.entered.suspends) = true := by simpa using hends
      simp only [q, Station.act, hannounce, hwaits, if_true, settle]
      exact ⟨trivial, rfl⟩

end Station

/-- After any moves every station is in the stage to which its history leads. -/
theorem Scene.sound_after (moves : List Move) (i : SlotIndex) :
    ∃ stage, Stage.idle.walk? (history moves i) = some stage ∧
      Station.Sound i ((after moves).station i) stage := by
  induction moves using List.reverseRecOn generalizing i with
  | nil =>
    refine ⟨.idle, rfl, ?_⟩
    change Station.Sound i (fresh.station i) .idle
    rw [station_fresh]
    exact .of_fresh i
  | append_singleton moves m ih =>
    have hlock : ∀ j, ((after moves).station j).slot.lock = 0 := by
      intro j
      obtain ⟨_, _, hsound⟩ := ih j
      exact hsound.lock
    obtain ⟨stage, hwalk, hsound⟩ := ih i
    obtain ⟨next, hnext, hafter⟩ := hsound.step (step_station hlock m i)
    refine ⟨next, ?_, ?_⟩
    · rw [history_concat, Stage.walk?_append, hwalk]
      exact hnext
    · rw [after_concat]
      exact hafter

/-- A task is granted by a round. -/
theorem Scene.granted_of_step {x : Scene} {m : Move} {i : SlotIndex} {u : Task}
    (h : .granted u ∈ atSlot i (x.step m).2) :
    ∃ (σ : Type) (policy : Policy σ) (state : σ), m = .round policy state ∧
      (i, u) ∈ (x.region.round policy state).value.summary.granted := by
  cases m with
  | endReplay => exact absurd h List.not_mem_nil
  | act j a =>
    unfold step at h
    by_cases hslot : j = i
    · subst hslot
      rw [atSlot_pairs_self] at h
      exact absurd h (Station.granted_notMem_act a u)
    · rw [atSlot_pairs_of_ne hslot] at h
      exact absurd h List.not_mem_nil
  | @round σ policy state =>
    refine ⟨σ, policy, state, rfl, ?_⟩
    unfold step at h
    rw [atSlot_map] at h
    obtain ⟨t, ht, hsame⟩ := List.mem_map.1 h
    obtain rfl := Happening.granted.inj hsame
    exact mem_of_mem_atSlot ht

/-- Any run of reporters and the scheduler from a fresh region, seen at one slot. The directive is
idle exactly when no report waits. A report that ends with a task was granted one by a round in that
same wait, and ends with what is read back of it. While a report waits, the log and the tasks stay
as they are, and only a grant of this slot changes the task that is shown as the running one: one of
the round, or one at the last epoch, at which the round breaks down. A report that does not have to
wait ends at once and leaves the directive as it is. -/
theorem Scene.handshake_safe (moves : List Move) (i : SlotIndex) :
    let x := after moves
    let p := x.station i
    ((p.slot.directive? = some .idle ↔ p.waits = false) ∧
      (p.slot.directive? = some .requested ∨ p.slot.directive? = some .proceed ↔
        p.waits = true)) ∧
    (∀ before t later, history moves i = before ++ .ended (.ok (.run t)) :: later →
      ∃ earlier u, before = earlier ++ [.suspended, .granted u] ∧ t = u.record.task) ∧
    (∀ m u, .granted u ∈ atSlot i (x.step m).2 →
      ∃ (σ : Type) (policy : Policy σ) (state : σ), m = .round policy state ∧
        (i, u) ∈ (x.region.round policy state).value.summary.granted) ∧
    (p.waits = true → ∀ m,
      let q := (x.step m).1.station i
      q.slot.log = p.slot.log ∧ q.slot.tasks = p.slot.tasks ∧
        (q.slot.running = p.slot.running ∨ ∃ t : Task, q.slot.running = t.record ∧
          (atSlot i (x.step m).2 = [.granted t] ∨
            p.slot.canAdvance = false ∧ x.BreaksDown m))) ∧
    (∀ r, p.seat = some ⟨r, none⟩ → ∀ id payload stamp,
      let y := x.step (.act i (.report id payload stamp))
      let q := y.1.station i
      ∃ m, p.slot.mode? = some m ∧
        if p.slot.task? id = none then
          atSlot i y.2 = [.ended (.error (.unknownTask id))] ∧ q = p
        else if r.enforcing = false ∨ m = .recordActive ∨ m = .finished ∨ m = .replayEnded then
          atSlot i y.2 = [.ended (.ok .carryOn)] ∧ q.waits = false ∧
            q.slot.directiveWord = p.slot.directiveWord
        else atSlot i y.2 = [.suspended] ∧ q.waits = true) := by
  intro x p
  obtain ⟨stage, hwalk, hsound⟩ := sound_after moves i
  have hlock : ∀ j, (x.station j).slot.lock = 0 := by
    intro j
    obtain ⟨_, _, hj⟩ := sound_after moves j
    exact hj.lock
  refine ⟨⟨hsound.idle_iff, hsound.raised_iff⟩, ?_, ?_, ?_, ?_⟩
  · intro before t later hpast
    rw [hpast] at hwalk
    exact Stage.granted_before_run hwalk
  · intro m u hgranted
    exact granted_of_step hgranted
  · intro hwaits m
    exact hsound.kept hwaits (step_station hlock m i)
  · intro r hseat id payload stamp y q
    obtain ⟨m, hmode⟩ := hsound.mode
    have hy : atSlot i y.2 = (p.act i (.report id payload stamp)).2 := atSlot_pairs_self i _
    have hq : q = (p.act i (.report id payload stamp)).1 := station_setStation_self x i _
    refine ⟨m, hmode, ?_⟩
    rw [hy, hq]
    exact hsound.at_once hseat hmode id payload stamp

end Turnstile
