import Turnstile.Proofs.FreeLocks
import Turnstile.Proofs.Inheritance

/-!
# What failures leave behind

A reporter may fail to move a task to a status, to report something and to finish. What fails looks
before it writes: an act that fails in its looks has changed nothing (`Session.Act.RefusesFrom`),
and after them nothing fails.

There is one exception. A report looks at the mode only when it has logged its event, counted itself
and shown its task. In a slot whose mode word is none of a mode it fails then, and a report that is
made again for that reason logs its event again (`Reporter.report_of_unknownMode`,
`Session.World.not_forall_failure_agrees`). That there is no other exception, also among reports
that were held up by a lock, is `Session.World.agrees_of_failure`.
-/

set_option autoImplicit false
set_option relaxedAutoImplicit false

namespace Turnstile

/-! ### Reports that fail -/

namespace Reporter

variable {r : Reporter} {s : Slot} {t : Task} {id : Int64} {payload : Payload} {stamp : UInt64}
  {kind : EventKind} {pace : Backoff} {e : Error}

theorem progress_poll_ne (r : Reporter) (s : Slot) (pace : Backoff) (e : Error) :
    (r.poll s pace).progress ≠ .ended (.error e) := by
  unfold poll
  split_ifs
  · rcases s.poll with ⟨s', _ | resume⟩ <;> simp
  · simp

theorem progress_request_ne (r : Reporter) (s : Slot) (pace : Backoff) (e : Error) :
    (r.request s pace).progress ≠ .ended (.error e) := by
  unfold request
  split_ifs <;> simp

/-- A poll turns nothing into a failure. -/
theorem polled_of_error {x : Reported} (h : x.polled.progress = .ended (.error e)) :
    x.polled = x := by
  unfold Reported.polled at h ⊢
  split at h
  · exact absurd h (progress_poll_ne _ _ _ e)
  · rfl

theorem proceed_of_unknownMode (hmode : s.mode? = none) :
    r.proceed s kind = ⟨r, s, .ended (.error (.unknownMode s.modeWord))⟩ := by
  simp only [proceed, Slot.enter, hmode]

/-- Once its task is shown, a report fails for nothing but its mode. -/
theorem mode?_of_proceed (h : (r.proceed s kind).progress = .ended (.error e)) :
    s.mode? = none := by
  cases hmode : s.mode? with
  | none => rfl
  | some m =>
    simp only [proceed, Slot.enter_eq hmode] at h
    split at h
    · exact absurd h (progress_request_ne _ _ _ e)
    · cases h

theorem publish_of_unknownMode (hmode : s.mode? = none) (hfree : s.isCallUnlocked) :
    r.publish s t kind pace =
      ⟨r, s.publish t, .ended (.error (.unknownMode s.modeWord))⟩ := by
  have hshown : (s.publish t).mode? = none := hmode
  rw [publish, if_pos hfree, proceed_of_unknownMode hshown]
  rfl

theorem mode?_of_publish (h : (r.publish s t kind pace).progress = .ended (.error e)) :
    s.mode? = none ∧ s.isCallUnlocked := by
  unfold publish at h
  split_ifs at h with hfree
  have hmode : (s.publish t).mode? = none := mode?_of_proceed h
  exact ⟨hmode, hfree⟩

/-- In a slot with an unknown mode, a report of a known task is logged, counted and shown before it
fails. -/
theorem report_of_unknownMode (htask : s.task? id = some t) (hmode : s.mode? = none)
    (hfree : s.isCallUnlocked) :
    r.report s id payload stamp = ⟨{ r with tally.reports := r.tally.reports + 1 },
      s.reported (r.event s t payload stamp), .ended (.error (.unknownMode s.modeWord))⟩ := by
  have hlogged : (s.record (r.event s t payload stamp)).mode? = none := hmode
  have hunlocked : (s.record (r.event s t payload stamp)).isCallUnlocked := hfree
  simp only [report, announce, htask]
  rw [publish_of_unknownMode hlogged hunlocked]
  rfl

/-- A report fails for its task, or for its mode. -/
theorem mode?_of_report (h : (r.report s id payload stamp).progress = .ended (.error e))
    (htask : s.task? id = some t) : s.mode? = none ∧ s.isCallUnlocked := by
  have hannounce : (r.announce s id payload stamp).progress = .ended (.error e) := by
    rw [← polled_of_error h]
    exact h
  simp only [announce, htask] at hannounce
  have hlogged : (s.record (r.event s t payload stamp)).mode? = none ∧
      (s.record (r.event s t payload stamp)).isCallUnlocked := mode?_of_publish hannounce
  exact hlogged

/-- The rest of a report fails only if it has yet to show its task. -/
theorem phase_of_resume {w : Wait} (h : (r.resume s w).progress = .ended (.error e)) :
    ∃ t kind, w.phase = .publishing t kind ∧ s.mode? = none ∧
      r.resume s w = ⟨r, s.publish t, .ended (.error (.unknownMode s.modeWord))⟩ := by
  unfold resume at h ⊢
  cases hphase : w.phase with
  | publishing t kind =>
    simp only [hphase] at h ⊢
    have hsame := polled_of_error h
    rw [hsame] at h ⊢
    obtain ⟨hmode, hfree⟩ := mode?_of_publish h
    exact ⟨t, kind, rfl, hmode, publish_of_unknownMode hmode hfree⟩
  | requesting =>
    simp only [hphase] at h
    have hrequest : (r.request s w.pace).progress = .ended (.error e) := by
      rw [← polled_of_error h]
      exact h
    exact absurd hrequest (progress_request_ne _ _ _ e)
  | polling =>
    simp only [hphase] at h
    exact absurd h (progress_poll_ne _ _ _ e)

end Reporter

namespace Session

/-! ### Acts that refuse -/

namespace Act

variable {α β : Type} {w next : World} {who : String} {place : Place} {r : Reporter}

/-- If an act fails, it has left the session as it was. -/
def RefusesFrom (w : World) (act : Act α) : Prop :=
  ∀ f next, (act.runIn w).value = (.error f, next) → next = w

theorem Reads.refusesFrom {act : Act α} (h : act.Reads) (w : World) : act.RefusesFrom w := by
  intro f next hrun
  exact (congrArg Prod.snd hrun).symm.trans (h w)

theorem refusesFrom_of_ok {act : Act α} {a : α} (h : (act.runIn w).value = (.ok a, next)) :
    act.RefusesFrom w := by
  intro f last hrun
  cases h.symm.trans hrun

/-- What follows an act that only looks may refuse as well. -/
theorem Reads.bind_refusesFrom {x : Act α} {f : α → Act β} (hx : x.Reads)
    (hf : ∀ a, (x.runIn w).value = (.ok a, w) → (f a).RefusesFrom w) :
    (x >>= f).RefusesFrom w := by
  intro e next hrun
  obtain ⟨a, hvalue⟩ | ⟨e', hvalue⟩ := x.run_cases w
  · rw [hx w] at hvalue
    exact hf a hvalue e next ((value_bind_of_ok hvalue f).symm.trans hrun)
  · rw [hx w] at hvalue
    cases (value_bind_of_error hvalue f).symm.trans hrun
    rfl

/-- An act fails as its first part does if the rest does not fail. -/
theorem error_of_bind {x : Act α} {g : α → Act β} {f : Failure}
    (hrest : ∀ a w, ∃ b, ((g a).runIn w).value.1 = .ok b)
    (h : ((x >>= g).runIn w).value = (.error f, next)) :
    (x.runIn w).value = (.error f, next) := by
  obtain ⟨a, hrun⟩ | ⟨f', hrun⟩ := x.run_cases w
  · obtain ⟨b, hb⟩ := hrest a (x.final w)
    rw [value_bind_of_ok hrun] at h
    rw [h] at hb
    cases hb
  · cases (value_bind_of_error hrun g).symm.trans h
    exact hrun

/-- Nor does such a rest keep an act from refusing. -/
theorem RefusesFrom.bind_of_ok {x : Act α} {g : α → Act β} (hx : x.RefusesFrom w)
    (hrest : ∀ a w, ∃ b, ((g a).runIn w).value.1 = .ok b) : (x >>= g).RefusesFrom w :=
  fun f next hrun ↦ hx f next (error_of_bind hrest hrun)

/-- An act of a reporter refuses if it does so once the agent is found. -/
theorem refusesFrom_agent_bind {f : Agent → Act α}
    (hagent : w.agents[who]? = some (.reporter r place))
    (hf : (f (.reporter r place)).RefusesFrom w) : (agent who >>= f).RefusesFrom w := by
  refine (reads_agent who).bind_refusesFrom fun a hfound ↦ ?_
  obtain rfl := Option.some.inj (hagent.symm.trans (agent_eq_ok hfound).2)
  exact hf

theorem refusesFrom_spawn (hagent : w.agents[who]? = some (.reporter r place)) (id : Int64)
    (site : UInt64) (label : String) : (spawn who id site label 1).RefusesFrom w := by
  refine refusesFrom_agent_bind hagent ((reads_pure _).bind_refusesFrom fun x hx ↦ ?_)
  cases hx
  exact refusesFrom_of_ok rfl

theorem refusesFrom_block (hagent : w.agents[who]? = some (.reporter r place)) (id : String) :
    (block who [id]).RefusesFrom w := by
  have hone : (blockOne who id).RefusesFrom w := by
    refine refusesFrom_agent_bind hagent ((reads_pure _).bind_refusesFrom fun x hx ↦ ?_)
    cases hx
    exact refusesFrom_of_ok rfl
  exact refusesFrom_agent_bind hagent (hone.bind_of_ok fun _ _ ↦ ⟨(), rfl⟩)

theorem refusesFrom_setStatus (hagent : w.agents[who]? = some (.reporter r place)) (task : Int64)
    (status : StatusWord) : (setStatus who task status).RefusesFrom w := by
  refine refusesFrom_agent_bind hagent ((reads_pure _).bind_refusesFrom fun x hx ↦ ?_)
  cases hx
  refine (reads_slotOf r place).bind_refusesFrom fun s _ ↦ ?_
  refine (reads_noted _).bind_refusesFrom fun moved _ ↦ ?_
  refine (reads_controlled _).bind_refusesFrom fun x _ ↦ ?_
  exact refusesFrom_of_ok rfl

theorem refusesFrom_finish (hagent : w.agents[who]? = some (.reporter r place)) :
    (finish who).RefusesFrom w := by
  refine refusesFrom_agent_bind hagent ((reads_pure _).bind_refusesFrom fun x hx ↦ ?_)
  cases hx
  refine (reads_slotOf r place).bind_refusesFrom fun s _ ↦ ?_
  cases s.finish with
  | ok s' => exact refusesFrom_of_ok rfl
  | error e =>
    cases e <;> exact (reads_throw _).refusesFrom w

/-- Whatever a reporter is used for but to report, it refuses before it has changed anything. -/
theorem refusesFrom_use (hagent : w.agents[who]? = some (.reporter r place)) {use : Use}
    (hother : ∀ task content, use ≠ .report task content) : (use.act who).RefusesFrom w := by
  cases use with
  | spawn id site label =>
    exact (refusesFrom_spawn hagent id site label).bind_of_ok fun _ _ ↦ ⟨(), rfl⟩
  | block id => exact refusesFrom_block hagent id
  | setStatus task status =>
    exact (refusesFrom_setStatus hagent task status).bind_of_ok fun _ _ ↦ ⟨(), rfl⟩
  | finish => exact refusesFrom_finish hagent
  | report task content => exact absurd rfl (hother task content)

/-! ### Errands that fail -/

/-- A piece of a report fails as the reporter has failed, and keeps what there is of it. -/
theorem settle_eq_error {e : Errand} {x : Reported} {f : Failure}
    (h : ((settle e place x).runIn w).value = (.error f, next)) :
    ∃ err, x.progress = .ended (.error err) ∧ f = .control err ∧
      next = (keep e.agent x.reporter place x.slot).final w := by
  obtain ⟨reporter, slot, progress⟩ := x
  match progress with
  | .paused wait => cases h
  | .ended (.ok resume) => cases h
  | .ended (.error err) =>
    cases h
    exact ⟨err, rfl, rfl, rfl⟩

theorem value_reportOnce (e : Errand) (w : World) (r : Reporter) (place : Place) :
    ((reportOnce e (.reporter r place)).runIn w).value =
      if (((w.region place).slot r.slot).task? e.task).isSome then
        ((settle e place (r.report ((w.region place).slot r.slot) e.task e.payload
          w.clock.read.value.1)).runIn { w with clock := w.clock.read.value.2 }).value
      else ((settle e place (r.report ((w.region place).slot r.slot) e.task e.payload 0)).runIn
        w).value := by
  have hreporter : ((reporter? e.agent (.reporter r place)).runIn w).value =
      (.ok (some (r, place)), w) := rfl
  rw [reportOnce, value_bind_of_ok hreporter]
  dsimp only
  rw [value_bind_of_ok (value_get w)]
  split_ifs <;> rfl

/-- A report that is not vital fails as it is. -/
theorem attempt_eq_error {e : Errand} {report : Act (Resume ⊕ Wait)} {f : Failure}
    (hvital : e.vital = false) (h : ((attempt e report).runIn w).value = (.error f, next)) :
    (report.runIn w).value = (.error f, next) := by
  obtain ⟨result, hrun⟩ | ⟨f', hrun⟩ := report.run_cases w
  · rw [attempt, value_bind_of_ok (value_outcome hrun)] at h
    cases result <;> cases h
  · cases (value_attempt_of_error hvital hrun).symm.trans h
    exact hrun

/-- A single report fails as its only part does. -/
theorem makeReports_eq_error {e : Errand} {a : Agent} {f : Failure}
    (hagent : w.agents[e.agent]? = some a) (hvital : e.vital = false)
    (h : ((makeReports e 1).runIn w).value = (.error f, next)) :
    ((reportOnce e a).runIn w).value = (.error f, next) := by
  have hfound : ((needed w.agents[e.agent]?).runIn w).value = (.ok a, w) := by
    rw [hagent]
    rfl
  rw [makeReports, value_bind_of_ok (value_get w), value_bind_of_ok hfound] at h
  refine attempt_eq_error hvital (error_of_bind ?_ h)
  rintro ((resume | _) | wait) w <;> exact ⟨_, rfl⟩

/-- So does the rest of a report that waited. -/
theorem resumeErrand_eq_error {p : Pause} {f : Failure}
    (hagent : w.agents[p.errand.agent]? = some (.reporter r place))
    (hvital : p.errand.vital = false) (hleft : p.errand.left = 0)
    (h : ((resumeErrand p).runIn w).value = (.error f, next)) :
    ((settle p.errand place (r.resume ((w.region place).slot r.slot) p.wait)).runIn w).value =
      (.error f, next) := by
  have hfound : ((needed w.agents[p.errand.agent]?).runIn w).value =
      (.ok (.reporter r place), w) := by
    rw [hagent]
    rfl
  rw [resumeErrand, value_bind_of_ok (value_get w), value_bind_of_ok hfound] at h
  have hrest := attempt_eq_error hvital (error_of_bind (fun result w ↦ ?_) h)
  · have hreporter : ((reporter? p.errand.agent (.reporter r place)).runIn w).value =
        (.ok (some (r, place)), w) := rfl
    rw [value_bind_of_ok hreporter] at hrest
    dsimp only at hrest
    rwa [value_bind_of_ok (value_get w)] at hrest
  · match result with
    | .inr wait => exact ⟨_, rfl⟩
    | .inl .aborted => exact ⟨_, rfl⟩
    | .inl (.resumed resume) =>
      simp only [hleft, if_true]
      exact ⟨_, rfl⟩

end Act

/-! ### What a failure leaves as it was -/

namespace World

variable {w : World} {who : String} {r : Reporter} {place : Place}

/-- Every region and every agent of two sessions is the same, and so is all that holds neither. -/
structure Agrees (w next : World) : Prop where
  regions (place : Place) : next.region place = w.region place
  agents (who : String) : next.agents[who]? = w.agents[who]?
  rest : { next with memory := w.memory, disk := w.disk, agents := w.agents } = w

theorem agrees_refl (w : World) : w.Agrees w := ⟨fun _ ↦ rfl, fun _ ↦ rfl, rfl⟩

/-- The agents once one of them has been kept. -/
theorem agents_keep (hagent : w.agents[who]? = some (.reporter r place)) (next : Reporter)
    (s : Slot) (other : String) : ((Act.keep who next place s).final w).agents[other]? =
      if who = other then some (.reporter next place) else w.agents[other]? := by
  have hset : (w.setRegion ((w.region place).setSlot next.slot s) place).agents = w.agents := by
    cases place with
    | memory => rfl
    | file name =>
      unfold setRegion
      cases w.disk <;> rfl
  -- what is kept of a probe does not matter here
  obtain ⟨f, hagents, hreporter⟩ : ∃ f,
      ((Act.keep who next place s).final w).agents = w.agents.modify who f ∧
        ∀ r place, f (.reporter r place) = .reporter next place :=
    ⟨_, congrArg (Std.TreeMap.modify · who _) hset, fun _ _ ↦ rfl⟩
  rw [hagents]
  by_cases hother : who = other
  · subst hother
    rw [Std.TreeMap.getElem?_modify_self, hagent, if_pos rfl, Option.map_some, hreporter]
  · rw [if_neg hother]
    simp [Std.TreeMap.getElem?_modify, hother]

/-- To keep a reporter and its slot as they are changes nothing. -/
theorem agrees_keep_self (hagent : w.agents[who]? = some (.reporter r place)) :
    w.Agrees ((Act.keep who r place ((w.region place).slot r.slot)).final w) := by
  constructor
  · intro other
    have hregion : ((Act.keep who r place ((w.region place).slot r.slot)).final w).region other =
        (w.setRegion ((w.region place).setSlot r.slot ((w.region place).slot r.slot))
          place).region other := by
      cases other <;> rfl
    rw [hregion, Region.setSlot_slot, region_setRegion]
    split_ifs with hplace
    · rw [hplace.1]
    · rfl
  · intro other
    rw [agents_keep hagent]
    split_ifs with hother
    · rw [← hother, hagent]
    · rfl
  · cases place with
    | memory => rfl
    | file name =>
      change { (w.setRegion _ (.file name)) with
        memory := w.memory, disk := w.disk, agents := w.agents } = w
      unfold setRegion
      cases hdisk : w.disk <;> simp [← hdisk]

end World

namespace Act

variable {w next : World} {who : String} {place : Place} {r : Reporter}

/-- A reporter whose report waits is asked in vain. -/
theorem report_of_busy {task : Int64} {content : Content} {f : Failure}
    (hagent : w.agents[who]? = some (.reporter r place)) (hbusy : w.isBusy who = true)
    (h : (((Use.report task content).act who).runIn w).value = (.error f, next)) : next = w := by
  have hrefused : ((agent who).runIn w).value = (.error .busy, w) := by
    rw [value_agent_eq, hagent, hbusy]
    rfl
  have hreport : ((report who task content 1 false).runIn w).value = (.error .busy, w) :=
    value_bind_of_error hrefused _
  cases (value_bind_of_error hreport _).symm.trans h
  rfl

/-- A report of a free reporter fails as its only part does. -/
theorem report_eq_error {task : Int64} {content : Content} {f : Failure}
    (hagent : w.agents[who]? = some (.reporter r place)) (hfree : w.isBusy who = false)
    (h : (((Use.report task content).act who).runIn w).value = (.error f, next)) :
    ((reportOnce ⟨who, task, content.toPayload.value, content.traffic?, false, 0⟩
      (.reporter r place)).runIn w).value = (.error f, next) := by
  let e : Errand := ⟨who, task, content.toPayload.value, content.traffic?, false, 0⟩
  have hpayload : ((noted content.toPayload).runIn w).value = (.ok content.toPayload.value, w) :=
    rfl
  have hreport : ((report who task content 1 false).runIn w).value =
      ((outcome (makeReports e 1) >>= answer).runIn w).value := by
    rw [report, value_bind_of_ok hpayload, value_bind_of_ok (value_agent hagent hfree)]
    rfl
  refine makeReports_eq_error hagent rfl ?_
  obtain ⟨result, hmade⟩ | ⟨f', hmade⟩ := (makeReports e 1).run_cases w
  · rw [value_bind_of_ok (value_outcome hmade)] at hreport
    cases result <;> cases (value_bind_of_ok hreport _).symm.trans h
  · rw [value_bind_of_ok (value_outcome hmade)] at hreport
    cases (value_bind_of_ok hreport _).symm.trans h
    exact hmade

end Act

/-! ### Failures -/

namespace World

variable {w next : World} {who : String} {r : Reporter} {place : Place} {task : Int64}
  {content : Content} {f : Failure}

/-- A report of an unknown task fails and changes nothing. -/
theorem agrees_of_unknownTask (hagent : w.agents[who]? = some (.reporter r place))
    (hfree : w.isBusy who = false) (htask : ((w.region place).slot r.slot).task? task = none)
    (h : (((Use.report task content).act who).runIn w).value = (.error f, next)) :
    w.Agrees next := by
  have honce := Act.report_eq_error hagent hfree h
  rw [Act.value_reportOnce, if_neg (by simp [htask])] at honce
  obtain ⟨err, -, -, rfl⟩ := Act.settle_eq_error honce
  have hrefused : r.report ((w.region place).slot r.slot) task content.toPayload.value 0 =
      ⟨r, (w.region place).slot r.slot, .ended (.error (.unknownTask task))⟩ := by
    rw [Reporter.report, Reporter.announce_of_unknown htask]
    rfl
  rw [hrefused]
  exact agrees_keep_self hagent

/-- A report of a known task fails for the mode only, and not before it is logged and counted. -/
theorem logged_of_failure (hagent : w.agents[who]? = some (.reporter r place))
    (hfree : w.isBusy who = false) {t : Task}
    (htask : ((w.region place).slot r.slot).task? task = some t)
    (h : (((Use.report task content).act who).runIn w).value = (.error f, next)) :
    let s := (w.region place).slot r.slot
    s.mode? = none ∧ f = .control (.unknownMode s.modeWord) ∧
      next = (Act.keep who { r with tally.reports := r.tally.reports + 1 } place
        (s.reported (r.event s t content.toPayload.value w.clock.read.value.1))).final
          { w with clock := w.clock.read.value.2 } := by
  intro s
  have honce := Act.report_eq_error hagent hfree h
  rw [Act.value_reportOnce, if_pos (by simp [htask])] at honce
  obtain ⟨err, hprogress, rfl, rfl⟩ := Act.settle_eq_error honce
  obtain ⟨hmode, hunlocked⟩ := Reporter.mode?_of_report hprogress htask
  have hlogged : r.report s task content.toPayload.value w.clock.read.value.1 = _ :=
    Reporter.report_of_unknownMode htask hmode hunlocked
  rw [hlogged] at hprogress ⊢
  cases hprogress
  exact ⟨hmode, rfl, rfl⟩

/-- What a reporter is used for and fails to do is left undone, but for one thing: a report of a
known task, in a slot whose mode word is none of a mode, fails once its event is logged, its task is
shown and the report is counted. The rest of a report that a lock had held up fails for the same
reason only, once its task is shown. An exchange of the mode writes nothing if somebody else has
written another mode since the look before it. -/
theorem agrees_of_failure (hagent : w.agents[who]? = some (.reporter r place)) :
    let s := (w.region place).slot r.slot
    (∀ (use : Use) (f : Failure) (next : World),
      ((use.act who).runIn w).value = (.error f, next) → w.Agrees next ∨
        ∃ task content t, use = .report task content ∧ s.task? task = some t ∧ s.mode? = none ∧
          f = .control (.unknownMode s.modeWord) ∧
          next = (Act.keep who { r with tally.reports := r.tally.reports + 1 } place
            (s.reported (r.event s t content.toPayload.value w.clock.read.value.1))).final
              { w with clock := w.clock.read.value.2 }) ∧
    (∀ (p : Pause) (f : Failure) (next : World), p.errand.agent = who →
      p.errand.vital = false → p.errand.left = 0 →
      ((Act.resumeErrand p).runIn w).value = (.error f, next) →
        ∃ t kind, p.wait.phase = .publishing t kind ∧ s.mode? = none ∧
          f = .control (.unknownMode s.modeWord) ∧
          next = (Act.keep who r place (s.publish t)).final w) ∧
    ∀ x : Exchange, s.mode? ≠ some x.old → s.exchange x = s := by
  intro s
  refine ⟨?_, ?_, fun x hlost ↦ if_neg hlost⟩
  · intro use f next hfails
    cases use with
    | spawn | block | setStatus | finish =>
      left
      rw [Act.refusesFrom_use hagent (by simp) f next hfails]
      exact w.agrees_refl
    | report task content =>
      cases hbusy : w.isBusy who with
      | true =>
        rw [Act.report_of_busy hagent hbusy hfails]
        exact .inl w.agrees_refl
      | false =>
        cases htask : s.task? task with
        | none => exact .inl (agrees_of_unknownTask hagent hbusy htask hfails)
        | some t =>
          obtain ⟨hmode, hf, hnext⟩ := logged_of_failure hagent hbusy htask hfails
          exact .inr ⟨task, content, t, rfl, htask, hmode, hf, hnext⟩
  · rintro p f next rfl hvital hleft hfails
    obtain ⟨err, hprogress, rfl, rfl⟩ :=
      Act.settle_eq_error (Act.resumeErrand_eq_error hagent hvital hleft hfails)
    obtain ⟨t, kind, hphase, hmode, hrest⟩ := Reporter.phase_of_resume hprogress
    rw [hrest] at hprogress ⊢
    cases hprogress
    exact ⟨t, kind, hphase, hmode, rfl, rfl⟩

/-- A reporter has spawned a task in its slot, and something has overwritten the mode word there. -/
def struck (i : SlotIndex) : World :=
  let x := ((Reporter.attach i .fresh true 16).spawn .fresh 1 0x100 "main.main").value
  { overMemory with
    memory := Region.fresh.setSlot i { x.2.1 with modeWord := 77 }
    agents := overMemory.agents.insert "p" (.reporter x.1 .memory) }

/-- That reporter. -/
def struckReporter (i : SlotIndex) : Reporter :=
  ((Reporter.attach i .fresh true 16).spawn .fresh 1 0x100 "main.main").value.1

theorem agents_struck (i : SlotIndex) :
    (struck i).agents["p"]? = some (.reporter (struckReporter i) .memory) := by
  simp [struck, struckReporter]

/-- Whether an act fails. -/
def fails {α : Type} (w : World) (x : Act α) : Bool :=
  match (x.runIn w).value.1 with
  | .error _ => true
  | .ok _ => false

theorem exists_of_fails {α : Type} {x : Act α} (h : w.fails x) :
    ∃ f, (x.runIn w).value = (.error f, x.final w) := by
  obtain ⟨a, hrun⟩ | ⟨f, hrun⟩ := x.run_cases w
  · simp [fails, hrun] at h
  · exact ⟨f, hrun⟩

/-- The program cannot finish there, and asking for it changes nothing. A report fails once it is
logged, and the rest of one that a lock had held up fails once its task is shown. -/
theorem agrees_of_failure_struck :
    let w := struck 0
    let r := struckReporter 0
    let s := w.memory.slot 0
    let shown := Task.spawned 1 0x100 0 "main.main"
    let paused : Pause :=
      ⟨⟨"p", 1, .schedule, none, false, 0⟩, ⟨.publishing shown .schedule, .start 16⟩⟩
    w.agents["p"]? = some (.reporter r .memory) ∧
      (∃ f next, ((Use.finish.act "p").runIn w).value = (.error f, next) ∧ w.Agrees next) ∧
      (∃ t next, s.task? 1 = some t ∧ (((Use.report 1 .schedule).act "p").runIn w).value =
          (.error (.control (.unknownMode 77)), next) ∧
        next = (Act.keep "p" { r with tally.reports := r.tally.reports + 1 } .memory
          (s.reported (r.event s t .schedule w.clock.read.value.1))).final
            { w with clock := w.clock.read.value.2 }) ∧
      ∃ next, ((Act.resumeErrand paused).runIn w).value =
          (.error (.control (.unknownMode 77)), next) ∧
        next = (Act.keep "p" r .memory (s.publish shown)).final w := by
  intro w r s shown paused
  have hagent : w.agents["p"]? = some (.reporter r .memory) := agents_struck 0
  have hword : ((w.region .memory).slot r.slot).modeWord = 77 := by decide +kernel
  obtain ⟨huses, hrest, -⟩ := agrees_of_failure hagent
  rw [hword] at huses hrest
  refine ⟨hagent, ?_, ?_, ?_⟩
  · obtain ⟨f, hfails⟩ := exists_of_fails (x := Use.finish.act "p")
      (show w.fails _ by decide +kernel)
    obtain hsame | ⟨_, _, _, hreport, -⟩ := huses .finish f _ hfails
    · exact ⟨f, _, hfails, hsame⟩
    · cases hreport
  · obtain ⟨f, hfails⟩ := exists_of_fails (x := (Use.report 1 .schedule).act "p")
      (show w.fails _ by decide +kernel)
    obtain hsame | ⟨task, content, t, huse, ht, -, rfl, hnext⟩ :=
      huses (.report 1 .schedule) f _ hfails
    · -- the event of the report is in the log
      have hlogged : (((((Use.report 1 .schedule).act "p").final w).region .memory).slot
          0).log.cursor = 1 := by decide +kernel
      have hempty : ((w.region .memory).slot 0).log.cursor = 0 := by decide +kernel
      rw [hsame.regions, hempty] at hlogged
      exact absurd hlogged (by decide)
    · obtain ⟨rfl, rfl⟩ := Use.report.inj huse
      exact ⟨t, _, ht, hfails, hnext⟩
  · obtain ⟨f, hfails⟩ := exists_of_fails (x := Act.resumeErrand paused)
      (show w.fails _ by decide +kernel)
    obtain ⟨t, kind, hphase, -, rfl, hnext⟩ := hrest paused f _ rfl rfl rfl hfails
    obtain ⟨rfl, rfl⟩ := Phase.publishing.inj hphase
    exact ⟨_, hfails, hnext⟩

/-- A report that fails there has been counted. -/
theorem not_forall_failure_agrees :
    ¬ ∀ (w : World) (who : String) (r : Reporter) (place : Place) (use : Use) (f : Failure)
      (next : World), w.agents[who]? = some (.reporter r place) →
      ((use.act who).runIn w).value = (.error f, next) → w.Agrees next := by
  intro hall
  let r := struckReporter 0
  have hagent : (struck 0).agents["p"]? = some (.reporter r .memory) := agents_struck 0
  have hsome : ((((struck 0).region .memory).slot r.slot).task? 1).isSome = true := by
    decide +kernel
  obtain ⟨t, htask⟩ := Option.isSome_iff_exists.1 hsome
  obtain ⟨f, hfails⟩ := exists_of_fails (x := (Use.report 1 .schedule).act "p")
    (show (struck 0).fails _ by decide +kernel)
  have hsame := (hall (struck 0) "p" r .memory _ f _ hagent hfails).agents "p"
  obtain ⟨-, -, hnext⟩ := logged_of_failure hagent rfl htask hfails
  have hstruck : World.agents { struck 0 with clock := (struck 0).clock.read.value.2 } =
      (struck 0).agents := rfl
  rw [hnext, agents_keep (hstruck.symm ▸ hagent), if_pos rfl, hagent] at hsame
  obtain ⟨hreporter, -⟩ := Agent.reporter.inj (Option.some.inj hsame)
  have hcount : r.tally.reports + 1 = r.tally.reports := congrArg (·.tally.reports) hreporter
  simp at hcount

end World

end Session

end Turnstile
