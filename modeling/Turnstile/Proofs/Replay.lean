import Turnstile.Proofs.Choices
import Turnstile.Proofs.Recording

/-!
# What a replay keeps

A `ReplayRun` is a play in which every slot replays, under rounds of one strict replayer. The
replayer grants the slot that owns the next recorded event, and takes that event. So it is right if
that slot waits with the report that the event came from, and that is what `ReplayRun.Sound` says: a
slot has been granted as often as it owns one of the events taken, and the report with which it
waits is the next one of its program. Since the recording is a `Chronicle` of the same programs, the
next event of the slot tells the same task (`Chronicle.next_report`), and the replayer finds that
task in the table or, failing that, takes it for the reporter itself.

All moves keep this (`ReplayRun.Sound.run`), a round turn by turn (`ReplayRun.Sound.turn`).
-/

set_option autoImplicit false
set_option relaxedAutoImplicit false

namespace Turnstile

/-! ### What a strict replayer chooses -/

namespace Replayer

variable {r : Replayer} {i : SlotIndex}

/-- A slot waits that does not own the next event. -/
theorem choose_of_other (hstrict : r.strict = true)
    (hnext : ∀ e, r.cursor.items.head? = some e → e.slot.toNat ≠ i.val) (s : Slot) :
    (r.choose i s).value = (r, .wait) := by
  refine choose_of_none ?_ s
  rw [next?, if_pos hstrict]
  refine Option.filter_eq_none_iff.2 fun e he howned ↦ ?_
  exact hnext e he (of_decide_eq_true howned)

/-- The slot that owns the next event is granted its task, if that is the one that reported. -/
theorem choose_of_own (hstrict : r.strict = true) {e : Event} {rest : List Event}
    (hitems : r.cursor.items = e :: rest) (hslot : e.slot.toNat = i.val) {s : Slot}
    (hidentity : s.runningTask.identity = e.task.identity) :
    (r.choose i s).value =
      ({ r with cursor := ⟨rest, r.cursor.consumed + 1⟩ },
        .grant ((s.findTask? e.task.site e.task.ordinal).getD s.runningTask)) := by
  have hnext : r.next? i = some e := by
    rw [next?, if_pos hstrict, hitems, List.head?_cons]
    exact Option.filter_some_pos (decide_eq_true hslot)
  have hsame : e.isDesync s = false := by simp [Event.isDesync, hidentity]
  rw [choose_of_some hnext]
  simp [served, Replayer.rest, Event.answer, hstrict, hitems, hsame]

end Replayer

/-! ### What is left of a recording -/

/-- The place of an entry among those with a property. -/
theorem getElem?_filter_countP {α : Type} (p : α → Bool) {l : List α} {n : Nat} {a : α}
    (h : l[n]? = some a) (ha : p a = true) :
    (l.filter p)[(l.take n).countP p]? = some a := by
  have hsplit : l = l.take n ++ a :: l.drop (n + 1) := by
    obtain ⟨hn, rfl⟩ := List.getElem?_eq_some_iff.1 h
    rw [List.getElem_cons_drop, List.take_append_drop]
  have hfilter : l.filter p = (l.take n).filter p ++ a :: (l.drop (n + 1)).filter p := by
    conv_lhs => rw [hsplit, List.filter_append, List.filter_cons_of_pos ha]
  rw [hfilter, List.countP_eq_length_filter, List.getElem?_append_right (Nat.le_refl _),
    Nat.sub_self]
  rfl

namespace Chronicle

variable {programs : SlotIndex → Program} {events : List Event}

/-- The next event of a slot tells the next report of its program. -/
theorem next_report (h : Chronicle programs events) {i : SlotIndex} {n : Nat} {e : Event}
    (he : events[n]? = some e) (hslot : e.slot.toNat = i.val) {reports : List Announcement}
    (hreports : reports <+: (programs i).ledger.reports) {a : Announcement}
    (ha : reports[(events.take n).countP (·.slot.toNat = i.val)]? = some a) :
    a.origin.identity = e.task.identity := by
  obtain ⟨hlt, rfl⟩ := List.getElem?_eq_some_iff.1 ha
  have hown := getElem?_filter_countP (fun e : Event ↦ decide (e.slot.toNat = i.val)) he
    (decide_eq_true hslot)
  obtain ⟨hcount, hevent⟩ := List.getElem?_eq_some_iff.1 hown
  have hread := (h.reports i).getElem (i := (events.take n).countP (·.slot.toNat = i.val))
    (by simpa using hcount)
  rw [List.getElem_map, List.getElem_map, hevent] at hread
  rw [hread]
  exact congrArg Announcement.origin (hreports.getElem hlt) ▸ rfl

/-- A slot owns fewer events than an epoch counts. -/
theorem countP_lt (h : Chronicle programs events) (i : SlotIndex) (n : Nat) :
    (events.take n).countP (·.slot.toNat = i.val) < 2 ^ 63 := by
  have hle : (events.take n).countP (·.slot.toNat = i.val) ≤
      events.countP (·.slot.toNat = i.val) := (List.take_sublist n events).countP_le
  have hfew := h.few i
  rw [← List.countP_eq_length_filter] at hfew
  omega

end Chronicle

/-! ### One slot -/

namespace Happening

def isGrant : Happening → Bool
  | .granted _ => true
  | _ => false

/-- How a report ended. -/
def outcome? : Happening → Option (Except Error Resume)
  | .ended outcome => some outcome
  | _ => none

end Happening

/-- A poll ends a report that was granted, and no other. -/
def Stage.polled : Stage → Stage
  | .granted _ => .idle
  | stage => stage

/-- How a report ends under a faithful replay: with the task that reported. -/
def Announcement.answer (a : Announcement) (id : Nat → Int64) : Except Error Resume :=
  .ok (.run (a.reporter (id a.task)).record.task)

namespace Part

variable {script : Script} {i : SlotIndex} {p : Part} {stage : Stage}

/-- How many grants the slot has had. -/
def grants (p : Part) : Nat := p.past.countP Happening.isGrant

/-- How its reports ended. -/
def outcomes (p : Part) : List (Except Error Resume) := p.past.filterMap Happening.outcome?

/-- How the reports of a part stand: without a waiting report all of them have been granted and have
ended, and otherwise the last one still has to be. -/
def Level (script : Script) (p : Part) : Stage → Prop
  | .idle => p.grants = (p.reports script).length ∧ p.outcomes.length = (p.reports script).length
  | .requested => ∃ earlier a, p.reports script = earlier ++ [a] ∧ p.grants = earlier.length ∧
      p.outcomes.length = earlier.length ∧
      (script.program.ledgerAt p.done).origins[a.task]? = some a.origin ∧
      p.station.slot.running = (a.reporter (script.id a.task)).record ∧
      p.station.slot.taskRecord (script.id a.task) = (a.reporter (script.id a.task)).record
  | .granted t => ∃ earlier a, p.reports script = earlier ++ [a] ∧
      p.grants = earlier.length + 1 ∧ p.outcomes.length = earlier.length ∧
      t.record.task = (a.reporter (script.id a.task)).record.task

/-- A part that replays. -/
structure Replayed (script : Script) (i : SlotIndex) (p : Part) (stage : Stage) : Prop where
  sound : p.station.Sound i stage
  mode : p.station.slot.mode? = some .replayActive
  kept : ∃ r w, p.station.seat = some ⟨r, w⟩ ∧ r.enforcing = true ∧
    script.Kept (script.program.ledgerAt p.done) r.spawned p.station.slot.tasks
  epoch : p.station.slot.epoch.toNat = p.grants
  level : p.Level script stage
  outcomes_eq : p.outcomes =
    ((p.reports script).take p.outcomes.length).map (·.answer script.id)

theorem Replayed.eq_idle (h : p.Replayed script i stage) {r : Reporter}
    (hseat : p.station.seat = some ⟨r, none⟩) : stage = .idle := by
  apply h.sound.eq_idle
  simp [Station.waits, hseat]

/-- A spawn leaves the reports as they are. -/
theorem Replayed.spawn (h : p.Replayed script i stage) {r : Reporter}
    (hseat : p.station.seat = some ⟨r, none⟩) (henforcing : r.enforcing = true)
    (hkept : script.Kept (script.program.ledgerAt p.done) r.spawned p.station.slot.tasks)
    {site : UInt64} {label : String}
    (hstep : script.program[p.done]? = some (.spawn site label)) :
    let id := script.id (script.program.ledgerAt p.done).origins.length
    let ordinal := r.spawned.getD site 0
    Replayed script i ⟨⟨p.station.slot.setTaskRecord id (Task.spawned id site ordinal label).record,
      some ⟨{ r with spawned := r.spawned.insert site (ordinal + 1) }, none⟩⟩,
      p.done + 1, p.past⟩ .idle := by
  intro id ordinal
  obtain rfl := h.eq_idle hseat
  have hreporter : r.slot = i := h.sound.reporter _ hseat
  have hreports : (script.program.ledgerAt (p.done + 1)).reports = p.reports script := by
    rw [Program.ledgerAt_succ hstep]
    rfl
  refine ⟨.of_idle h.sound.lock h.sound.callLock h.mode h.sound.directive hreporter, h.mode,
    ⟨_, none, rfl, henforcing, hkept.spawn hstep⟩, h.epoch, ?_, ?_⟩
  · obtain ⟨hgrants, houtcomes⟩ := h.level
    unfold Level reports
    rw [hreports]
    exact ⟨hgrants, houtcomes⟩
  · have hanswers := h.outcomes_eq
    unfold reports
    rw [hreports]
    exact hanswers

/-- A report waits, with its task shown as the running one. -/
theorem Replayed.report (h : p.Replayed script i stage) {r : Reporter}
    (hseat : p.station.seat = some ⟨r, none⟩) (henforcing : r.enforcing = true)
    (hkept : script.Kept (script.program.ledgerAt p.done) r.spawned p.station.slot.tasks)
    {k : Nat} {payload : Payload} (hstep : script.program[p.done]? = some (.report k payload))
    (stamp : UInt64) :
    let settled := Station.settle (r.announce p.station.slot (script.id k) payload stamp)
      [.suspended]
    Replayed script i ⟨settled.1, p.done + 1, p.past ++ settled.2⟩ .requested := by
  intro settled
  obtain rfl := h.eq_idle hseat
  have hreporter : r.slot = i := h.sound.reporter _ hseat
  obtain ⟨o, ho, hannounce⟩ := hkept.announce hstep h.sound.lock h.sound.callLock h.mode stamp
  have hwaits : (r.enforcing && Mode.replayActive.entered.suspends) = true := by
    simp [henforcing, Mode.entered, Mode.suspends]
  simp only [hwaits, if_true] at hannounce
  set a : Announcement := ⟨k, o, payload⟩ with ha
  set shown := (p.station.slot.reported (a.event r.slot (script.id k) p.station.slot.epoch
    stamp)).setMode Mode.replayActive.entered with hshown
  have hsettled : settled = (⟨shown.setDirective .requested,
      some ⟨{ r with
        tally.reports := r.tally.reports + 1, tally.suspensions := r.tally.suspensions + 1 },
        some ⟨.polling, .start r.spinLimit⟩⟩⟩, [.suspended]) := by
    simp only [settled, hannounce, Station.settle]
  have htasks : shown.tasks = p.station.slot.tasks.set (Slot.taskIndex (script.id k))
      (a.reporter (script.id k)).record := rfl
  have hledger : script.program.ledgerAt (p.done + 1) =
      { script.program.ledgerAt p.done with reports := p.reports script ++ [a] } :=
    Program.ledgerAt_report hstep ho
  obtain ⟨hgrants, houtcomes⟩ := h.level
  rw [hsettled]
  refine ⟨?_, Mode.ofCode?_code .replayActive, ⟨_, _, rfl, henforcing, ?_⟩, ?_, ?_, ?_⟩
  · exact .of_requested h.sound.lock rfl (Mode.ofCode?_code .replayActive) rfl hreporter
  · have hreport := hkept.report hstep ho
    rw [← ha, ← htasks] at hreport
    exact hreport
  · rw [grants, List.countP_append]
    exact h.epoch
  · refine ⟨p.reports script, a, by rw [reports, hledger], ?_, ?_, ?_, rfl, ?_⟩
    · rw [grants, List.countP_append]
      exact hgrants
    · rw [outcomes, List.filterMap_append, List.length_append]
      exact houtcomes
    · rw [hledger]
      exact ho
    · exact get_set_self p.station.slot.tasks (Slot.taskIndex (script.id k)) _
  · have hpast : (p.past ++ [Happening.suspended]).filterMap Happening.outcome? = p.outcomes := by
      rw [List.filterMap_append]
      exact List.append_nil _
    rw [outcomes, reports, hledger, hpast, List.take_append_of_le_length houtcomes.le]
    exact h.outcomes_eq

/-- A script begins a report only after the last one has ended. -/
theorem Replayed.perform (h : p.Replayed script i stage) :
    p.perform script i = p ∧ (stage ≠ .idle ∨ script.program.length ≤ p.done) ∨
      (p.perform script i).done = p.done + 1 ∧
        ((p.perform script i).Replayed script i .idle ∨
          (p.perform script i).Replayed script i .requested) := by
  obtain ⟨r, w, hseat, henforcing, hkept⟩ := h.kept
  obtain ⟨hsame, hnone⟩ |
    ⟨hidle, ⟨site, label, hstep, hperform⟩ | ⟨k, payload, hstep, hperform⟩⟩ :=
    perform_cases script i ⟨w, hseat⟩
  · exact .inl ⟨hsame, hnone.imp h.sound.waits.1 List.getElem?_eq_none_iff.1⟩
  · rw [hperform]
    exact .inr ⟨rfl, .inl (h.spawn hidle henforcing hkept hstep)⟩
  · rw [hperform]
    exact .inr ⟨rfl, .inr (h.report hidle henforcing hkept hstep _)⟩

/-- A report that was granted ends, with the task that reported. -/
theorem Replayed.fetch {s : Slot} {r : Reporter} {pace : Backoff} {n : Nat}
    {past : List Happening} {t : Task}
    (h : Replayed script i ⟨⟨s, some ⟨r, some ⟨.polling, pace⟩⟩⟩, n, past⟩ (.granted t))
    (henforcing : r.enforcing = true)
    (hkept : script.Kept (script.program.ledgerAt n) r.spawned s.tasks) :
    (act i ⟨⟨s, some ⟨r, some ⟨.polling, pace⟩⟩⟩, n, past⟩ .poll).Replayed script i .idle := by
  have hreporter : r.slot = i := h.sound.reporter _ rfl
  have hmode : s.mode? = some .replayActive := h.mode
  have hword : s.directive? = some .proceed := h.sound.directive?_eq
  obtain ⟨earlier, a, hreports, hgrants, houtcomes, htask⟩ := h.level
  have hledger : (script.program.ledgerAt n).reports = earlier ++ [a] := hreports
  have hrunning : s.runningTask = (a.reporter (script.id a.task)).record.task := by
    rw [← htask]
    exact congrArg TaskRecord.task (h.sound.running t rfl)
  have hanswer : s.answer? = some (.run (a.reporter (script.id a.task)).record.task) := by
    unfold Slot.answer?
    rw [hmode, hword, hrunning]
    rfl
  have hact : act i ⟨⟨s, some ⟨r, some ⟨.polling, pace⟩⟩⟩, n, past⟩ .poll =
      ⟨⟨s.setDirective .idle,
        some ⟨{ r with tally.spins := r.tally.spins + pace.snoozes }, none⟩⟩, n,
        past ++ [.ended (a.answer script.id)]⟩ := by
    simp only [act, Station.act, Reporter.resume_eq h.sound.lock, hanswer, Station.settle]
    rfl
  rw [hact]
  have houtcomesNext : (past ++ [Happening.ended (a.answer script.id)]).filterMap
      Happening.outcome? = past.filterMap Happening.outcome? ++ [a.answer script.id] :=
    List.filterMap_append
  have hgrantsNext : (past ++ [Happening.ended (a.answer script.id)]).countP
      Happening.isGrant = past.countP Happening.isGrant := List.countP_append
  refine ⟨?_, hmode, ⟨_, none, rfl, henforcing, hkept⟩, ?_, ?_, ?_⟩
  · exact .of_idle h.sound.lock h.sound.callLock hmode rfl hreporter
  · rw [grants, hgrantsNext]
    exact h.epoch
  · unfold Level reports
    rw [grants, hgrantsNext, outcomes, houtcomesNext, hledger, List.length_append,
      List.length_append]
    exact ⟨hgrants, congrArg (· + 1) houtcomes⟩
  · have hanswers := h.outcomes_eq
    rw [hreports, houtcomes, List.take_left] at hanswers
    change past.filterMap Happening.outcome? = _ at hanswers
    rw [outcomes, houtcomesNext, reports, hledger, hanswers]
    simp

/-- A poll fetches what was granted. -/
theorem Replayed.poll (h : p.Replayed script i stage) :
    (p.act i .poll).Replayed script i stage.polled := by
  obtain ⟨⟨s, seat⟩, n, past⟩ := p
  obtain ⟨r, w, rfl, henforcing, hkept⟩ := h.kept
  have hreporter : r.slot = i := h.sound.reporter _ rfl
  cases w with
  | none =>
    have hsame : act i ⟨⟨s, some ⟨r, none⟩⟩, n, past⟩ .poll = ⟨⟨s, some ⟨r, none⟩⟩, n, past⟩ := by
      simp [act, Station.act]
    obtain rfl := h.eq_idle rfl
    rw [hsame]
    exact h
  | some w =>
    obtain ⟨phase, pace⟩ := w
    obtain rfl : phase = .polling := h.sound.phase r _ rfl
    cases stage with
    | idle => exact absurd (h.sound.waits.1 rfl) (by simp)
    | requested =>
      have hmode : s.mode? = some .replayActive := h.mode
      have hword : s.directive? = some .requested := h.sound.directive?_eq
      have hanswer : s.answer? = none := by
        unfold Slot.answer?
        rw [hmode, hword]
        rfl
      have hact : act i ⟨⟨s, some ⟨r, some ⟨.polling, pace⟩⟩⟩, n, past⟩ .poll =
          ⟨⟨s, some ⟨r, some ⟨.polling, pace.toYield⟩⟩⟩, n, past⟩ := by
        simp [act, Station.act, Reporter.resume_eq h.sound.lock, hanswer, Station.settle]
      rw [hact]
      refine ⟨?_, hmode, ⟨r, _, rfl, henforcing, hkept⟩, h.epoch, h.level, h.outcomes_eq⟩
      exact .of_requested h.sound.lock h.sound.callLock hmode h.sound.directive hreporter
    | granted t => exact h.fetch henforcing hkept

/-- The identity of a waiting report is that of its task, and looking it up finds that task. -/
theorem Replayed.chosen (h : p.Replayed script i .requested) {a : Announcement}
    (horigin : (script.program.ledgerAt p.done).origins[a.task]? = some a.origin)
    (hrunning : p.station.slot.running = (a.reporter (script.id a.task)).record)
    (hentry : p.station.slot.taskRecord (script.id a.task) =
      (a.reporter (script.id a.task)).record) :
    p.station.slot.runningTask.identity = a.origin.identity ∧
      (p.station.slot.findTask? a.origin.site a.origin.ordinal).getD p.station.slot.runningTask =
        (a.reporter (script.id a.task)).record.task := by
  obtain ⟨r, w, -, -, hkept⟩ := h.kept
  have htask : p.station.slot.runningTask = (a.reporter (script.id a.task)).record.task :=
    congrArg TaskRecord.task hrunning
  constructor
  · rw [htask]
    simp only [Task.identity, Task.record, TaskRecord.task, Announcement.reporter, Origin.task,
      Task.spawned, Origin.identity]
  · cases hfound : p.station.slot.findTask? a.origin.site a.origin.ordinal with
    | none => exact htask
    | some u =>
      exact (hkept.eq_of_identity horigin hfound).trans (congrArg TaskRecord.task hentry)

/-- A grant of the task that waits. -/
theorem Replayed.granted (h : p.Replayed script i .requested) {earlier : List Announcement}
    {a : Announcement} (hreports : p.reports script = earlier ++ [a])
    (hgrants : p.grants = earlier.length) (houtcomes : p.outcomes.length = earlier.length)
    (hoffered : p.station.slot.isOffered) (hadvance : p.station.slot.canAdvance) {t : Task}
    (ht : t = (a.reporter (script.id a.task)).record.task) :
    Replayed script i ⟨⟨p.station.slot.answered t, p.station.seat⟩, p.done,
      p.past ++ [.granted t]⟩ (.granted t) := by
  obtain ⟨next, hnext, hsound⟩ := h.sound.turn (.granted t hoffered hadvance)
  obtain rfl : Stage.granted t = next := Option.some.inj hnext
  have hgrantsNext : (p.past ++ [Happening.granted t]).countP Happening.isGrant = p.grants + 1 :=
    List.countP_append
  have houtcomesNext : (p.past ++ [Happening.granted t]).filterMap Happening.outcome? =
      p.outcomes := by
    rw [List.filterMap_append]
    exact List.append_nil _
  refine ⟨hsound, h.mode, h.kept, ?_, ⟨earlier, a, hreports, ?_, ?_, ?_⟩, ?_⟩
  · have hone : (1 : UInt64).toNat = 1 := rfl
    have hroom : p.station.slot.epoch.toNat + 1 < UInt64.size := of_decide_eq_true hadvance
    have hsize : UInt64.size = 2 ^ 64 := rfl
    have hepoch := h.epoch
    rw [grants, hgrantsNext, ← hepoch]
    change (p.station.slot.epoch + 1).toNat = _
    rw [UInt64.toNat_add, hone]
    omega
  · rw [grants, hgrantsNext, hgrants]
  · rw [outcomes, houtcomesNext, houtcomes]
  · rw [ht, Task.task_record_task]
  · rw [outcomes, houtcomesNext]
    exact h.outcomes_eq

end Part

/-! ### Whole replays -/

/-- A play that is replayed. -/
structure ReplayRun where
  play : Play
  replayer : Replayer

/-- A step of a script, a poll of a waiting report, or a round. -/
inductive ReplayMove
  | perform (i : SlotIndex)
  | poll (i : SlotIndex)
  | round
deriving DecidableEq, Repr

namespace Play

/-- The slots that were granted, in the order of the grants. -/
def granted (x : Play) : List SlotIndex := (x.history.filter (·.2.isGrant)).map (·.1)

theorem grants_part (x : Play) (i : SlotIndex) : (x.part i).grants = x.granted.count i := by
  change (atSlot i x.history).countP Happening.isGrant =
    ((x.history.filter (·.2.isGrant)).map (·.1)).count i
  induction x.history with
  | nil => rfl
  | cons entry history ih =>
    obtain ⟨j, happening⟩ := entry
    rw [← List.singleton_append, atSlot_append, List.countP_append, ih, List.filter_append,
      List.map_append, List.count_append]
    congr 1
    by_cases hslot : j = i
    · subst hslot
      rw [atSlot_single_self]
      cases hgrant : happening.isGrant <;> simp [hgrant]
    · rw [atSlot_single_of_ne hslot]
      cases hgrant : happening.isGrant <;> simp [hgrant, hslot]

theorem granted_act (x : Play) (i : SlotIndex) (a : Act) :
    (x.move (.act i a)).granted = x.granted := by
  have hnone : (((x.scene.station i).act i a).2.map (i, ·)).filter (·.2.isGrant) = [] := by
    rw [List.filter_eq_nil_iff]
    intro entry hentry
    obtain ⟨happening, hmem, rfl⟩ := List.mem_map.1 hentry
    cases happening with
    | granted t => exact absurd hmem (Station.granted_notMem_act a t)
    | suspended | ended outcome => exact Bool.false_ne_true
  change (((x.history ++ ((x.scene.station i).act i a).2.map (i, ·)).filter
    (·.2.isGrant)).map (·.1)) = x.granted
  rw [List.filter_append, hnone, List.append_nil]
  rfl

theorem granted_perform (x : Play) (scripts : SlotIndex → Script) (i : SlotIndex) :
    (x.perform scripts i).granted = x.granted := by
  unfold perform
  cases hnext : (x.part i).next? (scripts i) with
  | none => rfl
  | some a => exact granted_act x i a

end Play

namespace ReplayRun

/-- A fresh region in which every slot replays, with a new reporter at each, and a replayer of a
schedule. -/
def start (schedule : Schedule) (spinLimit : SlotIndex → UInt32) : ReplayRun :=
  ⟨.start .replay (fun _ ↦ true) spinLimit, (Replayer.ofSchedule schedule).value⟩

def step (scripts : SlotIndex → Script) (x : ReplayRun) : ReplayMove → ReplayRun
  | .perform i => { x with play := x.play.perform scripts i }
  | .poll i => { x with play := x.play.move (.act i .poll) }
  | .round =>
    ⟨x.play.move (.round Replayer.policy x.replayer),
      (x.play.scene.region.round Replayer.policy x.replayer).value.state⟩

def run (scripts : SlotIndex → Script) (x : ReplayRun) (moves : List ReplayMove) : ReplayRun :=
  moves.foldl (step scripts) x

/-- A run that has repeated the recording so far. -/
structure Sound (scripts : SlotIndex → Script) (events : List Event) (x : ReplayRun) : Prop where
  parts (i : SlotIndex) : ∃ stage, (x.play.part i).Replayed (scripts i) i stage
  replayer : x.replayer =
    ⟨⟨events.drop x.play.granted.length, x.play.granted.length⟩, true, 0⟩
  granted : x.play.granted.map (·.val) =
    (events.take x.play.granted.length).map (·.slot.toNat)

variable {scripts : SlotIndex → Script} {events : List Event} {x : ReplayRun}

theorem sound_start (scripts : SlotIndex → Script) (schedule : Schedule)
    (spinLimit : SlotIndex → UInt32) :
    (start schedule spinLimit).Sound scripts schedule.events := by
  refine ⟨fun i ↦ ⟨.idle, ?_⟩, rfl, rfl⟩
  change Part.Replayed (scripts i) i ((Play.start .replay (fun _ ↦ true) spinLimit).part i) .idle
  rw [Play.part_start .replay (fun _ ↦ true) spinLimit i]
  exact ⟨.of_idle rfl rfl (Mode.ofCode?_code .replayActive) rfl rfl,
    Mode.ofCode?_code .replayActive, ⟨_, none, rfl, rfl, (scripts i).kept_empty⟩, rfl, ⟨rfl, rfl⟩,
    rfl⟩

/-- A slot has been granted as often as it owns one of the events taken. -/
theorem Sound.grants_eq (h : x.Sound scripts events) (i : SlotIndex) :
    (x.play.part i).grants =
      (events.take x.play.granted.length).countP (·.slot.toNat = i.val) := by
  have hslots : (x.play.granted.map (·.val)).count i.val = x.play.granted.count i :=
    List.count_map_of_injective _ _ Fin.val_injective _
  rw [Play.grants_part, ← hslots, h.granted, List.count, List.countP_map]
  rfl

/-- A region in the course of a round, with what has been granted so far. -/
def during (x : ReplayRun) (r : Region) (replayer : Replayer)
    (granted : List (SlotIndex × Task)) : ReplayRun :=
  ⟨⟨⟨r, x.play.scene.seats⟩, x.play.done,
    x.play.history ++ granted.map fun (i, t) ↦ (i, .granted t)⟩, replayer⟩

theorem part_during_self (x : ReplayRun) (replayer : Replayer) (i : SlotIndex) (s : Slot)
    (t : Task) :
    (x.during (x.play.scene.region.setSlot i s) replayer [(i, t)]).play.part i =
      ⟨⟨s, (x.play.part i).station.seat⟩, (x.play.part i).done,
        (x.play.part i).past ++ [.granted t]⟩ := by
  simp only [Play.part, during, Scene.station, Region.slot_setSlot_self, List.map_cons,
    List.map_nil, atSlot_append, atSlot_single_self]

theorem part_during_of_ne (x : ReplayRun) (replayer : Replayer) {i j : SlotIndex} (h : j ≠ i)
    (s : Slot) (t : Task) :
    (x.during (x.play.scene.region.setSlot i s) replayer [(i, t)]).play.part j =
      x.play.part j := by
  simp only [Play.part, during, Scene.station, Region.slot_setSlot_of_ne _ h, List.map_cons,
    List.map_nil, atSlot_append, atSlot_single_of_ne (Ne.symm h), List.append_nil]

theorem granted_during (x : ReplayRun) (r : Region) (replayer : Replayer)
    (granted : List (SlotIndex × Task)) :
    (x.during r replayer granted).play.granted = x.play.granted ++ granted.map (·.1) := by
  have hall : (granted.map fun (i, t) ↦ (i, Happening.granted t)).filter (·.2.isGrant) =
      granted.map fun (i, t) ↦ (i, Happening.granted t) := by
    rw [List.filter_eq_self]
    intro entry hentry
    obtain ⟨_, _, rfl⟩ := List.mem_map.1 hentry
    rfl
  simp only [Play.granted, during, List.filter_append, List.map_append, hall, List.map_map]
  rfl

theorem granted_during_single (x : ReplayRun) (r : Region) (replayer : Replayer) (i : SlotIndex)
    (t : Task) : (x.during r replayer [(i, t)]).play.granted = x.play.granted ++ [i] :=
  granted_during x r replayer [(i, t)]

/-- Whether slot `i` owns the next event. -/
def IsNext (events : List Event) (x : ReplayRun) (i : SlotIndex) : Prop :=
  ∃ e, events[x.play.granted.length]? = some e ∧ e.slot.toNat = i.val

/-- The replayer grants the slot that owns the next event the task that reported there, and lets any
other slot wait. -/
theorem Sound.offer (h : x.Sound scripts events)
    (hevents : Chronicle (fun i ↦ (scripts i).program) events) {i : SlotIndex}
    (hoffered : (x.play.scene.station i).slot.isOffered) :
    let s := (x.play.scene.station i).slot
    ¬ x.IsNext events i ∧ (x.replayer.choose i s.acquire).value = (x.replayer, .wait) ∨
      ∃ t replayer, (x.replayer.choose i s.acquire).value = (replayer, .grant t) ∧ s.canAdvance ∧
        (x.during (x.play.scene.region.setSlot i (s.answered t)) replayer [(i, t)]).Sound scripts
          events := by
  intro s
  obtain ⟨stage, hpart⟩ := h.parts i
  obtain rfl := hpart.sound.eq_requested hoffered
  obtain ⟨earlier, a, hreports, hgrants, houtcomes, horigin, hrunning, hentry⟩ := hpart.level
  have hcount := h.grants_eq i
  have hstrict : x.replayer.strict = true := by rw [h.replayer]
  have hitems : x.replayer.cursor.items = events.drop x.play.granted.length := by rw [h.replayer]
  by_cases hnext : x.IsNext events i
  · right
    obtain ⟨e, he, hslot⟩ := hnext
    obtain ⟨hreporter, hfound⟩ := hpart.chosen horigin hrunning hentry
    have hlast : ((x.play.part i).reports (scripts i))[(events.take
        x.play.granted.length).countP (·.slot.toNat = i.val)]? = some a := by
      rw [← hcount, hgrants, hreports, List.getElem?_concat_length]
    have hidentity : a.origin.identity = e.task.identity :=
      hevents.next_report he hslot ((scripts i).program.reports_ledgerAt _) hlast
    have hsame : s.acquire.runningTask.identity = e.task.identity := hreporter.trans hidentity
    have hrest : x.replayer.cursor.items = e :: events.drop (x.play.granted.length + 1) := by
      obtain ⟨hlt, rfl⟩ := List.getElem?_eq_some_iff.1 he
      rw [hitems, List.drop_eq_getElem_cons hlt]
    have hchoose := Replayer.choose_of_own hstrict hrest hslot hsame
    have htask : (s.acquire.findTask? e.task.site e.task.ordinal).getD s.acquire.runningTask =
        (a.reporter ((scripts i).id a.task)).record.task := by
      have hsite : a.origin.site = e.task.site := congrArg Prod.fst hidentity
      have hordinal : a.origin.ordinal = e.task.ordinal := congrArg Prod.snd hidentity
      rw [← hsite, ← hordinal]
      exact hfound
    have hadvance : s.canAdvance := by
      have hepoch : s.epoch.toNat = (x.play.part i).grants := hpart.epoch
      have hfew := hevents.countP_lt i x.play.granted.length
      have hsize : UInt64.size = 2 ^ 64 := rfl
      rw [← hcount, ← hepoch] at hfew
      exact decide_eq_true (by omega)
    refine ⟨_, _, hchoose, hadvance, fun j ↦ ?_, ?_, ?_⟩
    · by_cases hj : j = i
      · subst hj
        rw [part_during_self]
        exact ⟨_, hpart.granted hreports hgrants houtcomes hoffered hadvance htask⟩
      · rw [part_during_of_ne x _ hj]
        exact h.parts j
    · rw [granted_during_single, List.length_append, List.length_singleton]
      simp only [during, h.replayer]
    · rw [granted_during_single, List.length_append, List.length_singleton, List.map_append,
        h.granted, List.take_add_one, he, List.map_append]
      simp [hslot]
  · refine .inl ⟨hnext, ?_⟩
    apply Replayer.choose_of_other hstrict
    intro e he hslot
    rw [hitems, List.head?_drop] at he
    exact hnext ⟨e, he, hslot⟩

theorem during_none (x : ReplayRun) :
    x.during x.play.scene.region x.replayer RoundSummary.none.granted = x := by
  simp only [during, RoundSummary.none, List.map_nil, List.append_nil]

theorem during_during (x : ReplayRun) (r r' : Region) (replayer replayer' : Replayer)
    (granted granted' : List (SlotIndex × Task)) :
    (x.during r replayer granted).during r' replayer' granted' =
      x.during r' replayer' (granted ++ granted') := by
  simp only [during, List.map_append, List.append_assoc]

theorem Sound.lock (h : x.Sound scripts events) (i : SlotIndex) :
    (x.play.scene.region.slot i).lock = 0 := by
  obtain ⟨_, hpart⟩ := h.parts i
  exact hpart.sound.lock

/-- What the turn of a slot does in a round: the slot is passed over, unless it waits and owns the
next event, or it is granted. -/
theorem Sound.turn (hevents : Chronicle (fun i ↦ (scripts i).program) events)
    {summary : RoundSummary} {r : Region} {replayer : Replayer}
    (h : (x.during r replayer summary.granted).Sound scripts events) (i : SlotIndex)
    (order : List SlotIndex) :
    ∃ summary' r' replayer',
      (Region.roundOver Replayer.policy (i :: order) summary r replayer).value =
          (Region.roundOver Replayer.policy order summary' r' replayer').value ∧
        (x.during r' replayer' summary'.granted).Sound scripts events ∧
        (r' = r ∧ replayer' = replayer ∧ summary'.granted = summary.granted ∧
            ¬ ((r.slot i).isOffered ∧ (x.during r replayer summary.granted).IsNext events i) ∨
          ∃ t, summary'.granted = summary.granted ++ [(i, t)]) := by
  have hlock : (r.slot i).lock = 0 := h.lock i
  by_cases hoffered : (r.slot i).isOffered
  · obtain ⟨hother, hwait⟩ | ⟨t, replayer', hgrant, hadvance, hsound⟩ := h.offer hevents hoffered
    · have hchoice : (Replayer.policy.choose replayer i (r.slot i).acquire).value =
          (replayer, .wait) := hwait
      have hoffer := Slot.value_offer hlock hchoice
      refine ⟨{ summary with waiting := summary.waiting + 1 }, r, replayer, ?_, h,
        .inl ⟨rfl, rfl, rfl, fun hown ↦ hother hown.2⟩⟩
      simp only [Region.roundOver, hoffered, if_true, Noted.value_bind, hoffer,
        Region.setSlot_slot]
    · have hchoice : (Replayer.policy.choose replayer i (r.slot i).acquire).value =
          (replayer', .grant t) := hgrant
      have hroom : (r.slot i).canAdvance = true := hadvance
      have hoffer := Slot.value_offer hlock hchoice
      rw [during_during] at hsound
      refine ⟨{ summary with granted := summary.granted ++ [(i, t)] },
        r.setSlot i ((r.slot i).answered t), replayer', ?_, hsound, .inr ⟨t, rfl⟩⟩
      simp only [Region.roundOver, hoffered, if_true, Noted.value_bind, hoffer, hroom]
  · refine ⟨summary, r, replayer, ?_, h, .inl ⟨rfl, rfl, rfl, fun hown ↦ hoffered hown.1⟩⟩
    simp only [Region.roundOver, hoffered]
    rfl

/-- A round grants more and more of the recording. -/
theorem Sound.roundOver (hevents : Chronicle (fun i ↦ (scripts i).program) events)
    (order : List SlotIndex) {summary : RoundSummary} {r : Region} {replayer : Replayer}
    (h : (x.during r replayer summary.granted).Sound scripts events) :
    let round := (Region.roundOver Replayer.policy order summary r replayer).value
    (x.during round.region round.state round.summary.granted).Sound scripts events ∧
      summary.granted <+: round.summary.granted := by
  induction order generalizing summary r replayer with
  | nil => exact ⟨h, List.prefix_rfl⟩
  | cons i order ih =>
    intro round
    obtain ⟨summary', r', replayer', hround, hsound, hturn⟩ := h.turn hevents i order
    obtain ⟨hafter, hlater⟩ := ih hsound
    simp only [round, hround]
    refine ⟨hafter, List.IsPrefix.trans ?_ hlater⟩
    obtain ⟨-, -, hsame, -⟩ | ⟨t, hgrant⟩ := hturn
    · rw [hsame]
    · rw [hgrant]
      exact List.prefix_append _ _

/-- A move at one slot that grants nothing. -/
theorem Sound.of_part (h : x.Sound scripts events) {y : ReplayRun} {i : SlotIndex}
    (hgranted : y.play.granted = x.play.granted) (hreplayer : y.replayer = x.replayer)
    (hpart : ∃ stage, (y.play.part i).Replayed (scripts i) i stage)
    (hothers : ∀ j ≠ i, y.play.part j = x.play.part j) : y.Sound scripts events where
  parts j := by
    by_cases hslot : j = i
    · subst hslot
      exact hpart
    · rw [hothers j hslot]
      exact h.parts j
  replayer := by rw [hreplayer, hgranted, h.replayer]
  granted := by rw [hgranted, h.granted]

/-- Every move repeats the recording as far as it goes. -/
theorem Sound.step (h : x.Sound scripts events)
    (hevents : Chronicle (fun i ↦ (scripts i).program) events) (move : ReplayMove) :
    (x.step scripts move).Sound scripts events := by
  cases move with
  | perform i =>
    obtain ⟨stage, hpart⟩ := h.parts i
    refine h.of_part (i := i) (Play.granted_perform x.play scripts i) rfl ?_
      fun j hslot ↦ Play.part_perform_of_ne scripts x.play hslot
    show ∃ stage, ((x.play.perform scripts i).part i).Replayed (scripts i) i stage
    rw [Play.part_perform_self]
    obtain ⟨hsame, -⟩ | ⟨-, hidle | hrequested⟩ := hpart.perform
    · exact ⟨stage, by rw [hsame]; exact hpart⟩
    · exact ⟨.idle, hidle⟩
    · exact ⟨.requested, hrequested⟩
  | poll i =>
    obtain ⟨stage, hpart⟩ := h.parts i
    refine h.of_part (i := i) (Play.granted_act x.play i .poll) rfl ⟨stage.polled, ?_⟩
      fun j hslot ↦ Play.part_act_of_ne x.play hslot .poll
    show ((x.play.move (.act i .poll)).part i).Replayed (scripts i) i stage.polled
    rw [Play.part_act_self]
    exact hpart.poll
  | round =>
    have hstart : (x.during x.play.scene.region x.replayer RoundSummary.none.granted).Sound scripts
        events := by
      rw [during_none]
      exact h
    exact (Sound.roundOver hevents (List.finRange Limits.slots) hstart).1

theorem Sound.run (h : x.Sound scripts events)
    (hevents : Chronicle (fun i ↦ (scripts i).program) events) (moves : List ReplayMove) :
    (x.run scripts moves).Sound scripts events := by
  induction moves using List.reverseRecOn with
  | nil => exact h
  | append_singleton moves move ih =>
    rw [ReplayRun.run, List.foldl_concat]
    exact ih.step hevents move

end ReplayRun

end Turnstile
