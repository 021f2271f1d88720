import Mathlib.Data.List.Basic
import Turnstile.Proofs.Choices
import Turnstile.Proofs.Consultations
import Turnstile.Proofs.Reports

/-!
# A strict replay keeps the recorded order

A strict replayer takes the events of a recording one after another. A round asks it about one slot
after the other, so that several grants of a round may follow from each other. What it makes of one
consultation is said by `Replayer.Strictly`: it takes the next event, if the slot owns it, or leaves
the slot waiting and stays as it is. Over any consultations the grants take the first events of the
recording, one each (`Replayer.consumed_of_leads`).

A `Driven` run is one whose rounds are all those of one replayer. Beside it stands the account of
what the rounds ask (`Region.asked_round`) and the task that reported last in each slot. The
replayer itself sees only the task that a slot shows. That they are the same, or cannot be told
apart, whenever a slot is offered is the invariant `Driven.Sound`: a report shows its task before it
begins to wait, and nothing but a grant changes what is shown while it does. So a desync is an event
that tells another task than the one that had reported (`Driven.keeps_recorded_order`).
-/

set_option autoImplicit false
set_option relaxedAutoImplicit false

namespace Turnstile

namespace Slot

/-- A task that is found has the identity under which it was looked for. -/
theorem identity_findTask? {s : Slot} {site ordinal : UInt64} {t : Task}
    (h : s.findTask? site ordinal = some t) : t.identity = (site, ordinal) := by
  obtain ⟨r, hfind, rfl⟩ := Option.map_eq_some_iff.1 h
  have hfound := List.find?_some hfind
  obtain ⟨-, hsite, hordinal⟩ : r.isEmpty = false ∧ r.site = site ∧ r.ordinal = ordinal := by
    simpa using hfound
  exact Prod.ext hsite hordinal

end Slot

/-- The record of a task keeps its identity. -/
theorem Task.identity_task_record (t : Task) : t.record.task.identity = t.identity := by
  simp only [identity, record, TaskRecord.task]

/-- What a slot resumes for an event is the task that reported, or one that cannot be told from it.
-/
theorem Event.identity_answer (e : Event) (s : Slot) :
    (e.answer s).identity = s.runningTask.identity := by
  unfold answer isDesync
  by_cases hsame : s.runningTask.identity = e.task.identity
  · simp only [hsame, ne_eq, not_true_eq_false, decide_false, Bool.false_eq_true, if_false]
    cases hfound : s.findTask? e.task.site e.task.ordinal with
    | none => exact hsame
    | some t => exact Slot.identity_findTask? hfound
  · simp [hsame]

namespace Replayer

/-- What a strict replayer makes of a consultation. -/
inductive Strictly (c : Consultation Replayer) : Prop
  /-- It leaves a slot waiting that does not own the next event, and stays as it is. -/
  | waits (foreign : ∀ e, c.before.cursor.items.head? = some e → e.isOf c.slot = false)
    (choice : c.choice = .wait) (after : c.after = c.before)
  /-- It takes the next event, which the slot owns. -/
  | grants (e : Event) (rest : List Event) (items : c.before.cursor.items = e :: rest)
    (owned : e.isOf c.slot) (choice : c.choice = .grant (e.answer c.seen))
    (after : c.after = ⟨⟨rest, c.before.cursor.consumed + 1⟩, true,
      c.before.desyncs + if e.isDesync c.seen then 1 else 0⟩)

theorem strictly_of_choose {c : Consultation Replayer} (hstrict : c.before.strict = true)
    (hchoose : (c.before.choose c.slot c.seen).value = (c.after, c.choice)) : Strictly c := by
  cases hnext : c.before.next? c.slot with
  | none =>
    rw [choose_of_none hnext] at hchoose
    obtain ⟨hafter, hchoice⟩ := Prod.mk.inj hchoose
    rw [next?, if_pos hstrict] at hnext
    refine .waits (fun e he ↦ ?_) hchoice.symm hafter.symm
    exact Bool.eq_false_iff.2 (Option.filter_eq_none_iff.1 hnext e he)
  | some e =>
    rw [choose_of_some hnext] at hchoose
    obtain ⟨hafter, hchoice⟩ := Prod.mk.inj hchoose
    rw [next?, if_pos hstrict] at hnext
    obtain ⟨hhead, howned⟩ := Option.filter_eq_some_iff.1 hnext
    obtain ⟨rest, hitems⟩ := List.head?_eq_some_iff.1 hhead
    refine .grants e rest hitems howned hchoice.symm ?_
    rw [← hafter, served, Replayer.rest, hstrict, hitems]
    rfl

theorem Strictly.strict {c : Consultation Replayer} (h : Strictly c)
    (hstrict : c.before.strict = true) : c.after.strict = true := by
  cases h with
  | waits _ _ hafter => rwa [hafter]
  | grants e rest _ _ _ hafter => rw [hafter]

/-- What some consultations leave of a replayer, among which there are these grants. -/
structure Consumed (first last : Replayer) (grants : List (Consultation Replayer)) : Prop where
  strict : last.strict = true
  items : first.cursor.items = first.cursor.items.take grants.length ++ last.cursor.items
  consumed : last.replayed = first.replayed + grants.length
  slots : grants.map (·.slot.val) =
    (first.cursor.items.take grants.length).map (·.slot.toNat)
  desyncs : last.desyncs = first.desyncs +
    ((first.cursor.items.take grants.length).zip grants).countP fun (e, c) ↦ e.isDesync c.seen

theorem Consumed.length_eq {first last : Replayer} {grants : List (Consultation Replayer)}
    (h : Consumed first last grants) :
    first.cursor.items.length = grants.length + last.remaining := by
  have hslots := congrArg List.length h.slots
  have hitems := congrArg List.length h.items
  rw [List.length_map, List.length_map] at hslots
  rw [List.length_append, ← hslots] at hitems
  exact hitems

/-- Every consultation of a strict replayer is of the two kinds, and the grants take the events one
after another. -/
theorem consumed_of_leads {first last : Replayer} {asked : List (Consultation Replayer)}
    (h : policy.Leads first asked last) (hstrict : first.strict = true) :
    (∀ c ∈ asked, Strictly c) ∧ Consumed first last (asked.filter Consultation.isGrant) := by
  induction asked generalizing first with
  | nil =>
    obtain rfl : first = last := h
    exact ⟨by simp, hstrict, rfl, rfl, rfl, rfl⟩
  | cons c asked ih =>
    obtain ⟨rfl, hchoose, hasked⟩ := h
    have hc := strictly_of_choose hstrict hchoose
    obtain ⟨hrest, hconsumed⟩ := ih hasked (hc.strict hstrict)
    refine ⟨List.forall_mem_cons.2 ⟨hc, hrest⟩, ?_⟩
    cases hc with
    | waits _ hchoice hafter =>
      have hgrant : ¬ c.isGrant := by simp [Consultation.isGrant, hchoice, Choice.task?]
      rw [List.filter_cons_of_neg hgrant, ← hafter]
      exact hconsumed
    | grants e rest hitems howned hchoice hafter =>
      have hgrant : c.isGrant := by simp [Consultation.isGrant, hchoice, Choice.task?]
      have hslot : (c.slot : Nat) = e.slot.toNat := (of_decide_eq_true howned).symm
      rw [hafter] at hconsumed
      rw [List.filter_cons_of_pos hgrant]
      refine ⟨hconsumed.strict, ?_, ?_, ?_, ?_⟩
      · have hleft := hconsumed.items
        simp only at hleft
        rw [hitems, List.length_cons, List.take_succ_cons, List.cons_append, ← hleft]
      · rw [hconsumed.consumed, List.length_cons]
        simp only [replayed]
        omega
      · rw [hitems, List.length_cons, List.take_succ_cons, List.map_cons, List.map_cons,
          hconsumed.slots, hslot]
      · rw [hitems, List.length_cons, List.take_succ_cons, List.zip_cons_cons, List.countP_cons,
          hconsumed.desyncs]
        simp only
        omega

end Replayer

/-! ### Runs that a replayer drives -/

/-- What a round of a driven run did. -/
structure DrivenRound where
  /-- The task that had reported last in each slot. -/
  reporters : SlotIndex → Task
  asked : List (Consultation Replayer)
  /-- What the round lists as granted. -/
  granted : List (SlotIndex × Task)

namespace DrivenRound

/-- The consultations in which a task was chosen. -/
def grants (round : DrivenRound) : List (Consultation Replayer) :=
  round.asked.filter Consultation.isGrant

/-- The tasks that had reported in the slots that were granted one, told by their identities. -/
def reported (round : DrivenRound) : List (UInt64 × UInt64) :=
  round.grants.map fun c ↦ (round.reporters c.slot).identity

end DrivenRound

/-- A scene whose rounds are all those of one replayer. -/
structure Driven where
  scene : Scene
  replayer : Replayer
  /-- The task that reported last in each slot. -/
  reporters : SlotIndex → Task
  rounds : List DrivenRound

namespace Driven

/-- A move of a driven run. -/
inductive Move
  | act (i : SlotIndex) (a : Act)
  | endReplay
  | round

/-- A replay that starts after some moves of reporters and schedulers. The task that a slot shows
counts as the one that reported last there. -/
def start (before : List Turnstile.Move) (schedule : Schedule) : Driven where
  scene := .after before
  replayer := (Replayer.ofSchedule schedule).value
  reporters i := ((Scene.after before).station i).slot.runningTask
  rounds := []

def step (x : Driven) : Move → Driven
  | .act i a =>
    { x with
      scene := (x.scene.step (.act i a)).1
      reporters := match (x.scene.station i).report? a with
        | some e => Function.update x.reporters i e.task
        | none => x.reporters }
  | .endReplay => { x with scene := (x.scene.step .endReplay).1 }
  | .round =>
    let round := (x.scene.region.round Replayer.policy x.replayer).value
    let logged := (x.scene.region.round Replayer.policy.logged (x.replayer, [])).value
    { x with
      scene := (x.scene.step (.round Replayer.policy x.replayer)).1
      replayer := round.state
      rounds := x.rounds ++ [⟨x.reporters, logged.state.2, round.summary.granted⟩] }

def run (x : Driven) (moves : List Move) : Driven := moves.foldl step x

/-- What a round of a strict replay keeps to. -/
structure RoundSound (round : DrivenRound) : Prop where
  ordered : (round.asked.map (·.slot)).Pairwise (· < ·)
  granted : round.granted = round.asked.filterMap Consultation.listed?
  reporters : ∀ c ∈ round.asked, c.seen.runningTask.identity = (round.reporters c.slot).identity

/-- What holds throughout a driven run. While a report waits for a grant, its slot shows the task
that reported, or one that cannot be told from it. -/
structure Sound (schedule : Schedule) (x : Driven) : Prop where
  station : ∀ i, ∃ stage, Station.Sound i (x.scene.station i) stage ∧
    (stage = .requested →
      (x.scene.station i).slot.runningTask.identity = (x.reporters i).identity)
  leads : Replayer.policy.Leads (Replayer.ofSchedule schedule).value
    (x.rounds.flatMap (·.asked)) x.replayer
  rounds : ∀ round ∈ x.rounds, RoundSound round

variable {schedule : Schedule} {x : Driven}

theorem sound_start (before : List Turnstile.Move) (schedule : Schedule) :
    (start before schedule).Sound schedule where
  station i := by
    obtain ⟨stage, -, hsound⟩ := Scene.sound_after before i
    exact ⟨stage, hsound, fun _ ↦ rfl⟩
  leads := rfl
  rounds := by simp [start]

theorem Sound.lock (h : x.Sound schedule) (i : SlotIndex) : (x.scene.station i).slot.lock = 0 := by
  obtain ⟨stage, hsound, -⟩ := h.station i
  exact hsound.lock

/-- A report that begins to wait has shown its task, and one that waits goes on showing it. -/
theorem shown_act {i : SlotIndex} {p : Station} {stage : Stage} (h : Station.Sound i p stage)
    {t : Task} (hshown : stage = .requested → p.slot.runningTask.identity = t.identity) {a : Act}
    (hwalk : stage.walk? (p.act i a).2 = some .requested) :
    (p.act i a).1.slot.runningTask.identity =
      (((p.report? a).map Event.task).getD t).identity := by
  obtain hnew | ⟨earlier, last, hnew⟩ := List.eq_nil_or_concat' (p.act i a).2
  · rw [hnew] at hwalk
    obtain rfl : stage = .requested := Option.some.inj hwalk
    have hwaits : p.waits = true := h.waits.2 (by simp)
    have hstep : Station.Step i p False (p.act i a).2 (p.act i a).1 := .act a
    obtain ⟨-, -, hrunning⟩ := h.kept hwaits hstep
    have hkept : (p.act i a).1.slot.running = p.slot.running := by
      obtain hkept | ⟨u, -, hgranted | ⟨-, hfalse⟩⟩ := hrunning
      · exact hkept
      · rw [hnew] at hgranted
        cases hgranted
      · exact hfalse.elim
    rw [Station.report?_of_waits hwaits, Slot.runningTask, hkept]
    exact hshown rfl
  · rw [hnew] at hwalk
    obtain ⟨middle, -, hlast⟩ := Stage.walk?_concat_eq_some hwalk
    obtain rfl := Stage.eq_of_next?_requested hlast
    obtain ⟨e, hreport, hrunning⟩ := h.running_of_suspended (a := a) (by simp [hnew])
    rw [hreport, Slot.runningTask, hrunning, Task.identity_task_record, Option.map_some,
      Option.getD_some]

theorem Sound.act (h : x.Sound schedule) (i : SlotIndex) (a : Act) :
    (x.step (.act i a)).Sound schedule := by
  refine ⟨fun j ↦ ?_, h.leads, h.rounds⟩
  obtain ⟨stage, hsound, hshown⟩ := h.station j
  by_cases hj : j = i
  · subst hj
    have hstation : (x.step (.act j a)).scene.station j = ((x.scene.station j).act j a).1 :=
      Scene.station_setStation_self x.scene j _
    have hreporters : (x.step (.act j a)).reporters j =
        (((x.scene.station j).report? a).map Event.task).getD (x.reporters j) := by
      simp only [step]
      cases (x.scene.station j).report? a with
      | none => rfl
      | some e => exact Function.update_self _ _ _
    obtain ⟨next, hwalk, hnext⟩ := hsound.act a
    rw [hstation, hreporters]
    refine ⟨next, hnext, ?_⟩
    rintro rfl
    exact shown_act hsound hshown hwalk
  · have hstation : (x.step (.act i a)).scene.station j = x.scene.station j :=
      Scene.station_setStation_of_ne x.scene hj _
    have hreporters : (x.step (.act i a)).reporters j = x.reporters j := by
      simp only [step]
      cases (x.scene.station i).report? a with
      | none => rfl
      | some e => exact Function.update_of_ne hj _ _
    rw [hstation, hreporters]
    exact ⟨stage, hsound, hshown⟩

theorem Sound.endReplay (h : x.Sound schedule) : (x.step .endReplay).Sound schedule := by
  refine ⟨fun i ↦ ?_, h.leads, h.rounds⟩
  obtain ⟨stage, hsound, hshown⟩ := h.station i
  have hstation : (x.step .endReplay).scene.station i =
      ⟨(x.scene.station i).slot.setMode .replayEnded, (x.scene.station i).seat⟩ := by
    simp only [step, Scene.step, Scene.station, Region.slot_endReplay]
  rw [hstation]
  exact ⟨stage, hsound.setMode .replayEnded, hshown⟩

/-- A round asks about slots whose reports wait for a grant. What it resumes there is the task that
reported, or one that cannot be told from it. -/
theorem Sound.round (h : x.Sound schedule) : (x.step .round).Sound schedule := by
  obtain ⟨asked, hlogged, hasked⟩ := Region.asked_round Replayer.policy x.scene.region x.replayer
  have hrounds : (x.step .round).rounds = x.rounds ++ [⟨x.reporters, asked,
      (x.scene.region.round Replayer.policy x.replayer).value.summary.granted⟩] := by
    simp only [step, hlogged]
  have hreporter : ∀ c ∈ asked,
      c.seen.runningTask.identity = (x.reporters c.slot).identity := by
    intro c hc
    obtain ⟨hseen, hoffered⟩ := hasked.seen c hc
    obtain ⟨stage, hsound, hshown⟩ := h.station c.slot
    rw [hseen]
    exact hshown (hsound.eq_requested hoffered)
  have hleads : Replayer.policy.Leads (Replayer.ofSchedule schedule).value
      ((x.step .round).rounds.flatMap (·.asked)) (x.step .round).replayer := by
    rw [hrounds, List.flatMap_append, List.flatMap_singleton]
    exact h.leads.append hasked.leads
  refine ⟨fun i ↦ ?_, hleads, ?_⟩
  · obtain ⟨stage, hsound, hshown⟩ := h.station i
    obtain ⟨g, hturn, -, -⟩ := Region.turn_round Replayer.policy x.replayer h.lock i
    obtain ⟨next, hwalk, hnext⟩ := hsound.turn hturn
    refine ⟨next, hnext, ?_⟩
    rintro rfl
    have hrequested : stage = .requested := by
      cases g with
      | none => exact Option.some.inj hwalk
      | some t =>
        have hgranted : stage.next? (.granted t) = some .requested := by
          rw [← Stage.walk?_single]
          exact hwalk
        cases Stage.eq_of_next?_requested hgranted
    obtain hkept | ⟨c, hc, rfl, t, ht, hrunning⟩ := hasked.running i
    · refine Eq.trans ?_ (hshown hrequested)
      exact congrArg (fun running ↦ TaskRecord.task running |>.identity) hkept
    · obtain ⟨-, hconsumed⟩ := Replayer.consumed_of_leads h.leads rfl
      obtain ⟨hstrictly, -⟩ := Replayer.consumed_of_leads hasked.leads hconsumed.strict
      have hanswered : t.identity = c.seen.runningTask.identity := by
        cases hstrictly c hc with
        | waits _ hchoice _ =>
          rw [hchoice] at ht
          cases ht
        | grants e rest _ _ hchoice _ =>
          obtain rfl : e.answer c.seen = t := Choice.grant.inj (hchoice.symm.trans ht)
          exact e.identity_answer c.seen
      refine Eq.trans ?_ (hanswered.trans (hreporter c hc))
      rw [Slot.runningTask]
      exact (congrArg (fun running ↦ (TaskRecord.task running).identity) hrunning).trans
        t.identity_task_record
  · intro round hround
    rw [hrounds] at hround
    obtain hround | hround := List.mem_append.1 hround
    · exact h.rounds round hround
    · obtain rfl := List.mem_singleton.1 hround
      refine ⟨?_, ?_, hreporter⟩
      · exact (List.pairwise_lt_finRange _).sublist hasked.slots
      · exact hasked.granted

theorem Sound.run (h : x.Sound schedule) (moves : List Move) : (x.run moves).Sound schedule := by
  induction moves generalizing x with
  | nil => exact h
  | cons v moves ih =>
    refine ih ?_
    cases v with
    | act i a => exact h.act i a
    | endReplay => exact h.endReplay
    | round => exact h.round

/-- The identities that a sound round shows are those of the tasks that had reported. -/
theorem RoundSound.reported_eq {round : DrivenRound} (h : RoundSound round) :
    round.reported = round.grants.map fun c ↦ c.seen.runningTask.identity := by
  refine List.map_congr_left fun c hc ↦ ?_
  exact (h.reporters c (List.mem_of_mem_filter hc)).symm

/-- A strict replay from any state to which reporters and schedulers bring a region, under any moves
and with any number of reports waiting. The grants take the first events of the recording, one each,
and their slots in the order of the grants, which within a round is that of the slots, are the slots
of these events. A slot that is left waiting does not own the next event, and leaves the replayer
as it is. What was replayed and what is left add up to the recording. A desync is an event that
tells another task than the one that had reported when it was taken. A round lists every grant, but
for one that is broken off at the last epoch. -/
theorem keeps_recorded_order (before : List Turnstile.Move) (schedule : Schedule)
    (moves : List Move) :
    let x := (start before schedule).run moves
    let taken := schedule.events.take x.replayer.replayed
    (x.rounds.flatMap DrivenRound.grants).map (·.slot.val) = taken.map (·.slot.toNat) ∧
    (∀ round ∈ x.rounds, (round.asked.map (·.slot)).Pairwise (· < ·) ∧
      round.granted = round.grants.filterMap Consultation.listed? ∧
      ∀ c ∈ round.grants, (c.listed? = none ↔ c.seen.canAdvance = false)) ∧
    (∀ round ∈ x.rounds, ∀ c ∈ round.asked, match c.choice with
      | .wait => c.after = c.before ∧
          ∀ e, c.before.cursor.items.head? = some e → e.isOf c.slot = false
      | .grant _ => c.after.replayed = c.before.replayed + 1 ∧
          c.before.remaining = c.after.remaining + 1
      | .breakdown => False) ∧
    x.replayer.replayed + x.replayer.remaining = schedule.events.length ∧
    x.replayer.desyncs = (taken.zip (x.rounds.flatMap DrivenRound.reported)).countP
      fun (e, reporter) ↦ reporter ≠ e.task.identity := by
  intro x taken
  have hsound : x.Sound schedule := (sound_start before schedule).run moves
  obtain ⟨hstrictly, hconsumed⟩ := Replayer.consumed_of_leads hsound.leads rfl
  have hgrants : (x.rounds.flatMap (·.asked)).filter Consultation.isGrant =
      x.rounds.flatMap DrivenRound.grants := List.filter_flatMap
  rw [hgrants] at hconsumed
  have hreplayed : x.replayer.replayed = (x.rounds.flatMap DrivenRound.grants).length := by
    rw [hconsumed.consumed]
    exact Nat.zero_add _
  have htaken : taken = schedule.events.take (x.rounds.flatMap DrivenRound.grants).length := by
    simp only [taken, hreplayed]
  refine ⟨?_, ?_, ?_, ?_, ?_⟩
  · rw [htaken]
    exact hconsumed.slots
  · intro round hround
    have hkept := hsound.rounds round hround
    refine ⟨hkept.ordered, ?_, ?_⟩
    · rw [hkept.granted]
      exact (Consultation.filterMap_listed? round.asked).symm
    · intro c hc
      exact Consultation.listed?_eq_none_iff (List.mem_filter.1 hc).2
  · intro round hround c hc
    cases hstrictly c (List.mem_flatMap.2 ⟨round, hround, hc⟩) with
    | waits hforeign hchoice hafter =>
      rw [hchoice]
      exact ⟨hafter, hforeign⟩
    | grants e rest hitems _ hchoice hafter =>
      rw [hchoice, hafter]
      simp [Replayer.replayed, Replayer.remaining, ReplayCursor.remaining, hitems]
  · rw [hreplayed]
    exact hconsumed.length_eq.symm
  · have hreported : x.rounds.flatMap DrivenRound.reported =
        (x.rounds.flatMap DrivenRound.grants).map fun c ↦ c.seen.runningTask.identity := by
      rw [List.map_flatMap]
      exact List.flatMap_congr fun round hround ↦ (hsound.rounds round hround).reported_eq
    rw [hreported, List.zip_map_right, List.countP_map, htaken]
    exact hconsumed.desyncs.trans (Nat.zero_add _)

end Driven

end Turnstile
