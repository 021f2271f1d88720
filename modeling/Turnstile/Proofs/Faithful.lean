import Turnstile.Proofs.Replay

/-!
# A replay repeats the recording

`ReplayRun.Sound` says that a replay has repeated its recording so far. It can also go on: while
events are left, the slot that owns the next one is behind the recording, so its program still makes
a report (`ReplayRun.Sound.ready`), and the next round grants a waiting slot that owns the next
event (`ReplayRun.Sound.granted_round`). Hence a replay can be brought to the end of its recording
from wherever it stands (`ReplayRun.Sound.completes`).

`ReplayRun.record_then_replay` puts this together with what the schedule of a complete recording
holds, which is every report of the recorded run and nothing else (`Recording.yields_of_complete`).
-/

set_option autoImplicit false
set_option relaxedAutoImplicit false

namespace Turnstile

namespace ReplayRun

variable {scripts : SlotIndex → Script} {events : List Event} {x : ReplayRun} {i : SlotIndex}

/-! ### A replay never gets stuck -/

/-- A round that comes to a waiting slot that owns the next event grants something. -/
theorem Sound.grows_roundOver (hevents : Chronicle (fun i ↦ (scripts i).program) events)
    {order : List SlotIndex} (hi : i ∈ order) {summary : RoundSummary} {r : Region}
    {replayer : Replayer} (h : (x.during r replayer summary.granted).Sound scripts events)
    (hoffered : (r.slot i).isOffered)
    (hnext : (x.during r replayer summary.granted).IsNext events i) :
    summary.granted.length <
      (Region.roundOver Replayer.policy order summary r replayer).value.summary.granted.length := by
  induction order generalizing summary r replayer with
  | nil => exact absurd hi List.not_mem_nil
  | cons j order ih =>
    obtain ⟨summary', r', replayer', hround, hsound, hturn⟩ := h.turn hevents j order
    rw [hround]
    obtain ⟨rfl, rfl, hsame, hother⟩ | ⟨t, hgrant⟩ := hturn
    · have hmem : i ∈ order := by
        refine (List.mem_cons.1 hi).resolve_left ?_
        rintro rfl
        exact hother ⟨hoffered, hnext⟩
      rw [← hsame] at hnext ⊢
      exact ih hmem hsound hoffered hnext
    · have hlater := (Sound.roundOver hevents order hsound).2.length_le
      rw [hgrant, List.length_append, List.length_singleton] at hlater
      exact hlater

/-- A slot with a waiting report is offered to the replayer. -/
theorem isOffered_of_requested (h : (x.play.part i).Replayed (scripts i) i .requested) :
    (x.play.scene.station i).slot.isOffered := by
  have hmode : (x.play.scene.station i).slot.mode? = some .replayActive := h.mode
  have hrequest : (x.play.scene.station i).slot.hasRequest :=
    decide_eq_true h.sound.directive?_eq
  unfold Slot.isOffered
  rw [hmode, hrequest]
  rfl

/-- A report that was not granted yet waits. -/
theorem Sound.requested (h : x.Sound scripts events)
    (hreported : x.play.granted.count i < ((x.play.part i).reports (scripts i)).length) :
    (x.play.part i).Replayed (scripts i) i .requested := by
  obtain ⟨stage, hpart⟩ := h.parts i
  have hlevel := hpart.level
  rw [← Play.grants_part] at hreported
  cases stage with
  | idle => exact absurd hlevel.1 hreported.ne
  | requested => exact hpart
  | granted t =>
    obtain ⟨earlier, a, hreports, hgrants, -⟩ := hlevel
    rw [hreports, hgrants, List.length_append, List.length_singleton] at hreported
    exact absurd hreported (lt_irrefl _)

theorem granted_step_round (scripts : SlotIndex → Script) (x : ReplayRun) :
    (x.step scripts .round).play.granted = x.play.granted ++
      (x.play.scene.region.round Replayer.policy x.replayer).value.summary.granted.map (·.1) :=
  granted_during x _ (x.step scripts .round).replayer _

/-- A round grants something while a waiting slot owns the next event. -/
theorem Sound.granted_round (h : x.Sound scripts events)
    (hevents : Chronicle (fun i ↦ (scripts i).program) events)
    (hoffered : (x.play.scene.station i).slot.isOffered) (hnext : x.IsNext events i) :
    x.play.granted.length < (x.step scripts .round).play.granted.length := by
  have hsound : (x.during x.play.scene.region x.replayer RoundSummary.none.granted).Sound scripts
      events := by
    rw [during_none]
    exact h
  have hgrows := Sound.grows_roundOver hevents (List.mem_finRange i) hsound hoffered
    (by rw [during_none]; exact hnext)
  rw [granted_step_round, List.length_append, List.length_map]
  exact Nat.lt_add_of_pos_right (Nat.zero_lt_of_lt hgrows)

/-- A slot without a waiting report comes to its next report. -/
theorem ready_of_idle (hpart : (x.play.part i).Replayed (scripts i) i .idle)
    (hmore : (x.play.part i).grants < (scripts i).program.ledger.reports.length) :
    ∃ moves, (x.run scripts moves).play.granted = x.play.granted ∧
      ((x.run scripts moves).play.part i).Replayed (scripts i) i .requested := by
  -- the induction is on the steps of the script that are left: each is a spawn or the report
  induction hleft : (scripts i).program.length - (x.play.part i).done generalizing x with
  | zero =>
    have hover : (scripts i).program.length ≤ (x.play.part i).done := Nat.sub_eq_zero_iff_le.1 hleft
    have hall : (x.play.part i).reports (scripts i) = (scripts i).program.ledger.reports := by
      rw [Part.reports, Program.ledgerAt, List.take_of_length_le hover]
    rw [hpart.level.1, hall] at hmore
    exact absurd hmore (lt_irrefl _)
  | succ left ih =>
    have hgranted : (x.step scripts (.perform i)).play.granted = x.play.granted :=
      Play.granted_perform x.play scripts i
    have hperform : (x.step scripts (.perform i)).play.part i =
        (x.play.part i).perform (scripts i) i := Play.part_perform_self scripts i x.play
    obtain ⟨-, hnone | hover⟩ | ⟨hdone, hidle | hrequested⟩ := hpart.perform
    · exact absurd rfl hnone
    · omega
    · rw [← hperform] at hdone hidle
      have hsame : ((x.step scripts (.perform i)).play.part i).grants = (x.play.part i).grants := by
        rw [Play.grants_part, Play.grants_part, hgranted]
      obtain ⟨moves, hmoves, hready⟩ := ih hidle (by rw [hsame]; exact hmore) (by omega)
      exact ⟨.perform i :: moves, hmoves.trans hgranted, hready⟩
    · rw [← hperform] at hrequested
      exact ⟨[.perform i], hgranted, hrequested⟩

/-- A slot whose program still makes a report comes to wait with one. -/
theorem Sound.ready (h : x.Sound scripts events)
    (hmore : (x.play.part i).grants < (scripts i).program.ledger.reports.length) :
    ∃ moves, (x.run scripts moves).play.granted = x.play.granted ∧
      ((x.run scripts moves).play.part i).Replayed (scripts i) i .requested := by
  obtain ⟨stage, hpart⟩ := h.parts i
  cases stage with
  | idle => exact ready_of_idle hpart hmore
  | requested => exact ⟨[], rfl, hpart⟩
  | granted t =>
    have hgranted : (x.step scripts (.poll i)).play.granted = x.play.granted :=
      Play.granted_act x.play i .poll
    have hpoll := hpart.poll
    rw [← Play.part_act_self] at hpoll
    have hsame : ((x.step scripts (.poll i)).play.part i).grants = (x.play.part i).grants := by
      rw [Play.grants_part, Play.grants_part, hgranted]
    obtain ⟨moves, hmoves, hready⟩ :=
      ready_of_idle (x := x.step scripts (.poll i)) hpoll (by rw [hsame]; exact hmore)
    exact ⟨.poll i :: moves, hmoves.trans hgranted, hready⟩

/-- While events are left, there are moves to the next grant. -/
theorem Sound.advances (h : x.Sound scripts events)
    (hevents : Chronicle (fun i ↦ (scripts i).program) events)
    (hleft : x.play.granted.length < events.length) :
    ∃ moves, x.play.granted.length < (x.run scripts moves).play.granted.length := by
  obtain ⟨e, he⟩ : ∃ e, events[x.play.granted.length]? = some e :=
    ⟨_, List.getElem?_eq_getElem hleft⟩
  obtain ⟨i, hslot⟩ := hevents.slot e (List.mem_of_getElem? he)
  have hmore : (x.play.part i).grants < (scripts i).program.ledger.reports.length := by
    have hown := getElem?_filter_countP (fun e : Event ↦ decide (e.slot.toNat = i.val)) he
      (decide_eq_true hslot)
    have hreports := (hevents.reports i).length_le
    rw [List.length_map, List.length_map] at hreports
    rw [h.grants_eq i]
    exact (List.getElem?_eq_some_iff.1 hown).1.trans_le hreports
  obtain ⟨moves, hsame, hpart⟩ := h.ready hmore
  have hnext : (x.run scripts moves).IsNext events i := ⟨e, by rw [hsame]; exact he, hslot⟩
  have hgrows := (h.run hevents moves).granted_round hevents (isOffered_of_requested hpart) hnext
  refine ⟨moves ++ [.round], ?_⟩
  rw [hsame] at hgrows
  rw [ReplayRun.run, List.foldl_concat]
  exact hgrows

theorem Sound.length_granted_le (h : x.Sound scripts events) :
    x.play.granted.length ≤ events.length := by
  have hlength := congrArg List.length h.granted
  rw [List.length_map, List.length_map, List.length_take] at hlength
  omega

/-- After a poll every report that was granted has ended. -/
theorem Sound.ended_poll (h : x.Sound scripts events) (i : SlotIndex) :
    ((x.step scripts (.poll i)).play.part i).outcomes.length = x.play.granted.count i := by
  obtain ⟨stage, hpart⟩ := h.parts i
  have hpoll := hpart.poll
  rw [← Play.part_act_self] at hpoll
  have hgranted : (x.play.move (.act i .poll)).granted = x.play.granted :=
    Play.granted_act x.play i .poll
  have hlevel := hpoll.level
  rw [← hgranted, ← Play.grants_part]
  change ((x.play.move (.act i .poll)).part i).outcomes.length = _
  cases stage with
  | idle | granted t => exact hlevel.2.trans hlevel.1.symm
  | requested =>
    obtain ⟨earlier, a, -, hgrants, houtcomes, -⟩ := hlevel
    exact houtcomes.trans hgrants.symm

/-- A replay can be brought to the end of the recording. -/
theorem Sound.completes (h : x.Sound scripts events)
    (hevents : Chronicle (fun i ↦ (scripts i).program) events) :
    ∃ moves, (x.run scripts moves).play.granted.length = events.length := by
  induction hleft : events.length - x.play.granted.length using Nat.strong_induction_on
    generalizing x with
  | _ left ih =>
    by_cases hover : x.play.granted.length = events.length
    · exact ⟨[], hover⟩
    · have hless : x.play.granted.length < events.length :=
        lt_of_le_of_ne h.length_granted_le hover
      obtain ⟨moves, hgrows⟩ := h.advances hevents hless
      obtain ⟨more, hmore⟩ := ih _ (by omega) (h.run hevents moves) rfl
      refine ⟨moves ++ more, ?_⟩
      rw [ReplayRun.run, List.foldl_append]
      exact hmore

/-! ### Faithful replays -/

/-- A run that repeats recorded events. -/
structure Repeats (scripts : SlotIndex → Script) (events : List Event) (x : ReplayRun) : Prop where
  /-- The slots granted so far are those of the first events. -/
  granted : x.play.granted.map (·.val) =
    (events.take x.play.granted.length).map (·.slot.toNat)
  /-- The replayer still has the other events. -/
  left : x.replayer.cursor.items = events.drop x.play.granted.length
  /-- No report was out of step. -/
  desyncs : x.replayer.desyncs = 0
  /-- Every report that has ended was resumed with the task that reported. -/
  outcomes (i : SlotIndex) : (x.play.part i).outcomes =
    ((scripts i).program.ledger.reports.take (x.play.part i).outcomes.length).map fun a ↦
      .ok (.run (a.reporter ((scripts i).id a.task)).record.task)
  /-- A round grants a slot if the one that owns the next event has made a report of which it was
  not granted yet. -/
  round (i : SlotIndex) (hnext : x.IsNext events i)
    (hreported : x.play.granted.count i < ((x.play.part i).reports (scripts i)).length) :
    x.play.granted.length < (x.step scripts .round).play.granted.length
  /-- After a poll every report that was granted has ended. -/
  poll (i : SlotIndex) :
    ((x.step scripts (.poll i)).play.part i).outcomes.length = x.play.granted.count i
  /-- Some moves bring the run to the end of the recording. -/
  completes : ∃ moves, (x.run scripts moves).play.granted.map (·.val) =
    events.map (·.slot.toNat)

theorem Sound.repeats (h : x.Sound scripts events)
    (hevents : Chronicle (fun i ↦ (scripts i).program) events) : x.Repeats scripts events where
  granted := h.granted
  left := by rw [h.replayer]
  desyncs := by rw [h.replayer]
  outcomes i := by
    obtain ⟨stage, hpart⟩ := h.parts i
    have hanswers := hpart.outcomes_eq
    have hended : (x.play.part i).outcomes.length ≤
        ((scripts i).program.ledgerAt (x.play.part i).done).reports.length := by
      have hlength := congrArg List.length hanswers
      rw [List.length_map, List.length_take] at hlength
      exact hlength ▸ Nat.min_le_right _ _
    obtain ⟨rest, hrest⟩ := (scripts i).program.reports_ledgerAt (x.play.part i).done
    rw [← hrest, List.take_append_of_le_length hended]
    exact hanswers
  round i hnext hreported :=
    h.granted_round hevents (isOffered_of_requested (h.requested hreported)) hnext
  poll := h.ended_poll
  completes := by
    obtain ⟨moves, hend⟩ := h.completes hevents
    have hgranted := (h.run hevents moves).granted
    rw [hend, List.take_length] at hgranted
    exact ⟨moves, hgranted⟩

/-- Programs that are recorded, so that nothing is lost, and then run again, under ids of another
run, in any order of steps, polls and rounds of a replayer of the recording. The schedule holds what
the first run has reported. At every point the second run repeats the schedule, and it never gets
stuck before the end of it. -/
theorem record_then_replay (recorded replayed : SlotIndex → Script)
    (hprogram : ∀ i, (recorded i).program = (replayed i).program)
    (hstamps : ∀ i m n, m ≤ n → (recorded i).stamp m ≤ (recorded i).stamp n)
    (enforcing : SlotIndex → Bool) (spinLimit spinLimit' : SlotIndex → UInt32)
    (recording : List RecordMove) (replaying : List ReplayMove)
    (hcomplete :
      ((Recording.start enforcing spinLimit).run recorded recording).IsComplete recorded) :
    let x := (Recording.start enforcing spinLimit).run recorded recording
    let schedule := x.recorder.finish
    x.Yields recorded schedule ∧
      ((start schedule spinLimit').run replayed replaying).Repeats replayed schedule.events := by
  intro x schedule
  have hyields : x.Yields recorded schedule :=
    Recording.yields_of_complete hstamps enforcing spinLimit recording hcomplete
  have hchronicle : Chronicle (fun i ↦ (replayed i).program) schedule.events := by
    have hsame : (fun i ↦ (recorded i).program) = fun i ↦ (replayed i).program := funext hprogram
    rw [← hsame]
    exact hyields.chronicle
  have hstart := sound_start replayed schedule spinLimit'
  exact ⟨hyields, (hstart.run hchronicle replaying).repeats hchronicle⟩

end ReplayRun

/-- Two workers of one site, of which the second reports before the first. -/
def Script.workers (first second : Int64) (stamp : UInt64) (hfirst : first ≠ 0)
    (hsecond : second ≠ 0)
    (hdistinct : first.toInt % Limits.tasks ≠ second.toInt % Limits.tasks) : Script where
  program := [.spawn 7 "worker", .spawn 7 "worker", .report 1 .schedule, .report 0 .schedule]
  id k := if k = 0 then first else second
  stamp _ := stamp
  follows := ⟨Nat.one_lt_two, Nat.zero_lt_two, trivial⟩
  id_ne_zero k _ := by
    by_cases hzero : k = 0
    · rw [if_pos hzero]
      exact hfirst
    · rw [if_neg hzero]
      exact hsecond
  id_distinct j k hj hk hsame := by
    have hj : j < 2 := hj
    have hk : k < 2 := hk
    by_cases hjzero : j = 0 <;> by_cases hkzero : k = 0
    · rw [hjzero, hkzero]
    · rw [if_pos hjzero, if_neg hkzero] at hsame
      exact absurd hsame hdistinct
    · rw [if_neg hjzero, if_pos hkzero] at hsame
      exact absurd hsame.symm hdistinct
    · omega

namespace ReplayRun

/-- The workers of slot 1 report earlier than those of the other slots. -/
def recordedWorkers (i : SlotIndex) : Script :=
  .workers 1 2 (if i.val = 1 then 5 else 8) (by decide) (by decide) (by decide)

def replayedWorkers (_ : SlotIndex) : Script :=
  .workers 40 23 0 (by decide) (by decide) (by decide)

/-- The recorded report of the second worker of a slot. -/
def secondWorker (i : SlotIndex) : Event :=
  (Announcement.event ⟨1, ⟨7, 1, "worker"⟩, .schedule⟩ i 2 0 (if i.val = 1 then 5 else 8)).readBack

/-- The schedule when the second workers of slots 0 and 1 have reported. -/
theorem events_workers {x : Recording} {schedule : Schedule}
    (h : x.Yields recordedWorkers schedule) (hdone : ∀ i, x.play.done i = if i ≤ 1 then 3 else 0) :
    schedule.events = [secondWorker 1, secondWorker 0] := by
  have htotal : schedule.events.length = 2 := by
    rw [h.total, Recording.reports]
    simp only [hdone]
    decide
  have hmem (i : SlotIndex) (hi : i ≤ 1) : secondWorker i ∈ schedule.events := by
    have hreports : (x.play.part i).reports (recordedWorkers i) =
        [⟨1, ⟨7, 1, "worker"⟩, .schedule⟩] := by
      change ((recordedWorkers i).program.ledgerAt (x.play.done i)).reports = _
      rw [hdone i, if_pos hi]
      rfl
    have hslot : schedule.forSlot (UInt64.ofNat i) = [secondWorker i] := by
      rw [h.events i, hreports]
      rfl
    refine List.mem_of_mem_filter (p := fun e ↦ decide (e.slot = UInt64.ofNat i)) ?_
    change secondWorker i ∈ schedule.forSlot (UInt64.ofNat i)
    rw [hslot]
    exact List.mem_singleton_self _
  have hdistinct : secondWorker 0 ≠ secondWorker 1 := fun hsame ↦
    absurd (congrArg Event.slot hsame) (by decide)
  have hordered := h.ordered
  have hzero := hmem 0 (by decide)
  have hone := hmem 1 (by decide)
  obtain ⟨a, b, hab⟩ := List.length_eq_two.1 htotal
  rw [hab] at hordered hzero hone ⊢
  obtain hzero | hzero := List.mem_pair.1 hzero <;> obtain hone | hone := List.mem_pair.1 hone
  · exact absurd (hzero.trans hone.symm) hdistinct
  · rw [← hzero, ← hone] at hordered
    exact absurd ((List.pairwise_pair).1 hordered) (by decide)
  · rw [hzero, hone]
  · exact absurd (hzero.trans hone.symm) hdistinct

variable {y : ReplayRun}

/-- A round of the workers grants one of them, unless both were granted before. -/
theorem round_workers (h : y.Repeats replayedWorkers [secondWorker 1, secondWorker 0])
    (hdone : ∀ i, y.play.done i = if i ≤ 1 then 3 else 0) :
    min 2 (y.play.granted.length + 1) ≤
      (y.step replayedWorkers .round).play.granted.length := by
  have hreports (i : SlotIndex) (hi : i ≤ 1) :
      ((y.play.part i).reports (replayedWorkers i)).length = 1 := by
    change ((replayedWorkers i).program.ledgerAt (y.play.done i)).reports.length = 1
    rw [hdone i, if_pos hi]
    rfl
  have hgranted := h.granted
  obtain hnone | hone | hboth : y.play.granted.length = 0 ∨ y.play.granted.length = 1 ∨
    2 ≤ y.play.granted.length := by omega
  · rw [hnone]
    rw [List.length_eq_zero_iff] at hnone
    have hgrows := h.round 1 ⟨secondWorker 1, by rw [hnone]; rfl, rfl⟩
      (by rw [hnone, hreports 1 le_rfl]; exact Nat.one_pos)
    exact (Nat.zero_le _).trans_lt hgrows
  · rw [hone] at hgranted ⊢
    have hfirst : y.play.granted = [1] := List.map_injective_iff.2 Fin.val_injective hgranted
    have hgrows := h.round 0 ⟨secondWorker 0, by rw [hone]; rfl, rfl⟩
      (by rw [hfirst, hreports 0 (by decide)]; decide)
    rw [hone] at hgrows
    exact hgrows
  · rw [granted_step_round, List.length_append]
    omega

/-- The workers are granted in the order of the schedule. -/
theorem granted_workers (h : y.Repeats replayedWorkers [secondWorker 1, secondWorker 0])
    (hboth : 2 ≤ y.play.granted.length) : y.play.granted = [1, 0] := by
  have hgranted := h.granted
  rw [List.take_of_length_le hboth] at hgranted
  exact List.map_injective_iff.2 Fin.val_injective hgranted

/-- When both slots have asked, two rounds grant them in the order of the schedule, and polls resume
the second worker of each. -/
theorem resumed_workers
    (h : ∀ moves, (y.run replayedWorkers moves).Repeats replayedWorkers
      [secondWorker 1, secondWorker 0])
    (hdone : ∀ i, y.play.done i = if i ≤ 1 then 3 else 0) :
    let z := y.run replayedWorkers [.round, .round, .poll 0, .poll 1]
    z.play.granted = [1, 0] ∧ ∀ i : SlotIndex, i ≤ 1 →
      ∃ t : Task, (z.play.part i).outcomes = [.ok (.run t)] ∧ t.id = 23 ∧
        t.identity = (7, 1) := by
  intro z
  have hround := round_workers (h []) hdone
  have hrounds := round_workers (h [.round]) hdone
  have hgranted : (y.run replayedWorkers [.round, .round]).play.granted = [1, 0] := by
    refine granted_workers (h [.round, .round]) ?_
    change _ ≤ (y.run replayedWorkers [.round]).play.granted.length at hround
    change _ ≤ (y.run replayedWorkers [.round, .round]).play.granted.length at hrounds
    omega
  have hpolled : (y.run replayedWorkers [.round, .round, .poll 0]).play.granted = [1, 0] :=
    (Play.granted_act _ 0 .poll).trans hgranted
  have hzero := (h [.round, .round]).poll 0
  have hone := (h [.round, .round, .poll 0]).poll 1
  rw [hgranted] at hzero
  rw [hpolled] at hone
  refine ⟨(Play.granted_act _ 1 .poll).trans hpolled, fun i hi ↦ ?_⟩
  have hended : (z.play.part i).outcomes.length = 1 := by
    have hslots : ∀ i : SlotIndex, i ≤ 1 → i = 0 ∨ i = 1 := by decide
    obtain rfl | rfl := hslots i hi
    · have hsame : z.play.part 0 = (y.run replayedWorkers [.round, .round, .poll 0]).play.part 0 :=
        Play.part_act_of_ne _ (by decide) .poll
      rw [hsame]
      exact hzero
    · exact hone
  have houtcomes := (h [.round, .round, .poll 0, .poll 1]).outcomes i
  change (z.play.part i).outcomes = ((replayedWorkers i).program.ledger.reports.take
    (z.play.part i).outcomes.length).map _ at houtcomes
  rw [hended] at houtcomes
  exact ⟨_, houtcomes, rfl, rfl⟩

/-- Slot 1 is recorded ahead of slot 0, by its stamps, although slot 0 is run first. So the schedule
tells the second worker of slot 1 and then that of slot 0. When the programs are run again, both
slots ask, one round grants slot 1 and the next one slot 0, and the second workers of both are
resumed, under their new id. -/
theorem record_then_replay_workers :
    let recording := [.perform 0, .perform 0, .perform 0, .perform 1, .perform 1, .perform 1] ++
      [RecordMove.drain]
    let asking := [.perform 0, .perform 0, .perform 0, .perform 1, .perform 1,
      ReplayMove.perform 1]
    let x := (Recording.start (fun _ ↦ true) (fun _ ↦ 0)).run recordedWorkers recording
    let schedule := x.recorder.finish
    let y := (start schedule (fun _ ↦ 0)).run replayedWorkers
      (asking ++ [.round, .round, .poll 0, .poll 1])
    ((∀ i, (recordedWorkers i).program = (replayedWorkers i).program) ∧
      (∀ i m n, m ≤ n → (recordedWorkers i).stamp m ≤ (recordedWorkers i).stamp n) ∧
      x.IsComplete recordedWorkers) ∧
    (x.Yields recordedWorkers schedule ∧ y.Repeats replayedWorkers schedule.events) ∧
    schedule.events = [secondWorker 1, secondWorker 0] ∧ y.play.granted = [1, 0] ∧
    ∀ i : SlotIndex, i ≤ 1 → ∃ t : Task, (y.play.part i).outcomes = [.ok (.run t)] ∧ t.id = 23 ∧
      t.identity = (7, 1) := by
  intro recording asking x schedule y
  have hprogram (i : SlotIndex) : (recordedWorkers i).program = (replayedWorkers i).program := rfl
  have hstamps (i : SlotIndex) (m n : Nat) (_ : m ≤ n) :
      (recordedWorkers i).stamp m ≤ (recordedWorkers i).stamp n := UInt64.le_refl _
  have hfew (i : SlotIndex) : (recordedWorkers i).program.ledger.reports.length = 2 := rfl
  have hlost := Recording.lost_eq_zero hstamps (fun _ ↦ true) (fun _ ↦ 0) recording
    fun i ↦ (hfew i).trans_le (by decide)
  have hcomplete := Recording.isComplete_of_drained hstamps (fun _ ↦ true) (fun _ ↦ 0) _ hlost
    fun i ↦ (hfew i).trans_lt (by decide)
  have hfaithful (moves : List ReplayMove) := record_then_replay recordedWorkers replayedWorkers
    hprogram hstamps (fun _ ↦ true) (fun _ ↦ 0) (fun _ ↦ 0) recording moves hcomplete
  have hevents : schedule.events = [secondWorker 1, secondWorker 0] :=
    events_workers (hfaithful []).1 (by decide +kernel)
  let asked := (start schedule (fun _ ↦ 0)).run replayedWorkers asking
  have hrun (moves : List ReplayMove) : (start schedule (fun _ ↦ 0)).run replayedWorkers
      (asking ++ moves) = asked.run replayedWorkers moves := List.foldl_append
  have hrepeats (moves : List ReplayMove) : (asked.run replayedWorkers moves).Repeats
      replayedWorkers [secondWorker 1, secondWorker 0] := by
    rw [← hevents, ← hrun]
    exact (hfaithful (asking ++ moves)).2
  have hdone : ∀ i, asked.play.done i = if i ≤ 1 then 3 else 0 := by decide +kernel
  have hy : y = asked.run replayedWorkers [.round, .round, .poll 0, .poll 1] := hrun _
  refine ⟨⟨hprogram, hstamps, hcomplete⟩, hfaithful _, hevents, ?_⟩
  rw [hy]
  exact resumed_workers hrepeats hdone

end ReplayRun

end Turnstile
