import Turnstile.Proofs.Handshake
import Turnstile.Proofs.ModeMachine

/-!
# What becomes of a grant

A report that was granted a task learns of it in its next poll, and that looks at the mode first.
What the scheduler does in the meantime can therefore take the grant away: at the end of the replay
the report is released, and in a slot that records by then it goes on, in both cases without the
task. Any other selection leaves the grant as it is, and so does every round.

`Scene.station_step_granted` says what one move makes of a slot with a grant, and
`Scene.station_during` what many make of it. `Scene.ends_granted` reads off how the report ends, and
`Scene.not_forall_ends_run` that the end of the replay loses a grant that was listed in the round
before.
-/

set_option autoImplicit false
set_option relaxedAutoImplicit false

namespace Turnstile

theorem ControlMode.admits (m k : ControlMode) : m.mode.admits k.mode := by
  cases m <;> cases k <;> rfl

theorem Mode.exists_of_isControlled {m : Mode} (h : m.isControlled) :
    ∃ k : ControlMode, k ≠ .record ∧ m = k.mode := by
  cases m with
  | replayActive => exact ⟨.replay, by decide, rfl⟩
  | exploreActive => exact ⟨.explore, by decide, rfl⟩
  | uninitialized | firstEvent | recordActive | finished | replayEnded =>
    exact absurd h Bool.false_ne_true

namespace Move

def endsReplay : Move → Bool
  | .endReplay => true
  | _ => false

/-- Whether the move is a poll of the report of slot `i`. -/
def polls (i : SlotIndex) : Move → Bool
  | .act j .poll => j = i
  | _ => false

/-- The mode that the move selects in slot `i`. -/
def selected? (i : SlotIndex) : Move → Option ControlMode
  | .act j (.select m) => if j = i then some m else none
  | _ => none

/-- The mode of slot `i` after the move, while its report waits. -/
def modeOf (i : SlotIndex) (old : Mode) (v : Move) : Mode :=
  if v.endsReplay then .replayEnded
  else match v.selected? i with
    | some m => if old.admits m.mode then m.mode else old
    | none => old

variable {i : SlotIndex} {old : Mode} {v : Move}

theorem modeOf_of_ends (h : v.endsReplay) : modeOf i old v = .replayEnded := if_pos h

theorem modeOf_of_some (h : ¬ v.endsReplay) {m : ControlMode} (hv : v.selected? i = some m) :
    modeOf i old v = if old.admits m.mode then m.mode else old := by
  rw [modeOf, if_neg h, hv]

theorem modeOf_of_none (h : ¬ v.endsReplay) (hv : v.selected? i = none) :
    modeOf i old v = old := by
  rw [modeOf, if_neg h, hv]

/-- The mode after some moves is the last one, if the replay was ended, and otherwise the one that
was selected last. -/
theorem foldl_modeOf (i : SlotIndex) (m : ControlMode) (moves : List Move) :
    moves.foldl (modeOf i) m.mode =
      if moves.any endsReplay then .replayEnded
      else ((moves.filterMap (selected? i)).getLast?.getD m).mode := by
  induction moves using List.reverseRecOn with
  | nil => rfl
  | append_singleton moves v ih =>
    rw [List.foldl_concat, ih, List.any_append, List.any_cons, List.any_nil, Bool.or_false,
      List.filterMap_append]
    by_cases hv : v.endsReplay
    · rw [modeOf_of_ends hv, hv, Bool.or_true, if_pos rfl]
    · rw [Bool.eq_false_iff.2 hv, Bool.or_false]
      cases hselected : v.selected? i with
      | none =>
        rw [modeOf_of_none hv hselected, List.filterMap_cons_none hselected, List.filterMap_nil,
          List.append_nil]
      | some k =>
        rw [modeOf_of_some hv hselected, List.filterMap_cons_some hselected, List.filterMap_nil,
          List.getLast?_concat]
        by_cases hended : moves.any endsReplay
        · rw [if_pos hended, if_pos hended, if_neg (Mode.not_admits_replayEnded k)]
        · rw [if_neg hended, if_neg hended, if_pos (ControlMode.admits _ k)]
          rfl

end Move

/-- A selection changes nothing but the mode, and that if it admits it. -/
theorem Slot.select_eq_setMode {s : Slot} (hlock : s.lock = 0) {old : Mode}
    (hmode : s.mode? = some old) (m : ControlMode) :
    (s.select m).1 = s.setMode (if old.admits m.mode then m.mode else old) := by
  have hselect := select_of_mode? hmode m
  have hnew : (s.select m).1.mode? = some (if old.admits m.mode then m.mode else old) := by
    split_ifs at hselect ⊢
    · exact hselect.1
    · exact hselect.1
  obtain hsame | hchanged := select_eq hlock m
  · rw [hsame] at hnew ⊢
    exact (setMode_eq_self hnew).symm
  · have hword : (s.setMode m.mode).mode? = some m.mode := Mode.ofCode?_code m.mode
    rw [hchanged, hword] at hnew
    rw [hchanged, ← Option.some.inj hnew]

namespace Station

variable {i : SlotIndex} {p : Station} {t : Task}

/-- A report that was granted a task ends with what its next poll finds. -/
theorem Sound.poll_granted (h : Sound i p (.granted t)) {a : Resume}
    (hanswer : p.slot.answer? = some a) : (p.act i .poll).2 = [.ended (.ok a)] := by
  obtain ⟨s, seat⟩ := p
  have hwaits : Station.waits ⟨s, seat⟩ = true := h.waits.2 (by rintro ⟨⟩)
  rcases seat with _ | ⟨r, _ | ⟨phase, pace⟩⟩
  · exact absurd hwaits Bool.false_ne_true
  · exact absurd hwaits Bool.false_ne_true
  · obtain rfl : phase = .polling := h.phase r ⟨phase, pace⟩ rfl
    have hfound : s.answer? = some a := hanswer
    simp only [Station.act, Reporter.resume_eq h.lock, hfound, settle]

theorem Sound.released (h : Sound i p (.granted t)) (hmode : p.slot.mode? = some .replayEnded) :
    (p.act i .poll).2 = [.ended (.ok .released)] := by
  apply h.poll_granted
  rw [Slot.answer?, hmode]

theorem Sound.answered (h : Sound i p (.granted t)) {m : ControlMode}
    (hmode : p.slot.mode? = some m.mode) :
    (p.act i .poll).2 = [.ended (.ok (if m = .record then .carryOn else .run t.record.task))] := by
  apply h.poll_granted
  have hproceed : p.slot.directive? = some .proceed := h.directive?_eq
  have hrunning : p.slot.runningTask = t.record.task :=
    congrArg TaskRecord.task (h.running t rfl)
  rw [Slot.answer?, hmode]
  cases m with
  | record => rfl
  | replay | explore =>
    simp only [ControlMode.mode, hproceed, hrunning, if_true]
    rfl

/-- A round has nothing to offer to a slot with a grant. -/
theorem Sound.eq_of_turn (h : Sound i p (.granted t)) {s : Slot} {g : Option Task}
    (hturn : p.slot.Turn s g) : s = p.slot := by
  have hunoffered : ¬ p.slot.isOffered := by
    intro hoffered
    have hrequested := h.eq_requested hoffered
    cases hrequested
  cases hturn with
  | passed => rfl
  | granted u hoffered | broken u hoffered => exact absurd hoffered hunoffered

/-- While a granted report waits, an act at its slot other than a poll can only change the mode. -/
theorem Sound.act_granted (h : Sound i p (.granted t)) {m : Mode} (hmode : p.slot.mode? = some m)
    {a : Act} (hpoll : a ≠ .poll) :
    (p.act i a).1 = ⟨p.slot.setMode ((Move.act i a).modeOf i m), p.seat⟩ := by
  obtain ⟨s, seat⟩ := p
  have hwaits : Station.waits ⟨s, seat⟩ = true := h.waits.2 (by rintro ⟨⟩)
  have hsame : (⟨s, seat⟩ : Station) = ⟨s.setMode m, seat⟩ := by
    rw [Slot.setMode_eq_self hmode]
  rcases seat with _ | ⟨r, _ | w⟩
  · exact absurd hwaits Bool.false_ne_true
  · exact absurd hwaits Bool.false_ne_true
  · cases a with
    | poll => exact absurd rfl hpoll
    | select k =>
      have hselected : Move.selected? i (.act i (.select k)) = some k := if_pos rfl
      have hgoesOn : ¬ (Move.act i (.select k)).endsReplay := Bool.false_ne_true
      rw [Move.modeOf_of_some hgoesOn hselected]
      exact congrArg (Station.mk · _) (Slot.select_eq_setMode h.lock hmode k)
    | attach | detach | spawn | setStatus | hit | finish | report => exact hsame

end Station

namespace Scene

variable {x : Scene} {i : SlotIndex} {t : Task}

theorem lock_after (moves : List Move) (i : SlotIndex) :
    ((after moves).station i).slot.lock = 0 := by
  obtain ⟨_, -, hsound⟩ := sound_after moves i
  exact hsound.lock

/-- While a granted report waits, a move other than its poll can only change the mode. -/
theorem station_step_granted (hlock : ∀ j, (x.station j).slot.lock = 0)
    (hsound : Station.Sound i (x.station i) (.granted t)) {m : Mode}
    (hmode : (x.station i).slot.mode? = some m) {v : Move} (hpoll : v.polls i = false) :
    (x.step v).1.station i = ⟨(x.station i).slot.setMode (v.modeOf i m), (x.station i).seat⟩ := by
  have hsame : x.station i = ⟨(x.station i).slot.setMode m, (x.station i).seat⟩ := by
    rw [Slot.setMode_eq_self hmode]
  cases v with
  | endReplay =>
    have hended := Region.slot_endReplay x.region i
    rw [step, station, hended]
    rfl
  | @round σ policy state =>
    obtain ⟨g, hturn, -, -⟩ := Region.turn_round policy state hlock i
    have hslot : (x.region.round policy state).value.region.slot i = x.region.slot i :=
      hsound.eq_of_turn hturn
    refine Eq.trans ?_ hsame
    rw [step, station, hslot]
    rfl
  | act j a =>
    rw [step]
    by_cases hj : i = j
    · subst hj
      rw [station_setStation_self]
      refine hsound.act_granted hmode ?_
      rintro rfl
      simp [Move.polls] at hpoll
    · rw [station_setStation_of_ne x hj]
      have hnone : Move.selected? i (.act j a) = none := by
        cases a with
        | select k => exact if_neg (Ne.symm hj)
        | attach | detach | spawn | setStatus | hit | finish | report | poll => rfl
      have hgoesOn : ¬ (Move.act j a).endsReplay := Bool.false_ne_true
      rw [Move.modeOf_of_none hgoesOn hnone]
      exact hsame

/-- A report that was just granted a task waits, in a controlled mode, to fetch it. -/
theorem sound_of_granted (before : List Move) {σ : Type} (policy : Policy σ) (state : σ)
    (hgranted : (i, t) ∈ ((after before).region.round policy state).value.summary.granted) :
    Station.Sound i ((after (before ++ [.round policy state])).station i) (.granted t) ∧
      ∃ m : ControlMode, m ≠ .record ∧
        ((after (before ++ [.round policy state])).station i).slot.mode? = some m.mode := by
  obtain ⟨stage, -, hsound⟩ := sound_after before i
  obtain ⟨g, hturn, hg, -⟩ := Region.turn_round policy state (lock_after before) i
  have ht : t ∈ g.toList := by
    rw [← hg]
    exact List.mem_filterMap.2 ⟨(i, t), hgranted, if_pos rfl⟩
  obtain rfl : g = some t := Option.mem_toList.1 ht
  obtain ⟨next, hwalk, hnext⟩ := hsound.turn hturn
  have hstage : next = .granted t := by
    change stage.walk? [.granted t] = some next at hwalk
    rw [Stage.walk?_single] at hwalk
    cases stage with
    | requested => exact (Option.some.inj hwalk).symm
    | idle | granted u => cases hwalk
  rw [after_concat]
  refine ⟨hstage ▸ hnext, ?_⟩
  generalize hs : (((after before).region.round policy state).value.region.slot i) = s at hturn
  have hstation : (((after before).step (.round policy state)).1.station i).slot = s := hs
  rw [hstation]
  cases hturn with
  | granted _ hoffered _ =>
    obtain ⟨hmode, -⟩ := Bool.and_eq_true_iff.1 hoffered
    obtain ⟨m, hm, hcontrolled⟩ := (Option.any_eq_true _ _).1 hmode
    obtain ⟨k, hk, rfl⟩ := Mode.exists_of_isControlled hcontrolled
    exact ⟨k, hk, hm⟩

/-- Until its next poll, a report that was granted a task waits as it did, and only the mode of its
slot changes. -/
theorem station_during {granting between : List Move}
    (hsound : Station.Sound i ((after granting).station i) (.granted t)) {m : Mode}
    (hmode : ((after granting).station i).slot.mode? = some m)
    (hpoll : ∀ v ∈ between, v.polls i = false) :
    (after (granting ++ between)).station i =
      ⟨((after granting).station i).slot.setMode (between.foldl (Move.modeOf i) m),
        ((after granting).station i).seat⟩ := by
  induction between using List.reverseRecOn with
  | nil => rw [List.append_nil, List.foldl_nil, Slot.setMode_eq_self hmode]
  | append_singleton between v ih =>
    have hearlier := ih fun v hv ↦ hpoll v (List.mem_append_left _ hv)
    have hsound' : Station.Sound i ((after (granting ++ between)).station i) (.granted t) := by
      rw [hearlier]
      exact hsound.setMode _
    have hmode' : ((after (granting ++ between)).station i).slot.mode? =
        some (between.foldl (Move.modeOf i) m) := by
      rw [hearlier]
      exact Mode.ofCode?_code _
    have hv : v.polls i = false := hpoll v (List.mem_append_right _ (List.mem_singleton_self v))
    rw [← List.append_assoc, after_concat, station_step_granted (lock_after _) hsound' hmode' hv,
      hearlier, List.foldl_concat]
    rfl

/-- Until its next poll, a report that a round has granted a task has not lost it, and the mode of
its slot is the one that the scheduler left it in. -/
theorem granted_during (before between : List Move) {σ : Type} (policy : Policy σ) (state : σ)
    (hgranted : (i, t) ∈ ((after before).region.round policy state).value.summary.granted)
    (hpoll : ∀ v ∈ between, v.polls i = false) :
    let p := (after (before ++ [.round policy state] ++ between)).station i
    Station.Sound i p (.granted t) ∧ ∃ m : ControlMode, m ≠ .record ∧
      p.slot.mode? = some (
        if between.any Move.endsReplay then .replayEnded
        else ((between.filterMap (Move.selected? i)).getLast?.getD m).mode) := by
  obtain ⟨hsound, m, hm, hmode⟩ := sound_of_granted before policy state hgranted
  have hstation := station_during hsound hmode hpoll
  rw [hstation]
  refine ⟨hsound.setMode _, m, hm, ?_⟩
  rw [← Move.foldl_modeOf]
  exact Mode.ofCode?_code _

theorem atSlot_step_poll (x : Scene) (i : SlotIndex) :
    atSlot i (x.step (.act i .poll)).2 = ((x.station i).act i .poll).2 := atSlot_pairs_self i _

/-- A report that a round has granted a task, and its next poll, whatever other moves come between
them. If the replay was ended in the meantime the report is released, and if its slot was moved to
recording it goes on, without the task. Otherwise it ends with what is read back of the task. -/
theorem ends_granted (before between : List Move) {σ : Type} (policy : Policy σ) (state : σ)
    (hgranted : (i, t) ∈ ((after before).region.round policy state).value.summary.granted)
    (hpoll : ∀ v ∈ between, v.polls i = false) :
    let x := after (before ++ [.round policy state] ++ between)
    atSlot i (x.step (.act i .poll)).2 = [.ended (.ok (
      if between.any Move.endsReplay then .released
      else if (between.filterMap (Move.selected? i)).getLast? = some .record then .carryOn
      else .run t.record.task))] := by
  intro x
  obtain ⟨hsound, m, hm, hmode⟩ := granted_during before between policy state hgranted hpoll
  rw [atSlot_step_poll]
  by_cases hended : between.any Move.endsReplay
  · rw [if_pos hended] at hmode
    rw [hsound.released hmode, if_pos hended]
  · rw [if_neg hended] at hmode
    have hrecord : (between.filterMap (Move.selected? i)).getLast?.getD m = .record ↔
        (between.filterMap (Move.selected? i)).getLast? = some .record := by
      cases (between.filterMap (Move.selected? i)).getLast? with
      | none => exact iff_of_false hm (by simp)
      | some k => exact (Option.some_inj).symm
    rw [hsound.answered hmode, if_neg hended, if_congr hrecord rfl rfl]

/-- A report waits for a grant in slot `i`. -/
def waitingReport (i : SlotIndex) : List Move :=
  [.act i (.attach true 16), .act i (.spawn 1 0x100 "main.main"), .act i (.select .replay),
    .act i (.report 1 .schedule 0)]

theorem exists_granted_waitingReport :
    ∃ t, ((0 : SlotIndex), t) ∈
      ((after (waitingReport 0)).region.round .runReporter ()).value.summary.granted := by
  have hslots : ((after (waitingReport 0)).region.round .runReporter ()).value.summary.granted.map
      Prod.fst = [0] := by
    decide +kernel
  have hmem : (0 : SlotIndex) ∈
      ((after (waitingReport 0)).region.round .runReporter ()).value.summary.granted.map
        Prod.fst := by
    rw [hslots]
    exact List.mem_singleton_self 0
  obtain ⟨⟨i, t⟩, hgranted, rfl⟩ := List.mem_map.1 hmem
  exact ⟨t, hgranted⟩

/-- Another controlled mode and another round in between leave the grant to the report. -/
theorem ends_granted_waitingReport :
    let between : List Move := [.act 0 (.select .explore), .round .runReporter ()]
    ∃ t, (0, t) ∈ ((after (waitingReport 0)).region.round .runReporter ()).value.summary.granted ∧
      (∀ v ∈ between, v.polls 0 = false) ∧
      atSlot 0 ((after (waitingReport 0 ++ [.round .runReporter ()] ++ between)).step
        (.act 0 .poll)).2 = [.ended (.ok (.run t.record.task))] := by
  intro between
  obtain ⟨t, hgranted⟩ := exists_granted_waitingReport
  have hpoll : ∀ v ∈ between, v.polls 0 = false := by
    intro v hv
    simp only [between, List.mem_cons, List.not_mem_nil, or_false] at hv
    obtain rfl | rfl := hv <;> rfl
  exact ⟨t, hgranted, hpoll, ends_granted (waitingReport 0) between .runReporter () hgranted hpoll⟩

/-- A grant is lost to a report if the replay ends before its next poll. -/
theorem not_forall_ends_run :
    ¬ ∀ (before between : List Move) (σ : Type) (policy : Policy σ) (state : σ) (i : SlotIndex)
      (t : Task),
      (i, t) ∈ ((after before).region.round policy state).value.summary.granted →
      (∀ v ∈ between, v.polls i = false) →
      atSlot i ((after (before ++ [.round policy state] ++ between)).step (.act i .poll)).2 =
        [.ended (.ok (.run t.record.task))] := by
  intro hruns
  obtain ⟨t, hgranted⟩ := exists_granted_waitingReport
  have hpoll : ∀ v ∈ [Move.endReplay], v.polls 0 = false := by
    intro v hv
    obtain rfl := List.mem_singleton.1 hv
    rfl
  obtain ⟨hsound, m, -, hmode⟩ :=
    granted_during (waitingReport 0) [.endReplay] .runReporter () hgranted hpoll
  have hlost := hsound.released hmode
  have hrun := hruns (waitingReport 0) [.endReplay] Unit .runReporter () 0 t hgranted hpoll
  rw [atSlot_step_poll, hlost] at hrun
  cases hrun

end Scene

end Turnstile
