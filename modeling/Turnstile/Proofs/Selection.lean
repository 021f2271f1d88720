import Turnstile.Command.Run
import Turnstile.Proofs.Arena
import Turnstile.Proofs.ModeMachine
import Turnstile.Proofs.Paths

/-!
# Selecting a mode in every slot

One slot takes a mode or refuses it and stays as it is (`Slot.select_of_admits`,
`Slot.select_of_refusal`). A selection in every slot goes through the slots in order and stops at
the first that refuses, when those before it have taken the mode (`Region.slot_selectAll_cases`).
They keep it, so that a selection may fail and still have changed slots.

A replay begins with such a selection, and fails to start if that is refused
(`Job.replaySchedule_refused`). Nothing else in it ends for this reason (`Job.Avoids`), so a replay
that fails to start ends there, and leaves on the disk the region that the selection left
(`Job.replaySchedule_failed`).
-/

set_option autoImplicit false
set_option relaxedAutoImplicit false

namespace Turnstile

namespace Slot

/-- Why a slot refuses a mode, if it does. -/
def refusal (s : Slot) (m : ControlMode) : Option Error :=
  match s.mode? with
  | none => some (.unknownMode s.modeWord)
  | some old => if old.admits m.mode then none else some (.invalidTransition old m.mode)

/-- A slot that refuses a mode stays as it is, but that its lock is free. -/
theorem select_of_refusal {s : Slot} {m : ControlMode} {e : Error} (h : s.refusal m = some e) :
    s.select m = (s.release, .error e) := by
  unfold refusal at h
  cases hmode : s.mode? with
  | none =>
    have hacquired : s.acquire.mode = .error (.unknownMode s.modeWord) := by
      have hunknown : s.acquire.mode? = none := hmode
      rw [mode, hunknown]
      rfl
    rw [hmode] at h
    obtain rfl : Error.unknownMode s.modeWord = e := Option.some.inj h
    simp only [select, guarded, hacquired]
    rfl
  | some old =>
    have hacquired : s.acquire.mode = .ok old := by
      have hknown : s.acquire.mode? = some old := hmode
      rw [mode, hknown]
    simp only [hmode] at h
    by_cases hadmits : old.admits m.mode
    · rw [if_pos hadmits] at h
      cases h
    · rw [if_neg hadmits] at h
      obtain rfl : Error.invalidTransition old m.mode = e := Option.some.inj h
      simp only [select, guarded, hacquired, hadmits]
      rfl

/-- Another slot takes the mode. -/
theorem select_of_admits {s : Slot} {m : ControlMode} (h : s.refusal m = none) :
    ∃ old, s.select m = ((s.setMode m.mode).release, .ok old) := by
  unfold refusal at h
  cases hmode : s.mode? with
  | none =>
    rw [hmode] at h
    cases h
  | some old =>
    have hacquired : s.acquire.mode = .ok old := by
      have hknown : s.acquire.mode? = some old := hmode
      rw [mode, hknown]
    simp only [hmode] at h
    have hadmits : old.admits m.mode := by
      by_contra hnot
      rw [if_neg hnot] at h
      cases h
    refine ⟨old, ?_⟩
    simp only [select, guarded, hacquired, hadmits, if_true]
    rfl

end Slot

namespace Region

variable {r : Region} {m : ControlMode}

/-- What a selection makes of a slot, `taken` being those that took the mode, and `refusing` the one
that did not. -/
def selected (r : Region) (m : ControlMode) (taken : List SlotIndex) (refusing : Option SlotIndex)
    (i : SlotIndex) : Slot :=
  if i ∈ taken then ((r.slot i).setMode m.mode).release
  else if refusing = some i then (r.slot i).release
  else r.slot i

theorem selected_cons {taken : List SlotIndex} {refusing : Option SlotIndex} {j : SlotIndex}
    (hnew : j ∉ taken) (hother : refusing ≠ some j) (i : SlotIndex) :
    (r.setSlot j ((r.slot j).setMode m.mode).release).selected m taken refusing i =
      r.selected m (j :: taken) refusing i := by
  unfold selected
  by_cases hi : i = j
  · subst hi
    rw [slot_setSlot_self, if_neg hnew, if_neg hother, if_pos List.mem_cons_self]
  · simp only [slot_setSlot_of_ne r hi, List.mem_cons, hi, false_or]

/-- A selection goes through the slots up to the first that refuses. -/
theorem slot_selectIn_cases {order : List SlotIndex} (hnodup : order.Nodup) :
    ((∀ i ∈ order, (r.slot i).refusal m = none) ∧ (r.selectIn m order).2 = .ok () ∧
      ∀ i, (r.selectIn m order).1.slot i = r.selected m order none i) ∨
    ∃ taken k rest e, order = taken ++ k :: rest ∧ (∀ i ∈ taken, (r.slot i).refusal m = none) ∧
      (r.slot k).refusal m = some e ∧ (r.selectIn m order).2 = .error e ∧
      ∀ i, (r.selectIn m order).1.slot i = r.selected m taken (some k) i := by
  induction order generalizing r with
  | nil => exact .inl ⟨by simp, rfl, fun i ↦ by simp [selected, selectIn]⟩
  | cons j order ih =>
    obtain ⟨hnew, hrest⟩ := List.nodup_cons.1 hnodup
    cases hrefusal : (r.slot j).refusal m with
    | some e =>
      have hselect : r.selectIn m (j :: order) = (r.setSlot j (r.slot j).release, .error e) := by
        simp only [selectIn, select, Slot.select_of_refusal hrefusal]
      refine .inr ⟨[], j, order, e, rfl, by simp, hrefusal, by rw [hselect], fun i ↦ ?_⟩
      rw [hselect]
      by_cases hi : i = j
      · subst hi
        simp [selected, slot_setSlot_self]
      · simp [selected, slot_setSlot_of_ne r hi, Ne.symm hi]
    | none =>
      obtain ⟨old, hold⟩ := Slot.select_of_admits hrefusal
      have hselect : r.selectIn m (j :: order) =
          (r.setSlot j ((r.slot j).setMode m.mode).release).selectIn m order := by
        simp only [selectIn, select, hold]
      have hkept : ∀ i ∈ order,
          (r.setSlot j ((r.slot j).setMode m.mode).release).slot i = r.slot i := by
        intro i hi
        have hne : i ≠ j := by
          rintro rfl
          exact hnew hi
        exact slot_setSlot_of_ne r hne _
      rw [hselect]
      obtain ⟨hadmits, hok, hslots⟩ | ⟨taken, k, rest, e, rfl, hadmits, hk, herror, hslots⟩ :=
        ih (r := r.setSlot j ((r.slot j).setMode m.mode).release) hrest
      · refine .inl ⟨List.forall_mem_cons.2 ⟨hrefusal, fun i hi ↦ ?_⟩, hok, fun i ↦ ?_⟩
        · rw [← hkept i hi]
          exact hadmits i hi
        · rw [hslots, selected_cons hnew (by simp)]
      · have hktaken : k ∈ taken ++ k :: rest := by simp
        refine .inr ⟨j :: taken, k, rest, e, rfl, List.forall_mem_cons.2 ⟨hrefusal, fun i hi ↦ ?_⟩,
          ?_, herror, fun i ↦ ?_⟩
        · rw [← hkept i (List.mem_append_left _ hi)]
          exact hadmits i hi
        · rw [← hkept k hktaken]
          exact hk
        · have hother : some k ≠ some j := by
            rintro ⟨⟩
            exact hnew hktaken
          rw [hslots, selected_cons (fun hj ↦ hnew (List.mem_append_left _ hj)) hother]

/-- A selection that is refused ends there. -/
theorem selectIn_append_of_error {order : List SlotIndex} {e : Error}
    (h : (r.selectIn m order).2 = .error e) (later : List SlotIndex) :
    r.selectIn m (order ++ later) = r.selectIn m order := by
  induction order generalizing r with
  | nil => cases h
  | cons j order ih =>
    rw [List.cons_append, selectIn, selectIn]
    rw [selectIn] at h
    obtain ⟨next, previous, hselect⟩ : ∃ next previous, r.select j m = (next, previous) :=
      ⟨_, _, rfl⟩
    rw [hselect] at h ⊢
    cases previous with
    | error e => rfl
    | ok old => exact ih h

theorem mem_takenOf_iff {taken rest : List SlotIndex} {k : SlotIndex}
    (h : List.finRange Limits.slots = taken ++ k :: rest) (i : SlotIndex) : i ∈ taken ↔ i < k := by
  have hordered := List.pairwise_lt_finRange Limits.slots
  have hmem := List.mem_finRange i
  rw [h] at hordered hmem
  obtain ⟨-, hlater, hearlier⟩ := List.pairwise_append.1 hordered
  constructor
  · intro hi
    exact hearlier i hi k List.mem_cons_self
  · intro hi
    obtain htaken | hrest := List.mem_append.1 hmem
    · exact htaken
    · obtain rfl | hrest := List.mem_cons.1 hrest
      · exact absurd hi (Nat.lt_irrefl i)
      · exact absurd hi (Nat.lt_asymm (List.rel_of_pairwise_cons hlater hrest))

/-- Selecting a mode in every slot. If no slot refuses it, all take it. Otherwise the slots before
the first that refuses take it and keep it, this one and those after it stay as they are, and the
result is the refusal. Beside the modes nothing changes, except that the locks that were taken on
the way are free. -/
theorem slot_selectAll_cases (r : Region) (m : ControlMode) :
    ((∀ i, (r.slot i).refusal m = none) ∧ (r.selectAll m).2 = .ok () ∧
      ∀ i, (r.selectAll m).1.slot i = ((r.slot i).setMode m.mode).release) ∨
    ∃ k e, (∀ i < k, (r.slot i).refusal m = none) ∧ (r.slot k).refusal m = some e ∧
      (r.selectAll m).2 = .error e ∧
      ∀ i, (r.selectAll m).1.slot i =
        if i < k then ((r.slot i).setMode m.mode).release
        else if k = i then (r.slot i).release
        else r.slot i := by
  obtain ⟨hadmits, hok, hslots⟩ | ⟨taken, k, rest, e, horder, hadmits, hk, herror, hslots⟩ :=
    slot_selectIn_cases (r := r) (m := m) (List.nodup_finRange Limits.slots)
  · refine .inl ⟨fun i ↦ hadmits i (List.mem_finRange i), hok, fun i ↦ (hslots i).trans ?_⟩
    exact if_pos (List.mem_finRange i)
  · refine .inr ⟨k, e, fun i hi ↦ hadmits i ((mem_takenOf_iff horder i).2 hi), hk, herror,
      fun i ↦ (hslots i).trans ?_⟩
    simp only [selected, mem_takenOf_iff horder, Option.some_inj]

/-- Whether a selection in every slot is made in all of them, or is refused and leaves every mode
word as it is. -/
def SelectsAllOrNone (r : Region) (m : ControlMode) : Prop :=
  ((r.selectAll m).2 = .ok () ∧ ∀ i, ((r.selectAll m).1.slot i).mode? = some m.mode) ∨
    (∃ e, (r.selectAll m).2 = .error e) ∧
      ∀ i, ((r.selectAll m).1.slot i).modeWord = (r.slot i).modeWord

/-- A selection is made in all slots or in none just if those before the first refusal have the mode
already. -/
theorem selectsAllOrNone_iff (r : Region) (m : ControlMode) :
    r.SelectsAllOrNone m ↔ ∀ k e, (∀ i < k, (r.slot i).refusal m = none) →
      (r.slot k).refusal m = some e → ∀ i < k, (r.slot i).mode? = some m.mode := by
  obtain ⟨hadmits, hok, hslots⟩ | ⟨k, e, hadmits, hk, herror, hslots⟩ := r.slot_selectAll_cases m
  · refine iff_of_true (.inl ⟨hok, fun i ↦ ?_⟩) fun k e _ hk ↦ ?_
    · rw [hslots i]
      exact Mode.ofCode?_code m.mode
    · rw [hadmits k] at hk
      cases hk
  · constructor
    · rintro (⟨hok, -⟩ | ⟨-, hkept⟩) k' e' hadmits' hk' i hi
      · rw [herror] at hok
        cases hok
      · have hfirst : k' = k := by
          by_contra hne
          obtain hlt | hlt := Nat.lt_or_gt_of_ne fun hval ↦ hne (Fin.ext hval)
          · rw [hadmits k' hlt] at hk'
            cases hk'
          · rw [hadmits' k hlt] at hk
            cases hk
        subst hfirst
        have hword := hkept i
        rw [hslots i, if_pos hi] at hword
        rw [Slot.mode?, ← hword]
        exact Mode.ofCode?_code m.mode
    · intro hsame
      refine .inr ⟨⟨e, herror⟩, fun i ↦ ?_⟩
      rw [hslots i]
      split_ifs with hi
      · rw [Slot.setMode_eq_self (hsame k e hadmits hk i hi)]
        rfl
      · rfl
      · rfl

end Region

namespace Job

variable {α β : Type} {w : Workplace} {t : Halt}

theorem runIn_bind (x : Job α) (f : α → Job β) (w : Workplace) :
    (x >>= f).runIn w = match x.runIn w with
      | (.ok a, w) => (f a).runIn w
      | (.error t, w) => (.error t, w) := by
  change (match x.runIn w with | (result, w) => ExceptT.bindCont f result w) = _
  obtain ⟨result, next⟩ := x.runIn w
  cases result <;> rfl

theorem runIn_succeeding {ε : Type} (trouble : ε → Trouble) (x : Except ε α) (w : Workplace) :
    (succeeding trouble x).runIn w = (x.mapError fun e ↦ .failure (trouble e), w) := by
  cases x <;> rfl

/-- A job that never ends early for a certain reason. -/
def Avoids (job : Job α) (t : Halt) : Prop := ∀ w, (job.runIn w).1 ≠ .error t

theorem Avoids.bind {x : Job α} {f : α → Job β} (hx : x.Avoids t) (hf : ∀ a, (f a).Avoids t) :
    (x >>= f).Avoids t := by
  intro w
  have hfirst := hx w
  obtain ⟨result, next, hrun⟩ : ∃ result next, x.runIn w = (result, next) := ⟨_, _, rfl⟩
  rw [runIn_bind]
  rw [hrun] at hfirst ⊢
  cases result with
  | error u =>
    rintro ⟨⟩
    exact hfirst rfl
  | ok a => exact hf a next

/-- A job that ends early for a reason that its first part avoids. -/
theorem exists_of_bind {x : Job α} {f : α → Job β} {final : Workplace} (hx : x.Avoids t)
    (h : (x >>= f).runIn w = (.error t, final)) :
    ∃ a next, x.runIn w = (.ok a, next) ∧ (f a).runIn next = (.error t, final) := by
  have hfirst := hx w
  obtain ⟨result, next, hrun⟩ : ∃ result next, x.runIn w = (result, next) := ⟨_, _, rfl⟩
  rw [runIn_bind, hrun] at h
  rw [hrun] at hfirst
  cases result with
  | error u =>
    cases h
    exact absurd rfl hfirst
  | ok a => exact ⟨a, next, hrun, h⟩

theorem avoids_pure (a : α) (t : Halt) : Avoids (pure a) t := by
  rintro w ⟨⟩

theorem avoids_throw {u : Halt} (h : u ≠ t) : Avoids (throw u : Job α) t := by
  rintro w ⟨⟩
  exact h rfl

theorem avoids_succeeding {ε : Type} {trouble : ε → Trouble} (h : ∀ e, .failure (trouble e) ≠ t)
    (x : Except ε α) : (succeeding trouble x).Avoids t := by
  cases x with
  | ok a => exact avoids_pure a t
  | error e => exact avoids_throw (h e)

theorem avoids_modify (f : Workplace → Workplace) (t : Halt) : Avoids (modify f : Job Unit) t := by
  rintro w ⟨⟩

theorem avoids_get (t : Halt) : Avoids (get : Job Workplace) t := by
  rintro w ⟨⟩

theorem avoids_log (n : Notice) (t : Halt) : (log n).Avoids t := by
  refine (avoids_get t).bind fun w ↦ ?_
  split_ifs
  · cases w.logFile with
    | none => exact avoids_modify _ t
    | some path =>
      cases hfound : w.disk.find path with
      | error e =>
        simp only [hfound]
        exact avoids_pure _ t
      | ok name =>
        simp only [hfound]
        exact avoids_modify _ t
  · exact avoids_pure _ t

theorem avoids_forM_log (notices : List Notice) (t : Halt) : Avoids (notices.forM log) t := by
  induction notices with
  | nil => exact avoids_pure _ t
  | cons n notices ih => exact (avoids_log n t).bind fun _ ↦ ih

theorem avoids_noted (x : Noted α) (t : Halt) : (noted x).Avoids t :=
  (avoids_forM_log x.notices t).bind fun _ ↦ avoids_pure _ t

/-- Notices do not keep a result back. -/
theorem exists_runIn_noted (x : Noted α) (w : Workplace) :
    ∃ next, (noted x).runIn w = (.ok x.value, next) := by
  have hlogged (t : Halt) := avoids_forM_log x.notices t w
  unfold noted
  rw [runIn_bind]
  obtain ⟨result, next, hrun⟩ : ∃ result next, (x.notices.forM log).runIn w = (result, next) :=
    ⟨_, _, rfl⟩
  rw [hrun] at hlogged ⊢
  cases result with
  | error t => exact absurd rfl (hlogged t)
  | ok u => exact ⟨next, rfl⟩

theorem avoids_keep (name : String) (r : Region) (t : Halt) : (keep name r).Avoids t :=
  ((avoids_get t).bind fun _ ↦ avoids_pure _ t).bind fun _ ↦ avoids_modify _ t

theorem avoids_waitUntil (unlocked : Bool) (h : .blocked ≠ t) : (waitUntil unlocked).Avoids t := by
  unfold waitUntil
  cases unlocked with
  | false => exact avoids_throw h
  | true => exact avoids_pure _ t

theorem avoids_paint (p : Paint) (s : String) (t : Halt) : (paint p s).Avoids t :=
  (avoids_get t).bind fun _ ↦ avoids_pure _ t

theorem runIn_loadSchedule (path : String) (w : Workplace) :
    ((loadSchedule path).runIn w).2 = w := by
  have hdisk : disk.runIn w = (.ok w.disk, w) := rfl
  unfold loadSchedule
  simp only [runIn_bind, hdisk, runIn_succeeding]
  cases w.disk.find path with
  | error e => rfl
  | ok name => cases Schedule.ofDocument (w.disk.leading name) <;> rfl

/-- A schedule is loaded that its file spells. -/
theorem runIn_loadSchedule_of_read {path name : String} {s : Schedule}
    (hfind : w.disk.find path = .ok name)
    (hread : Schedule.ofDocument (w.disk.leading name) = .ok s) :
    (loadSchedule path).runIn w = (.ok s, w) := by
  have hdisk : disk.runIn w = (.ok w.disk, w) := rfl
  unfold loadSchedule
  simp only [runIn_bind, hdisk, runIn_succeeding, hfind, hread, Except.mapError]

theorem avoids_loadSchedule (path : String) (e : Error) :
    (loadSchedule path).Avoids (.failure (.startingReplay e)) := by
  refine ((avoids_get _).bind fun _ ↦ avoids_pure _ _).bind fun d ↦ ?_
  refine (avoids_succeeding (by rintro r ⟨⟩) _).bind fun name ↦ ?_
  exact avoids_succeeding (by rintro r ⟨⟩) _

theorem runIn_openRegion (path : String) (w : Workplace) :
    (openRegion path).runIn w = match w.disk.openRegion path with
      | .ok name => (.ok (name, (w.disk.file name).image), w)
      | .error e => (.error (.failure (.mapping path e)), w) := by
  have hdisk : disk.runIn w = (.ok w.disk, w) := rfl
  unfold openRegion
  simp only [runIn_bind, hdisk, runIn_succeeding]
  cases w.disk.openRegion path <;> rfl

theorem runIn_keep (name : String) (r : Region) (w : Workplace) :
    (keep name r).runIn w =
      (.ok (), { w with disk := w.disk.put name { w.disk.file name with image := r } }) := rfl

/-- The end of a replay. -/
def closeReplay (name : String) (round : Round Replayer) : Job Unit := do
  let p := round.state
  keep name round.region.endReplay
  let verdict ←
    if p.isExhausted && p.desyncs = 0 then paint .greenBold "Replayed"
    else paint .redBold "Diverged"
  print (verdict ++ " " ++ toString p.replayed ++ " events, " ++ toString p.desyncs ++
    " desyncs, " ++ toString p.remaining ++ " not replayed")

/-- The part of a replay that follows its start. -/
def conductReplay (name : String) (r : Region) (p : Replayer) (unlocked : Bool) (patience : Nat) :
    Job Unit := do
  waitUntil unlocked
  let round ← noted (r.replay p)
  keep name round.region
  unless round.isComplete do throw .crash
  unless round.state.isExhausted do log (.stalled patience round.state.remaining)
  closeReplay name round

theorem replaySchedule_eq (path schedule : String) (perSlot : Bool) (patience : Nat) :
    replaySchedule path schedule perSlot patience = (do
      let schedule ← loadSchedule schedule
      let (name, r) ← openRegion path
      let replayer ← noted (Replayer.ofSchedule schedule)
      let reached := r.reached (List.finRange Limits.slots)
      keep name (r.selectIn .replay reached).1
      succeeding .startingReplay (r.selectIn .replay reached).2
      conductReplay name (r.selectIn .replay reached).1
        (if perSlot then replayer.perSlot else replayer) (reached.length = Limits.slots)
        patience) := rfl

theorem avoids_closeReplay (name : String) (round : Round Replayer) (t : Halt) :
    (closeReplay name round).Avoids t := by
  refine (avoids_keep _ _ _).bind fun _ ↦ ?_
  split_ifs <;> exact (avoids_paint _ _ _).bind fun _ ↦ avoids_modify _ _

/-- A replay that has started does not fail to start. -/
theorem avoids_conductReplay (name : String) (r : Region) (p : Replayer) (unlocked : Bool)
    (patience : Nat) (e : Error) :
    (conductReplay name r p unlocked patience).Avoids (.failure (.startingReplay e)) := by
  refine (avoids_waitUntil _ (by rintro ⟨⟩)).bind fun _ ↦ (avoids_noted _ _).bind fun round ↦
    (avoids_keep _ _ _).bind fun _ ↦ ?_
  have hclose : Avoids (do
      unless round.state.isExhausted do log (.stalled patience round.state.remaining)
      closeReplay name round) (.failure (.startingReplay e)) := by
    cases round.state.isExhausted with
    | false => exact (avoids_log _ _).bind fun _ ↦ avoids_closeReplay name round _
    | true => exact avoids_closeReplay name round _
  cases round.isComplete with
  | false => exact (avoids_throw (by rintro ⟨⟩)).bind fun _ ↦ hclose
  | true => exact hclose

theorem avoids_openRegion (path : String) (e : Error) :
    (openRegion path).Avoids (.failure (.startingReplay e)) := by
  intro w
  rw [runIn_openRegion]
  cases w.disk.openRegion path <;> rintro ⟨⟩

/-- A replay fails to start if a slot refuses it, once the schedule is loaded and the region is
open. -/
theorem replaySchedule_refused {path schedule name : String} {s : Schedule} {e : Error}
    (hload : (loadSchedule schedule).runIn w = (.ok s, w))
    (hopen : w.disk.openRegion path = .ok name)
    (hrefused : let r := (w.disk.file name).image
      (r.selectIn .replay (r.reached (List.finRange Limits.slots))).2 = .error e)
    (perSlot : Bool) (patience : Nat) :
    ∃ final, (replaySchedule path schedule perSlot patience).runIn w =
      (.error (.failure (.startingReplay e)), final) := by
  obtain ⟨next, hnoted⟩ := exists_runIn_noted (Replayer.ofSchedule s) w
  dsimp only at hrefused
  simp only [replaySchedule_eq, runIn_bind, hload, runIn_openRegion, hopen, hnoted, runIn_keep,
    runIn_succeeding, hrefused, Except.mapError]
  exact ⟨_, rfl⟩

/-- A replay that fails to start keeps what the selection has done up to the refusal. -/
theorem replaySchedule_failed {path schedule : String} {perSlot : Bool} {patience : Nat}
    {w final : Workplace} {e : Error}
    (h : (replaySchedule path schedule perSlot patience).runIn w =
      (.error (.failure (.startingReplay e)), final)) :
    ∃ (name : String) (d : Disk), w.disk.openRegion path = .ok name ∧
      let r := (w.disk.file name).image
      (r.selectAll .replay).2 = .error e ∧
        final.disk = d.put name { d.file name with image := (r.selectAll .replay).1 } := by
  rw [replaySchedule_eq] at h
  obtain ⟨s, w1, hload, hopening⟩ := exists_of_bind (avoids_loadSchedule schedule e) h
  have hkept := runIn_loadSchedule schedule w
  rw [hload] at hkept
  subst hkept
  obtain ⟨⟨name, r⟩, w2, hopen, hnoting⟩ := exists_of_bind (avoids_openRegion path e) hopening
  obtain ⟨replayer, w3, -, hkeeping⟩ := exists_of_bind (avoids_noted _ _) hnoting
  obtain ⟨⟨⟩, w4, hkeep, hstart⟩ := exists_of_bind (avoids_keep _ _ _) hkeeping
  rw [runIn_keep] at hkeep
  obtain ⟨-, rfl⟩ := Prod.mk.inj hkeep
  rw [runIn_bind, runIn_succeeding] at hstart
  rw [runIn_openRegion] at hopen
  cases hname : w1.disk.openRegion path with
  | error e =>
    rw [hname] at hopen
    cases hopen
  | ok name' =>
    rw [hname] at hopen
    cases hopen
    refine ⟨name, w3.disk, rfl, ?_⟩
    cases hstarted : ((w1.disk.file name).image.selectIn .replay
        ((w1.disk.file name).image.reached (List.finRange Limits.slots))).2 with
    | ok u =>
      rw [hstarted] at hstart
      exact absurd (congrArg Prod.fst hstart) (avoids_conductReplay name _ _ _ patience e _)
    | error u =>
      rw [hstarted] at hstart
      cases hstart
      have hall := Region.selectIn_append_of_error hstarted
        ((List.finRange Limits.slots).dropWhile fun i ↦
          ((w1.disk.file name).image.slot i).isUnlocked)
      rw [Region.reached, List.takeWhile_append_dropWhile] at hall
      intro r
      have hselected : r.selectAll .replay =
          r.selectIn .replay (r.reached (List.finRange Limits.slots)) := hall
      rw [hselected]
      exact ⟨hstarted, rfl⟩

end Job

/-- A mode is selected in one slot after another, up to the first that refuses it. If none does, all
take it. Otherwise the slots before that one keep it, and the others keep the modes that they had:
a selection is made in all slots or in none just if those before the first refusal had the mode
before. A replay whose selection is refused leaves the region like that on the disk, with the slots
before the refusal under the control of a replay that does not take place. -/
theorem selected_up_to_refusal (r : Region) (m : ControlMode) :
    (((∀ i, (r.slot i).refusal m = none) ∧ (r.selectAll m).2 = .ok () ∧
        ∀ i, (r.selectAll m).1.slot i = ((r.slot i).setMode m.mode).release) ∨
      ∃ k e, (∀ i < k, (r.slot i).refusal m = none) ∧ (r.slot k).refusal m = some e ∧
        (r.selectAll m).2 = .error e ∧
        ∀ i, (r.selectAll m).1.slot i =
          if i < k then ((r.slot i).setMode m.mode).release
          else if k = i then (r.slot i).release
          else r.slot i) ∧
    (r.SelectsAllOrNone m ↔ ∀ k e, (∀ i < k, (r.slot i).refusal m = none) →
      (r.slot k).refusal m = some e → ∀ i < k, (r.slot i).mode? = some m.mode) ∧
    ∀ (path schedule : String) (perSlot : Bool) (patience : Nat) (w final : Workplace) (e : Error),
      (Job.replaySchedule path schedule perSlot patience).runIn w =
        (.error (.failure (.startingReplay e)), final) →
      ∃ (name : String) (d : Disk), w.disk.openRegion path = .ok name ∧
        let onDisk := (w.disk.file name).image
        (onDisk.selectAll .replay).2 = .error e ∧
          final.disk = d.put name { d.file name with image := (onDisk.selectAll .replay).1 } := by
  refine ⟨r.slot_selectAll_cases m, r.selectsAllOrNone_iff m, ?_⟩
  intro path schedule perSlot patience w final e hfailed
  exact Job.replaySchedule_failed hfailed

/-- A program in slot `i` has finished, and the other slots have not been used. -/
def finishedAt (i : SlotIndex) : Region :=
  (Scene.after [.act i (.attach true 16), .act i (.select .replay), .act i .finish]).region

/-- The file of a schedule without events. -/
def emptySchedule : File :=
  .ofBytes (utf8 "\x7b\"layout_version\": 2, \"events\": []\x7d")

/-- A replay of that schedule is refused in the second slot and has taken control of the first. -/
theorem selected_up_to_refusal_finished :
    let d := (Disk.keeping (finishedAt 1)).put "s" emptySchedule
    ∃ final, (Job.replaySchedule "r" "s" false 0).runIn ⟨d, "", "", false, .warn, none⟩ =
        (.error (.failure (.startingReplay (.invalidTransition .finished .replayActive))), final) ∧
      let r := (final.disk.file "r").image
      r = ((finishedAt 1).selectAll .replay).1 ∧ (r.slot 0).mode? = some .replayActive ∧
        (r.slot 1).mode? = some .finished ∧ (r.slot 2).mode? = some .uninitialized := by
  intro d
  have himage : (d.file "r").image = finishedAt 1 := by
    rw [Disk.file_put, if_neg (by simp), Disk.file_keeping]
    rfl
  have hopen : d.openRegion "r" = .ok "r" :=
    Disk.openRegion_put_of_ne (Disk.openRegion_keeping (by decide +kernel)) (by decide) _
  have hfind : d.find "s" = .ok "s" :=
    Disk.find_put (Disk.place_keeping _ (by decide)) (by decide +kernel) _
  have hreads : (Schedule.ofDocument (d.leading "s")).toOption.isSome := by decide +kernel
  obtain ⟨s, hread⟩ := exists_eq_ok hreads
  have hrefused : ((finishedAt 1).selectIn .replay
      ((finishedAt 1).reached (List.finRange Limits.slots))).2 =
        .error (.invalidTransition .finished .replayActive) := by
    decide +kernel
  obtain ⟨final, hrun⟩ := Job.replaySchedule_refused
    (w := ⟨d, "", "", false, .warn, none⟩) (Job.runIn_loadSchedule_of_read hfind hread) hopen
    (himage ▸ hrefused) false 0
  obtain ⟨-, -, hfailed⟩ := selected_up_to_refusal (finishedAt 1) .replay
  obtain ⟨name, d', hname, -, hdisk⟩ := hfailed "r" "s" false 0 _ final _ hrun
  obtain rfl : "r" = name := Except.ok.inj (hopen.symm.trans hname)
  have hleft : (final.disk.file "r").image = ((finishedAt 1).selectAll .replay).1 := by
    rw [hdisk, Disk.file_put, if_pos ⟨rfl, by decide +kernel⟩]
    exact congrArg (fun r : Region ↦ (r.selectAll .replay).1) himage
  refine ⟨final, hrun, ?_⟩
  rw [hleft]
  exact ⟨rfl, by decide +kernel, by decide +kernel, by decide +kernel⟩

/-- A selection that is refused in the second slot has changed the first. -/
theorem not_forall_selected_all_or_none :
    ¬ ∀ (r : Region) (m : ControlMode), r.SelectsAllOrNone m := by
  intro hall
  have hfinished : (((finishedAt 1).selectAll .explore).1.slot 1).mode? = some .finished := by
    decide +kernel
  have hselected : (((finishedAt 1).selectAll .explore).1.slot 0).modeWord = 4 := by
    decide +kernel
  have hunused : ((finishedAt 1).slot 0).modeWord = 0 := by decide +kernel
  obtain ⟨-, hmode⟩ | ⟨-, hword⟩ := hall (finishedAt 1) .explore
  · have hexplored := hmode 1
    rw [hfinished] at hexplored
    cases hexplored
  · have hkept := hword 0
    rw [hselected, hunused] at hkept
    exact absurd hkept (by decide)

end Turnstile
