import Turnstile.Proofs.Arena
import Turnstile.Proofs.Handshake

/-!
# The modes of a slot

Whatever reporters and the scheduler do, and whatever state the locks are in, the mode word of a
slot holds a known mode and follows `Arena.Becomes`: a first report, the end of a program, an
admitted selection and the end of the replay are all that changes it. `Arena.becomes_step` says so
of one move, and `Arena.known_run` of a whole run. The end of the replay is final
(`Arena.replayEnded_run`), and no report that is made after it waits for the scheduler
(`Arena.awaits_of_run`).

`Arena.mode_machine` puts this together for every run from a fresh region.
-/

set_option autoImplicit false
set_option relaxedAutoImplicit false

namespace Turnstile

namespace Slot

variable {s : Slot} {old : Mode}

theorem mode?_congr {s' : Slot} (h : s'.modeWord = s.modeWord) : s'.mode? = s.mode? :=
  congrArg Mode.ofCode? h

theorem mode?_exchange (h : s.mode? = some old) (x : Exchange) :
    (s.exchange x).mode? = some old ∨ old = x.old ∧ (s.exchange x).mode? = some x.new := by
  unfold exchange
  split_ifs with hseen
  · rw [h] at hseen
    exact .inr ⟨Option.some.inj hseen, Mode.ofCode?_code x.new⟩
  · exact .inl h

/-- A selection is made if the mode admits it, and is refused otherwise. -/
theorem select_of_mode? (h : s.mode? = some old) (m : ControlMode) :
    if old.admits m.mode then (s.select m).1.mode? = some m.mode ∧ (s.select m).2 = .ok old
    else (s.select m).1.mode? = some old ∧
      (s.select m).2 = .error (.invalidTransition old m.mode) := by
  have hmode : s.acquire.mode = .ok old := by
    have hacquired : s.acquire.mode? = some old := h
    rw [mode, hacquired]
  unfold select guarded
  simp only [hmode]
  split_ifs
  · exact ⟨Mode.ofCode?_code m.mode, rfl⟩
  · exact ⟨h, rfl⟩

/-- A selection that fails leaves the mode word as it is. -/
theorem modeWord_select_of_error {m : ControlMode} {e : Error} (h : (s.select m).2 = .error e) :
    (s.select m).1.modeWord = s.modeWord := by
  cases hmode : s.mode? with
  | none =>
    have hacquired : s.acquire.mode = .error (.unknownMode s.modeWord) := by
      have hunknown : s.acquire.mode? = none := hmode
      rw [mode, hunknown]
      rfl
    simp only [select, guarded, hacquired]
    rfl
  | some old =>
    have hselect := select_of_mode? hmode m
    split_ifs at hselect with hadmits
    · rw [hselect.2] at h
      cases h
    · exact (Mode.code_of_ofCode? hselect.1).symm.trans (Mode.code_of_ofCode? hmode)

end Slot

namespace Mode

theorem not_admits_replayEnded (m : ControlMode) : ¬ replayEnded.admits m.mode := by
  cases m <;> exact Bool.false_ne_true

theorem isControlled_iff {m : Mode} : m.isControlled ↔ m = .replayActive ∨ m = .exploreActive := by
  cases m <;> decide

/-- After its program has finished, a slot can only record. -/
theorem eq_record_of_admits {m : ControlMode} (h : finished.admits m.mode) : m = .record := by
  cases m with
  | record => rfl
  | replay | explore => exact absurd h Bool.false_ne_true

end Mode

theorem ControlMode.mode_injective : Function.Injective ControlMode.mode := by
  intro m k hmode
  cases m <;> cases k <;> first | rfl | cases hmode

namespace Region

variable {r : Region} {i : SlotIndex} {old : Mode}

/-- To one slot, a selection in some slots is nothing or an admitted selection. -/
theorem mode?_selectIn (h : (r.slot i).mode? = some old) (m : ControlMode)
    (order : List SlotIndex) :
    ((r.selectIn m order).1.slot i).mode? = some old ∨
      i ∈ order ∧ old.admits m.mode ∧ ((r.selectIn m order).1.slot i).mode? = some m.mode := by
  induction order generalizing r old with
  | nil => exact .inl h
  | cons j order ih =>
    obtain ⟨s, answer, hselect⟩ : ∃ s answer, (r.slot j).select m = (s, answer) := ⟨_, _, rfl⟩
    have hregion : r.select j m = (r.setSlot j s, answer) := by rw [select, hselect]
    by_cases hslot : i = j
    · subst hslot
      have hself : (r.setSlot i s).slot i = s := slot_setSlot_self r i s
      have hmode := Slot.select_of_mode? h m
      rw [hselect] at hmode
      unfold selectIn
      rw [hregion]
      split_ifs at hmode with hadmits
      · -- the slot may come again, in the mode that it has now
        obtain ⟨hnew, rfl⟩ := hmode
        refine .inr ⟨List.mem_cons_self, hadmits, ?_⟩
        rw [← hself] at hnew
        obtain hkept | ⟨-, -, hagain⟩ := ih hnew
        · exact hkept
        · exact hagain
      · obtain ⟨hkept, rfl⟩ := hmode
        left
        show ((r.setSlot i s).slot i).mode? = some old
        rwa [hself]
    · have hother : ((r.setSlot j s).slot i).mode? = some old := by
        rwa [slot_setSlot_of_ne r hslot]
      unfold selectIn
      rw [hregion]
      cases answer with
      | error e => exact .inl hother
      | ok previous =>
        obtain hkept | ⟨hmem, hadmits, hnew⟩ := ih hother
        · exact .inl hkept
        · exact .inr ⟨List.mem_cons_of_mem j hmem, hadmits, hnew⟩

end Region

/-! ### Reports after the end of the replay -/

namespace Reported

/-- Whether a piece of a report leaves it waiting for the scheduler. -/
def awaits (x : Reported) : Bool :=
  match x.progress with
  | .ended _ => false
  | .paused w => w.phase.awaits

theorem polled_of_not_awaits {x : Reported} (h : x.awaits = false) : x.polled = x := by
  obtain ⟨r, s, _ | ⟨phase, pace⟩⟩ := x
  · rfl
  · cases phase with
    | publishing t kind | requesting => rfl
    | polling => exact absurd h.symm Bool.false_ne_true

end Reported

namespace Reporter

variable {s : Slot}

theorem awaits_proceed (hmode : s.mode? = some .replayEnded) (r : Reporter) (kind : EventKind) :
    (r.proceed s kind).awaits = false := by
  unfold proceed
  rw [Slot.enter_eq hmode]
  simp [Mode.entered, Mode.suspends, Reported.awaits]

theorem awaits_publish (hmode : s.mode? = some .replayEnded) (r : Reporter) (t : Task)
    (kind : EventKind) (pace : Backoff) : (r.publish s t kind pace).awaits = false := by
  unfold publish
  split_ifs
  · have hshown : (s.publish t).mode? = some .replayEnded := hmode
    exact awaits_proceed hshown r kind
  · rfl

/-- After the end of the replay a report waits at most for the lock of the call word. -/
theorem awaits_announce (hmode : s.mode? = some .replayEnded) (r : Reporter) (id : Int64)
    (payload : Payload) (stamp : UInt64) : (r.announce s id payload stamp).awaits = false := by
  unfold announce
  cases htask : s.task? id with
  | none => rfl
  | some t =>
    have hlogged : (s.record (r.event s t payload stamp)).mode? = some .replayEnded := hmode
    exact awaits_publish hlogged _ _ _ _

theorem awaits_resume (hmode : s.mode? = some .replayEnded) (r : Reporter) {w : Wait}
    (hw : w.phase.awaits = false) : (r.resume s w).awaits = false := by
  obtain ⟨phase, pace⟩ := w
  cases phase with
  | requesting | polling => exact absurd hw.symm Bool.false_ne_true
  | publishing t kind =>
    have hpublish := awaits_publish hmode r t kind pace
    show (r.publish s t kind pace).polled.awaits = false
    rw [Reported.polled_of_not_awaits hpublish]
    exact hpublish

end Reporter

namespace Station

theorem awaits_settle {x : Reported} {paused : List Happening} {seat : Seat}
    (hseat : (settle x paused).1.seat = some seat) : seat.awaits = x.awaits := by
  obtain ⟨r, s, _ | w⟩ := x
  · obtain rfl := Option.some.inj hseat
    rfl
  · obtain rfl := Option.some.inj hseat
    rfl

/-- After the end of the replay a report that waits for the scheduler did so before. -/
theorem awaits_of_act {i : SlotIndex} {s : Slot} {earlier seat : Seat} {a : Act}
    (hmode : s.mode? = some .replayEnded) (ha : ∀ m, a ≠ .select m)
    (hseat : (act i ⟨s, some earlier⟩ a).1.seat = some seat) (hawaits : seat.awaits) :
    earlier.awaits := by
  by_contra hearlier
  have hfree : seat.awaits = false := by
    have hacted := acted_act i s earlier ha
    generalize act i ⟨s, some earlier⟩ a = q at hacted hseat
    cases hacted with
    | still =>
      obtain rfl := Option.some.inj hseat
      exact Bool.eq_false_iff.2 hearlier
    | left => cases hseat
    | worked | finished =>
      obtain rfl := Option.some.inj hseat
      rfl
    | reported r id payload stamp =>
      exact (awaits_settle hseat).trans (r.awaits_announce hmode id payload stamp)
    | polled r w =>
      have hw : w.phase.awaits = false := Bool.eq_false_iff.2 hearlier
      exact (awaits_settle hseat).trans (r.awaits_resume hmode hw)
  rw [hfree] at hawaits
  exact absurd hawaits Bool.false_ne_true

end Station

namespace Arena

variable {x : Arena} {i : SlotIndex} {old : Mode} {v : Move}

/-! ### One move -/

/-- A report reaches the mode word of slot `i`. -/
inductive Reports (x : Arena) (i : SlotIndex) : Move → Prop
  | begins {n : Nat} {r : Reporter} (id : Int64) (payload : Payload) (stamp : UInt64)
    (hseat : x.seats n = some ⟨r, none⟩) (hslot : r.slot = i) :
    Reports x i (.act n (.report id payload stamp))
  /-- It was held up on its way there. -/
  | goesOn {n : Nat} {r : Reporter} {w : Wait} (hseat : x.seats n = some ⟨r, some w⟩)
    (hslot : r.slot = i) (hheld : w.phase.awaits = false) : Reports x i (.act n .poll)
  | exchanges : Reports x i (.exchange i .first)

/-- A program at slot `i` ends. -/
inductive Finishes (x : Arena) (i : SlotIndex) : Move → Prop
  | ends {n : Nat} {r : Reporter} (hseat : x.seats n = some ⟨r, none⟩) (hslot : r.slot = i) :
    Finishes x i (.act n .finish)
  | exchanges {seen : Mode} (controlled : seen.isControlled) :
    Finishes x i (.exchange i (.last seen controlled))

/-- The scheduler selects mode `m` in some slots, slot `i` among them. -/
def Move.Selects (v : Move) (m : ControlMode) (i : SlotIndex) : Prop :=
  ∃ order, v = .select m order ∧ i ∈ order

/-- What the mode of slot `i` can become by a move. -/
inductive Becomes (x : Arena) (i : SlotIndex) (v : Move) (old : Mode) : Mode → Prop
  | still : Becomes x i v old old
  | report (hold : old = .uninitialized) (hv : x.Reports i v) : Becomes x i v old .firstEvent
  | finish (hold : old.isControlled) (hv : x.Finishes i v) : Becomes x i v old .finished
  | select {m : ControlMode} (hold : old.admits m.mode) (hv : v.Selects m i) :
    Becomes x i v old m.mode
  | endReplay (hv : v = .endReplay) : Becomes x i v old .replayEnded

/-- What a reporter's exchange makes of the mode. -/
theorem Becomes.of_exchange {s : Slot} (hmode : s.mode? = some old) (e : Exchange)
    (hfirst : e = .first → x.Reports i v)
    (hlast : ∀ seen controlled, e = .last seen controlled → x.Finishes i v) :
    ∃ new, (s.exchange e).mode? = some new ∧ x.Becomes i v old new := by
  obtain hkept | ⟨hold, hnew⟩ := Slot.mode?_exchange hmode e
  · exact ⟨old, hkept, .still⟩
  · refine ⟨e.new, hnew, ?_⟩
    cases e with
    | first => exact .report hold (hfirst rfl)
    | last seen controlled => exact .finish (hold ▸ controlled) (hlast seen controlled rfl)

/-- What a reporter does to the mode of its slot. -/
theorem becomes_act {n : Nat} {seat : Seat} (hseat : x.seats n = some seat)
    (hslot : seat.reporter.slot = i) (hmode : (x.region.slot i).mode? = some old) {a : Act}
    (ha : ∀ m, a ≠ .select m) :
    ∃ new, (Station.act i ⟨x.region.slot i, some seat⟩ a).1.slot.mode? = some new ∧
      x.Becomes i (.act n a) old new := by
  obtain hkept | ⟨e, hexchanges, hexchanged⟩ := Station.keeps_act i (x.region.slot i) seat ha
  · exact ⟨old, (Slot.mode?_congr hkept.word).trans hmode, .still⟩
  · rw [Slot.mode?_congr hexchanged.word]
    apply Becomes.of_exchange hmode e
    · rintro rfl
      cases hexchanges with
      | report id payload stamp => exact .begins id payload stamp hseat hslot
      | poll hheld => exact .goesOn hseat hslot hheld
    · rintro seen controlled rfl
      cases hexchanges with
      | finish => exact .ends hseat hslot

/-- A move takes a known mode along `Becomes`. -/
theorem becomes_step (hmode : (x.region.slot i).mode? = some old) (v : Move) :
    ∃ new, ((x.step v).1.region.slot i).mode? = some new ∧ x.Becomes i v old new := by
  have hwritten {j : SlotIndex} {s : Slot} (hself : j = i → ∃ new, s.mode? = some new ∧
      x.Becomes i v old new) : ∃ new, ((x.region.setSlot j s).slot i).mode? = some new ∧
      x.Becomes i v old new := by
    by_cases hslot : i = j
    · subst hslot
      rw [Region.slot_setSlot_self]
      exact hself rfl
    · rw [Region.slot_setSlot_of_ne x.region hslot]
      exact ⟨old, hmode, .still⟩
  cases v with
  | attach n j enforcing spinLimit =>
    refine ⟨old, ?_, .still⟩
    rw [step, region_attach]
    exact hmode
  | act n a =>
    by_cases hnobody : x.seats n = none ∨ ∃ m, a = .select m
    · rw [step, act_of_none hnobody]
      exact ⟨old, hmode, .still⟩
    · push Not at hnobody
      obtain ⟨hseat, ha⟩ := hnobody
      obtain ⟨seat, hseat⟩ := Option.ne_none_iff_exists'.1 hseat
      rw [step, act_of_seat hseat ha]
      apply hwritten
      intro hslot
      rw [hslot]
      exact becomes_act hseat hslot hmode ha
  | exchange j e =>
    apply hwritten
    rintro rfl
    apply Becomes.of_exchange hmode e
    · rintro rfl
      exact .exchanges
    · rintro seen controlled rfl
      exact .exchanges controlled
  | select m order =>
    obtain hkept | ⟨hmem, hadmits, hnew⟩ :=
      Region.mode?_selectIn hmode m (x.region.reached order)
    · exact ⟨old, hkept, .still⟩
    · exact ⟨m.mode, hnew, .select hadmits ⟨order, rfl, (List.takeWhile_sublist _).subset hmem⟩⟩
  | endReplay =>
    refine ⟨.replayEnded, ?_, .endReplay rfl⟩
    show (x.region.endReplay.slot i).mode? = _
    rw [Region.slot_endReplay]
    exact Mode.ofCode?_code .replayEnded
  | round order policy state =>
    have hword := Region.modeWord_roundOver policy (x.region.reached order) .none x.region state i
    exact ⟨old, (Slot.mode?_congr hword).trans hmode, .still⟩
  | setLock j word | setCallLock j word =>
    apply hwritten
    rintro rfl
    exact ⟨old, hmode, .still⟩

namespace Becomes

variable {new : Mode}

theorem ne_uninitialized (h : x.Becomes i v old new) (hchanged : new ≠ old) :
    new ≠ .uninitialized := by
  intro hnew
  cases h with
  | still => exact hchanged rfl
  | report | finish | endReplay => cases hnew
  | @select m => cases m <;> cases hnew

theorem of_firstEvent (h : x.Becomes i v old new) (hchanged : new ≠ old)
    (hnew : new = .firstEvent) : old = .uninitialized ∧ x.Reports i v := by
  cases h with
  | still => exact absurd rfl hchanged
  | report hold hv => exact ⟨hold, hv⟩
  | finish | endReplay => cases hnew
  | @select m => cases m <;> cases hnew

theorem of_mode (h : x.Becomes i v old new) (hchanged : new ≠ old) {m : ControlMode}
    (hnew : new = m.mode) : v.Selects m i ∧ (old = .finished → m = .record) := by
  cases h with
  | still => exact absurd rfl hchanged
  | report | finish | endReplay => cases m <;> cases hnew
  | select hadmits hv =>
    obtain rfl := ControlMode.mode_injective hnew
    refine ⟨hv, ?_⟩
    rintro rfl
    exact Mode.eq_record_of_admits hadmits

theorem of_finished (h : x.Becomes i v old new) (hchanged : new ≠ old)
    (hnew : new = .finished) : (old = .replayActive ∨ old = .exploreActive) ∧ x.Finishes i v := by
  cases h with
  | still => exact absurd rfl hchanged
  | report | endReplay => cases hnew
  | finish hcontrolled hv => exact ⟨Mode.isControlled_iff.1 hcontrolled, hv⟩
  | @select m => cases m <;> cases hnew

theorem of_replayEnded (h : x.Becomes i v old new) (hchanged : new ≠ old)
    (hnew : new = .replayEnded) : v = .endReplay := by
  cases h with
  | still => exact absurd rfl hchanged
  | report | finish => cases hnew
  | endReplay hv => exact hv
  | @select m => cases m <;> cases hnew

/-- Nothing leads out of the end of the replay. -/
theorem eq_replayEnded (h : x.Becomes i v .replayEnded new) : new = .replayEnded := by
  cases h with
  | still | endReplay hv => rfl
  | report hold hv => exact absurd hold (by decide)
  | finish hold hv => exact absurd hold Bool.false_ne_true
  | select hold hv => exact absurd hold (Mode.not_admits_replayEnded _)

end Becomes

/-! ### Runs -/

/-- A known mode stays known. -/
theorem known_run (hmode : ∃ m, (x.region.slot i).mode? = some m) (moves : List Move) :
    ∃ m, ((x.run moves).region.slot i).mode? = some m := by
  induction moves using List.reverseRecOn with
  | nil => exact hmode
  | append_singleton moves v ih =>
    obtain ⟨old, hold⟩ := ih
    obtain ⟨new, hnew, -⟩ := becomes_step hold v
    rw [run_concat]
    exact ⟨new, hnew⟩

theorem known_after (moves : List Move) (i : SlotIndex) :
    ∃ m, ((after moves).region.slot i).mode? = some m := by
  apply known_run
  refine ⟨.uninitialized, ?_⟩
  show (Region.fresh.slot i).mode? = _
  rw [Region.slot_fresh]
  rfl

theorem replayEnded_run (hmode : (x.region.slot i).mode? = some .replayEnded)
    (moves : List Move) : ((x.run moves).region.slot i).mode? = some .replayEnded := by
  induction moves using List.reverseRecOn with
  | nil => exact hmode
  | append_singleton moves v ih =>
    obtain ⟨new, hnew, hbecomes⟩ := becomes_step ih v
    rw [run_concat, hnew, hbecomes.eq_replayEnded]

/-! ### Waiting -/

/-- Reporter `n` is attached to slot `i` and its report waits there for the scheduler. -/
def Awaits (x : Arena) (n : Nat) (i : SlotIndex) : Prop :=
  ∃ seat, x.seats n = some seat ∧ seat.reporter.slot = i ∧ seat.awaits

instance (x : Arena) (n : Nat) (i : SlotIndex) : Decidable (x.Awaits n i) :=
  decidable_of_iff ((x.seats n).any fun seat ↦ seat.reporter.slot = i ∧ seat.awaits) (by
    rw [Option.any_eq_true]
    exact exists_congr fun seat ↦ and_congr_right fun _ ↦ decide_eq_true_iff)

/-- After the end of the replay no move makes a report wait for the scheduler. -/
theorem awaits_of_step (hmode : (x.region.slot i).mode? = some .replayEnded) {n : Nat}
    (h : (x.step v).1.Awaits n i) : x.Awaits n i := by
  obtain ⟨seat, hseat, hslot, hawaits⟩ := h
  cases v with
  | attach k j enforcing spinLimit =>
    by_cases hn : n = k
    · subst hn
      cases hearlier : x.seats n with
      | none =>
        rw [step, seats_attach_self hearlier] at hseat
        obtain rfl := Option.some.inj hseat
        exact absurd hawaits Bool.false_ne_true
      | some earlier =>
        rw [step, attach, hearlier] at hseat
        exact ⟨seat, hseat, hslot, hawaits⟩
    · rw [step, seats_attach_of_ne x hn] at hseat
      exact ⟨seat, hseat, hslot, hawaits⟩
  | act k a =>
    by_cases hn : n = k
    · subst hn
      by_cases hnobody : x.seats n = none ∨ ∃ m, a = .select m
      · rw [step, act_of_none hnobody] at hseat
        exact ⟨seat, hseat, hslot, hawaits⟩
      · push Not at hnobody
        obtain ⟨hn, ha⟩ := hnobody
        obtain ⟨earlier, hearlier⟩ := Option.ne_none_iff_exists'.1 hn
        rw [step, seats_act_self hearlier ha] at hseat
        have hkept : seat.reporter.slot = earlier.reporter.slot := by
          obtain hkeeps | ⟨_, -, hkeeps⟩ := Station.keeps_act earlier.reporter.slot
            (x.region.slot earlier.reporter.slot) earlier ha
          · exact hkeeps.slot seat hseat
          · exact hkeeps.slot seat hseat
        have hearlierSlot : earlier.reporter.slot = i := hkept.symm.trans hslot
        rw [hearlierSlot] at hseat
        exact ⟨earlier, hearlier, hearlierSlot, Station.awaits_of_act hmode ha hseat hawaits⟩
    · rw [step, seats_act_of_ne x hn] at hseat
      exact ⟨seat, hseat, hslot, hawaits⟩
  | exchange | select | endReplay | round | setLock | setCallLock =>
    exact ⟨seat, hseat, hslot, hawaits⟩

/-- Who does nothing changes nothing. -/
theorem same_seat {n : Nat} {seat : Seat} (hseat : x.seats n = some seat) :
    (⟨x.region.setSlot i (x.region.slot i), Function.update x.seats n (some seat)⟩ : Arena) =
      x := by
  rw [Region.setSlot_slot, ← hseat, Function.update_eq_self]

theorem awaits_of_run (hmode : (x.region.slot i).mode? = some .replayEnded) {moves : List Move}
    {n : Nat} (h : (x.run moves).Awaits n i) : x.Awaits n i := by
  induction moves using List.reverseRecOn with
  | nil => exact h
  | append_singleton moves v ih =>
    rw [run_concat] at h
    exact ih (awaits_of_step (replayEnded_run hmode moves) h)

/-! ### The machine -/

/-- Any run of reporters and the scheduler from a fresh region, seen at one slot, and one more move.
The mode is known before and after it. If it changes, then not into the first mode and not out of
the last one; into the mode of a first report only by a report and from the first mode; into a
selected mode only by a selection of it, which after the end of a program is one of recording; into
the mode of a finished program only by its end and from a controlled mode; and into the last one
only by the end of the replay. A selection or an end of a program that fails changes nothing, and
after the end of the replay no report begins to wait for the scheduler. -/
theorem mode_machine (moves : List Move) (v : Move) (i : SlotIndex) :
    let x := after moves
    let y := (x.step v).1
    (∃ old new : Mode, (x.region.slot i).mode? = some old ∧ (y.region.slot i).mode? = some new ∧
      (new ≠ old →
        new ≠ .uninitialized ∧ old ≠ .replayEnded ∧
        (new = .firstEvent → old = .uninitialized ∧ x.Reports i v) ∧
        (∀ m : ControlMode, new = m.mode → v.Selects m i ∧ (old = .finished → m = .record)) ∧
        (new = .finished → (old = .replayActive ∨ old = .exploreActive) ∧ x.Finishes i v) ∧
        (new = .replayEnded → v = .endReplay))) ∧
    (∀ m e, (x.region.select i m).2 = .error e →
      ((x.region.select i m).1.slot i).modeWord = (x.region.slot i).modeWord) ∧
    (∀ n r e, x.seats n = some ⟨r, none⟩ → (x.region.slot r.slot).finish = .error e →
      (x.step (.act n .finish)).1 = x) ∧
    (∀ e : Exchange, (x.region.slot i).mode? ≠ some e.old → (x.step (.exchange i e)).1 = x) ∧
    ((x.region.slot i).mode? = some .replayEnded →
      ∀ later n, (x.run later).Awaits n i → x.Awaits n i) := by
  intro x y
  obtain ⟨old, hold⟩ := known_after moves i
  obtain ⟨new, hnew, hbecomes⟩ := becomes_step hold v
  refine ⟨⟨old, new, hold, hnew, fun hchanged ↦ ⟨hbecomes.ne_uninitialized hchanged, ?_,
    hbecomes.of_firstEvent hchanged, fun m ↦ hbecomes.of_mode hchanged,
    hbecomes.of_finished hchanged, hbecomes.of_replayEnded hchanged⟩⟩, ?_, ?_, ?_, ?_⟩
  · rintro rfl
    exact hchanged hbecomes.eq_replayEnded
  · intro m e hfails
    have hself : (x.region.select i m).1.slot i = ((x.region.slot i).select m).1 :=
      Region.slot_setSlot_self x.region i _
    rw [hself]
    exact Slot.modeWord_select_of_error hfails
  · intro n r e hseat hfails
    have hact : Station.act r.slot ⟨x.region.slot r.slot, some ⟨r, none⟩⟩ .finish =
        (⟨x.region.slot r.slot, some ⟨r, none⟩⟩, []) := by
      simp only [Station.act, hfails]
    rw [step, act_of_seat hseat (by rintro m ⟨⟩), hact]
    exact same_seat hseat
  · intro e hseen
    have hsame : (x.region.slot i).exchange e = x.region.slot i := if_neg hseen
    rw [step, hsame, Region.setSlot_slot]
  · intro hended later n hawaits
    exact awaits_of_run hended hawaits

end Arena

end Turnstile
