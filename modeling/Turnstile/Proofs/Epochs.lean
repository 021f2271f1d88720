import Turnstile.Proofs.Recording
import Turnstile.Proofs.Reports

/-!
# What the epoch of a slot counts

Two sides advance the epoch of a slot. The scheduler does when it grants a task, and a reporter does
when its report is a decision of the program's own scheduler and finds the slot recording once it
has shown its task (`Station.counts`). Nothing else touches the epoch (`Station.epoch_act`,
`Region.epoch_roundOver`), so from a fresh region on the epoch is the number of these advances,
whoever makes them and whatever locks are in the way (`Arena.epoch_run`). The one thing that could
spoil the count is a grant at the last epoch, which is broken off after the epoch has wrapped
around; it does not happen in a run with fewer advances than that.

An event is stamped with the epoch that the slot has at its report (`Arena.epoch_of_reportAt?`), so
epochs do not decrease along a log (`Arena.pairwise_epoch_history`), which shows the end of what was
reported however often its cursor has wrapped (`EventLog.ShowsEnd`). While a slot only records and
nothing is granted, the advances are the decisions themselves, and each event is stamped with the
number of decisions before it (`Arena.counted_eq`).
-/

set_option autoImplicit false
set_option relaxedAutoImplicit false

namespace Turnstile

/-! ### What a log shows -/

namespace EventLog

variable {capacity : Nat} {log : EventLog capacity} {history : List EventRecord}

/-- A log whose ring holds the end of a history, as much of it as the cursor has counted since it
last started from zero. Unlike `Holds`, this says something of histories that are too long for the
cursor as well. -/
structure ShowsEnd (log : EventLog capacity) (history : List EventRecord) : Prop where
  cursor_le : log.cursor.toNat ≤ 2 ^ 63
  appends : log.appends.toNat = history.length % 2 ^ 63
  entryAt (n : Nat) (h : n < log.appends.toNat) : log.appends.toNat ≤ n + capacity →
    history[history.length - log.appends.toNat + n]? = some (log.entryAt n)

theorem showsEnd_empty (capacity : Nat) : (empty capacity).ShowsEnd [] := by
  have happends : (empty capacity).appends.toNat = 0 := toNat_appends _
  refine ⟨Nat.zero_le _, happends, fun n h ↦ ?_⟩
  rw [happends] at h
  exact absurd h (Nat.not_lt_zero n)

theorem ShowsEnd.append (h : log.ShowsEnd history) (hcapacity : 0 < capacity) (r : EventRecord) :
    (log.append r).ShowsEnd (history ++ [r]) := by
  have hone : (1 : UInt64).toNat = 1 := rfl
  have happends := h.appends
  have hentries (n : Nat) : (log.append r).entryAt n =
      (log.overwrite log.appends.toNat r).entryAt n := rfl
  refine ⟨?_, ?_, fun n hn hround ↦ ?_⟩
  · rw [EventLog.append, UInt64.toNat_add, hone]
    omega
  · rw [toNat_appends_append, List.length_append, List.length_singleton]
    omega
  · rw [toNat_appends_append] at hn hround
    rw [toNat_appends_append, List.length_append, List.length_singleton, hentries]
    -- the cursor has not just started from zero, or there would be no entry `n`
    have hplace : history.length + 1 - (log.appends.toNat + 1) % 2 ^ 63 + n =
        history.length - log.appends.toNat + n := by omega
    rw [hplace]
    by_cases hold : n < log.appends.toNat
    · have hheld := h.entryAt n hold (by omega)
      rw [entryAt_overwrite_of_lt log hold (by omega), List.getElem?_append_left (by omega)]
      exact hheld
    · have hlast : n = log.appends.toNat := by omega
      have hend : history.length - log.appends.toNat + log.appends.toNat = history.length := by
        omega
      rw [hlast, entryAt_overwrite_self hcapacity, hend, List.getElem?_concat_length]

theorem ShowsEnd.appendAll (h : log.ShowsEnd history) (hcapacity : 0 < capacity)
    (events : List Event) :
    (log.appendAll events).ShowsEnd (history ++ events.map Event.record) := by
  induction events generalizing log history with
  | nil =>
    rw [List.map_nil, List.append_nil]
    exact h
  | cons e events ih =>
    have hrest := ih (h.append hcapacity e.record)
    rw [List.append_assoc] at hrest
    exact hrest

theorem ShowsEnd.eventsIn (h : log.ShowsEnd history) {first : Nat}
    (hfirst : log.appends.toNat ≤ first + capacity) :
    log.eventsIn first log.appends.toNat =
      (history.drop (history.length - log.appends.toNat + first)).filterMap (·.event?) := by
  have happends := h.appends
  have hentries : (List.range' first (log.appends.toNat - first)).map log.entryAt =
      history.drop (history.length - log.appends.toNat + first) := by
    apply List.ext_getElem
    · rw [List.length_map, List.length_range', List.length_drop]
      omega
    · intro k hk hdrop
      rw [List.length_drop] at hdrop
      rw [List.getElem_map, List.getElem_range', List.getElem_drop, Nat.one_mul]
      have hheld := h.entryAt (first + k) (by omega) (by omega)
      rw [← Nat.add_assoc, List.getElem?_eq_some_iff] at hheld
      exact hheld.2.symm
  rw [EventLog.eventsIn, ← hentries, List.filterMap_map]
  rfl

/-- A look at the whole log shows the end of the history. -/
theorem ShowsEnd.snapshot (h : log.ShowsEnd history) : log.snapshot.value =
    (history.drop (history.length - min (history.length % 2 ^ 63) capacity)).filterMap
      (·.event?) := by
  have happends := h.appends
  have hzero : (0 : UInt64).toNat = 0 := rfl
  have hbegun : log.appends.toNat ≤ log.begun := Nat.le_add_right _ _
  have hfirst : log.appends.toNat ≤ log.overwrittenBelow + capacity := by
    rw [overwrittenBelow]
    omega
  have hevents := (value_readSince (UInt64.zero_le : 0 ≤ log.appends)).1
  rw [hzero, Nat.zero_max, h.eventsIn hfirst] at hevents
  refine hevents.trans (congrArg (List.filterMap EventRecord.event?) ?_)
  by_cases hidle : log.cursor.toNat < 2 ^ 63
  · rw [overwrittenBelow, (appends_of_idle hidle).2, ← (appends_of_idle hidle).1]
    congr 1
    omega
  · -- the cursor has just wrapped around, and nothing is shown
    have hnone : log.appends.toNat = 0 := by
      have hcursor := h.cursor_le
      rw [toNat_appends]
      omega
    rw [← happends, hnone, Nat.zero_min, List.drop_of_length_le, List.drop_of_length_le] <;> omega

end EventLog

/-! ### Advances at a slot -/

namespace Slot

/-- Whether a report of that kind advances the epoch when it shows its task now: the lock of the
call word is free, the slot records, and the report is a decision of the program's own scheduler. -/
def counts (s : Slot) (kind : EventKind) : Bool :=
  s.isCallUnlocked && (s.mode? = some .recordActive && kind = .schedule)

theorem epoch_select (s : Slot) (m : ControlMode) : (s.select m).1.epoch = s.epoch := by
  unfold select guarded
  cases hmode : s.acquire.mode with
  | error e =>
    simp only [hmode]
    rfl
  | ok old =>
    simp only [hmode]
    split_ifs <;> rfl

theorem epoch_exchange (s : Slot) (x : Exchange) : (s.exchange x).epoch = s.epoch := by
  unfold exchange
  split_ifs <;> rfl

theorem epoch_poll (s : Slot) : s.poll.1.epoch = s.epoch := by
  have htake : s.acquire.takeAnswer.1.epoch = s.epoch := by
    unfold takeAnswer
    cases s.acquire.answer? <;> rfl
  exact htake

end Slot

namespace Reporter

variable (r : Reporter) (s : Slot)

theorem epoch_poll (pace : Backoff) : (r.poll s pace).slot.epoch = s.epoch := by
  have hpoll := s.epoch_poll
  unfold poll
  split_ifs
  · cases hpolled : s.poll with
    | mk s' answer =>
      rw [hpolled] at hpoll
      cases answer <;> exact hpoll
  · rfl

theorem epoch_request (pace : Backoff) : (r.request s pace).slot.epoch = s.epoch := by
  unfold request
  split_ifs <;> rfl

theorem epoch_polled (x : Reported) : x.polled.slot.epoch = x.slot.epoch := by
  unfold Reported.polled
  split
  · exact epoch_poll _ _ _
  · rfl

/-- A report that has shown its task counts if it is a decision that finds the slot recording. -/
theorem epoch_proceed (kind : EventKind) : (r.proceed s kind).slot.epoch =
    if s.mode? = some .recordActive ∧ kind = .schedule then s.epoch + 1 else s.epoch := by
  unfold proceed Slot.enter
  cases hmode : s.mode? with
  | none => rfl
  | some m =>
    by_cases hrecords : m = .recordActive
    · subst hrecords
      by_cases hkind : kind = .schedule <;> simp [hkind, Mode.suspends, Slot.advance]
    · cases m with
      | recordActive => exact absurd rfl hrecords
      | uninitialized | firstEvent | replayActive | exploreActive | finished | replayEnded =>
        simp only [Option.some.injEq, reduceCtorEq, false_and, if_false]
        split_ifs
        · exact epoch_request _ _ _
        · rfl

theorem epoch_publish (t : Task) (kind : EventKind) (pace : Backoff) :
    (r.publish s t kind pace).slot.epoch = if s.counts kind then s.epoch + 1 else s.epoch := by
  unfold publish Slot.counts
  by_cases hfree : s.isCallUnlocked
  · have hproceed := r.epoch_proceed (s.publish t) kind
    have hmode : (s.publish t).mode? = s.mode? := rfl
    rw [hmode] at hproceed
    simp only [hfree, if_true, Bool.true_and, hproceed, Bool.and_eq_true, decide_eq_true_eq]
    rfl
  · simp [hfree]

end Reporter

namespace Station

/-- Whether an act advances the epoch on behalf of the reporter: it is the part of a report that
finds the slot recording after its event was logged, and the event is a decision of the program's
own scheduler. That part is the report itself, or if the lock of the call word was in its way, a
later poll. -/
def counts (p : Station) (a : Act) : Bool :=
  match a, p.seat with
  | .report id payload _, some ⟨_, none⟩ => (p.slot.task? id).isSome && p.slot.counts payload.kind
  | .poll, some ⟨_, some ⟨.publishing _ kind, _⟩⟩ => p.slot.counts kind
  | _, _ => false

/-- What an act makes of the epoch. -/
theorem epoch_act (i : SlotIndex) (s : Slot) (seat : Seat) (a : Act) :
    (act i ⟨s, some seat⟩ a).1.slot.epoch =
      if counts ⟨s, some seat⟩ a then s.epoch + 1 else s.epoch := by
  obtain ⟨r, wait⟩ := seat
  match wait, a with
  | none, .attach _ _ | none, .poll | none, .detach | none, .spawn _ _ _
  | some w, .attach _ _ | some w, .detach | some w, .spawn _ _ _ | some w, .setStatus _ _
  | some w, .finish | some w, .report _ _ _ | some w, .hit _ => rfl
  | none, .select m | some w, .select m => exact s.epoch_select m
  | none, .setStatus id status =>
    cases htask : s.task? id with
    | none =>
      simp only [act, counts, Reporter.setStatus, htask, Noted.value_pure]
      rfl
    | some t =>
      simp only [act, counts, Reporter.setStatus, htask]
      rfl
  | none, .hit block =>
    simp only [act, counts, Reporter.reportBlock]
    cases r.rows[block]? with
    | some row => rfl
    | none =>
      by_cases hroom : r.rows.size < Limits.blocks
      · simp only [hroom, if_true]
        rfl
      · simp only [hroom, if_false]
        rfl
  | none, .finish =>
    cases hfinish : s.finish with
    | error e =>
      simp only [act, counts, hfinish]
      rfl
    | ok s' =>
      obtain rfl := Slot.eq_setMode_of_finish hfinish
      simp only [act, counts, hfinish]
      rfl
  | none, .report id payload stamp =>
    refine (congrArg Slot.epoch (slot_settle _ _)).trans ?_
    unfold Reporter.announce
    cases htask : s.task? id with
    | none => simp [counts, htask]
    | some t =>
      have hpublish := Reporter.epoch_publish { r with tally.reports := r.tally.reports + 1 }
        (s.record (r.event s t payload stamp)) (r.event s t payload stamp).task payload.kind
        (.start Limits.spins)
      simp only [counts, htask, Option.isSome_some, Bool.true_and]
      exact hpublish
  | some ⟨.publishing t kind, pace⟩, .poll =>
    refine (congrArg Slot.epoch (slot_settle _ _)).trans ?_
    exact (Reporter.epoch_polled _).trans (r.epoch_publish s t kind pace)
  | some ⟨.requesting, pace⟩, .poll =>
    refine (congrArg Slot.epoch (slot_settle _ _)).trans ?_
    exact (Reporter.epoch_polled _).trans (r.epoch_request s pace)
  | some ⟨.polling, pace⟩, .poll =>
    exact (congrArg Slot.epoch (slot_settle _ _)).trans (r.epoch_poll s pace)

end Station

namespace Region

/-- What is written to a slot without its epoch changes no epoch. -/
theorem epoch_setSlot {r : Region} {j : SlotIndex} {s : Slot} (h : s.epoch = (r.slot j).epoch)
    (i : SlotIndex) : ((r.setSlot j s).slot i).epoch = (r.slot i).epoch := by
  by_cases hi : i = j
  · subst hi
    rw [slot_setSlot_self, h]
  · rw [slot_setSlot_of_ne r hi]

theorem epoch_selectIn (m : ControlMode) (order : List SlotIndex) (r : Region) (i : SlotIndex) :
    ((r.selectIn m order).1.slot i).epoch = (r.slot i).epoch := by
  induction order generalizing r with
  | nil => rfl
  | cons j order ih =>
    obtain ⟨s, previous, hselect⟩ : ∃ s previous, (r.slot j).select m = (s, previous) :=
      ⟨_, _, rfl⟩
    have hepoch := (r.slot j).epoch_select m
    rw [hselect] at hepoch
    have hset := epoch_setSlot hepoch i
    have hregion : r.select j m = (r.setSlot j s, previous) := by
      unfold select
      rw [hselect]
    rw [selectIn, hregion]
    cases previous with
    | error e => exact hset
    | ok old => exact (ih _).trans hset

/-- A round advances the epoch of a slot once for each grant that it lists there, as long as the
last epoch is not reached. -/
theorem epoch_roundOver {σ : Type} {policy : Policy σ} {order : List SlotIndex}
    {summary : RoundSummary} {r : Region} {state : σ} {round : Round σ}
    (hround : (roundOver policy order summary r state).value = round) (i : SlotIndex)
    (hfew : (r.slot i).epoch.toNat + (atSlot i round.summary.granted).length <
      2 ^ 64 - 1 + (atSlot i summary.granted).length) :
    (round.region.slot i).epoch.toNat + (atSlot i summary.granted).length =
      (r.slot i).epoch.toNat + (atSlot i round.summary.granted).length := by
  induction order generalizing summary r state with
  | nil =>
    subst hround
    rfl
  | cons j order ih =>
    by_cases hoffered : (r.slot j).isOffered
    · obtain ⟨next, choice, hchoice⟩ : ∃ next choice,
          (policy.choose state j (r.slot j).acquire).value = (next, choice) := ⟨_, _, rfl⟩
      rw [roundOver_of_offered hoffered hchoice] at hround
      cases choice with
      | wait =>
        simp only [Choice.outcome, Slot.afterChoice] at hround
        have hsame : ((r.setSlot j (r.slot j).release).slot i).epoch = (r.slot i).epoch :=
          epoch_setSlot (s := (r.slot j).release) rfl i
        have hrest := ih hround
        rw [hsame] at hrest
        exact hrest hfew
      | breakdown =>
        have hsame : ((r.setSlot j (r.slot j).release).slot i).epoch = (r.slot i).epoch :=
          epoch_setSlot (s := (r.slot j).release) rfl i
        subst hround
        exact congrArg (·.toNat + (atSlot i summary.granted).length) hsame
      | grant t =>
        by_cases hadvance : (r.slot j).canAdvance
        · have houtcome : (Choice.grant t).outcome (r.slot j) = .granted t := if_pos hadvance
          simp only [houtcome] at hround
          have hrest := ih hround
          by_cases hi : i = j
          · subst hi
            have hepoch : ((r.slot i).afterChoice (.grant t)).epoch.toNat =
                (r.slot i).epoch.toNat + 1 := by
              rw [Slot.afterChoice, if_pos hadvance]
              have hlt : (r.slot i).epoch.toNat + 1 < UInt64.size := of_decide_eq_true hadvance
              exact (UInt64.toNat_add _ _).trans (Nat.mod_eq_of_lt hlt)
            rw [slot_setSlot_self, atSlot_append, atSlot_single_self, List.length_append,
              List.length_singleton, hepoch] at hrest
            have hlater := hrest (by omega)
            omega
          · rw [slot_setSlot_of_ne r hi, atSlot_append, atSlot_single_of_ne (Ne.symm hi),
              List.append_nil] at hrest
            exact hrest hfew
        · have houtcome : (Choice.grant t).outcome (r.slot j) = .broken := if_neg hadvance
          simp only [houtcome] at hround
          subst hround
          by_cases hi : i = j
          · subst hi
            -- a grant is broken off at the last epoch only, which is out of reach
            have hlast : 2 ^ 64 ≤ (r.slot i).epoch.toNat + 1 := by
              simpa [Slot.canAdvance, UInt64.size] using hadvance
            simp only at hfew
            omega
          · rw [slot_setSlot_of_ne r hi]
    · rw [roundOver_of_unoffered hoffered] at hround
      exact ih hround hfew

end Region

/-! ### Advances in a run -/

namespace Arena

/-- The tasks that a move grants at a slot. -/
def grantsAt (x : Arena) (i : SlotIndex) : Move → List Task
  | .round order policy state =>
    let round := (Region.roundOver policy (x.region.reached order) .none x.region state).value
    atSlot i round.summary.granted
  | .attach _ _ _ _ | .act _ _ | .exchange _ _ | .select _ _ | .endReplay | .setLock _ _
  | .setCallLock _ _ => []

/-- Whether by a move a decision that was reported at a slot finds the slot recording. -/
def countsAt (x : Arena) (i : SlotIndex) : Move → Bool
  | .act n a =>
    match x.seats n with
    | some seat => seat.reporter.slot = i && Station.counts ⟨x.region.slot i, some seat⟩ a
    | none => false
  | .attach _ _ _ _ | .round _ _ _ | .exchange _ _ | .select _ _ | .endReplay | .setLock _ _
  | .setCallLock _ _ => false

/-- How many grants a run makes at a slot. -/
def granted (x : Arena) (i : SlotIndex) : List Move → Nat
  | [] => 0
  | v :: moves => (x.grantsAt i v).length + (x.step v).1.granted i moves

/-- How many decisions that are reported at a slot find it recording in a run. -/
def counted (x : Arena) (i : SlotIndex) : List Move → Nat
  | [] => 0
  | v :: moves => (x.countsAt i v).toNat + (x.step v).1.counted i moves

variable (x : Arena) (i : SlotIndex)

theorem reportAt?_of_seat {n : Nat} {seat : Seat} (hseat : x.seats n = some seat) (a : Act) :
    x.reportAt? seat.reporter.slot (.act n a) =
      Station.report? ⟨x.region.slot seat.reporter.slot, some seat⟩ a := by
  simp only [reportAt?, hseat, if_true]

theorem countsAt_of_seat {n : Nat} {seat : Seat} (hseat : x.seats n = some seat) (a : Act) :
    x.countsAt seat.reporter.slot (.act n a) =
      Station.counts ⟨x.region.slot seat.reporter.slot, some seat⟩ a := by
  simp only [countsAt, hseat, decide_true, Bool.true_and]

theorem granted_append (moves later : List Move) :
    x.granted i (moves ++ later) = x.granted i moves + (x.run moves).granted i later := by
  induction moves generalizing x with
  | nil => exact (Nat.zero_add _).symm
  | cons v moves ih =>
    rw [List.cons_append, granted, ih, granted, Nat.add_assoc]
    rfl

theorem counted_append (moves later : List Move) :
    x.counted i (moves ++ later) = x.counted i moves + (x.run moves).counted i later := by
  induction moves generalizing x with
  | nil => exact (Nat.zero_add _).symm
  | cons v moves ih =>
    rw [List.cons_append, counted, ih, counted, Nat.add_assoc]
    rfl

/-- What neither a reporter nor a round does leaves every epoch alone. -/
theorem epoch_step_of_others {v : Move} (hact : ∀ n a, v ≠ .act n a)
    (hround : ∀ {σ : Type} (order : List SlotIndex) (policy : Policy σ) (state : σ),
      v ≠ .round order policy state) :
    ((x.step v).1.region.slot i).epoch = (x.region.slot i).epoch := by
  cases v with
  | act n a => exact absurd rfl (hact n a)
  | round order policy state => exact absurd rfl (hround order policy state)
  | attach n j enforcing spinLimit =>
    show (((x.attach n j enforcing spinLimit).region).slot i).epoch = _
    rw [region_attach]
  | exchange j e => exact Region.epoch_setSlot ((x.region.slot j).epoch_exchange e) i
  | select m order => exact Region.epoch_selectIn m _ x.region i
  | endReplay =>
    show (x.region.endReplay.slot i).epoch = _
    rw [Region.slot_endReplay]
    rfl
  | setLock j word =>
    exact Region.epoch_setSlot (s := { x.region.slot j with lock := word }) rfl i
  | setCallLock j word =>
    exact Region.epoch_setSlot (s := { x.region.slot j with callLock := word }) rfl i

/-- A move advances the epoch of a slot with every task that it grants there, and with a decision
that finds the slot recording. -/
theorem epoch_step (v : Move)
    (hfew : (x.region.slot i).epoch.toNat + (x.grantsAt i v).length + (x.countsAt i v).toNat <
      2 ^ 64 - 1) :
    ((x.step v).1.region.slot i).epoch.toNat =
      (x.region.slot i).epoch.toNat + (x.grantsAt i v).length + (x.countsAt i v).toNat := by
  cases v with
  | act n a =>
    by_cases hnobody : x.seats n = none ∨ ∃ m, a = .select m
    · have hcounts : x.countsAt i (.act n a) = false := by
        obtain hseat | ⟨m, rfl⟩ := hnobody
        · simp only [countsAt, hseat]
        · cases hseat : x.seats n <;> simp [countsAt, hseat, Station.counts]
      rw [hcounts, step, act_of_none hnobody]
      rfl
    · push Not at hnobody
      obtain ⟨hseat, ha⟩ := hnobody
      obtain ⟨seat, hseat⟩ := Option.ne_none_iff_exists'.1 hseat
      rw [step, act_of_seat hseat ha]
      by_cases hi : i = seat.reporter.slot
      · subst hi
        have hepoch := Station.epoch_act seat.reporter.slot
          (x.region.slot seat.reporter.slot) seat a
        rw [x.countsAt_of_seat hseat] at hfew ⊢
        rw [Region.slot_setSlot_self, hepoch]
        cases Station.counts ⟨x.region.slot seat.reporter.slot, some seat⟩ a with
        | false => rfl
        | true =>
          have hlt : (x.region.slot seat.reporter.slot).epoch.toNat + 1 < 2 ^ 64 := by
            simp only [grantsAt, List.length_nil] at hfew
            omega
          exact (UInt64.toNat_add _ _).trans (Nat.mod_eq_of_lt hlt)
      · have hcounts : x.countsAt i (.act n a) = false := by
          simp [countsAt, hseat, Ne.symm hi]
        rw [Region.slot_setSlot_of_ne _ hi, hcounts]
        rfl
  | round order policy state =>
    obtain ⟨round, hround⟩ : ∃ round,
        (Region.roundOver policy (x.region.reached order) .none x.region state).value = round :=
      ⟨_, rfl⟩
    have hepoch := Region.epoch_roundOver hround i
    simp only [step, grantsAt, countsAt, hround] at hfew ⊢
    exact hepoch hfew
  | attach | exchange | select | endReplay | setLock | setCallLock =>
    exact congrArg UInt64.toNat (x.epoch_step_of_others i (by rintro _ _ ⟨⟩) (by rintro _ _ _ _ ⟨⟩))

/-- Over a run with few advances, the epoch of a slot grows by the grants that are made there and
by the decisions that find it recording. -/
theorem epoch_run (moves : List Move)
    (hfew : (x.region.slot i).epoch.toNat + x.granted i moves + x.counted i moves < 2 ^ 64 - 1) :
    ((x.run moves).region.slot i).epoch.toNat =
      (x.region.slot i).epoch.toNat + x.granted i moves + x.counted i moves := by
  induction moves generalizing x with
  | nil => rfl
  | cons v moves ih =>
    rw [granted, counted] at hfew ⊢
    have hstep := x.epoch_step i v (by omega)
    have hrest := ih (x.step v).1 (by omega)
    show (((x.step v).1.run moves).region.slot i).epoch.toNat = _
    omega

/-! ### Epochs of events -/

/-- An event carries the epoch that the slot has when it is reported. -/
theorem epoch_of_reportAt? {v : Move} {e : Event} (h : x.reportAt? i v = some e) :
    e.epoch = (x.region.slot i).epoch := by
  cases v with
  | act n a =>
    cases hseat : x.seats n with
    | none => simp [reportAt?, hseat] at h
    | some seat =>
      by_cases hi : seat.reporter.slot = i
      · subst hi
        rw [x.reportAt?_of_seat hseat] at h
        obtain ⟨t, payload, stamp, rfl⟩ := Station.eq_event_of_report? h
        rfl
      · simp [reportAt?, hseat, hi] at h
  | attach | exchange | select | endReplay | round | setLock | setCallLock => cases h

/-- An event of a run is reported by one of its moves, when the events before it have been. -/
theorem exists_report_of_history {moves : List Move} {before rest : List Event} {e : Event}
    (h : x.history i moves = before ++ e :: rest) :
    ∃ earlier v later, moves = earlier ++ v :: later ∧ x.history i earlier = before ∧
      (x.run earlier).reportAt? i v = some e := by
  induction moves generalizing x before with
  | nil => simp [history] at h
  | cons v moves ih =>
    rw [history] at h
    cases hreport : x.reportAt? i v with
    | none =>
      rw [hreport] at h
      obtain ⟨earlier, w, later, rfl, hbefore, hw⟩ := ih (x.step v).1 h
      exact ⟨v :: earlier, w, later, rfl, by rw [history, hreport, hbefore]; rfl, hw⟩
    | some a =>
      rw [hreport] at h
      cases before with
      | nil =>
        obtain ⟨rfl, -⟩ := List.cons.inj h
        exact ⟨[], v, moves, rfl, rfl, hreport⟩
      | cons b before =>
        obtain ⟨rfl, hrest⟩ := List.cons.inj h
        obtain ⟨earlier, w, later, rfl, hbefore, hw⟩ := ih (x.step v).1 hrest
        exact ⟨v :: earlier, w, later, rfl, by rw [history, hreport, hbefore]; rfl, hw⟩

/-- The epochs of the events that a run reports do not decrease, and start no lower than the epoch
at the start of the run. -/
theorem pairwise_epoch_history (moves : List Move)
    (hfew : (x.region.slot i).epoch.toNat + x.granted i moves + x.counted i moves < 2 ^ 64 - 1) :
    (x.history i moves).Pairwise (·.epoch ≤ ·.epoch) ∧
      ∀ e ∈ x.history i moves, (x.region.slot i).epoch ≤ e.epoch := by
  induction moves generalizing x with
  | nil => exact ⟨.nil, List.forall_mem_nil _⟩
  | cons v moves ih =>
    rw [granted, counted] at hfew
    have hstep := x.epoch_step i v (by omega)
    obtain ⟨hpairwise, hlater⟩ := ih (x.step v).1 (by omega)
    have hle : (x.region.slot i).epoch ≤ ((x.step v).1.region.slot i).epoch :=
      UInt64.le_iff_toNat_le.2 (by omega)
    have hfirst : ∀ e ∈ (x.reportAt? i v).toList, e.epoch = (x.region.slot i).epoch :=
      fun e he ↦ x.epoch_of_reportAt? i (Option.mem_toList.1 he)
    rw [history]
    constructor
    · refine List.pairwise_append.2 ⟨?_, hpairwise, fun a ha b hb ↦ ?_⟩
      · cases x.reportAt? i v <;> simp
      · rw [hfirst a ha]
        exact UInt64.le_trans hle (hlater b hb)
    · refine List.forall_mem_append.2 ⟨fun e he ↦ UInt64.le_of_eq (hfirst e he).symm, ?_⟩
      exact fun e he ↦ UInt64.le_trans hle (hlater e he)

/-- The log of a slot shows the end of what was reported there. -/
theorem snapshot_after (moves : List Move) (i : SlotIndex) :
    let reported := fresh.history i moves
    ((after moves).region.slot i).log.snapshot.value =
      (reported.drop (reported.length - min (reported.length % 2 ^ 63) Limits.logEntries)).map
        Event.readBack := by
  intro reported
  have hlog : ((after moves).region.slot i).log =
      (EventLog.empty Limits.logEntries).appendAll reported := by
    have hslot : fresh.region.slot i = .fresh := Region.slot_fresh i
    have hrun := (fresh.advances_run i moves).log
    rwa [hslot] at hrun
  have hslots : ∀ e ∈ reported, e.slot.toNat < 2 ^ 31 := by
    intro e he
    rw [fresh.slot_of_mem_history i he]
    exact Recorder.slotWord_lt i
  have hshown :=
    ((EventLog.showsEnd_empty Limits.logEntries).appendAll (by decide) reported).snapshot
  rw [List.nil_append, List.length_map, ← List.map_drop,
    EventLog.filterMap_record fun e he ↦ hslots e (List.mem_of_mem_drop he)] at hshown
  rw [hlog, hshown]

/-! ### Runs in which a slot only records -/

/-- Every report that a run makes at a slot finds it recording, and shows its task at once. -/
def OnlyRecords (x : Arena) (i : SlotIndex) : List Move → Prop
  | [] => True
  | v :: moves =>
    (∀ e ∈ x.reportAt? i v, (x.region.slot i).mode? = some .recordActive ∧
      (x.region.slot i).isCallUnlocked) ∧ (x.step v).1.OnlyRecords i moves

instance decidableOnlyRecords (i : SlotIndex) :
    (moves : List Move) → (x : Arena) → Decidable (x.OnlyRecords i moves)
  | [], _ => .isTrue trivial
  | v :: moves, x => @instDecidableAnd _ _ _ (decidableOnlyRecords i moves (x.step v).1)

/-- No report is under way at a slot. -/
def NobodyWaits (x : Arena) (i : SlotIndex) : Prop :=
  ∀ n seat, x.seats n = some seat → seat.reporter.slot = i → seat.wait = none

end Arena

/-- A report that finds its slot recording is over at once. -/
theorem Reporter.announce_of_records {s : Slot} (hmode : s.mode? = some .recordActive)
    (hfree : s.isCallUnlocked) (r : Reporter) (id : Int64) (payload : Payload) (stamp : UInt64) :
    ∃ outcome, (r.announce s id payload stamp).progress = .ended outcome := by
  unfold announce
  cases s.task? id with
  | none => exact ⟨_, rfl⟩
  | some t =>
    have hrecorded : (s.record (r.event s t payload stamp)).isCallUnlocked := hfree
    have hshown : ((s.record (r.event s t payload stamp)).publish
        (r.event s t payload stamp).task).mode? = some .recordActive := hmode
    refine ⟨.ok .carryOn, ?_⟩
    simp [publish, hrecorded, proceed, Slot.enter, hshown, Mode.suspends]

/-- What counts of the acts of a reporter that does not wait is the decisions that it reports, if
all reports find the slot recording. -/
theorem Station.counts_eq {s : Slot} {r : Reporter} (a : Act)
    (hrecords : ∀ e ∈ report? ⟨s, some ⟨r, none⟩⟩ a,
      s.mode? = some .recordActive ∧ s.isCallUnlocked) :
    (counts ⟨s, some ⟨r, none⟩⟩ a).toNat =
      (report? ⟨s, some ⟨r, none⟩⟩ a).toList.countP (·.payload.kind = .schedule) := by
  cases a with
  | report id payload stamp =>
    cases htask : s.task? id with
    | none => simp [counts, report?, htask]
    | some t =>
      have hreport : report? ⟨s, some ⟨r, none⟩⟩ (.report id payload stamp) =
          some (r.event s t payload stamp) := by
        simp only [report?, htask, Option.map_some]
      obtain ⟨hmode, hfree⟩ := hrecords _ hreport
      by_cases hkind : payload.kind = .schedule <;>
        simp [counts, hreport, htask, Slot.counts, hmode, hfree, hkind, Reporter.event]
  | attach | detach | spawn | setStatus | hit | finish | poll | select => rfl

/-- A reporter does not wait after a report that finds its slot recording, nor after anything else
that it does. -/
theorem Station.wait_act (i : SlotIndex) {s : Slot} {r : Reporter} {a : Act}
    (ha : ∀ m, a ≠ .select m)
    (hrecords : ∀ e ∈ report? ⟨s, some ⟨r, none⟩⟩ a,
      s.mode? = some .recordActive ∧ s.isCallUnlocked) {seat : Seat}
    (hseat : (act i ⟨s, some ⟨r, none⟩⟩ a).1.seat = some seat) : seat.wait = none := by
  have hacted := acted_act i s ⟨r, none⟩ ha
  generalize act i ⟨s, some ⟨r, none⟩⟩ a = q at hacted hseat
  cases hacted with
  | still | worked | finished =>
    obtain rfl := Option.some.inj hseat
    rfl
  | left => cases hseat
  | reported _ id payload stamp =>
    obtain ⟨outcome, hends⟩ : ∃ outcome,
        (r.announce s id payload stamp).progress = .ended outcome := by
      cases htask : s.task? id with
      | none => exact ⟨_, congrArg Reported.progress (Reporter.announce_of_unknown htask _ _)⟩
      | some t =>
        have hreport : report? ⟨s, some ⟨r, none⟩⟩ (.report id payload stamp) =
            some (r.event s t payload stamp) := by
          simp only [report?, htask, Option.map_some]
        obtain ⟨hmode, hfree⟩ := hrecords _ hreport
        exact Reporter.announce_of_records hmode hfree r id payload stamp
    simp only [settle, hends] at hseat
    obtain rfl := Option.some.inj hseat
    rfl

namespace Arena

variable {x : Arena} {i : SlotIndex}

theorem nobodyWaits_fresh (i : SlotIndex) : fresh.NobodyWaits i := by
  rintro n seat ⟨⟩

/-- While a slot only records, no report waits there. -/
theorem NobodyWaits.step (h : x.NobodyWaits i) {v : Move}
    (hrecords : ∀ e ∈ x.reportAt? i v, (x.region.slot i).mode? = some .recordActive ∧
      (x.region.slot i).isCallUnlocked) : (x.step v).1.NobodyWaits i := by
  cases v with
  | act n a =>
    by_cases hnobody : x.seats n = none ∨ ∃ m, a = .select m
    · rw [Arena.step, act_of_none hnobody]
      exact h
    · push Not at hnobody
      obtain ⟨hseat, ha⟩ := hnobody
      obtain ⟨seat, hseat⟩ := Option.ne_none_iff_exists'.1 hseat
      intro k other hother hslot
      by_cases hk : k = n
      · subst hk
        rw [Arena.step, seats_act_self hseat ha] at hother
        have hplace : other.reporter.slot = seat.reporter.slot := by
          obtain hkeeps | ⟨_, -, hkeeps⟩ := Station.keeps_act seat.reporter.slot
            (x.region.slot seat.reporter.slot) seat ha
          · exact hkeeps.slot other hother
          · exact hkeeps.slot other hother
        obtain rfl : seat.reporter.slot = i := hplace.symm.trans hslot
        have hfree := h k seat hseat rfl
        obtain ⟨r, wait⟩ := seat
        obtain rfl : wait = none := hfree
        rw [x.reportAt?_of_seat hseat] at hrecords
        exact Station.wait_act _ ha hrecords hother
      · rw [Arena.step, seats_act_of_ne x hk] at hother
        exact h k other hother hslot
  | attach n j enforcing spinLimit =>
    intro k other hother hslot
    by_cases hk : k = n
    · subst hk
      cases hseat : x.seats k with
      | none =>
        rw [Arena.step, seats_attach_self hseat] at hother
        obtain rfl := Option.some.inj hother
        rfl
      | some seat =>
        simp only [Arena.step, attach, hseat] at hother
        exact h k other (hseat.trans hother) hslot
    · rw [Arena.step, seats_attach_of_ne x hk] at hother
      exact h k other hother hslot
  | exchange | select | endReplay | round | setLock | setCallLock => exact h

/-- While a slot only records and no report is under way, what counts is the decisions that are
reported. -/
theorem NobodyWaits.countsAt_eq (h : x.NobodyWaits i) {v : Move}
    (hrecords : ∀ e ∈ x.reportAt? i v, (x.region.slot i).mode? = some .recordActive ∧
      (x.region.slot i).isCallUnlocked) :
    (x.countsAt i v).toNat = (x.reportAt? i v).toList.countP (·.payload.kind = .schedule) := by
  cases v with
  | act n a =>
    cases hseat : x.seats n with
    | none => simp [countsAt, reportAt?, hseat]
    | some seat =>
      by_cases hi : seat.reporter.slot = i
      · subst hi
        have hfree := h n seat hseat rfl
        obtain ⟨r, wait⟩ := seat
        obtain rfl : wait = none := hfree
        rw [x.reportAt?_of_seat hseat] at hrecords ⊢
        rw [x.countsAt_of_seat hseat]
        exact Station.counts_eq a hrecords
      · simp [countsAt, reportAt?, hseat, hi]
  | attach | exchange | select | endReplay | round | setLock | setCallLock => rfl

/-- Over a run in which a slot only records, the decisions that count are those that are reported.
-/
theorem counted_eq (moves : List Move) (h : x.NobodyWaits i) (hrecords : x.OnlyRecords i moves) :
    x.counted i moves = (x.history i moves).countP (·.payload.kind = .schedule) := by
  induction moves generalizing x with
  | nil => rfl
  | cons v moves ih =>
    obtain ⟨hfirst, hrest⟩ := hrecords
    rw [counted, history, List.countP_append, h.countsAt_eq hfirst, ih (h.step hfirst) hrest]

theorem OnlyRecords.of_append {moves later : List Move} (h : x.OnlyRecords i (moves ++ later)) :
    x.OnlyRecords i moves := by
  induction moves generalizing x with
  | nil => trivial
  | cons v moves ih => exact ⟨h.1, ih h.2⟩

/-- In a run from a fresh region with fewer advances than there are epochs, the epoch of a slot is
the number of grants that were made there and of the decisions reported there that found it
recording. Every event carries the epoch that its slot had when it was reported, so epochs do not
decrease along the log, which shows the last of them. Where a slot only records and nothing is
granted, an event carries the number of decisions that were reported before it. -/
theorem epoch_accounting (moves : List Move) (i : SlotIndex)
    (hfew : fresh.granted i moves + fresh.counted i moves < 2 ^ 64 - 1) :
    let reported := fresh.history i moves
    ((after moves).region.slot i).epoch.toNat = fresh.granted i moves + fresh.counted i moves ∧
      (∀ before e rest, reported = before ++ e :: rest →
        ∃ earlier v later, moves = earlier ++ v :: later ∧ fresh.history i earlier = before ∧
          (after earlier).reportAt? i v = some e ∧
          e.epoch = ((after earlier).region.slot i).epoch) ∧
      reported.Pairwise (·.epoch ≤ ·.epoch) ∧
      ((after moves).region.slot i).log.snapshot.value =
        (reported.drop (reported.length - min (reported.length % 2 ^ 63) Limits.logEntries)).map
          Event.readBack ∧
      (fresh.OnlyRecords i moves → fresh.granted i moves = 0 →
        ∀ before e rest, reported = before ++ e :: rest →
          e.epoch.toNat = before.countP (·.payload.kind = .schedule)) := by
  intro reported
  have hstart : (fresh.region.slot i).epoch.toNat = 0 := by
    have hslot : fresh.region.slot i = .fresh := Region.slot_fresh i
    rw [hslot]
    rfl
  have hcount {earlier later : List Move} (hmoves : moves = earlier ++ later) :
      ((after earlier).region.slot i).epoch.toNat =
        fresh.granted i earlier + fresh.counted i earlier := by
    rw [hmoves, granted_append, counted_append] at hfew
    have hrun := fresh.epoch_run i earlier (by omega)
    rwa [hstart, Nat.zero_add] at hrun
  have hreport : ∀ before e rest, reported = before ++ e :: rest →
      ∃ earlier v later, moves = earlier ++ v :: later ∧ fresh.history i earlier = before ∧
        (after earlier).reportAt? i v = some e ∧
        e.epoch = ((after earlier).region.slot i).epoch := by
    intro before e rest hreported
    obtain ⟨earlier, v, later, hmoves, hbefore, hv⟩ := fresh.exists_report_of_history i hreported
    exact ⟨earlier, v, later, hmoves, hbefore, hv, epoch_of_reportAt? _ i hv⟩
  refine ⟨hcount (List.append_nil moves).symm, hreport, ?_, snapshot_after moves i, ?_⟩
  · exact (fresh.pairwise_epoch_history i moves (by omega)).1
  · intro hrecords hnone before e rest hreported
    obtain ⟨earlier, v, later, rfl, rfl, -, hepoch⟩ := hreport before e rest hreported
    rw [granted_append] at hnone
    have hcounted := counted_eq earlier (nobodyWaits_fresh i) hrecords.of_append
    rw [hepoch, hcount rfl, hcounted]
    omega

/-- Two reporters make decisions while their slots record. Then the second slot is told to replay,
and its reporter waits with another decision until a round grants it. -/
def decided : List Move :=
  [.attach 0 0 true 16, .act 0 (.spawn 1 0x100 "main.main"), .attach 1 1 true 16,
    .act 1 (.spawn 1 0x100 "main.main"), .select .record [0, 1], .act 0 (.report 1 .schedule 5),
    .act 1 (.report 1 .schedule 6), .act 0 (.report 1 (.send ⟨[0x61]⟩) 7), .select .replay [1],
    .act 1 (.report 1 .schedule 8), .round [0, 1] Policy.runReporter (), .act 1 .poll,
    .act 0 (.report 1 .schedule 9)]

theorem epoch_accounting_decided :
    (fresh.granted 0 decided + fresh.counted 0 decided < 2 ^ 64 - 1 ∧
      fresh.OnlyRecords 0 decided ∧ fresh.granted 0 decided = 0 ∧
      ((after decided).region.slot 0).epoch.toNat = 2 ∧
      ∀ e ∈ (fresh.history 0 decided).getLast?, e.epoch.toNat = 1) ∧
      fresh.granted 1 decided + fresh.counted 1 decided < 2 ^ 64 - 1 ∧
      fresh.granted 1 decided = 1 ∧ ((after decided).region.slot 1).epoch.toNat = 2 := by
  have hfew : fresh.granted 0 decided + fresh.counted 0 decided < 2 ^ 64 - 1 := by decide +kernel
  have hrecords : fresh.OnlyRecords 0 decided := by decide +kernel
  have hnone : fresh.granted 0 decided = 0 := by decide +kernel
  have hcounted : fresh.counted 0 decided = 2 := by decide +kernel
  have hbefore : (fresh.history 0 decided).dropLast.countP (·.payload.kind = .schedule) = 1 := by
    decide +kernel
  obtain ⟨hepoch, -, -, -, hdecisions⟩ := epoch_accounting decided 0 hfew
  have hfewGranted : fresh.granted 1 decided + fresh.counted 1 decided < 2 ^ 64 - 1 := by
    decide +kernel
  have hone : fresh.granted 1 decided = 1 ∧ fresh.counted 1 decided = 1 := by decide +kernel
  have hepochGranted := (epoch_accounting decided 1 hfewGranted).1
  refine ⟨⟨hfew, hrecords, hnone, by omega, fun e he ↦ ?_⟩, hfewGranted, hone.1, by omega⟩
  rw [hdecisions hrecords hnone _ e [] (List.dropLast_append_getLast? e he).symm, hbefore]

end Arena

end Turnstile
