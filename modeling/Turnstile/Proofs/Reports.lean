import Mathlib.Algebra.Order.BigOperators.Group.List
import Mathlib.Algebra.Order.Ring.Nat
import Turnstile.Proofs.Arena
import Turnstile.Proofs.Consultations
import Turnstile.Proofs.Handshake

/-!
# What is reported at a slot

A report of a known task appends one event to the log of its slot (`Station.report?`), and a hit on
a block counts in the table. Nothing else that reporters and the scheduler do changes what a
recorder reads of a slot (`Slot.content`): selections, rounds and waiting reports leave it as it is.
So over a run a log grows by the events that were reported at its slot, `Arena.history`, and the
hits in its table by no more than were made (`Arena.advances_run`).

A report that begins to wait has shown its task as the running one before
(`Station.Sound.running_of_suspended`).
-/

set_option autoImplicit false
set_option relaxedAutoImplicit false

namespace Turnstile

/-- Whether an act is a hit on a block. -/
def Act.isHit : Act → Bool
  | hit _ => true
  | attach _ _ | detach | spawn _ _ _ | setStatus _ _ | finish | report _ _ _ | poll | select _ =>
    false

/-- The log with some more events. -/
def EventLog.appendAll {capacity : Nat} (log : EventLog capacity) (events : List Event) :
    EventLog capacity :=
  events.foldl (fun log e ↦ log.append e.record) log

namespace Station

variable {i : SlotIndex} {p : Station} {stage : Stage}

/-- The event that an act reports, if it is a report of a known task by a reporter that does not
wait. -/
def report? (p : Station) (a : Act) : Option Event :=
  match a, p.seat with
  | .report id payload stamp, some ⟨r, none⟩ =>
    (p.slot.task? id).map fun t ↦ r.event p.slot t payload stamp
  | _, _ => none

theorem report?_of_waits (h : p.waits = true) (a : Act) : p.report? a = none := by
  obtain ⟨s, seat⟩ := p
  rcases seat with _ | ⟨r, _ | w⟩
  · exact absurd h Bool.false_ne_true
  · exact absurd h Bool.false_ne_true
  · cases a <;> rfl

/-- A report begins to wait when it has shown its task as the running one. -/
theorem Sound.running_of_suspended (h : Sound i p stage) {a : Act}
    (hsuspended : .suspended ∈ (p.act i a).2) :
    ∃ e, p.report? a = some e ∧ (p.act i a).1.slot.running = e.task.record := by
  have hsettle (x : Reported) : .suspended ∉ (settle x []).2 := by
    unfold settle
    cases x.progress <;> simp
  obtain ⟨s, seat⟩ := p
  match seat, a with
  | some ⟨r, none⟩, .report id payload stamp =>
    cases htask : s.task? id with
    | none =>
      simp only [Station.act, Reporter.announce_of_unknown htask, settle] at hsuspended
      simp at hsuspended
    | some t =>
      obtain ⟨m, hmode⟩ := h.mode
      have hreport : report? ⟨s, some ⟨r, none⟩⟩ (.report id payload stamp) =
          some (r.event s t payload stamp) := by
        simp only [report?, htask, Option.map_some]
      refine ⟨_, hreport, ?_⟩
      simp only [Station.act, r.announce_eq h.lock h.callLock hmode htask payload stamp, settle]
      split_ifs <;> rfl
  | some ⟨r, some w⟩, .poll => exact absurd hsuspended (hsettle _)
  | some ⟨r, none⟩, .setStatus id status =>
    simp only [Station.act] at hsuspended
    cases hset : (r.setStatus s id status).value <;> simp [hset] at hsuspended
  | some ⟨r, none⟩, .finish =>
    simp only [Station.act] at hsuspended
    cases hfinish : s.finish <;> simp [hfinish] at hsuspended
  | none, a => cases a <;> exact absurd hsuspended List.not_mem_nil
  | some ⟨r, none⟩, .attach _ _ | some ⟨r, none⟩, .detach | some ⟨r, none⟩, .spawn _ _ _
  | some ⟨r, none⟩, .hit _ | some ⟨r, none⟩, .poll | some ⟨r, none⟩, .select _ =>
    exact absurd hsuspended List.not_mem_nil
  | some ⟨r, some w⟩, .attach _ _ | some ⟨r, some w⟩, .detach | some ⟨r, some w⟩, .spawn _ _ _
  | some ⟨r, some w⟩, .setStatus _ _ | some ⟨r, some w⟩, .hit _ | some ⟨r, some w⟩, .finish
  | some ⟨r, some w⟩, .report _ _ _ | some ⟨r, some w⟩, .select _ =>
    exact absurd hsuspended List.not_mem_nil

end Station

/-! ### What a recorder reads of a slot -/

/-- A sum of which one part grows by at most one. -/
theorem sum_set_le {l : List Nat} {n a : Nat} (hn : n < l.length) (h : a ≤ l[n] + 1) :
    (l.set n a).sum ≤ l.sum + 1 := by
  induction l generalizing n with
  | nil => exact absurd hn (Nat.not_lt_zero n)
  | cons b l ih =>
    cases n with
    | zero =>
      rw [List.set_cons_zero, List.sum_cons, List.sum_cons]
      rw [List.getElem_cons_zero] at h
      omega
    | succ n =>
      rw [List.set_cons_succ, List.sum_cons, List.sum_cons]
      have hrest := ih (Nat.lt_of_succ_lt_succ hn) h
      omega

namespace Slot

/-- The parts of a slot that a recorder reads: the log, and the table of blocks. -/
def content (s : Slot) : EventLog Limits.logEntries × Vector BlockRow Limits.blocks :=
  (s.log, s.rows)

/-- Every hit in the table, in use or not. -/
def hitSum (s : Slot) : Nat := (s.rows.toList.map (·.hits.toNat)).sum

/-- One slot becomes another: its log gets some more events, and its table at most some more hits.
-/
structure Advances (s s' : Slot) (reported : List Event) (hits : Nat) : Prop where
  log : s'.log = s.log.appendAll reported
  hitSum : s'.hitSum ≤ s.hitSum + hits

section

variable {s s' s'' : Slot} {reported later : List Event} {hits more : Nat}

theorem Advances.of_append (h : s'.content = (s.log.appendAll reported, s.rows)) :
    s.Advances s' reported hits where
  log := congrArg Prod.fst h
  hitSum := by
    have hrows : s'.rows = s.rows := congrArg Prod.snd h
    rw [Slot.hitSum, hrows]
    exact Nat.le_add_right _ _

theorem Advances.of_content (h : s'.content = s.content) : s.Advances s' [] hits := .of_append h

theorem Advances.trans (h : s.Advances s' reported hits) (hlater : s'.Advances s'' later more) :
    s.Advances s'' (reported ++ later) (hits + more) where
  log := by
    rw [hlater.log, h.log, EventLog.appendAll, EventLog.appendAll, ← List.foldl_append]
    rfl
  hitSum := by
    have hfirst := h.hitSum
    have hsecond := hlater.hitSum
    omega

end

/-- A row with at most one hit more. -/
theorem hitSum_setRow_le (s : Slot) {n : Fin Limits.blocks} (row : BlockRow)
    (h : row.hits.toNat ≤ (s.rows.get n).hits.toNat + 1) :
    ((s.rows.set n row n.isLt).toList.map (·.hits.toNat)).sum ≤ s.hitSum + 1 := by
  have hn : n.val < (s.rows.toList.map (·.hits.toNat)).length := by simp
  rw [hitSum, Vector.toList_set, List.map_set]
  refine sum_set_le hn ?_
  rw [List.getElem_map, Vector.getElem_toList]
  exact h

theorem content_enter (s : Slot) : s.enter.1.content = s.content := by
  unfold enter
  cases hmode : s.mode? with
  | none => rfl
  | some m => cases m <;> rfl

theorem content_poll (s : Slot) : s.poll.1.content = s.content := by
  have htake : s.acquire.takeAnswer.1.content = s.content := by
    unfold takeAnswer
    cases s.acquire.answer? <;> rfl
  exact htake

theorem content_select (s : Slot) (m : ControlMode) : (s.select m).1.content = s.content := by
  unfold select guarded
  cases hmode : s.acquire.mode with
  | error e =>
    simp only [hmode]
    rfl
  | ok old =>
    simp only [hmode]
    split_ifs <;> rfl

theorem content_exchange (s : Slot) (x : Exchange) : (s.exchange x).content = s.content := by
  unfold exchange
  split_ifs <;> rfl

theorem content_afterChoice (s : Slot) (choice : Choice) :
    (s.afterChoice choice).content = s.content := by
  cases choice with
  | wait | breakdown => rfl
  | grant t =>
    unfold afterChoice
    split_ifs <;> rfl

end Slot

namespace Region

/-- What is written to a slot without its content changes no content. -/
theorem content_setSlot {r : Region} {j : SlotIndex} {s : Slot} (h : s.content = (r.slot j).content)
    (i : SlotIndex) : ((r.setSlot j s).slot i).content = (r.slot i).content := by
  by_cases hi : i = j
  · subst hi
    rw [slot_setSlot_self, h]
  · rw [slot_setSlot_of_ne r hi]

/-- A selection changes nothing that a recorder reads. -/
theorem content_selectIn (m : ControlMode) (order : List SlotIndex) (r : Region) (i : SlotIndex) :
    ((r.selectIn m order).1.slot i).content = (r.slot i).content := by
  induction order generalizing r with
  | nil => rfl
  | cons j order ih =>
    obtain ⟨s, previous, hselect⟩ : ∃ s previous, (r.slot j).select m = (s, previous) :=
      ⟨_, _, rfl⟩
    have hcontent := (r.slot j).content_select m
    rw [hselect] at hcontent
    have hset := content_setSlot hcontent i
    have hregion : r.select j m = (r.setSlot j s, previous) := by
      unfold select
      rw [hselect]
    rw [selectIn, hregion]
    cases previous with
    | error e => exact hset
    | ok old => exact (ih _).trans hset

/-- A round changes nothing that a recorder reads. -/
theorem content_roundOver {σ : Type} (policy : Policy σ) (order : List SlotIndex)
    (summary : RoundSummary) (r : Region) (state : σ) (i : SlotIndex) :
    ((roundOver policy order summary r state).value.region.slot i).content =
      (r.slot i).content := by
  induction order generalizing summary r state with
  | nil => rfl
  | cons j order ih =>
    by_cases hoffered : (r.slot j).isOffered
    · obtain ⟨next, choice, hchoice⟩ : ∃ next choice,
          (policy.choose state j (r.slot j).acquire).value = (next, choice) := ⟨_, _, rfl⟩
      have hset := content_setSlot ((r.slot j).content_afterChoice choice) i
      rw [roundOver_of_offered hoffered hchoice]
      cases choice.outcome (r.slot j) with
      | granted t | waits => exact (ih _ _ _).trans hset
      | broken => exact hset
    · rw [roundOver_of_unoffered hoffered]
      exact ih summary r state

end Region

namespace Reporter

variable (r : Reporter) (s : Slot)

theorem content_poll (pace : Backoff) : (r.poll s pace).slot.content = s.content := by
  have hpoll := s.content_poll
  unfold poll
  split_ifs
  · cases hpolled : s.poll with
    | mk s' answer =>
      rw [hpolled] at hpoll
      cases answer <;> exact hpoll
  · rfl

theorem content_request (pace : Backoff) : (r.request s pace).slot.content = s.content := by
  unfold request
  split_ifs <;> rfl

theorem content_polled (x : Reported) : x.polled.slot.content = x.slot.content := by
  unfold Reported.polled
  split
  · exact content_poll _ _ _
  · rfl

theorem content_proceed (kind : EventKind) : (r.proceed s kind).slot.content = s.content := by
  have henter := s.content_enter
  unfold proceed
  cases hentered : s.enter with
  | mk s' mode =>
    rw [hentered] at henter
    cases mode with
    | error e => exact henter
    | ok m =>
      have hadvanced : (if m = .recordActive ∧ kind = .schedule then s'.advance else s').content =
          s.content := by
        split_ifs <;> exact henter
      by_cases hwaits : (r.enforcing && m.suspends) = true
      · simp only [hwaits, if_true]
        exact (content_request _ _ _).trans hadvanced
      · simp only [hwaits]
        exact hadvanced

theorem content_publish (t : Task) (kind : EventKind) (pace : Backoff) :
    (r.publish s t kind pace).slot.content = s.content := by
  unfold publish
  split_ifs
  · exact content_proceed r (s.publish t) kind
  · rfl

theorem content_resume (w : Wait) : (r.resume s w).slot.content = s.content := by
  unfold resume
  cases w.phase with
  | publishing t kind => exact (content_polled _).trans (r.content_publish s t kind w.pace)
  | requesting => exact (content_polled _).trans (r.content_request s w.pace)
  | polling => exact r.content_poll s w.pace

/-- A report of a known task appends its event, and nothing else that a recorder reads. -/
theorem content_announce (id : Int64) (payload : Payload) (stamp : UInt64) :
    (r.announce s id payload stamp).slot.content =
      match (s.task? id).map fun t ↦ r.event s t payload stamp with
      | some e => (s.log.append e.record, s.rows)
      | none => s.content := by
  unfold announce
  cases s.task? id with
  | none => rfl
  | some t => exact content_publish _ (s.record _) _ _ _

/-- A hit leaves the log alone and adds at most one to the hits in the table. -/
theorem reportBlock_cases (block : String) :
    (r.reportBlock s block).value.2.log = s.log ∧
      (r.reportBlock s block).value.2.hitSum ≤ s.hitSum + 1 := by
  unfold reportBlock
  cases r.rows[block]? with
  | some row =>
    refine ⟨rfl, s.hitSum_setRow_le _ ?_⟩
    exact (UInt64.toNat_add _ _).trans_le (Nat.mod_le _ _)
  | none =>
    by_cases hroom : r.rows.size < Limits.blocks
    · simp only [hroom, if_true, Noted.value_pure]
      exact ⟨rfl, s.hitSum_setRow_le _ (Nat.le_add_left 1 _)⟩
    · simp only [hroom, if_false]
      exact ⟨trivial, Nat.le_succ _⟩

end Reporter

namespace Station

theorem slot_settle (x : Reported) (paused : List Happening) :
    (settle x paused).1.slot = x.slot := by
  unfold settle
  cases x.progress <;> rfl

/-- What an act other than a hit makes of what a recorder reads. -/
theorem content_act (i : SlotIndex) (s : Slot) (seat : Seat) {a : Act} (ha : a.isHit = false) :
    (act i ⟨s, some seat⟩ a).1.slot.content =
      (s.log.appendAll (report? ⟨s, some seat⟩ a).toList, s.rows) := by
  obtain ⟨r, wait⟩ := seat
  match wait, a with
  | none, .attach _ _ | none, .poll | none, .detach | none, .spawn _ _ _
  | some w, .attach _ _ | some w, .detach | some w, .spawn _ _ _ | some w, .setStatus _ _
  | some w, .finish | some w, .report _ _ _ => rfl
  | none, .select m | some w, .select m => exact s.content_select m
  | none, .setStatus id status =>
    cases htask : s.task? id with
    | none =>
      simp only [act, report?, Reporter.setStatus, htask, Noted.value_pure]
      rfl
    | some t =>
      simp only [act, report?, Reporter.setStatus, htask]
      rfl
  | none, .finish =>
    cases hfinish : s.finish with
    | error e =>
      simp only [act, report?, hfinish]
      rfl
    | ok s' =>
      obtain rfl := Slot.eq_setMode_of_finish hfinish
      simp only [act, report?, hfinish]
      rfl
  | none, .report id payload stamp =>
    have hannounce := r.content_announce s id payload stamp
    refine (congrArg Slot.content (slot_settle _ _)).trans (hannounce.trans ?_)
    simp only [report?]
    cases s.task? id <;> rfl
  | some w, .poll => exact (congrArg Slot.content (slot_settle _ _)).trans (r.content_resume s w)

/-- What an act makes of the content of a slot. -/
theorem advances_act (i : SlotIndex) (s : Slot) (seat : Seat) (a : Act) :
    s.Advances (act i ⟨s, some seat⟩ a).1.slot (report? ⟨s, some seat⟩ a).toList
      a.isHit.toNat := by
  by_cases ha : a.isHit
  · match seat, a with
    | ⟨r, none⟩, .hit block =>
      obtain ⟨hlog, hhits⟩ := r.reportBlock_cases s block
      exact ⟨hlog, hhits⟩
    | ⟨r, some w⟩, .hit block => exact .of_content rfl
  · exact .of_append (content_act i s seat (Bool.eq_false_iff.2 ha))

/-- What an act reports is an event that the reporter makes of its report. -/
theorem eq_event_of_report? {s : Slot} {seat : Seat} {a : Act} {e : Event}
    (h : report? ⟨s, some seat⟩ a = some e) :
    ∃ t payload stamp, e = seat.reporter.event s t payload stamp := by
  obtain ⟨r, wait⟩ := seat
  match wait, a with
  | none, .report id payload stamp =>
    obtain ⟨t, -, rfl⟩ := Option.map_eq_some_iff.1 h
    exact ⟨t, payload, stamp, rfl⟩

end Station

/-! ### What the moves on an arena report -/

namespace Arena

namespace Move

/-- Whether the move is a hit on a block. -/
def isHit : Move → Bool
  | act _ a => a.isHit
  | attach _ _ _ _ | exchange _ _ | select _ _ | endReplay | round _ _ _ | setLock _ _
  | setCallLock _ _ => false

end Move

/-- The event that a move reports at a slot. -/
def reportAt? (x : Arena) (i : SlotIndex) : Move → Option Event
  | .act n a =>
    match x.seats n with
    | some seat =>
      if seat.reporter.slot = i then Station.report? ⟨x.region.slot i, some seat⟩ a else none
    | none => none
  | .attach _ _ _ _ | .exchange _ _ | .select _ _ | .endReplay | .round _ _ _ | .setLock _ _
  | .setCallLock _ _ => none

/-- The events that are reported at a slot in a run. -/
def history (x : Arena) (i : SlotIndex) : List Move → List Event
  | [] => []
  | v :: moves => (x.reportAt? i v).toList ++ (x.step v).1.history i moves

variable (x : Arena) (i : SlotIndex)

theorem history_append (moves later : List Move) :
    x.history i (moves ++ later) = x.history i moves ++ (x.run moves).history i later := by
  induction moves generalizing x with
  | nil => rfl
  | cons v moves ih =>
    rw [List.cons_append, history, ih, history, List.append_assoc]
    rfl

/-- Every event of a history was made by a reporter at the slot. -/
theorem eq_event_of_mem_history {moves : List Move} {e : Event} (he : e ∈ x.history i moves) :
    ∃ (r : Reporter) (s : Slot) (t : Task) (payload : Payload) (stamp : UInt64),
      r.slot = i ∧ e = r.event s t payload stamp := by
  induction moves generalizing x with
  | nil => exact absurd he List.not_mem_nil
  | cons v moves ih =>
    obtain he | he := List.mem_append.1 he
    · have hreport := Option.mem_toList.1 he
      cases v with
      | act n a =>
        cases hseat : x.seats n with
        | none => simp [reportAt?, hseat] at hreport
        | some seat =>
          by_cases hi : seat.reporter.slot = i
          · subst hi
            simp only [reportAt?, hseat, if_true] at hreport
            obtain ⟨t, payload, stamp, rfl⟩ := Station.eq_event_of_report? hreport
            exact ⟨_, _, t, payload, stamp, rfl, rfl⟩
          · simp [reportAt?, hseat, hi] at hreport
      | attach | exchange | select | endReplay | round | setLock | setCallLock => cases hreport
    · exact ih (x.step v).1 he

theorem slot_of_mem_history {moves : List Move} {e : Event} (he : e ∈ x.history i moves) :
    e.slot = UInt64.ofNat i := by
  obtain ⟨r, s, t, payload, stamp, rfl, rfl⟩ := x.eq_event_of_mem_history i he
  rfl

/-- What no reporter does changes nothing that a recorder reads. -/
theorem content_step {v : Move} (hv : ∀ n a, v ≠ .act n a) :
    ((x.step v).1.region.slot i).content = (x.region.slot i).content := by
  cases v with
  | act n a => exact absurd rfl (hv n a)
  | attach n j enforcing spinLimit =>
    show (((x.attach n j enforcing spinLimit).region).slot i).content = _
    rw [region_attach]
  | exchange j e => exact Region.content_setSlot ((x.region.slot j).content_exchange e) i
  | select m order => exact x.region.content_selectIn m _ i
  | endReplay =>
    show (x.region.endReplay.slot i).content = _
    rw [Region.slot_endReplay]
    rfl
  | round order policy state => exact Region.content_roundOver policy _ _ x.region state i
  | setLock j word =>
    exact Region.content_setSlot (s := { x.region.slot j with lock := word }) rfl i
  | setCallLock j word =>
    exact Region.content_setSlot (s := { x.region.slot j with callLock := word }) rfl i

/-- What a move makes of the content of a slot. -/
theorem advances_step (v : Move) : (x.region.slot i).Advances ((x.step v).1.region.slot i)
    (x.reportAt? i v).toList v.isHit.toNat := by
  cases v with
  | act n a =>
    by_cases hnobody : x.seats n = none ∨ ∃ m, a = .select m
    · have hreport : x.reportAt? i (.act n a) = none := by
        obtain hseat | ⟨m, rfl⟩ := hnobody
        · simp only [reportAt?, hseat]
        · cases hseat : x.seats n <;> simp [reportAt?, hseat, Station.report?]
      rw [hreport, step, act_of_none hnobody]
      exact .of_content rfl
    · push Not at hnobody
      obtain ⟨hseat, ha⟩ := hnobody
      obtain ⟨seat, hseat⟩ := Option.ne_none_iff_exists'.1 hseat
      rw [step, act_of_seat hseat ha]
      by_cases hi : i = seat.reporter.slot
      · subst hi
        simp only [reportAt?, hseat, if_true, Region.slot_setSlot_self]
        exact Station.advances_act _ _ seat a
      · simp only [reportAt?, hseat, Ne.symm hi, if_false, Region.slot_setSlot_of_ne _ hi]
        exact .of_content rfl
  | attach | exchange | select | endReplay | round | setLock | setCallLock =>
    refine .of_content (x.content_step i ?_)
    rintro _ _ ⟨⟩

/-- What a run makes of the content of a slot: it appends to the log what is reported there, and
makes no more hits than there are hits among the moves. -/
theorem advances_run (moves : List Move) : (x.region.slot i).Advances
    ((x.run moves).region.slot i) (x.history i moves) (moves.countP Move.isHit) := by
  induction moves generalizing x with
  | nil => exact .of_content rfl
  | cons v moves ih =>
    have hrest := (x.advances_step i v).trans (ih (x.step v).1)
    have hcount : (v :: moves).countP Move.isHit = v.isHit.toNat + moves.countP Move.isHit := by
      rw [List.countP_cons, Nat.add_comm]
      cases v.isHit <;> rfl
    rw [hcount]
    exact hrest

end Arena

end Turnstile
