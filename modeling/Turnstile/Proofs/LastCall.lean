import Turnstile.Proofs.RingLog
import Turnstile.Proofs.Timing

/-!
# A slot shows the last reported call

A report writes its task to four places: the event that it appends to the log, the table entry of
the task, the record of the running task, and, as a bare number, the word of the blocking call.
`Slot.Shows` says what it means that all of them tell of one task, and every report of a known task
leaves its slot so, with the call that it carries in normal form or with none
(`Scene.shows_last_call`). Polls of the report change none of the four.

A task is stored with the number of its call beside the call, and one number stands for no call. A
call that is reported under that number is therefore in none of the four places
(`Slot.Shows.number_ne`, `Scene.not_forall_shows_call`), although the payload of its event keeps it.
-/

set_option autoImplicit false
set_option relaxedAutoImplicit false

namespace Turnstile

namespace EventLog

variable {capacity : Nat}

/-- The event that was appended last, if its entry holds one. -/
def newest? (log : EventLog capacity) : Option Event :=
  (log.entryAt (log.cursor.toNat - 1)).event?

/-- An append advances the cursor to a number above zero. -/
theorem toNat_cursor_append (log : EventLog capacity) (r : EventRecord) :
    (log.append r).cursor.toNat = log.appends.toNat + 1 := by
  have hone : (1 : UInt64).toNat = 1 := rfl
  have happends := log.toNat_appends
  rw [append, UInt64.toNat_add, hone]
  omega

theorem newest?_append (hcapacity : 0 < capacity) (log : EventLog capacity) (r : EventRecord) :
    (log.append r).newest? = r.event? := by
  have hentry : (log.append r).entryAt log.appends.toNat = r :=
    entryAt_overwrite_self hcapacity log log.appends.toNat r
  rw [newest?, toNat_cursor_append, Nat.add_sub_cancel, hentry]

/-- The event that was appended last is the last one that a look at the whole log shows, unless the
cursor has just wrapped around. -/
theorem getLast?_snapshot {log : EventLog capacity} (hcapacity : 0 < capacity)
    (hused : 0 < log.cursor.toNat) (hidle : log.cursor.toNat < 2 ^ 63) {e : Event}
    (hnewest : log.newest? = some e) : log.snapshot.value.getLast? = some e := by
  obtain ⟨happends, hbegun⟩ := appends_of_idle hidle
  have hzero : (0 : UInt64).toNat = 0 := rfl
  have hevents := (value_readSince (UInt64.zero_le : 0 ≤ log.appends)).1
  rw [hzero, Nat.zero_max, overwrittenBelow, hbegun, happends, eventsIn] at hevents
  -- the last of the entries that are read is the newest one
  obtain ⟨first, rest, hrange⟩ : ∃ first rest, List.range' (log.cursor.toNat - capacity)
      (log.cursor.toNat - (log.cursor.toNat - capacity)) = List.range' first rest ++
        [log.cursor.toNat - 1] := by
    refine ⟨log.cursor.toNat - capacity,
      log.cursor.toNat - (log.cursor.toNat - capacity) - 1, ?_⟩
    have hlast : log.cursor.toNat - (log.cursor.toNat - capacity) =
        log.cursor.toNat - (log.cursor.toNat - capacity) - 1 + 1 := by omega
    have hplace : log.cursor.toNat - capacity +
        (log.cursor.toNat - (log.cursor.toNat - capacity) - 1) = log.cursor.toNat - 1 := by omega
    rw [hlast, List.range'_1_concat, Nat.add_sub_cancel, hplace]
  rw [hrange, List.filterMap_append] at hevents
  have hsingle : [log.cursor.toNat - 1].filterMap (fun n ↦ (log.entryAt n).event?) = [e] :=
    List.filterMap_cons_some hnewest
  rw [hsingle] at hevents
  exact (congrArg List.getLast? hevents).trans List.getLast?_concat

end EventLog

namespace Slot

/-! ### Four places for one task -/

/-- All places of a slot that tell of the last report tell of one task. -/
structure Shows (s : Slot) (t : Task) : Prop where
  /-- The entry of the log that was appended last holds an event of the task. -/
  logged : s.log.newest?.map Event.task = some t
  /-- A look at the whole log ends with that event. -/
  read (h : s.log.cursor.toNat < 2 ^ 63) : s.log.snapshot.value.getLast?.map Event.task = some t
  /-- The task is found under its id. -/
  found : s.task? t.id = some t
  running : s.runningTask = t
  /-- The blocking call is the one that the task carries. -/
  blocking : s.blockingCall.2 = t.call.map Call.number

/-- The parts of a slot that tell of the last report. -/
def shown (s : Slot) :
    EventLog Limits.logEntries × Vector TaskRecord Limits.tasks × TaskRecord × Int32 :=
  (s.log, s.tasks, s.running, s.callWord)

variable {s s' : Slot} {t : Task}

theorem Shows.congr (h : s.Shows t) (hsame : s'.shown = s.shown) : s'.Shows t := by
  simp only [shown, Prod.mk.injEq] at hsame
  obtain ⟨hlog, htasks, hrunning, hcall⟩ := hsame
  constructor
  · rw [hlog]
    exact h.logged
  · rw [hlog]
    exact h.read
  · rw [task?_congr htasks]
    exact h.found
  · rw [runningTask, hrunning]
    exact h.running
  · have hnumber : s'.blockingCall.2 = s.blockingCall.2 := by simp only [blockingCall, hcall]
    rw [hnumber]
    exact h.blocking

/-- A call under the number that stands for none is not shown. -/
theorem Shows.number_ne (h : s.Shows t) {c : Call} (hcall : t.call = some c) :
    c.number ≠ Call.noNumber := by
  intro hnone
  have hblocking := h.blocking
  rw [hcall, Option.map_some, hnone] at hblocking
  simp only [blockingCall] at hblocking
  split_ifs at hblocking with hword
  exact hword (Option.some.inj hblocking)

/-- The number that is published with a task is the one that is stored with it. -/
theorem number_publish (s : Slot) (t : Task) :
    (s.publish t).blockingCall.2 = (keptCall t.call).map Call.number := by
  cases hcall : t.call with
  | none =>
    simp only [blockingCall, publish, hcall, if_true]
    rfl
  | some c =>
    rw [keptCall_some]
    simp only [blockingCall, publish, hcall]
    split_ifs
    · rfl
    · rfl

/-- A report of a task that has an id and a label that fits shows the task in all places. -/
theorem shows_reported (s : Slot) {e : Event} (hslot : e.slot.toNat < 2 ^ 31)
    (hid : e.task.id ≠ 0) (hlabel : FitsPadded Limits.text e.task.label) :
    (s.reported e).Shows { e.task with call := keptCall e.task.call } := by
  have htask : e.task.record.task = { e.task with call := keptCall e.task.call } :=
    Task.task_record_of_fits hlabel
  obtain ⟨read, hread, hkept⟩ : ∃ read, e.record.event? = some read ∧
      read.task = { e.task with call := keptCall e.task.call } :=
    ⟨_, Event.event?_record_of_slot hslot, htask⟩
  have hlog : (s.reported e).log = s.log.append e.record := rfl
  have hnewest : (s.reported e).log.newest? = some read := by
    rw [hlog, EventLog.newest?_append Limits.logEntries_pos, hread]
  have hrunning : (s.reported e).runningTask = { e.task with call := keptCall e.task.call } := htask
  constructor
  · rw [hnewest, Option.map_some, hkept]
  · intro hidle
    have hused : 0 < (s.reported e).log.cursor.toNat := by
      rw [hlog, EventLog.toNat_cursor_append]
      exact Nat.succ_pos _
    rw [EventLog.getLast?_snapshot Limits.logEntries_pos hused hidle hnewest, Option.map_some,
      hkept]
  · have hfound := s.task?_reported hid
    rw [hrunning] at hfound
    exact hfound
  · exact hrunning
  · exact number_publish (s.record e) e.task

end Slot

/-! ### Reports in a run -/

namespace Station

variable {i : SlotIndex} {p : Station} {stage : Stage}

/-- Polls change none of the places. -/
theorem Sound.shown_poll (h : Sound i p stage) : (p.act i .poll).1.slot.shown = p.slot.shown := by
  cases hallows : p.allows .poll with
  | false => rw [act_of_not_allows hallows]
  | true =>
    obtain ⟨s, seat⟩ := p
    obtain ⟨r, ⟨phase, pace⟩, rfl⟩ := exists_of_waits hallows
    obtain rfl : phase = .polling := h.phase r ⟨phase, pace⟩ rfl
    simp only [Station.act, Reporter.resume_eq h.lock]
    cases s.answer? <;> rfl

/-- The reports of a sound station: what they are about is shown, and nothing is changed by a report
that is about no task. -/
theorem Sound.shown_report (h : Sound i p stage) {id : Int64} {payload : Payload} {stamp : UInt64}
    (hallows : p.allows (.report id payload stamp)) :
    match p.report? (.report id payload stamp) with
    | some e => (p.act i (.report id payload stamp)).1.slot.shown = (p.slot.reported e).shown
    | none => (p.act i (.report id payload stamp)).1.slot = p.slot := by
  obtain ⟨s, seat⟩ := p
  obtain ⟨r, rfl⟩ := exists_of_any_isNone hallows
  obtain ⟨m, hmode⟩ := h.mode
  cases htask : s.task? id with
  | none =>
    simp only [report?, htask, Option.map_none, Station.act, Reporter.announce_of_unknown htask]
    rfl
  | some t =>
    simp only [report?, htask, Option.map_some, Station.act]
    rw [slot_settle, r.announce_eq h.lock h.callLock hmode htask payload stamp]
    split_ifs <;> rfl

end Station

namespace Scene

/-- A report that is made and then polled some times. -/
def reporting (i : SlotIndex) (id : Int64) (payload : Payload) (stamp : UInt64) (polls : Nat) :
    List Move :=
  .act i (.report id payload stamp) :: List.replicate polls (.act i .poll)

/-- A report leaves what its first act has made of the four places. -/
theorem shown_reporting (moves : List Move) (i : SlotIndex) (id : Int64) (payload : Payload)
    (stamp : UInt64) (polls : Nat) :
    ((after (moves ++ reporting i id payload stamp polls)).station i).slot.shown =
      (((after moves).station i).act i (.report id payload stamp)).1.slot.shown := by
  induction polls with
  | zero =>
    rw [reporting, List.replicate_zero, after_concat, step, station_setStation_self]
  | succ polls ih =>
    have hlast : reporting i id payload stamp (polls + 1) =
        reporting i id payload stamp polls ++ [.act i .poll] := by
      rw [reporting, List.replicate_succ', reporting, List.cons_append]
    obtain ⟨stage, -, hsound⟩ := sound_after (moves ++ reporting i id payload stamp polls) i
    rw [hlast, ← List.append_assoc, after_concat, step, station_setStation_self,
      hsound.shown_poll, ih]

/-- A known task that a report is about is shown with the call of the report, as it is stored. -/
theorem shows_keptCall (moves : List Move) {i : SlotIndex} {id : Int64} {payload : Payload}
    {stamp : UInt64} (polls : Nat)
    (hfree : ((after moves).station i).allows (.report id payload stamp)) {t : Task}
    (htask : ((after moves).station i).slot.task? id = some t) :
    ((after (moves ++ reporting i id payload stamp polls)).station i).slot.Shows
      { t with call := keptCall payload.call? } := by
  obtain ⟨stage, -, hsound⟩ := sound_after moves i
  have hlive : Live (acts moves i) id t := (follows_after moves i).table.task?_eq_some.1 htask
  have hshown := hsound.shown_report hfree
  obtain ⟨r, hseat⟩ := Station.exists_of_any_isNone hfree
  have hreport : ((after moves).station i).report? (.report id payload stamp) =
      some (r.event ((after moves).station i).slot t payload stamp) := by
    simp only [Station.report?, hseat, htask, Option.map_some]
  rw [hreport] at hshown
  have hslot : (r.event ((after moves).station i).slot t payload stamp).slot.toNat < 2 ^ 31 := by
    have hword : (UInt64.ofNat r.slot).toNat = r.slot := toNat_slotWord r.slot
    have hlt : r.slot.val < 2 ^ 31 := r.slot.isLt.trans (by decide)
    exact hword.trans_lt hlt
  have hid : t.id ≠ 0 := Slot.id_ne_zero_of_task? htask
  have hreported := ((after moves).station i).slot.shows_reported hslot hid hlive.label_fits
  exact hreported.congr ((shown_reporting moves i id payload stamp polls).trans hshown)

/-- Any run of the scheduler and the reporters from a fresh region, seen at one slot, and a report
there, right after it has begun and however often it has polled since. If its task is unknown, the
slot shows what it has shown before. Otherwise the newest event, the table entry of the task and the
running task are one and the same task. It carries the normal form of the reported call, and the
blocking call is the number of that call; or it carries none, and no call is blocking, if none was
reported or one under the number that stands for none. -/
theorem shows_last_call (moves : List Move) (i : SlotIndex) (id : Int64) (payload : Payload)
    (stamp : UInt64) (polls : Nat)
    (hfree : ((after moves).station i).allows (.report id payload stamp)) :
    let s := ((after moves).station i).slot
    let s' := ((after (moves ++ reporting i id payload stamp polls)).station i).slot
    (s.task? id = none → s'.shown = s.shown) ∧
    ∀ t, s.task? id = some t →
      (∀ c, payload.call? = some c → c.number ≠ Call.noNumber →
        s'.Shows { t with call := some c.normal } ∧ s'.blockingCall.2 = some c.number) ∧
      ((∀ c, payload.call? = some c → c.number = Call.noNumber) →
        s'.Shows { t with call := none } ∧ s'.blockingCall.2 = none) := by
  intro s s'
  refine ⟨fun hnone ↦ ?_, fun t htask ↦ ⟨fun c hcall hnumber ↦ ?_, fun hnone ↦ ?_⟩⟩
  · obtain ⟨stage, -, hsound⟩ := sound_after moves i
    have hshown := hsound.shown_report hfree
    obtain ⟨r, hseat⟩ := Station.exists_of_any_isNone hfree
    have hreport : ((after moves).station i).report? (.report id payload stamp) = none := by
      simp only [Station.report?, hseat]
      exact Option.map_eq_none_iff.2 hnone
    rw [hreport] at hshown
    exact (shown_reporting moves i id payload stamp polls).trans (congrArg Slot.shown hshown)
  · have hshows := shows_keptCall moves polls hfree htask
    rw [hcall, keptCall_some, if_neg hnumber] at hshows
    exact ⟨hshows, hshows.blocking⟩
  · have hshows := shows_keptCall moves polls hfree htask
    have hkept : keptCall payload.call? = none := by
      cases hcall : payload.call? with
      | none => rfl
      | some c => rw [keptCall_some, if_pos (hnone c hcall)]
    rw [hkept] at hshows
    exact ⟨hshows, hshows.blocking⟩

/-- A reporter has spawned one task. -/
def opening (i : SlotIndex) : List Move :=
  [.act i (.attach true 16), .act i (.spawn 1 0x100 "main.main")]

theorem exists_task_opening : ∃ t, ((after (opening 0)).station 0).slot.task? 1 = some t := by
  have hsome : (((after (opening 0)).station 0).slot.task? 1).isSome = true := by decide +kernel
  exact Option.isSome_iff_exists.1 hsome

/-- A call under a number that is in no catalog is shown. -/
theorem shows_last_call_uncatalogued :
    let s' := ((after (opening 0 ++ reporting 0 1 (.call ⟨900, [], []⟩) 7 3)).station 0).slot
    (∃ t : Task, s'.Shows { t with call := some ⟨900, [], []⟩ }) ∧
      s'.blockingCall.2 = some 900 := by
  intro s'
  obtain ⟨t, htask⟩ := exists_task_opening
  obtain ⟨-, hknown⟩ := shows_last_call (opening 0) 0 1 (.call ⟨900, [], []⟩) 7 3
    (by decide +kernel)
  obtain ⟨hcalled, -⟩ := hknown t htask
  obtain ⟨hshows, hblocking⟩ := hcalled ⟨900, [], []⟩ rfl (by decide)
  exact ⟨⟨t, hshows⟩, hblocking⟩

/-- A call under the number that stands for none is not shown, though it is reported like any other
one. -/
theorem not_forall_shows_call :
    ¬ ∀ (moves : List Move) (i : SlotIndex) (id : Int64) (c : Call) (stamp : UInt64) (t : Task),
      ((after moves).station i).allows (.report id (.call c) stamp) →
      ((after moves).station i).slot.task? id = some t →
      ((after (moves ++ reporting i id (.call c) stamp 0)).station i).slot.Shows
        { t with call := some c.normal } := by
  intro hshows
  obtain ⟨t, htask⟩ := exists_task_opening
  have hcall := hshows (opening 0) 0 1 ⟨Call.noNumber, [], []⟩ 7 t (by decide +kernel) htask
  exact hcall.number_ne rfl rfl

end Scene

end Turnstile
