import Turnstile.Proofs.Draining
import Turnstile.Proofs.Totals

/-!
# Regions in any condition

A region is read as it is found, and every count, cursor and length in it may be anything. What
says where to read is brought into its range first, so that nothing is looked for outside of the
tables and the ring, and what is computed on the way through one log stays far below the range of
a word (`Slot.inRange`).

The counts that are added up are not. The hits of rows with one id are summed, and the losses of
all logs are, and neither has a bound: there is a coverage exactly if the hits of every id have 64
bits (`Slot.isSome_coverage?_iff`), and a first reading comes to its end exactly if moreover the
losses of all logs together do (`Recorder.isSome_drain_start_iff`). Both are the case if the hits of
each slot and the appends of all logs are few enough (`Recorder.isSome_drain_start_of_lt`), as they
are where nobody has tampered with them. `Region.not_forall_reading_finishes` shows a region of
either kind on which reading breaks down.
-/

set_option autoImplicit false
set_option relaxedAutoImplicit false

namespace Turnstile

/-! ### One log -/

namespace EventLog

variable {capacity : Nat} {log : EventLog capacity}

/-- Nothing that a reader of a log computes leaves its range: an entry is there for every number,
the number of appends begun and the place where the next chunk ends have 64 bits, fewer appends are
missed than can be counted in 63 bits, and no more events are found than the ring has entries. -/
structure InRange (log : EventLog capacity) : Prop where
  entry (n : Nat) : log.entries[n % capacity]? = some (log.entryAt n)
  begun : log.begun ≤ 2 ^ 63
  chunk (n : Nat) : n < log.appends.toNat → n + EventLog.chunk < 2 ^ 64
  lost (start : UInt64) : (log.readSince start).value.lost < 2 ^ 63
  found (start : UInt64) : (log.readSince start).value.events.length ≤ capacity

theorem length_eventsIn_le (log : EventLog capacity) (first stop : Nat) :
    (log.eventsIn first stop).length ≤ stop - first := by
  rw [eventsIn]
  exact (List.length_filterMap_le _ _).trans_eq List.length_range'

theorem inRange (hcapacity : 0 < capacity) (log : EventLog capacity) : log.InRange := by
  have happends : log.appends.toNat < 2 ^ 63 := by
    rw [toNat_appends]
    exact Nat.mod_lt _ (by decide)
  refine ⟨fun n ↦ ?_, ?_, fun n hn ↦ ?_, fun start ↦ ?_, fun start ↦ ?_⟩
  · have hplace : n % capacity < capacity := Nat.mod_lt n hcapacity
    rw [entryAt, Vector.getElem?_eq_getElem hplace, Option.getD_some]
  · rw [begun_eq]
    split_ifs <;> omega
  · have hchunk : EventLog.chunk = 64 := rfl
    omega
  all_goals
    by_cases hahead : log.appends < start
    · simp [readSince, hahead]
    obtain ⟨hevents, hlost, -⟩ := value_readSince (UInt64.not_lt.1 hahead)
  · omega
  · have hbegun : log.appends.toNat ≤ log.begun := Nat.le_add_right _ _
    have hlength := log.length_eventsIn_le (max start.toNat log.overwrittenBelow) log.appends.toNat
    rw [← hevents] at hlength
    have hbelow : log.overwrittenBelow = log.begun - capacity := rfl
    omega

/-- How many appends are missed by somebody who reads a log for the first time. -/
def missed (log : EventLog capacity) : Nat := (log.readSince 0).value.lost

/-- All appends are missed but those whose events are found. -/
theorem missed_add_found (log : EventLog capacity) :
    log.missed + (log.readSince 0).value.events.length = log.appends.toNat := by
  have hfirst : (0 : UInt64) ≤ log.appends := UInt64.zero_le
  have h := (value_readSince hfirst).2.1
  rwa [UInt64.toNat_zero, Nat.sub_zero] at h

end EventLog

/-! ### One slot -/

/-- A stored call is read as far as its tables go. -/
theorem TaskRecord.length_values_le (r : TaskRecord) : ∀ c ∈ r.task.call,
    c.arguments.length ≤ Limits.callValues ∧ c.results.length ≤ Limits.callValues := by
  have hvalues (count : UInt32) (table : Vector ValueRecord Limits.callValues) :
      (CallRecord.values count table).length ≤ Limits.callValues := by
    rw [CallRecord.values, List.length_map]
    exact (List.length_take_le' _ _).trans_eq Vector.length_toList
  intro c hc
  simp only [task, Option.mem_def] at hc
  split_ifs at hc
  obtain rfl := Option.some.inj hc
  exact ⟨hvalues _ _, hvalues _ _⟩

namespace Slot

variable {s : Slot}

/-- The hits of a block in all rows in use. -/
def hitsOf (s : Slot) (id : String) : Nat :=
  Coverage.hitsIn id (s.usedRows.map fun row ↦ (row.id.text, row.hits))

/-- The hits of every block can be counted in 64 bits. -/
def IsCountable (s : Slot) : Prop := ∀ id, s.hitsOf id < 2 ^ 64

theorem isSome_coverage?_iff : s.coverage?.isSome ↔ s.IsCountable :=
  (Coverage.sums_ofList? _).isSome_iff

/-- The hits of every block can be counted if all hits together can. -/
theorem isCountable_of_hitSum_lt (h : s.hitSum < UInt64.size) : s.IsCountable := by
  obtain ⟨c, hc⟩ := exists_coverage h
  exact isSome_coverage?_iff.1 (by rw [hc, Option.isSome_some])

/-- Nothing that a reader of a slot looks for lies outside of its tables, and nothing that it
computes on the way leaves its range. -/
structure InRange (s : Slot) : Prop where
  rows : s.usedRows.length = s.publishedRows
  rows_le : s.publishedRows ≤ Limits.blocks
  tasks : s.taskList.length ≤ Limits.tasks
  calls : ∀ t ∈ s.runningTask :: s.taskList, ∀ c ∈ t.call,
    c.arguments.length ≤ Limits.callValues ∧ c.results.length ≤ Limits.callValues
  log : s.log.InRange

theorem inRange (s : Slot) : s.InRange where
  rows := by
    rw [usedRows, List.length_take, Vector.length_toList]
    exact Nat.min_eq_left (Nat.min_le_right _ _)
  rows_le := Nat.min_le_right _ _
  tasks := by
    rw [taskList, List.length_map]
    exact (List.length_filter_le _ _).trans_eq Vector.length_toList
  calls := by
    rw [List.forall_mem_cons, taskList, List.forall_mem_map]
    exact ⟨s.running.length_values_le, fun r _ ↦ r.length_values_le⟩
  log := EventLog.inRange (by decide) s.log

end Slot

/-! ### All slots -/

namespace Region

/-- How many appends are missed in some slots by somebody who reads their logs for the first
time. -/
def missedIn (r : Region) (order : List SlotIndex) : Nat :=
  (order.map fun i ↦ (r.slot i).log.missed).sum

/-- How many appends are missed altogether. -/
def missed (r : Region) : Nat := r.missedIn (List.finRange Limits.slots)

/-- How many appends the logs count altogether. -/
def appended (r : Region) : Nat :=
  ((List.finRange Limits.slots).map fun i ↦ (r.slot i).log.appends.toNat).sum

theorem missed_le_appended (r : Region) : r.missed ≤ r.appended := by
  refine List.sum_le_sum fun i _ ↦ ?_
  have h := (r.slot i).log.missed_add_found
  omega

theorem mem_slots_iff {r : Region} {s : Slot} : s ∈ r.slots.toList ↔ ∃ i, r.slot i = s := by
  rw [Vector.mem_toList_iff, Vector.mem_iff_getElem]
  constructor
  · rintro ⟨n, hn, hs⟩
    exact ⟨⟨n, hn⟩, hs⟩
  · rintro ⟨i, hi⟩
    exact ⟨i, i.isLt, hi⟩

end Region

/-- Results exist for a whole list if one exists for each entry. -/
theorem isSome_mapM_iff {α β : Type} {f : α → Option β} {l : List α} :
    (l.mapM f).isSome ↔ ∀ a ∈ l, (f a).isSome := by
  induction l with
  | nil => simp
  | cons a l ih =>
    rw [List.mapM_cons, List.forall_mem_cons, ← ih]
    cases f a with
    | none => simp
    | some b => cases l.mapM f <;> simp

namespace Recorder

variable {region : Region} {r : Recorder}

/-- A slot is read, or its losses do not fit the count any more. -/
theorem drainSlot_cases (region : Region) (r : Recorder) (i : SlotIndex) :
    let drained := ((region.slot i).log.readSince (r.cursors.get i)).value
    (r.lost.toNat + drained.lost < 2 ^ 64 ∧
      ∃ r', (r.drainSlot region i).value = (r', some drained.events.length) ∧
        r'.lost.toNat = r.lost.toNat + drained.lost ∧
        ∀ j, j ≠ i → r'.cursors.get j = r.cursors.get j) ∨
    (2 ^ 64 ≤ r.lost.toNat + drained.lost ∧ (r.drainSlot region i).value = (r, none)) := by
  intro drained
  by_cases hcount : r.lost.toNat + drained.lost < UInt64.size
  · refine .inl ⟨hcount, ?_⟩
    simp only [drainSlot, Noted.value_bind]
    rw [if_pos hcount]
    refine ⟨_, rfl, ?_, fun j hj ↦ get_set_of_ne _ hj _⟩
    have hlost : (UInt64.ofNat drained.lost).toNat = drained.lost :=
      UInt64.toNat_ofNat_of_lt' (by omega)
    rw [UInt64.toNat_add, hlost]
    exact Nat.mod_eq_of_lt hcount
  · refine .inr ⟨Nat.le_of_not_lt hcount, ?_⟩
    simp only [drainSlot, Noted.value_bind]
    rw [if_neg hcount]
    rfl

/-- Slots that were not read before are read, or their losses and those before do not fit the count
together. -/
theorem drainSlots_cases {order : List SlotIndex} (hnodup : order.Nodup)
    (hunread : ∀ i ∈ order, r.cursors.get i = 0) (fresh : Nat) :
    (∃ r' n, (drainSlots region order r fresh).value = (r', some n) ∧
        r'.lost.toNat = r.lost.toNat + region.missedIn order) ∨
      2 ^ 64 ≤ r.lost.toNat + region.missedIn order ∧
        ∃ r', (drainSlots region order r fresh).value = (r', none) := by
  induction order generalizing r fresh with
  | nil => exact .inl ⟨r, fresh, rfl, rfl⟩
  | cons i order ih =>
    obtain ⟨hnew, hrest⟩ := List.nodup_cons.1 hnodup
    have hmissed : region.missedIn (i :: order) =
        (region.slot i).log.missed + region.missedIn order := by
      rw [Region.missedIn, List.map_cons, List.sum_cons, Region.missedIn]
    have hcases := drainSlot_cases region r i
    rw [hunread i List.mem_cons_self] at hcases
    change (r.lost.toNat + (region.slot i).log.missed < 2 ^ 64 ∧ _) ∨
      (2 ^ 64 ≤ r.lost.toNat + (region.slot i).log.missed ∧ _) at hcases
    simp only [drainSlots, Noted.value_bind, hmissed]
    obtain ⟨-, r', hread, hlost, hcursors⟩ | ⟨hmany, hread⟩ := hcases
    · rw [hread]
      have hunread' : ∀ j ∈ order, r'.cursors.get j = 0 := by
        intro j hj
        have hne : j ≠ i := fun h ↦ hnew (h ▸ hj)
        rw [hcursors j hne]
        exact hunread j (List.mem_cons_of_mem i hj)
      have hsum : r'.lost.toNat = r.lost.toNat + (region.slot i).log.missed := hlost
      rw [← Nat.add_assoc, ← hsum]
      exact ih hrest hunread' _
    · rw [hread]
      exact .inr ⟨by omega, r, rfl⟩

/-- If no slot was read before, reading comes to its end exactly if the losses and the hits of every
block can be counted, and then the losses are counted. -/
theorem drain_cases (region : Region) (hunread : ∀ i, r.cursors.get i = 0) :
    (∃ r' n, (r.drain region).value = (r', some n) ∧
        r'.lost.toNat = r.lost.toNat + region.missed ∧ ∀ i, (region.slot i).IsCountable) ∨
      (r.drain region).value.2 = none ∧
        ¬ (r.lost.toNat + region.missed < 2 ^ 64 ∧ ∀ i, (region.slot i).IsCountable) := by
  have hcountable : (region.slots.toList.mapM Slot.coverage?).isSome ↔
      ∀ i, (region.slot i).IsCountable := by
    rw [isSome_mapM_iff]
    constructor
    · intro h i
      exact Slot.isSome_coverage?_iff.1 (h _ (Region.mem_slots_iff.2 ⟨i, rfl⟩))
    · intro h s hs
      obtain ⟨i, rfl⟩ := Region.mem_slots_iff.1 hs
      exact Slot.isSome_coverage?_iff.2 (h i)
  simp only [drain, Noted.value_bind, Region.missed]
  obtain ⟨r', n, hread, hlost⟩ | ⟨hmany, r', hread⟩ :=
    drainSlots_cases (List.nodup_finRange Limits.slots) (fun i _ ↦ hunread i) 0
  · rw [hread]
    cases hcoverage : region.slots.toList.mapM Slot.coverage? with
    | none =>
      rw [hcoverage] at hcountable
      exact .inr ⟨rfl, fun h ↦ by simpa using hcountable.2 h.2⟩
    | some coverage =>
      rw [hcoverage] at hcountable
      exact .inl ⟨_, n, rfl, hlost, hcountable.1 rfl⟩
  · rw [hread]
    exact .inr ⟨rfl, fun h ↦ absurd h.1 (Nat.not_lt.2 hmany)⟩

theorem isSome_drain_start_iff (region : Region) :
    (Recorder.start.drain region).value.2.isSome ↔
      region.missed < 2 ^ 64 ∧ ∀ i, (region.slot i).IsCountable := by
  have hunread (i : SlotIndex) : start.cursors.get i = 0 := by simp [start, Vector.get]
  have hnone : start.lost.toNat + region.missed = region.missed := by
    rw [start, UInt64.toNat_zero, Nat.zero_add]
  have hcases := drain_cases region hunread
  rw [hnone] at hcases
  obtain ⟨r', n, hread, hlost, hcountable⟩ | ⟨hread, hnot⟩ := hcases
  · rw [hread]
    exact iff_of_true rfl ⟨hlost ▸ r'.lost.toNat_lt, hcountable⟩
  · rw [hread]
    exact iff_of_false (by decide) hnot

/-- A first reading comes to its end where the hits of each slot and the appends of all logs can be
counted. -/
theorem isSome_drain_start_of_lt (hhits : ∀ i, (region.slot i).hitSum < UInt64.size)
    (happended : region.appended < 2 ^ 64) : (Recorder.start.drain region).value.2.isSome :=
  (isSome_drain_start_iff region).2 ⟨region.missed_le_appended.trans_lt happended,
    fun i ↦ Slot.isCountable_of_hitSum_lt (hhits i)⟩

end Recorder

/-! ### Regions on which reading breaks down -/

namespace Region

/-- A region whose slots are all alike. -/
def uniform (s : Slot) : Region := ⟨Vector.replicate _ s, Buffer.zero _⟩

@[simp] theorem slot_uniform (s : Slot) (i : SlotIndex) : (uniform s).slot i = s := by
  simp [uniform, slot]

theorem checkLayout_uniform {s : Slot} (h : s.version = Limits.layoutVersion) :
    (uniform s).checkLayout = .ok () := by
  have hnone : (uniform s).foreignSlot? = none := by
    rw [foreignSlot?, List.find?_eq_none]
    intro i _
    simp [h]
  rw [checkLayout, hnone]

theorem isFree_uniform {s : Slot} (h : s.IsFree) : (uniform s).IsFree := fun i ↦ by
  rwa [slot_uniform]

end Region

namespace Slot

/-- A slot in which two rows have one id, and more hits than can be counted. -/
def doubled : Slot := { fresh with
  blockCount := 2
  rows := (fresh.rows.set 0 ⟨0xFFFFFFFFFFFFFFFF, BlockId.zero⟩).set 1 ⟨1, BlockId.zero⟩ }

/-- A slot whose log counts as many appends as a cursor can. -/
def worn : Slot := { fresh with log := { fresh.log with cursor := 0x7FFFFFFFFFFFFFFF } }

theorem not_isCountable_doubled : ¬ doubled.IsCountable := by
  have hhits : doubled.hitsOf "" = 2 ^ 64 := by decide +kernel
  intro h
  exact absurd (h "") (by rw [hhits]; decide)

theorem isCountable_worn : worn.IsCountable := by
  have hnone : worn.hitSum = 0 := hitSum_fresh
  exact isCountable_of_hitSum_lt (by rw [hnone]; decide)

/-- All appends are missed but the last ones. -/
theorem missed_worn : 2 ^ 62 ≤ worn.log.missed := by
  have happends : worn.log.appends.toNat = 2 ^ 63 - 1 := by
    rw [EventLog.toNat_appends]
    decide
  have hfound := worn.inRange.log.found 0
  have hall := worn.log.missed_add_found
  have hentries : Limits.logEntries = 4096 := rfl
  omega

end Slot

namespace Region

theorem missed_uniform (s : Slot) : (uniform s).missed = Limits.slots * s.log.missed := by
  simp [missed, missedIn]

/-- Reading a region with the right layout and free locks need not come to its end: there are a
region on which the coverage of a slot overflows, and a region with every coverage in order on which
the losses do. -/
theorem not_forall_reading_finishes :
    (¬ ∀ r : Region, r.checkLayout = .ok () → r.IsFree → ∀ i, (r.slot i).coverage?.isSome) ∧
      ¬ ∀ r : Region, r.checkLayout = .ok () → r.IsFree → (∀ i, (r.slot i).coverage?.isSome) →
        (Recorder.start.drain r).value.2.isSome := by
  constructor
  · intro h
    have hsome := h (uniform .doubled) (checkLayout_uniform rfl) (isFree_uniform ⟨rfl, rfl⟩) 0
    rw [slot_uniform, Slot.isSome_coverage?_iff] at hsome
    exact Slot.not_isCountable_doubled hsome
  · intro h
    have hcoverage (i : SlotIndex) : ((uniform .worn).slot i).coverage?.isSome := by
      rw [slot_uniform, Slot.isSome_coverage?_iff]
      exact Slot.isCountable_worn
    have hsome := h (uniform .worn) (checkLayout_uniform rfl) (isFree_uniform ⟨rfl, rfl⟩) hcoverage
    have hfew := ((Recorder.isSome_drain_start_iff _).1 hsome).1
    have hmany := Slot.missed_worn
    have hslots : Limits.slots = 4 := rfl
    rw [missed_uniform, hslots] at hfew
    omega

end Region

end Turnstile
