import Mathlib.Data.List.Basic
import Mathlib.Data.List.Induction
import Mathlib.Data.Nat.Bitwise
import Turnstile.Proofs.NormalForm
import Turnstile.Slot.EventLog

/-!
# What a reader gets from the ring

The ring holds the last appends of a history (`EventLog.Holds`), and a reader that says up to where
it has read gets the rest of the history as far as the ring still holds it. `value_readSince` says
what one reading yields, whatever is in the ring: the events of the entries from the later of two
numbers on, the one that the reader gives and `overwrittenBelow`. The chunks in which the entries
are copied do not show in it (`value_readTo`), because no append happens while a reader reads here.
An append that has begun shows in `overwrittenBelow` alone: the entry that it overwrites is the
oldest one, and that one is passed over.

`Tape` is a log with one reader that goes on reading where it stopped. `Tape.reads_appended` follows
it through any order of appends and readings: what a reading finds is what was appended since the
last one, less what no longer fits the ring, and what is missing is counted as lost. The counts of a
cursor have 63 bits, so there are fewer appends than that.
-/

set_option autoImplicit false
set_option relaxedAutoImplicit false

namespace Turnstile

namespace EventLog

variable {capacity : Nat}

/-! ### The cursor -/

/-- Clearing the highest bit leaves the number that the others spell. -/
theorem toNat_appends (log : EventLog capacity) :
    log.appends.toNat = log.cursor.toNat % 2 ^ 63 := by
  have hmask : (~~~writingBit).toNat = 2 ^ 63 - 1 := by decide
  rw [appends, UInt64.toNat_and, hmask, Nat.and_two_pow_sub_one_eq_mod]

theorem begun_eq (log : EventLog capacity) :
    log.begun = log.appends.toNat + if log.cursor.toNat < 2 ^ 63 then 0 else 1 := by
  have hbit : log.cursor &&& writingBit = 0 ↔ log.cursor.toNat < 2 ^ 63 := by
    have hword : writingBit.toNat = 2 ^ 63 := by decide
    have hlt := log.cursor.toNat_lt
    rw [← UInt64.toNat_inj, UInt64.toNat_and, hword, Nat.and_two_pow]
    by_cases hsmall : log.cursor.toNat < 2 ^ 63
    · rw [Nat.testBit_lt_two_pow hsmall]
      exact iff_of_true (Nat.zero_mul _) hsmall
    · have hset : log.cursor.toNat.testBit 63 = true := by
        rw [Nat.testBit_eq_decide_div_mod_eq]
        simp only [decide_eq_true_eq]
        omega
      rw [hset]
      exact iff_of_false (by decide) hsmall
  simp only [begun, hbit]

/-- A cursor without the bit of an append in flight is its own number of appends. -/
theorem appends_of_idle {log : EventLog capacity} (h : log.cursor.toNat < 2 ^ 63) :
    log.appends.toNat = log.cursor.toNat ∧ log.begun = log.cursor.toNat := by
  have happends : log.appends.toNat = log.cursor.toNat := by
    rw [toNat_appends, Nat.mod_eq_of_lt h]
  exact ⟨happends, by rw [begun_eq, happends, if_pos h, Nat.add_zero]⟩

/-- While append `n` is in flight, `n` appends are finished and one more has begun. -/
theorem appends_of_writing {log : EventLog capacity} {n : Nat} (hn : n < 2 ^ 63)
    (h : log.cursor = UInt64.ofNat n ||| writingBit) :
    log.appends.toNat = n ∧ log.begun = n + 1 := by
  have hcursor : log.cursor.toNat = 2 ^ 63 + n := by
    have hword : writingBit.toNat = 2 ^ 63 * 1 := by decide
    rw [h, UInt64.toNat_or, UInt64.toNat_ofNat_of_lt' (lt_trans hn (by decide)), hword,
      Nat.or_comm, ← Nat.two_pow_add_eq_or_of_lt hn, Nat.mul_one]
  have happends : log.appends.toNat = n := by
    rw [toNat_appends, hcursor]
    omega
  exact ⟨happends, by rw [begun_eq, happends, if_neg (by omega)]⟩

/-! ### One reading -/

/-- The events of the entries from `first` up to `stop`. -/
def eventsIn (log : EventLog capacity) (first stop : Nat) : List Event :=
  (List.range' first (stop - first)).filterMap fun n ↦ (log.entryAt n).event?

/-- The event of a copied entry, unless the entry may have been overwritten. -/
def safeEvent? (safe : Nat) (entry : Nat × EventRecord) : Option Event :=
  if entry.1 < safe then none else entry.2.event?

theorem value_sift (safe : Nat) (entries : List (Nat × EventRecord)) :
    (sift safe entries).value.events = entries.filterMap (safeEvent? safe) ∧
      (sift safe entries).value.missed + (sift safe entries).value.events.length =
        entries.length := by
  induction entries with
  | nil => exact ⟨rfl, rfl⟩
  | cons entry entries ih =>
    obtain ⟨n, r⟩ := entry
    by_cases hsafe : n < safe
    · have hnone : safeEvent? safe (n, r) = none := if_pos hsafe
      simp only [sift, hsafe, if_true, Noted.value_bind, Noted.value_pure, Found.missing,
        List.filterMap_cons_none hnone, List.length_cons]
      exact ⟨ih.1, by omega⟩
    · cases hevent : r.event? with
      | none =>
        have hnone : safeEvent? safe (n, r) = none := (if_neg hsafe).trans hevent
        simp only [sift, hsafe, if_false, hevent, Noted.value_bind, Noted.value_pure,
          Found.missing, List.filterMap_cons_none hnone, List.length_cons]
        exact ⟨ih.1, by omega⟩
      | some e =>
        have hsome : safeEvent? safe (n, r) = some e := (if_neg hsafe).trans hevent
        simp only [sift, hsafe, if_false, hevent, Noted.value_bind, Noted.value_pure,
          Found.keeping, List.filterMap_cons_some hsome, List.length_cons]
        exact ⟨by rw [ih.1], by omega⟩

theorem copied_append (log : EventLog capacity) {first middle stop : Nat} (hfirst : first ≤ middle)
    (hstop : middle ≤ stop) :
    log.copied first middle ++ log.copied middle stop = log.copied first stop := by
  have hrange : List.range' first (middle - first) ++ List.range' middle (stop - middle) =
      List.range' first (stop - first) := by
    have hmiddle : first + 1 * (middle - first) = middle := by omega
    have hcount : middle - first + (stop - middle) = stop - first := by omega
    rw [← hcount, ← List.range'_append, hmiddle]
  rw [copied, copied, ← List.map_append, hrange, copied]

/-- Reading in chunks finds what one look at all entries would find. -/
theorem value_readTo (log : EventLog capacity) (stop first : Nat) :
    (log.readTo stop first).value.events =
        (log.copied first stop).filterMap (safeEvent? log.overwrittenBelow) ∧
      (log.readTo stop first).value.missed + (log.readTo stop first).value.events.length =
        stop - first := by
  induction hcount : stop - first using Nat.strongRecOn generalizing first with
  | ind count ih =>
    rw [readTo]
    by_cases hmore : first < stop
    · have hchunk : chunk = 64 := rfl
      obtain ⟨hevents, hmissed⟩ := value_sift log.overwrittenBelow
        (log.copied first (min stop (first + chunk)))
      obtain ⟨hrest, hrestMissed⟩ := ih (stop - min stop (first + chunk)) (by omega)
        (min stop (first + chunk)) rfl
      have hlength : (log.copied first (min stop (first + chunk))).length =
          min stop (first + chunk) - first := by
        rw [copied, List.length_map, List.length_range']
      simp only [hmore, if_true, Noted.value_bind, Noted.value_pure, Found.append,
        List.length_append]
      constructor
      · rw [hevents, hrest, ← List.filterMap_append, copied_append log (by omega) (by omega)]
      · omega
    · have hempty : stop - first = 0 := by omega
      simp only [hmore, if_false, Noted.value_pure, Found.none, copied, hempty]
      exact ⟨rfl, by simp; omega⟩

/-- Entries below the safe number are passed over. -/
theorem filterMap_copied (log : EventLog capacity) (first stop safe : Nat) :
    (log.copied first stop).filterMap (safeEvent? safe) =
      log.eventsIn (max first safe) stop := by
  by_cases hsafe : max first safe ≤ stop
  · have hpassed : (log.copied first (max first safe)).filterMap (safeEvent? safe) = [] := by
      rw [copied, List.filterMap_map, List.filterMap_eq_nil_iff]
      intro n hn
      rw [List.mem_range'_1] at hn
      have hlt : n < safe := by omega
      exact if_pos hlt
    have hkept : (log.copied (max first safe) stop).filterMap (safeEvent? safe) =
        log.eventsIn (max first safe) stop := by
      rw [copied, List.filterMap_map, eventsIn]
      apply List.filterMap_congr
      intro n hn
      rw [List.mem_range'_1] at hn
      have hle : ¬ n < safe := by omega
      exact if_neg hle
    rw [← copied_append log (Nat.le_max_left first safe) hsafe, List.filterMap_append, hpassed,
      List.nil_append, hkept]
  · have hempty : stop - max first safe = 0 := by omega
    rw [eventsIn, hempty, copied, List.filterMap_map, List.filterMap_eq_nil_iff.2]
    · rfl
    · intro n hn
      rw [List.mem_range'_1] at hn
      have hlt : n < safe := by omega
      exact if_pos hlt

/-- What one reading yields, whatever the ring holds. -/
theorem value_readSince {log : EventLog capacity} {start : UInt64} (h : start ≤ log.appends) :
    (log.readSince start).value.events =
        log.eventsIn (max start.toNat log.overwrittenBelow) log.appends.toNat ∧
      (log.readSince start).value.lost + (log.readSince start).value.events.length =
        log.appends.toNat - start.toNat ∧
      (log.readSince start).value.next = log.appends := by
  have hle : start.toNat ≤ log.appends.toNat := UInt64.le_iff_toNat_le.1 h
  have hahead : ¬ log.appends < start := UInt64.not_lt.2 h
  have hbegun : log.appends.toNat ≤ log.begun := Nat.le_add_right _ _
  obtain ⟨hevents, hmissed⟩ := log.value_readTo log.appends.toNat
    (max start.toNat (log.appends.toNat - capacity))
  rw [filterMap_copied, Nat.max_assoc] at hevents
  have hfirst : max (log.appends.toNat - capacity) log.overwrittenBelow = log.overwrittenBelow :=
    Nat.max_eq_right (Nat.sub_le_sub_right hbegun capacity)
  rw [hfirst] at hevents
  simp only [readSince, hahead, if_false, Noted.value_bind, Noted.value_pure]
  refine ⟨hevents, ?_, trivial⟩
  omega

/-! ### The history of a log -/

/-- A log whose ring holds the last of the records that were appended to it. -/
structure Holds (log : EventLog capacity) (history : List EventRecord) : Prop where
  cursor : log.cursor.toNat = history.length
  bounded : history.length < 2 ^ 63
  entryAt (n : Nat) (h : n < history.length) :
    history.length ≤ n + capacity → log.entryAt n = history[n]

theorem holds_nil {log : EventLog capacity} (h : log.cursor = 0) : log.Holds [] where
  cursor := by rw [h]; rfl
  bounded := by decide
  entryAt n h := absurd h (Nat.not_lt_zero n)

/-- Numbers less than one round of the ring apart have different places. -/
theorem mod_ne_mod {n stop : Nat} (hlt : n < stop) (hround : stop < n + capacity) :
    n % capacity ≠ stop % capacity := by
  intro hmod
  have hdvd : capacity ∣ stop - n :=
    Nat.dvd_of_mod_eq_zero (Nat.sub_mod_eq_zero_of_mod_eq hmod.symm)
  have hle := Nat.le_of_dvd (by omega) hdvd
  omega

/-- The log with another record in the place of append `n`. -/
def overwrite (log : EventLog capacity) (n : Nat) (r : EventRecord) : EventLog capacity :=
  { log with entries := log.entries.setIfInBounds (n % capacity) r }

theorem entryAt_overwrite_self (hcapacity : 0 < capacity) (log : EventLog capacity) (n : Nat)
    (r : EventRecord) : (log.overwrite n r).entryAt n = r := by
  have hlt : n % capacity < capacity := Nat.mod_lt n hcapacity
  simp [entryAt, overwrite, hlt]

theorem entryAt_overwrite_of_lt (log : EventLog capacity) {n stop : Nat} (hlt : n < stop)
    (hround : stop < n + capacity) (r : EventRecord) :
    (log.overwrite stop r).entryAt n = log.entryAt n := by
  have hne : stop % capacity ≠ n % capacity := (mod_ne_mod hlt hround).symm
  simp [entryAt, overwrite, hne]

/-- What overwrites append `stop - capacity` is not seen in the appends after that. -/
theorem eventsIn_overwrite (log : EventLog capacity) {first stop : Nat}
    (hround : stop < first + capacity) (r : EventRecord) :
    (log.overwrite stop r).eventsIn first stop = log.eventsIn first stop := by
  apply List.filterMap_congr
  intro n hn
  rw [List.mem_range'_1] at hn
  rw [entryAt_overwrite_of_lt log (by omega) (by omega)]

theorem Holds.append {log : EventLog capacity} {history : List EventRecord} (h : log.Holds history)
    (hcapacity : 0 < capacity) (hroom : history.length + 1 < 2 ^ 63) (r : EventRecord) :
    (log.append r).Holds (history ++ [r]) := by
  have hlt : log.cursor.toNat < 2 ^ 63 := by rw [h.cursor]; exact h.bounded
  have happends : log.appends.toNat = history.length := by
    rw [(appends_of_idle hlt).1, h.cursor]
  have hentries (n : Nat) : (log.append r).entryAt n =
      (log.overwrite history.length r).entryAt n := by
    simp only [EventLog.append, overwrite, EventLog.entryAt, happends]
  refine ⟨?_, by simpa using hroom, fun n hn hheld ↦ ?_⟩
  · have hone : (1 : UInt64).toNat = 1 := rfl
    rw [EventLog.append, UInt64.toNat_add, happends, hone, List.length_append,
      List.length_singleton]
    omega
  · rw [List.length_append, List.length_singleton] at hn hheld
    rw [hentries]
    by_cases hold : n < history.length
    · rw [entryAt_overwrite_of_lt log hold (by omega), h.entryAt n hold (by omega),
        List.getElem_append_left hold]
    · have hlast : n = history.length := by omega
      subst hlast
      rw [entryAt_overwrite_self hcapacity, List.getElem_concat_length]
      rfl

/-- The appends that the ring holds are the end of the history. -/
theorem Holds.eventsIn {log : EventLog capacity} {history : List EventRecord}
    (h : log.Holds history) {first : Nat} (hfirst : history.length ≤ first + capacity) :
    log.eventsIn first history.length = (history.drop first).filterMap (·.event?) := by
  have hentries : (List.range' first (history.length - first)).map log.entryAt =
      history.drop first := by
    apply List.ext_getElem
    · simp
    · intro k hk hdrop
      rw [List.length_drop] at hdrop
      rw [List.getElem_map, List.getElem_range', List.getElem_drop, Nat.one_mul]
      exact h.entryAt (first + k) (by omega) (by omega)
  rw [EventLog.eventsIn, ← hentries, List.filterMap_map]
  rfl

/-- Between two appends a reader gets what the ring still holds of the history. -/
theorem Holds.readSince {log : EventLog capacity} {history : List EventRecord}
    (h : log.Holds history) {start : UInt64} (hstart : start.toNat ≤ history.length) :
    (log.readSince start).value.events =
        (history.drop (max start.toNat (history.length - capacity))).filterMap (·.event?) ∧
      (log.readSince start).value.lost + (log.readSince start).value.events.length =
        history.length - start.toNat ∧
      (log.readSince start).value.next.toNat = history.length := by
  have hlt : log.cursor.toNat < 2 ^ 63 := by rw [h.cursor]; exact h.bounded
  obtain ⟨happends, hbegun⟩ := appends_of_idle hlt
  rw [h.cursor] at happends hbegun
  have hle : start ≤ log.appends := UInt64.le_iff_toNat_le.2 (by rw [happends]; exact hstart)
  obtain ⟨hevents, hlost, hnext⟩ := value_readSince hle
  rw [overwrittenBelow, hbegun, happends, h.eventsIn (by omega)] at hevents
  rw [happends] at hlost
  exact ⟨hevents, hlost, by rw [hnext, happends]⟩

/-- While append `n` is in flight, a reader passes over the entry that it overwrites. -/
theorem readSince_writing {log : EventLog capacity} {n : Nat} {start : UInt64} (hn : n < 2 ^ 63)
    (hcursor : log.cursor = UInt64.ofNat n ||| writingBit) (hstart : start.toNat ≤ n) :
    (log.readSince start).value.events =
        log.eventsIn (max start.toNat (n + 1 - capacity)) n ∧
      (log.readSince start).value.lost + (log.readSince start).value.events.length =
        n - start.toNat ∧
      (log.readSince start).value.next.toNat = n := by
  obtain ⟨happends, hbegun⟩ := appends_of_writing hn hcursor
  have hle : start ≤ log.appends := UInt64.le_iff_toNat_le.2 (by rw [happends]; exact hstart)
  obtain ⟨hevents, hlost, hnext⟩ := value_readSince hle
  rw [overwrittenBelow, hbegun, happends] at hevents
  rw [happends] at hlost
  exact ⟨hevents, hlost, by rw [hnext, happends]⟩

/-- While an append is in flight, whatever it has already written, a reader gets what the ring will
still hold of the history after it. -/
theorem Holds.readSince_inFlight {log : EventLog capacity} {history : List EventRecord}
    (h : log.Holds history) (r : EventRecord) {start : UInt64}
    (hstart : start.toNat ≤ history.length) :
    let found := ((log.startAppend.overwrite history.length r).readSince start).value
    found.events =
        (history.drop (max start.toNat (history.length + 1 - capacity))).filterMap (·.event?) ∧
      found.lost + found.events.length = history.length - start.toNat ∧
      found.next.toNat = history.length := by
  have hlt : log.cursor.toNat < 2 ^ 63 := by rw [h.cursor]; exact h.bounded
  have hcursor : (log.startAppend.overwrite history.length r).cursor =
      UInt64.ofNat history.length ||| writingBit := by
    rw [overwrite, startAppend, ← h.cursor, ← (appends_of_idle hlt).1, UInt64.ofNat_toNat]
  obtain ⟨hevents, hlost, hnext⟩ := readSince_writing h.bounded hcursor hstart
  have hkept : (log.startAppend.overwrite history.length r).eventsIn
      (max start.toNat (history.length + 1 - capacity)) history.length =
        (history.drop (max start.toNat (history.length + 1 - capacity))).filterMap (·.event?) := by
    by_cases hroom : capacity = 0
    · have hpast : history.length ≤ max start.toNat (history.length + 1 - capacity) := by omega
      have hnone : history.length - max start.toNat (history.length + 1 - capacity) = 0 := by omega
      rw [EventLog.eventsIn, hnone, List.drop_of_length_le hpast]
      rfl
    · rw [eventsIn_overwrite _ (by omega), ← h.eventsIn (by omega)]
      rfl
  exact ⟨hevents.trans hkept, hlost, hnext⟩

end EventLog

/-! ### A reader that goes on where it stopped -/

/-- What happens to a log with one reader. -/
inductive LogMove
  | append (e : Event)
  | read
deriving DecidableEq, Repr

namespace LogMove

/-- The event of an append. -/
def event? : LogMove → Option Event
  | .append e => some e
  | .read => none

/-- The events of all appends. -/
def appended (moves : List LogMove) : List Event := moves.filterMap event?

/-- One more move after the events appended since the last reading. -/
def freshen (fresh : List Event) : LogMove → List Event
  | .append e => fresh ++ [e]
  | .read => []

/-- The events appended since the last reading. -/
def unread (moves : List LogMove) : List Event := moves.foldl freshen []

theorem appended_concat (moves : List LogMove) (m : LogMove) :
    appended (moves ++ [m]) = appended moves ++ m.event?.toList := by
  cases m <;> simp [appended, event?]

theorem unread_concat (moves : List LogMove) (m : LogMove) :
    unread (moves ++ [m]) = freshen (unread moves) m := by
  rw [unread, List.foldl_concat, unread]

end LogMove

/-- A log with one reader and what its readings found. -/
structure Tape (capacity : Nat) where
  log : EventLog capacity
  /-- Where the reader goes on. -/
  next : UInt64
  readings : List Drained

namespace Tape

open LogMove

variable {capacity : Nat}

/-- A log that has not been read. -/
def start (log : EventLog capacity) : Tape capacity := ⟨log, 0, []⟩

/-- What the next reading finds. -/
def found (tape : Tape capacity) : Drained := (tape.log.readSince tape.next).value

def move (tape : Tape capacity) : LogMove → Tape capacity
  | .append e => { tape with log := tape.log.append e.record }
  | .read => { tape with next := tape.found.next, readings := tape.readings ++ [tape.found] }

def run (tape : Tape capacity) (moves : List LogMove) : Tape capacity := moves.foldl move tape

/-- How many events readings account for. -/
def accounted (readings : List Drained) : Nat :=
  (readings.map fun d ↦ d.events.length + d.lost).sum

/-- Everything that readings found. -/
def recovered (readings : List Drained) : List Event := readings.flatMap (·.events)

/-- Whether no reading comes after more appends than the ring holds. -/
def Timely (capacity : Nat) (moves : List LogMove) : Prop :=
  ∀ before after, moves = before ++ .read :: after → (unread before).length ≤ capacity

/-- The tape after some moves: its ring holds the end of what was appended, its reader stands after
what is not unread, and its readings account for everything before that. -/
structure Follows (tape : Tape capacity) (moves : List LogMove) : Prop where
  holds : tape.log.Holds ((appended moves).map Event.record)
  next_le : tape.next.toNat ≤ (appended moves).length
  unread_eq : unread moves = (appended moves).drop tape.next.toNat
  accounted_eq : accounted tape.readings = tape.next.toNat
  recovered_sublist : ((recovered tape.readings).map some).Sublist
    (((appended moves).take tape.next.toNat).map (·.record.event?))
  recovered_eq : Timely capacity moves → (recovered tape.readings).map some =
    ((appended moves).take tape.next.toNat).map (·.record.event?)

theorem follows_start {log : EventLog capacity} (h : log.cursor = 0) : (start log).Follows [] where
  holds := EventLog.holds_nil h
  next_le := Nat.le_refl 0
  unread_eq := rfl
  accounted_eq := rfl
  recovered_sublist := List.Sublist.refl []
  recovered_eq _ := rfl

theorem Timely.of_concat {moves : List LogMove} {m : LogMove} (h : Timely capacity (moves ++ [m])) :
    Timely capacity moves := by
  rintro before after rfl
  exact h before (after ++ [m]) (by simp)

/-- Events that are all read back from their records. -/
theorem map_some_filterMap {events : List Event}
    (h : ∀ e ∈ events, e.record.event? ≠ none) :
    ((events.map Event.record).filterMap (·.event?)).map some = events.map (·.record.event?) := by
  induction events with
  | nil => rfl
  | cons e events ih =>
    obtain ⟨d, hd⟩ := Option.ne_none_iff_exists'.1 (h e List.mem_cons_self)
    have hrest := ih fun a ha ↦ h a (List.mem_cons_of_mem e ha)
    rw [List.map_cons, List.filterMap_cons_some hd, List.map_cons, List.map_cons, hrest, hd]

/-- What a reading finds after the moves that led to it. -/
theorem Follows.found {tape : Tape capacity} {moves : List LogMove} (h : tape.Follows moves)
    (hdecodes : ∀ e ∈ appended moves, e.record.event? ≠ none) :
    tape.found.events.map some =
        ((unread moves).drop ((unread moves).length - capacity)).map (·.record.event?) ∧
      tape.found.lost + tape.found.events.length = (unread moves).length ∧
      tape.found.next.toNat = (appended moves).length := by
  have hlength : ((appended moves).map Event.record).length = (appended moves).length :=
    List.length_map _
  have hheld : tape.next.toNat ≤ ((appended moves).map Event.record).length := by
    rw [hlength]
    exact h.next_le
  obtain ⟨hevents, hlost, hnext⟩ := h.holds.readSince hheld
  rw [hlength] at hevents hlost hnext
  have hunread : (unread moves).length = (appended moves).length - tape.next.toNat := by
    rw [h.unread_eq, List.length_drop]
  have hdrop : (unread moves).drop ((unread moves).length - capacity) =
      (appended moves).drop (max tape.next.toNat ((appended moves).length - capacity)) := by
    have hnext_le := h.next_le
    rw [hunread, h.unread_eq, List.drop_drop]
    congr 1
    omega
  refine ⟨?_, by rw [hunread]; exact hlost, hnext⟩
  rw [hdrop, ← map_some_filterMap fun e he ↦ hdecodes e (List.mem_of_mem_drop he), List.map_drop,
    ← hevents]
  rfl

theorem Follows.append {tape : Tape capacity} {moves : List LogMove} (h : tape.Follows moves)
    (hcapacity : 0 < capacity) {e : Event} (hroom : (appended moves).length + 1 < 2 ^ 63) :
    (tape.move (.append e)).Follows (moves ++ [.append e]) := by
  have happended : appended (moves ++ [.append e]) = appended moves ++ [e] := appended_concat _ _
  have htake : (appended (moves ++ [.append e])).take tape.next.toNat =
      (appended moves).take tape.next.toNat := by
    rw [happended, List.take_append_of_le_length h.next_le]
  constructor
  · have hholds := h.holds.append hcapacity (by simpa using hroom) e.record
    rw [happended, List.map_append]
    exact hholds
  · rw [happended, List.length_append]
    exact Nat.le_add_right_of_le h.next_le
  · rw [unread_concat, happended]
    change unread moves ++ [e] = (appended moves ++ [e]).drop tape.next.toNat
    rw [h.unread_eq, List.drop_append_of_le_length h.next_le]
  · exact h.accounted_eq
  · change ((recovered tape.readings).map some).Sublist (((appended (moves ++ [.append e])).take
      tape.next.toNat).map (·.record.event?))
    rw [htake]
    exact h.recovered_sublist
  · intro htimely
    change (recovered tape.readings).map some = ((appended (moves ++ [.append e])).take
      tape.next.toNat).map (·.record.event?)
    rw [htake]
    exact h.recovered_eq htimely.of_concat

theorem Follows.read {tape : Tape capacity} {moves : List LogMove} (h : tape.Follows moves)
    (hdecodes : ∀ e ∈ appended moves, e.record.event? ≠ none) :
    (tape.move .read).Follows (moves ++ [.read]) := by
  obtain ⟨hevents, hlost, hnext⟩ := h.found hdecodes
  have happended : appended (moves ++ [.read]) = appended moves := by
    rw [appended_concat]
    exact List.append_nil _
  have hall : (appended moves).take (tape.move .read).next.toNat =
      (appended moves).take tape.next.toNat ++ unread moves := by
    change (appended moves).take tape.found.next.toNat = _
    rw [hnext, h.unread_eq, List.take_append_drop, List.take_length]
  have hrecovered : recovered (tape.move .read).readings =
      recovered tape.readings ++ tape.found.events := by
    simp [recovered, move]
  constructor
  · rw [happended]
    exact h.holds
  · rw [happended]
    exact hnext.le
  · change unread (moves ++ [.read]) = (appended (moves ++ [.read])).drop tape.found.next.toNat
    rw [unread_concat, happended, hnext, List.drop_length]
    rfl
  · change accounted (tape.readings ++ [tape.found]) = tape.found.next.toNat
    have hnext_le := h.next_le
    have hunread : (unread moves).length = (appended moves).length - tape.next.toNat := by
      rw [h.unread_eq, List.length_drop]
    have hbefore := h.accounted_eq
    simp only [accounted, List.map_append, List.sum_append, List.map_cons, List.map_nil,
      List.sum_cons, List.sum_nil] at hbefore ⊢
    omega
  · rw [happended, hall, hrecovered, List.map_append, List.map_append, hevents]
    exact h.recovered_sublist.append ((List.drop_sublist _ _).map _)
  · intro htimely
    have hfew : (unread moves).length ≤ capacity := htimely moves [] rfl
    rw [happended, hall, hrecovered, List.map_append, List.map_append, hevents,
      h.recovered_eq htimely.of_concat, Nat.sub_eq_zero_of_le hfew, List.drop_zero]

theorem follows_run (hcapacity : 0 < capacity) {log : EventLog capacity} (hlog : log.cursor = 0)
    {moves : List LogMove} (hcount : (appended moves).length < 2 ^ 63)
    (hdecodes : ∀ e ∈ appended moves, e.record.event? ≠ none) :
    ((start log).run moves).Follows moves := by
  induction moves using List.reverseRecOn with
  | nil => exact follows_start hlog
  | append_singleton moves m ih =>
    have happended := appended_concat moves m
    rw [happended, List.length_append] at hcount
    have hbefore := ih (by omega) fun e he ↦
      hdecodes e (by rw [happended]; exact List.mem_append_left _ he)
    rw [run, List.foldl_concat]
    cases m with
    | append e => exact hbefore.append hcapacity hcount
    | read =>
      exact hbefore.read fun e he ↦
        hdecodes e (by rw [happended]; exact List.mem_append_left _ he)

/-- A log of any capacity and its reader, over fewer appends than a cursor counts. What a reading
finds is what the ring still holds of the events appended since the last reading, in their order,
and the others are counted as lost; over a whole run nothing is found twice or out of order, and
nothing is lost if the reader is timely. While an append is in flight, whatever bytes it has
written, a reader finds the events that the ring will still hold, and never the entry that is being
overwritten. -/
theorem reads_appended (hcapacity : 0 < capacity) (log : EventLog capacity) (hlog : log.cursor = 0)
    (moves : List LogMove) (hcount : (appended moves).length < 2 ^ 63)
    (hslot : ∀ e ∈ appended moves, e.slot.toNat < 2 ^ 31) :
    let tape := (start log).run moves
    let events := appended moves
    (∀ before after, moves = before ++ .read :: after →
      let reading := ((start log).run before).found
      let fresh := unread before
      reading.events.map some =
          (fresh.drop (fresh.length - min fresh.length capacity)).map (·.record.event?) ∧
        reading.events.length = min fresh.length capacity ∧
        reading.lost = fresh.length - min fresh.length capacity ∧
        reading.next.toNat = (appended before).length) ∧
    (accounted tape.readings + (unread moves).length = events.length ∧
      ((recovered tape.readings).map some).Sublist (events.map (·.record.event?)) ∧
      (Timely capacity moves → (recovered tape.readings).map some ++
        (unread moves).map (·.record.event?) = events.map (·.record.event?))) ∧
    (∀ (r : EventRecord) (start : UInt64), start.toNat ≤ events.length →
      let reading := ((tape.log.startAppend.overwrite events.length r).readSince start).value
      reading.events.map some = (events.drop
          (max start.toNat (events.length + 1 - capacity))).map (·.record.event?) ∧
        reading.events.length + reading.lost = events.length - start.toNat ∧
        reading.next.toNat = events.length) ∧
    (∀ (state : EventLog capacity) (n : Nat) (start : UInt64), n < 2 ^ 63 →
      state.cursor = UInt64.ofNat n ||| EventLog.writingBit → start.toNat ≤ n →
      let reading := (state.readSince start).value
      reading.events = state.eventsIn (max start.toNat (n + 1 - capacity)) n ∧
        reading.events.length + reading.lost = n - start.toNat ∧
        reading.next.toNat = n ∧
        ∀ r : EventRecord, ((state.overwrite n r).readSince start).value = reading) := by
  have hdecodes : ∀ e ∈ appended moves, e.record.event? ≠ none := by
    intro e he
    rw [Event.event?_record_of_slot (hslot e he)]
    exact Option.some_ne_none _
  have hfollows := follows_run hcapacity hlog hcount hdecodes
  refine ⟨?_, ⟨?_, ?_, ?_⟩, ?_, ?_⟩
  · rintro before after rfl
    have hsplit : appended (before ++ .read :: after) = appended before ++ appended after := by
      rw [appended, List.filterMap_append, List.filterMap_cons_none rfl, appended, appended]
    have hbefore : ((start log).run before).Follows before := by
      apply follows_run hcapacity hlog
      · rw [hsplit, List.length_append] at hcount
        omega
      · exact fun e he ↦ hdecodes e (by rw [hsplit]; exact List.mem_append_left _ he)
    obtain ⟨hevents, hlost, hnext⟩ := hbefore.found fun e he ↦
      hdecodes e (by rw [hsplit]; exact List.mem_append_left _ he)
    have hlength := congrArg List.length hevents
    rw [List.length_map, List.length_map, List.length_drop] at hlength
    have hdrop : (unread before).length - min (unread before).length capacity =
        (unread before).length - capacity := by omega
    refine ⟨?_, by omega, by omega, hnext⟩
    rw [hevents, hdrop]
  · have hnext_le := hfollows.next_le
    rw [hfollows.accounted_eq, hfollows.unread_eq, List.length_drop]
    omega
  · exact hfollows.recovered_sublist.trans ((List.take_sublist _ _).map _)
  · intro htimely
    rw [hfollows.recovered_eq htimely, hfollows.unread_eq, ← List.map_append, List.take_append_drop]
  · intro r first hfirst
    have hlength : ((appended moves).map Event.record).length = (appended moves).length :=
      List.length_map _
    have hheld : first.toNat ≤ ((appended moves).map Event.record).length := by
      rw [hlength]
      exact hfirst
    obtain ⟨hevents, hlost, hnext⟩ := hfollows.holds.readSince_inFlight r hheld
    rw [hlength] at hevents hlost hnext
    refine ⟨?_, by omega, hnext⟩
    rw [hevents, ← List.map_drop, map_some_filterMap]
    exact fun e he ↦ hdecodes e (List.mem_of_mem_drop he)
  · intro state n first hn hcursor hfirst
    obtain ⟨hevents, hlost, hnext⟩ := EventLog.readSince_writing hn hcursor hfirst
    refine ⟨hevents, by omega, hnext, fun r ↦ ?_⟩
    have hcursor' : (state.overwrite n r).cursor = UInt64.ofNat n ||| EventLog.writingBit := hcursor
    obtain ⟨hevents', hlost', hnext'⟩ := EventLog.readSince_writing hn hcursor' hfirst
    rw [EventLog.eventsIn_overwrite _ (by omega), ← hevents] at hevents'
    rw [hevents'] at hlost'
    exact Drained.ext hevents' (by omega) (UInt64.toNat_inj.1 (by rw [hnext', hnext]))

/-- Three appends to a ring of two entries: the first is lost before the reading, and with a fourth
append in flight only the third is still safe. -/
def shortOfRoom : List LogMove :=
  let e (slot : UInt64) : Event := ⟨slot, ⟨⟨0⟩, 1, 0, 0, "", none⟩, 0, 0, .schedule⟩
  [.append (e 1), .append (e 2), .append (e 0x7FFFFFFF), .read]

theorem reads_appended_shortOfRoom :
    0 < 2 ∧ (EventLog.empty 2).cursor = 0 ∧ (appended shortOfRoom).length < 2 ^ 63 ∧
      (∀ e ∈ appended shortOfRoom, e.slot.toNat < 2 ^ 31) ∧
      ((start (EventLog.empty 2)).run (shortOfRoom.take 3)).found.events.map some =
        ((appended shortOfRoom).drop 1).map (·.record.event?) := by
  have hcapacity : 0 < 2 := by decide
  have hlog : (EventLog.empty 2).cursor = 0 := rfl
  have hcount : (appended shortOfRoom).length < 2 ^ 63 := by decide
  have hslot : ∀ e ∈ appended shortOfRoom, e.slot.toNat < 2 ^ 31 := by decide
  have h := reads_appended hcapacity (EventLog.empty 2) hlog shortOfRoom hcount hslot
  exact ⟨hcapacity, hlog, hcount, hslot, (h.1 (shortOfRoom.take 3) [] rfl).1⟩

end Tape

end Turnstile
