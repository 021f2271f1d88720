import Mathlib.Data.List.TakeWhile
import Mathlib.Logic.Function.Basic
import Turnstile.Proofs.Scene

/-!
# Reporters and the scheduler on a region in any condition

A `Scene` has one reporter to a slot, and its locks are free between two moves. An `Arena` takes
neither for granted: any number of reporters share the slots, and anybody may take a lock, let go of
it or leave it stuck. What has to wait for a stuck lock of a slot does nothing there. A scheduler
that goes over some slots stops at the first that is locked; what it does once the lock is free is
another move, over the slots that are left.

A look at the mode word and the exchange that follows it are one step in `Slot.enter` and
`Slot.finish`, but other moves may come between them. The exchange alone is therefore a move too
(`Slot.exchange`), after whatever look there was before; `Slot.enter_eq_exchange` and
`Slot.finish_eq_exchange` say that the two steps of a reporter are such exchanges.

What a reporter can do at its slot is said once, by `Station.acted_act`. It follows that a reporter
stays at its slot and writes the mode word only by an exchange (`Station.keeps_act`). A round writes
it not at all (`Region.modeWord_roundOver`).
-/

set_option autoImplicit false
set_option relaxedAutoImplicit false

namespace Turnstile

/-! ### Exchanges -/

/-- An exchange of the mode word by a reporter. -/
inductive Exchange
  /-- A report finds a slot without a report before. -/
  | first
  /-- A program has no tasks left, and found that mode before. -/
  | last (seen : Mode) (controlled : seen.isControlled)

namespace Exchange

def old : Exchange → Mode
  | first => .uninitialized
  | last seen _ => seen

def new : Exchange → Mode
  | first => .firstEvent
  | last _ _ => .finished

end Exchange

namespace Slot

variable {s : Slot}

/-- The mode of the slot is exchanged, if it is the one that was found before. -/
def exchange (s : Slot) (x : Exchange) : Slot := if s.mode? = some x.old then s.setMode x.new else s

theorem enter_eq_exchange (s : Slot) : s.enter.1 = s.exchange .first := by
  unfold enter exchange
  cases hmode : s.mode? with
  | none => rfl
  | some m => cases m <;> rfl

theorem finish_eq_exchange {s' : Slot} (h : s.finish = .ok s') :
    ∃ seen controlled, s' = s.exchange (.last seen controlled) := by
  unfold finish mode at h
  cases hmode : s.mode? with
  | none =>
    rw [hmode] at h
    cases h
  | some m =>
    rw [hmode] at h
    by_cases hcontrolled : m.isControlled
    · refine ⟨m, hcontrolled, ?_⟩
      have hfinished : s.setMode .finished = s' := by
        simpa [bind, Except.bind, pure, Except.pure, hcontrolled] using h
      rw [← hfinished]
      exact (if_pos hmode).symm
    · simp [bind, Except.bind, hcontrolled] at h

/-- An exchange reads and writes nothing but the mode word. -/
theorem modeWord_exchange_congr {s' : Slot} (h : s'.modeWord = s.modeWord) (x : Exchange) :
    (s'.exchange x).modeWord = (s.exchange x).modeWord := by
  have hmode : s'.mode? = s.mode? := congrArg Mode.ofCode? h
  unfold exchange
  rw [hmode]
  split_ifs
  · rfl
  · exact h

/-! ### What leaves the mode word alone -/

theorem modeWord_poll (s : Slot) : s.poll.1.modeWord = s.modeWord := by
  have htake : s.acquire.takeAnswer.1.modeWord = s.modeWord := by
    unfold takeAnswer
    cases s.acquire.answer? <;> rfl
  exact htake

theorem modeWord_offer {σ : Type} (policy : Policy σ) (state : σ) (i : SlotIndex) (s : Slot) :
    (offer policy state i s).value.1.modeWord = s.modeWord := by
  obtain ⟨next, choice, hchoice⟩ : ∃ next choice,
      (policy.choose state i s.acquire).value = (next, choice) := ⟨_, _, rfl⟩
  unfold offer
  simp only [Noted.value_bind, hchoice]
  cases choice with
  | wait | breakdown => rfl
  | grant t =>
    unfold grant
    by_cases hadvance : s.acquire.canAdvance
    · simp only [hadvance, if_true]
      rfl
    · simp only [hadvance]
      rfl

end Slot

namespace Region

/-- The slots of an order up to the first that is locked. -/
def reached (r : Region) (order : List SlotIndex) : List SlotIndex :=
  order.takeWhile fun i ↦ (r.slot i).isUnlocked

theorem reached_of_unlocked {r : Region} (h : ∀ i, (r.slot i).isUnlocked) (order : List SlotIndex) :
    r.reached order = order := by
  apply List.takeWhile_eq_self_iff.2
  intro i _
  exact h i

/-- A round writes no mode. -/
theorem modeWord_roundOver {σ : Type} (policy : Policy σ) (order : List SlotIndex)
    (summary : RoundSummary) (r : Region) (state : σ) (i : SlotIndex) :
    ((roundOver policy order summary r state).value.region.slot i).modeWord =
      (r.slot i).modeWord := by
  induction order generalizing summary r state with
  | nil => rfl
  | cons j order ih =>
    by_cases hoffered : (r.slot j).isOffered
    · obtain ⟨s, next, offer, hoffer⟩ : ∃ s next offer,
          (Slot.offer policy state j (r.slot j)).value = (s, next, offer) := ⟨_, _, _, rfl⟩
      have hword : s.modeWord = (r.slot j).modeWord := by
        have hword := Slot.modeWord_offer policy state j (r.slot j)
        rwa [hoffer] at hword
      have hset : ((r.setSlot j s).slot i).modeWord = (r.slot i).modeWord := by
        by_cases hslot : i = j
        · rw [hslot, slot_setSlot_self, hword]
        · rw [slot_setSlot_of_ne r hslot]
      unfold roundOver
      simp only [hoffered, if_true, Noted.value_bind, hoffer]
      cases offer with
      | granted t | waits => exact (ih _ _ _).trans hset
      | broken => exact hset
    · unfold roundOver
      simp only [hoffered]
      exact ih summary r state

end Region

/-! ### What a reporter does with the mode word -/

/-- What is left of a reporter and of a mode word by a piece of a report. -/
structure Reported.Keeps (x : Reported) (r : Reporter) (word : Int32) : Prop where
  slot : x.reporter.slot = r.slot
  word : x.slot.modeWord = word

namespace Reporter

variable {r : Reporter} {s : Slot}

theorem keeps_poll (r : Reporter) (s : Slot) (pace : Backoff) :
    (r.poll s pace).Keeps r s.modeWord := by
  have hword := s.modeWord_poll
  unfold poll
  split_ifs
  · cases hpoll : s.poll with
    | mk s' answer =>
      rw [hpoll] at hword
      cases answer <;> exact ⟨rfl, hword⟩
  · exact ⟨rfl, rfl⟩

theorem keeps_request (r : Reporter) (s : Slot) (pace : Backoff) :
    (r.request s pace).Keeps r s.modeWord := by
  unfold request
  split_ifs <;> exact ⟨rfl, rfl⟩

theorem keeps_polled {x : Reported} {word : Int32} (h : x.Keeps r word) :
    x.polled.Keeps r word := by
  unfold Reported.polled
  split
  · have hpoll := keeps_poll x.reporter x.slot
    exact ⟨(hpoll _).slot.trans h.slot, (hpoll _).word.trans h.word⟩
  · exact h

/-- A report that is not held up makes the first exchange. -/
theorem keeps_proceed (r : Reporter) (s : Slot) (kind : EventKind) :
    (r.proceed s kind).Keeps r (s.exchange .first).modeWord := by
  rw [← Slot.enter_eq_exchange]
  unfold proceed
  cases henter : s.enter with
  | mk s' mode =>
    cases mode with
    | error e => exact ⟨rfl, rfl⟩
    | ok m =>
      have hadvanced : (if m = .recordActive ∧ kind = .schedule then s'.advance else s').modeWord =
          s'.modeWord := by
        split_ifs <;> rfl
      by_cases hwaits : (r.enforcing && m.suspends) = true
      · simp only [hwaits, if_true]
        have hrequest := keeps_request { r with tally.suspensions := r.tally.suspensions + 1 }
          (if m = .recordActive ∧ kind = .schedule then s'.advance else s') (.start r.spinLimit)
        exact ⟨hrequest.slot, hrequest.word.trans hadvanced⟩
      · simp only [hwaits]
        exact ⟨rfl, hadvanced⟩

theorem keeps_publish (r : Reporter) (s : Slot) (t : Task) (kind : EventKind) (pace : Backoff) :
    (r.publish s t kind pace).Keeps r s.modeWord ∨
      (r.publish s t kind pace).Keeps r (s.exchange .first).modeWord := by
  unfold publish
  split_ifs
  · have hshown : (s.publish t).modeWord = s.modeWord := rfl
    have hproceed := r.keeps_proceed (s.publish t) kind
    exact .inr ⟨hproceed.slot, hproceed.word.trans (Slot.modeWord_exchange_congr hshown .first)⟩
  · exact .inl ⟨rfl, rfl⟩

theorem keeps_announce (r : Reporter) (s : Slot) (id : Int64) (payload : Payload)
    (stamp : UInt64) :
    (r.announce s id payload stamp).Keeps r s.modeWord ∨
      (r.announce s id payload stamp).Keeps r (s.exchange .first).modeWord := by
  unfold announce
  cases htask : s.task? id with
  | none => exact .inl ⟨rfl, rfl⟩
  | some t =>
    have hlogged : (s.record (r.event s t payload stamp)).modeWord = s.modeWord := rfl
    obtain hkept | hexchanged := keeps_publish
      { r with tally.reports := r.tally.reports + 1 } (s.record (r.event s t payload stamp))
      (r.event s t payload stamp).task payload.kind (.start Limits.spins)
    · exact .inl ⟨hkept.slot, hkept.word⟩
    · exact .inr ⟨hexchanged.slot,
        hexchanged.word.trans (Slot.modeWord_exchange_congr hlogged .first)⟩

end Reporter

/-! ### What a reporter does at its slot -/

namespace Phase

/-- Whether a report in the phase waits for the scheduler, and not only for a lock on its way. -/
def awaits : Phase → Bool
  | publishing _ _ => false
  | requesting | polling => true

end Phase

namespace Seat

/-- The exchange that an act of the reporter may make. -/
inductive Exchanges : Seat → Act → Exchange → Prop
  | report {r : Reporter} (id : Int64) (payload : Payload) (stamp : UInt64) :
    Exchanges ⟨r, none⟩ (.report id payload stamp) .first
  | poll {r : Reporter} {w : Wait} (h : w.phase.awaits = false) : Exchanges ⟨r, some w⟩ .poll .first
  | finish {r : Reporter} {seen : Mode} (controlled : seen.isControlled) :
    Exchanges ⟨r, none⟩ .finish (.last seen controlled)

/-- Whether the report of a reporter waits for the scheduler. -/
def awaits (x : Seat) : Bool := x.wait.any fun w ↦ w.phase.awaits

end Seat

namespace Station

variable {p : Station}

/-- What an act leaves of a reporter and of the mode word of its slot. -/
structure Keeps (p : Station) (r : Reporter) (word : Int32) : Prop where
  slot : ∀ seat, p.seat = some seat → seat.reporter.slot = r.slot
  word : p.slot.modeWord = word

theorem keeps_settle {x : Reported} {r : Reporter} {word : Int32} (h : x.Keeps r word)
    (paused : List Happening) : (settle x paused).1.Keeps r word := by
  unfold settle
  cases x.progress with
  | ended outcome | paused w =>
    refine ⟨?_, h.word⟩
    rintro seat ⟨⟩
    exact h.slot

/-- What a reporter can do at its slot, given where its report stands. -/
inductive Acted (s : Slot) : Seat → Act → Station × List Happening → Prop
  | still (seat : Seat) (a : Act) : Acted s seat a (⟨s, some seat⟩, [])
  | left (r : Reporter) : Acted s ⟨r, none⟩ .detach (⟨s, none⟩, [])
  /-- It has spawned a task, set a status or counted a hit. -/
  | worked {r r' : Reporter} {s' : Slot} (a : Act) (hslot : r'.slot = r.slot)
    (hword : s'.modeWord = s.modeWord) : Acted s ⟨r, none⟩ a (⟨s', some ⟨r', none⟩⟩, [])
  | finished (r : Reporter) {seen : Mode} (controlled : seen.isControlled) :
    Acted s ⟨r, none⟩ .finish (⟨s.exchange (.last seen controlled), some ⟨r, none⟩⟩, [])
  | reported (r : Reporter) (id : Int64) (payload : Payload) (stamp : UInt64) :
    Acted s ⟨r, none⟩ (.report id payload stamp)
      (settle (r.announce s id payload stamp) [.suspended])
  | polled (r : Reporter) (w : Wait) : Acted s ⟨r, some w⟩ .poll (settle (r.resume s w) [])

theorem acted_act (i : SlotIndex) (s : Slot) (seat : Seat) {a : Act} (ha : ∀ m, a ≠ .select m) :
    Acted s seat a (act i ⟨s, some seat⟩ a) := by
  obtain ⟨r, wait⟩ := seat
  match wait, a with
  | _, .select m => exact absurd rfl (ha m)
  | none, .attach _ _ | none, .poll | some w, .attach _ _ | some w, .detach | some w, .spawn _ _ _
  | some w, .setStatus _ _ | some w, .hit _ | some w, .finish | some w, .report _ _ _ =>
    exact .still _ _
  | none, .detach => exact .left r
  | none, .spawn id site label => exact .worked _ rfl rfl
  | none, .setStatus id status =>
    cases htask : s.task? id with
    | none =>
      simp only [act, Reporter.setStatus, htask, Noted.value_pure]
      exact .still _ _
    | some t =>
      simp only [act, Reporter.setStatus, htask]
      exact .worked _ rfl rfl
  | none, .hit block =>
    cases hrow : r.rows[block]? with
    | some row =>
      simp only [act, Reporter.reportBlock, hrow, Noted.value_pure]
      exact .worked _ rfl rfl
    | none =>
      by_cases hroom : r.rows.size < Limits.blocks
      · simp only [act, Reporter.reportBlock, hrow, hroom, if_true, Noted.value_pure]
        exact .worked _ rfl rfl
      · simp only [act, Reporter.reportBlock, hrow, hroom, if_false]
        exact .worked _ rfl rfl
  | none, .finish =>
    cases hfinish : s.finish with
    | error e =>
      simp only [act, hfinish]
      exact .still _ _
    | ok s' =>
      obtain ⟨seen, hcontrolled, rfl⟩ := Slot.finish_eq_exchange hfinish
      simp only [act, hfinish]
      exact .finished r hcontrolled
  | none, .report id payload stamp => exact .reported r id payload stamp
  | some w, .poll => exact .polled r w

/-- A reporter keeps its slot, and writes its mode only by an exchange. -/
theorem keeps_act (i : SlotIndex) (s : Slot) (seat : Seat) {a : Act} (ha : ∀ m, a ≠ .select m) :
    (act i ⟨s, some seat⟩ a).1.Keeps seat.reporter s.modeWord ∨
      ∃ x, seat.Exchanges a x ∧
        (act i ⟨s, some seat⟩ a).1.Keeps seat.reporter (s.exchange x).modeWord := by
  have hacted := acted_act i s seat ha
  generalize act i ⟨s, some seat⟩ a = q at hacted ⊢
  cases hacted with
  | still =>
    refine .inl ⟨?_, rfl⟩
    rintro _ ⟨⟩
    rfl
  | left r =>
    refine .inl ⟨?_, rfl⟩
    rintro _ ⟨⟩
  | worked _ hslot hword =>
    refine .inl ⟨?_, hword⟩
    rintro _ ⟨⟩
    exact hslot
  | finished r hcontrolled =>
    refine .inr ⟨_, .finish hcontrolled, ?_, rfl⟩
    rintro _ ⟨⟩
    rfl
  | reported r id payload stamp =>
    obtain hkept | hexchanged := r.keeps_announce s id payload stamp
    · exact .inl (keeps_settle hkept _)
    · exact .inr ⟨_, .report id payload stamp, keeps_settle hexchanged _⟩
  | polled r w =>
    obtain ⟨phase, pace⟩ := w
    cases phase with
    | publishing t kind =>
      obtain hkept | hexchanged := r.keeps_publish s t kind pace
      · exact .inl (keeps_settle (Reporter.keeps_polled hkept) _)
      · exact .inr ⟨_, .poll rfl, keeps_settle (Reporter.keeps_polled hexchanged) _⟩
    | requesting =>
      exact .inl (keeps_settle (Reporter.keeps_polled (r.keeps_request s pace)) _)
    | polling => exact .inl (keeps_settle (r.keeps_poll s pace) _)

end Station

/-! ### Arenas -/

/-- A region and the reporters that are attached to its slots, under numbers. -/
structure Arena where
  region : Region
  seats : Nat → Option Seat

namespace Arena

/-- A move on an arena. -/
inductive Move : Type 1
  /-- Reporter `n` is attached to a slot, if there is none under that number. -/
  | attach (n : Nat) (i : SlotIndex) (enforcing : Bool) (spinLimit : UInt32)
  /-- Reporter `n` does something at its slot. -/
  | act (n : Nat) (a : Act)
  /-- A reporter makes an exchange on which it decided by an earlier look. -/
  | exchange (i : SlotIndex) (x : Exchange)
  /-- The scheduler selects a mode in some slots, up to the first that is locked or refuses. -/
  | select (m : ControlMode) (order : List SlotIndex)
  | endReplay
  /-- A round over some slots, up to the first that is locked, under a policy in some state. -/
  | round (order : List SlotIndex) {σ : Type} (policy : Policy σ) (state : σ)
  /-- Somebody takes the lock of a slot, or lets go of it. -/
  | setLock (i : SlotIndex) (word : UInt32)
  /-- Somebody takes the lock of the call word, or lets go of it. -/
  | setCallLock (i : SlotIndex) (word : UInt32)

/-- A region before any report, without reporters. -/
def fresh : Arena := ⟨.fresh, fun _ ↦ none⟩

/-- Attach a reporter under a number that is free. -/
def attach (x : Arena) (n : Nat) (i : SlotIndex) (enforcing : Bool) (spinLimit : UInt32) : Arena :=
  match x.seats n with
  | none =>
    let seat : Seat := ⟨.attach i (x.region.slot i) enforcing spinLimit, none⟩
    { x with seats := Function.update x.seats n (some seat) }
  | some _ => x

/-- What a reporter does at its slot, and what becomes of its report. -/
def act (x : Arena) (n : Nat) (a : Act) : Arena × List Happening :=
  match x.seats n, a with
  | none, _ | _, .select _ => (x, [])
  | some seat, a =>
    let i := seat.reporter.slot
    let (p, new) := Station.act i ⟨x.region.slot i, some seat⟩ a
    (⟨x.region.setSlot i p.slot, Function.update x.seats n p.seat⟩, new)

/-- One move, and what becomes of the report of the reporter that makes it. -/
def step (x : Arena) : Move → Arena × List Happening
  | .attach n i enforcing spinLimit => (x.attach n i enforcing spinLimit, [])
  | .act n a => x.act n a
  | .exchange i e => ({ x with region := x.region.setSlot i ((x.region.slot i).exchange e) }, [])
  | .select m order =>
    ({ x with region := (x.region.selectIn m (x.region.reached order)).1 }, [])
  | .endReplay => ({ x with region := x.region.endReplay }, [])
  | .round order policy state =>
    let round := (Region.roundOver policy (x.region.reached order) .none x.region state).value
    ({ x with region := round.region }, [])
  | .setLock i word =>
    ({ x with region := x.region.setSlot i { x.region.slot i with lock := word } }, [])
  | .setCallLock i word =>
    ({ x with region := x.region.setSlot i { x.region.slot i with callLock := word } }, [])

/-- The arena after some moves. -/
def run (x : Arena) (moves : List Move) : Arena := moves.foldl (fun x v ↦ (x.step v).1) x

/-- The arena after some moves from the fresh one. -/
def after (moves : List Move) : Arena := fresh.run moves

theorem run_append (x : Arena) (moves later : List Move) :
    x.run (moves ++ later) = (x.run moves).run later := List.foldl_append

theorem after_append (moves later : List Move) : after (moves ++ later) = (after moves).run later :=
  run_append fresh moves later

theorem run_concat (x : Arena) (moves : List Move) (v : Move) :
    x.run (moves ++ [v]) = ((x.run moves).step v).1 := run_append x moves [v]

section Unlocked

variable {x : Arena} (h : ∀ i, (x.region.slot i).isUnlocked)

include h

/-- With every lock free, a round over all slots is a round of the region. -/
theorem step_round {σ : Type} (policy : Policy σ) (state : σ) :
    x.step (.round (List.finRange Limits.slots) policy state) =
      ({ x with region := (x.region.round policy state).value.region }, []) := by
  rw [step, Region.reached_of_unlocked h]
  rfl

/-- With every lock free, a selection in all slots is one of the region. -/
theorem step_select (m : ControlMode) :
    x.step (.select m (List.finRange Limits.slots)) =
      ({ x with region := (x.region.selectAll m).1 }, []) := by
  rw [step, Region.reached_of_unlocked h]
  rfl

end Unlocked

theorem region_attach (x : Arena) (n : Nat) (i : SlotIndex) (enforcing : Bool)
    (spinLimit : UInt32) : (x.attach n i enforcing spinLimit).region = x.region := by
  unfold attach
  cases x.seats n <;> rfl

/-- What nobody does changes nothing, and selecting is nothing that a reporter does. -/
theorem act_of_none {x : Arena} {n : Nat} {a : Act} (h : x.seats n = none ∨ ∃ m, a = .select m) :
    x.act n a = (x, []) := by
  unfold act
  obtain hseat | ⟨m, rfl⟩ := h
  · rw [hseat]
  · cases x.seats n <;> rfl

theorem act_of_seat {x : Arena} {n : Nat} {seat : Seat} (hseat : x.seats n = some seat) {a : Act}
    (ha : ∀ m, a ≠ .select m) :
    let i := seat.reporter.slot
    let q := Station.act i ⟨x.region.slot i, some seat⟩ a
    x.act n a = (⟨x.region.setSlot i q.1.slot, Function.update x.seats n q.1.seat⟩, q.2) := by
  unfold act
  rw [hseat]
  cases a with
  | select m => exact absurd rfl (ha m)
  | attach _ _ | detach | spawn _ _ _ | setStatus _ _ | hit _ | finish | report _ _ _ | poll => rfl

/-- What a reporter does is nothing to the others. -/
theorem seats_act_of_ne (x : Arena) {n k : Nat} (h : k ≠ n) (a : Act) :
    (x.act n a).1.seats k = x.seats k := by
  by_cases hnobody : x.seats n = none ∨ ∃ m, a = .select m
  · rw [act_of_none hnobody]
  · push Not at hnobody
    obtain ⟨hseat, ha⟩ := hnobody
    obtain ⟨seat, hseat⟩ := Option.ne_none_iff_exists'.1 hseat
    rw [act_of_seat hseat ha]
    exact Function.update_of_ne h _ _

theorem seats_act_self {x : Arena} {n : Nat} {seat : Seat} (hseat : x.seats n = some seat) {a : Act}
    (ha : ∀ m, a ≠ .select m) : (x.act n a).1.seats n =
      (Station.act seat.reporter.slot ⟨x.region.slot seat.reporter.slot, some seat⟩ a).1.seat := by
  rw [act_of_seat hseat ha]
  exact Function.update_self _ _ _

/-- Only attaching and what a reporter does itself changes where it stands. -/
theorem seats_attach_of_ne (x : Arena) {n k : Nat} (h : k ≠ n) (i : SlotIndex) (enforcing : Bool)
    (spinLimit : UInt32) : (x.attach n i enforcing spinLimit).seats k = x.seats k := by
  unfold attach
  cases x.seats n with
  | none => exact Function.update_of_ne h _ _
  | some seat => rfl

theorem seats_attach_self {x : Arena} {n : Nat} (hseat : x.seats n = none) (i : SlotIndex)
    (enforcing : Bool) (spinLimit : UInt32) : (x.attach n i enforcing spinLimit).seats n =
      some ⟨.attach i (x.region.slot i) enforcing spinLimit, none⟩ := by
  unfold attach
  rw [hseat]
  exact Function.update_self _ _ _

end Arena

end Turnstile
