import Mathlib.Data.List.Basic
import Mathlib.Data.List.Induction
import Turnstile.Control.Round
import Turnstile.Reporter.Report

/-!
# Reporters and the scheduler on one region

A `Scene` is a region with the reporters attached to its slots, at most one to each. Its moves are
what a reporter does between two waits, one poll of a waiting report, and what the scheduler does:
selecting a mode, ending the replay, and a round under any policy. Each move leaves the locks free,
so that moves can be run in any order. A move that its side cannot make, such as a report of a
reporter that waits, changes nothing.

A move acts on one slot, but for the end of the replay and for a round, and these treat every slot
alike. `Scene.step_station` says so: to one slot with its reporter, a move is one of the steps of
`Station.Step`. A round is a single `Slot.Turn` of each slot, whatever the policy makes of the
offers (`Region.turn_round`). What becomes of the reports of a slot is its history, the list of its
`Happening`s.
-/

set_option autoImplicit false
set_option relaxedAutoImplicit false

namespace Turnstile

/-! ### One slot and its reporter -/

/-- A reporter with its report, if that waits. -/
structure Seat where
  reporter : Reporter
  wait : Option Wait

/-- A slot with the reporter that is attached to it. -/
structure Station where
  slot : Slot
  seat : Option Seat

/-- What a reporter does at its slot, and what the scheduler does at one slot alone. -/
inductive Act
  | attach (enforcing : Bool) (spinLimit : UInt32)
  | detach
  | spawn (id : Int64) (site : UInt64) (label : String)
  | setStatus (id : Int64) (status : StatusWord)
  | hit (block : String)
  | finish
  /-- A report, up to its request if it has to wait. -/
  | report (id : Int64) (payload : Payload) (stamp : UInt64)
  /-- One poll of a waiting report. -/
  | poll
  | select (m : ControlMode)

/-- What becomes of a report. -/
inductive Happening
  /-- It begins to wait. -/
  | suspended
  /-- A round grants its slot a task. -/
  | granted (t : Task)
  | ended (outcome : Except Error Resume)

namespace Station

/-- Whether a report waits. -/
def waits (p : Station) : Bool := (p.seat.bind Seat.wait).isSome

/-- The station after a piece of a report, which has paused or ended. -/
def settle (x : Reported) (paused : List Happening) : Station × List Happening :=
  match x.progress with
  | .ended outcome => (⟨x.slot, some ⟨x.reporter, none⟩⟩, [.ended outcome])
  | .paused w => (⟨x.slot, some ⟨x.reporter, some w⟩⟩, paused)

/-- One act at slot `i`, and what becomes of the report by it. -/
def act (i : SlotIndex) (p : Station) (a : Act) : Station × List Happening :=
  match a, p.seat with
  | .attach enforcing spinLimit, none =>
    (⟨p.slot, some ⟨.attach i p.slot enforcing spinLimit, none⟩⟩, [])
  | .detach, some ⟨_, none⟩ => (⟨p.slot, none⟩, [])
  | .spawn id site label, some ⟨r, none⟩ =>
    let (r, s, _) := (r.spawn p.slot id site label).value
    (⟨s, some ⟨r, none⟩⟩, [])
  | .setStatus id status, some ⟨r, none⟩ =>
    match (r.setStatus p.slot id status).value with
    | .ok (s, _) => (⟨s, some ⟨r, none⟩⟩, [])
    | .error _ => (p, [])
  | .hit block, some ⟨r, none⟩ =>
    let (r, s) := (r.reportBlock p.slot block).value
    (⟨s, some ⟨r, none⟩⟩, [])
  | .finish, some ⟨r, none⟩ =>
    match p.slot.finish with
    | .ok s => (⟨s, some ⟨r, none⟩⟩, [])
    | .error _ => (p, [])
  | .report id payload stamp, some ⟨r, none⟩ =>
    settle (r.announce p.slot id payload stamp) [.suspended]
  | .poll, some ⟨r, some w⟩ => settle (r.resume p.slot w) []
  | .select m, seat => (⟨(p.slot.select m).1, seat⟩, [])
  | _, _ => (p, [])

end Station

/-! ### One round at one slot -/

namespace Slot

theorem release_acquire {s : Slot} (h : s.lock = 0) : s.acquire.release = s := by
  cases s
  simp only at h
  subst h
  rfl

/-- A slot whose answer is a task. -/
def answered (s : Slot) (t : Task) : Slot :=
  { s with running := t.record, epoch := s.epoch + 1, directiveWord := Directive.proceed.code }

/-- A slot whose answer was broken off at the last epoch. -/
def overrun (s : Slot) (t : Task) : Slot := { s with running := t.record, epoch := s.epoch + 1 }

/-- What a round makes of a slot with a free lock, and the task that it grants. -/
inductive Turn (s : Slot) : Slot → Option Task → Prop
  /-- It was not offered, or the policy let it wait. -/
  | passed : Turn s s none
  | granted (t : Task) : s.isOffered → s.canAdvance → Turn s (s.answered t) (some t)
  | broken (t : Task) : s.isOffered → s.canAdvance = false → Turn s (s.overrun t) none

/-- The answer ends the offer. -/
theorem not_isOffered_answered (s : Slot) (t : Task) : ¬ (s.answered t).isOffered := by
  have hrequest : (s.answered t).hasRequest = false := rfl
  simp [isOffered, hrequest]

/-- An offer to a policy that chooses `choice`. -/
theorem value_offer {σ : Type} {policy : Policy σ} {state next : σ} {i : SlotIndex} {s : Slot}
    {choice : Choice} (hlock : s.lock = 0)
    (hchoice : (policy.choose state i s.acquire).value = (next, choice)) :
    (offer policy state i s).value = match choice with
      | .wait => (s, next, .waits)
      | .breakdown => (s, next, .broken)
      | .grant t =>
        if s.canAdvance then (s.answered t, next, .granted t)
        else (s.overrun t, next, .broken) := by
  have hfree := release_acquire hlock
  unfold offer
  simp only [Noted.value_bind, hchoice]
  cases choice with
  | wait => simp [hfree]
  | breakdown => simp [hfree]
  | grant t =>
    have hadvance : s.acquire.canAdvance = s.canAdvance := rfl
    have hanswered : (s.acquire.answered t).release = s.answered t := by
      rw [← hfree]
      rfl
    have hoverrun : (s.acquire.overrun t).release = s.overrun t := by
      rw [← hfree]
      rfl
    by_cases hlast : s.canAdvance
    · simp only [grant, hadvance, hlast, if_true]
      exact congrArg (fun x ↦ (x, next, Offer.granted t)) hanswered
    · simp only [grant, hadvance, hlast]
      exact congrArg (fun x ↦ (x, next, Offer.broken)) hoverrun

end Slot

/-! ### Lists by slot -/

/-- The part of a list that belongs to slot `i`. -/
def atSlot {α : Type} (i : SlotIndex) (l : List (SlotIndex × α)) : List α :=
  l.filterMap fun x ↦ if x.1 = i then some x.2 else none

theorem atSlot_append {α : Type} (i : SlotIndex) (l m : List (SlotIndex × α)) :
    atSlot i (l ++ m) = atSlot i l ++ atSlot i m := List.filterMap_append

theorem atSlot_map {α β : Type} (f : α → β) (i : SlotIndex) (l : List (SlotIndex × α)) :
    atSlot i (l.map fun x ↦ (x.1, f x.2)) = (atSlot i l).map f := by
  rw [atSlot, atSlot, List.filterMap_map, List.map_filterMap]
  apply List.filterMap_congr
  intro x _
  by_cases hslot : x.1 = i <;> simp [hslot]

theorem mem_of_mem_atSlot {α : Type} {i : SlotIndex} {l : List (SlotIndex × α)} {a : α}
    (h : a ∈ atSlot i l) : (i, a) ∈ l := by
  obtain ⟨⟨j, b⟩, hmem, hsome⟩ := List.mem_filterMap.1 h
  by_cases hslot : j = i
  · have hb : b = a := by simpa [hslot] using hsome
    rwa [hslot, hb] at hmem
  · simp [hslot] at hsome

theorem atSlot_pairs_self {α : Type} (i : SlotIndex) (l : List α) :
    atSlot i (l.map (i, ·)) = l := by
  rw [atSlot, List.filterMap_map]
  simp

theorem atSlot_pairs_of_ne {α : Type} {i j : SlotIndex} (h : j ≠ i) (l : List α) :
    atSlot i (l.map (j, ·)) = [] := by
  rw [atSlot, List.filterMap_map]
  simp [h]

theorem atSlot_single_self {α : Type} (i : SlotIndex) (a : α) : atSlot i [(i, a)] = [a] :=
  atSlot_pairs_self i [a]

theorem atSlot_single_of_ne {α : Type} {i j : SlotIndex} (h : j ≠ i) (a : α) :
    atSlot i [(j, a)] = [] := atSlot_pairs_of_ne h [a]

/-- Events tell their slot by a word. -/
theorem toNat_slotWord (i : SlotIndex) : (UInt64.ofNat i).toNat = i :=
  UInt64.toNat_ofNat_of_lt' (Nat.lt_trans i.isLt (by decide))

namespace Region

/-! ### One round at every slot -/

theorem slot_setSlot_self (r : Region) (i : SlotIndex) (s : Slot) : (r.setSlot i s).slot i = s := by
  simp [slot, setSlot]

theorem slot_setSlot_of_ne (r : Region) {i j : SlotIndex} (h : j ≠ i) (s : Slot) :
    (r.setSlot i s).slot j = r.slot j := by
  have hval : (i : Nat) ≠ j := fun hval ↦ h (Fin.ext hval.symm)
  simp [slot, setSlot, hval]

theorem setSlot_slot (r : Region) (i : SlotIndex) : r.setSlot i (r.slot i) = r := by
  simp [slot, setSlot]

theorem slot_endReplay (r : Region) (i : SlotIndex) :
    r.endReplay.slot i = (r.slot i).setMode .replayEnded := by
  simp [slot, endReplay]

theorem slot_fresh (i : SlotIndex) : fresh.slot i = Slot.fresh := by
  simp [slot, fresh, stamp, zero, Slot.fresh]

/-- A slot in the course of a round: not yet granted a task, or granted one. -/
def InRound (before now : Slot) (granted : List Task) : Prop :=
  now = before ∧ granted = [] ∨
    ∃ t, now = before.answered t ∧ granted = [t] ∧ before.isOffered ∧ before.canAdvance

theorem InRound.turn {before now : Slot} {granted : List Task} (h : InRound before now granted) :
    ∃ g : Option Task, before.Turn now g ∧ granted = g.toList ∧ (g = none → now = before) := by
  obtain ⟨rfl, rfl⟩ | ⟨t, rfl, rfl, hoffered, hadvance⟩ := h
  · exact ⟨none, .passed, rfl, fun _ ↦ rfl⟩
  · exact ⟨some t, .granted t hoffered hadvance, rfl, fun hnone ↦ absurd hnone (by simp)⟩

theorem InRound.grant {r : Region} {i j : SlotIndex} {before : Slot}
    {granted : List (SlotIndex × Task)} (h : InRound before (r.slot i) (atSlot i granted))
    (hoffered : (r.slot j).isOffered) (hadvance : (r.slot j).canAdvance) (t : Task) :
    InRound before ((r.setSlot j ((r.slot j).answered t)).slot i)
      (atSlot i (granted ++ [(j, t)])) := by
  by_cases hslot : j = i
  · subst hslot
    rw [slot_setSlot_self, atSlot_append, atSlot_single_self]
    obtain ⟨hbefore, hnone⟩ | ⟨u, hbefore, -⟩ := h
    · exact .inr ⟨t, by rw [hbefore], by rw [hnone, List.nil_append], hbefore ▸ hoffered,
        hbefore ▸ hadvance⟩
    · rw [hbefore] at hoffered
      exact absurd hoffered (Slot.not_isOffered_answered _ _)
  · rw [slot_setSlot_of_ne r (Ne.symm hslot), atSlot_append, atSlot_single_of_ne hslot,
      List.append_nil]
    exact h

/-- An answer that is broken off is the last thing that a round does. -/
theorem InRound.overrun {r : Region} {i j : SlotIndex} {before : Slot} {granted : List Task}
    (h : InRound before (r.slot i) granted) (hoffered : (r.slot j).isOffered)
    (hadvance : (r.slot j).canAdvance = false) (t : Task) :
    ∃ g : Option Task, before.Turn ((r.setSlot j ((r.slot j).overrun t)).slot i) g ∧
      granted = g.toList := by
  by_cases hslot : j = i
  · subst hslot
    rw [slot_setSlot_self]
    obtain ⟨hbefore, hnone⟩ | ⟨u, hbefore, -⟩ := h
    · rw [hbefore] at hoffered hadvance ⊢
      exact ⟨none, .broken t hoffered hadvance, hnone⟩
    · rw [hbefore] at hoffered
      exact absurd hoffered (Slot.not_isOffered_answered _ _)
  · rw [slot_setSlot_of_ne r (Ne.symm hslot)]
    obtain ⟨g, hturn, hgranted, -⟩ := h.turn
    exact ⟨g, hturn, hgranted⟩

/-- A slot gets one turn, and unless it is granted a task, only the end of a round that breaks down
changes it. -/
theorem turn_roundOver {σ : Type} (policy : Policy σ) {i : SlotIndex} {before : Slot}
    (order : List SlotIndex) {summary : RoundSummary} {r : Region} {state : σ}
    (hlock : ∀ j, (r.slot j).lock = 0)
    (hround : InRound before (r.slot i) (atSlot i summary.granted)) :
    let round := (roundOver policy order summary r state).value
    ∃ g : Option Task, before.Turn (round.region.slot i) g ∧
      atSlot i round.summary.granted = g.toList ∧
      (g = none → round.region.slot i = before ∨ round.isComplete = false) := by
  induction order generalizing summary r state with
  | nil =>
    obtain ⟨g, hturn, hgranted, hsame⟩ := hround.turn
    exact ⟨g, hturn, hgranted, fun hnone ↦ .inl (hsame hnone)⟩
  | cons j order ih =>
    by_cases hoffered : (r.slot j).isOffered
    · obtain ⟨next, choice, hchoice⟩ : ∃ next choice,
          (policy.choose state j (r.slot j).acquire).value = (next, choice) := ⟨_, _, rfl⟩
      have hoffer := Slot.value_offer (hlock j) hchoice
      unfold roundOver
      simp only [hoffered, if_true, Noted.value_bind, hoffer]
      cases choice with
      | wait =>
        simp only [setSlot_slot]
        exact ih hlock hround
      | breakdown =>
        simp only [setSlot_slot]
        obtain ⟨g, hturn, hgranted, hsame⟩ := hround.turn
        exact ⟨g, hturn, hgranted, fun _ ↦ .inr rfl⟩
      | grant t =>
        by_cases hadvance : (r.slot j).canAdvance
        · simp only [hadvance, if_true]
          refine ih (fun k ↦ ?_) (hround.grant hoffered hadvance t)
          by_cases hslot : k = j
          · subst hslot
            rw [slot_setSlot_self]
            exact hlock k
          · rw [slot_setSlot_of_ne r hslot]
            exact hlock k
        · simp only [hadvance]
          obtain ⟨g, hturn, hgranted⟩ := hround.overrun hoffered (Bool.eq_false_iff.2 hadvance) t
          exact ⟨g, hturn, hgranted, fun _ ↦ .inr rfl⟩
    · simp only [roundOver, hoffered]
      exact ih hlock hround

/-- To one slot a round is one turn. -/
theorem turn_round {σ : Type} (policy : Policy σ) {r : Region} (state : σ)
    (hlock : ∀ j, (r.slot j).lock = 0) (i : SlotIndex) :
    let round := (r.round policy state).value
    ∃ g : Option Task, (r.slot i).Turn (round.region.slot i) g ∧
      atSlot i round.summary.granted = g.toList ∧
      (g = none → round.region.slot i = r.slot i ∨ round.isComplete = false) :=
  turn_roundOver policy _ hlock (.inl ⟨rfl, rfl⟩)

end Region

/-! ### Scenes -/

theorem get_set_self {α : Type} {n : Nat} (v : Vector α n) (i : Fin n) (a : α) :
    (v.set i a i.isLt).get i = a := Vector.getElem_set_self i.isLt

theorem get_set_of_ne {α : Type} {n : Nat} (v : Vector α n) {i j : Fin n} (h : j ≠ i) (a : α) :
    (v.set i a i.isLt).get j = v.get j := by
  have hval : (i : Nat) ≠ j := fun hval ↦ h (Fin.ext hval.symm)
  exact Vector.getElem_set_ne i.isLt j.isLt hval

/-- A region with the reporters attached to its slots. -/
structure Scene where
  region : Region
  seats : Vector (Option Seat) Limits.slots

/-- A move of a reporter or of the scheduler. -/
inductive Move : Type 1
  | act (i : SlotIndex) (a : Act)
  | endReplay
  /-- A round under a policy in some state. -/
  | round {σ : Type} (policy : Policy σ) (state : σ)

namespace Scene

/-- A region before any report, without reporters. -/
def fresh : Scene := ⟨.fresh, Vector.replicate _ none⟩

def station (x : Scene) (i : SlotIndex) : Station := ⟨x.region.slot i, x.seats.get i⟩

def setStation (x : Scene) (i : SlotIndex) (p : Station) : Scene :=
  ⟨x.region.setSlot i p.slot, x.seats.set i p.seat i.isLt⟩

/-- One move, and what becomes of reports by it. -/
def step (x : Scene) : Move → Scene × List (SlotIndex × Happening)
  | .act i a =>
    let (p, new) := (x.station i).act i a
    (x.setStation i p, new.map (i, ·))
  | .endReplay => ({ x with region := x.region.endReplay }, [])
  | .round policy state =>
    let round := (x.region.round policy state).value
    ({ x with region := round.region }, round.summary.granted.map fun (i, t) ↦ (i, .granted t))

/-- Whether a move is a round that breaks down. -/
def BreaksDown (x : Scene) : Move → Prop
  | .round policy state => (x.region.round policy state).value.isComplete = false
  | _ => False

/-- Moves one after another, and what becomes of reports by them. -/
def run (x : Scene) (moves : List Move) : Scene × List (SlotIndex × Happening) :=
  moves.foldl (fun (x, history) m ↦
    let (y, new) := x.step m
    (y, history ++ new)) (x, [])

/-- The scene after some moves from the fresh one. -/
def after (moves : List Move) : Scene := (fresh.run moves).1

/-- What became of the reports of slot `i` by some moves from the fresh scene. -/
def history (moves : List Move) (i : SlotIndex) : List Happening :=
  atSlot i (fresh.run moves).2

theorem run_concat (x : Scene) (moves : List Move) (m : Move) :
    x.run (moves ++ [m]) =
      (((x.run moves).1.step m).1, (x.run moves).2 ++ ((x.run moves).1.step m).2) := by
  rw [run, List.foldl_concat, run]

theorem after_concat (moves : List Move) (m : Move) :
    after (moves ++ [m]) = ((after moves).step m).1 := by
  rw [after, run_concat, after]

theorem history_concat (moves : List Move) (m : Move) (i : SlotIndex) :
    history (moves ++ [m]) i = history moves i ++ atSlot i ((after moves).step m).2 := by
  rw [history, run_concat, atSlot_append, history, after]

theorem station_fresh (i : SlotIndex) : fresh.station i = ⟨.fresh, none⟩ := by
  simp [fresh, station, Region.slot_fresh, Vector.get]

theorem station_setStation_self (x : Scene) (i : SlotIndex) (p : Station) :
    (x.setStation i p).station i = p := by
  simp only [station, setStation, Region.slot_setSlot_self, get_set_self]

theorem station_setStation_of_ne (x : Scene) {i j : SlotIndex} (h : j ≠ i) (p : Station) :
    (x.setStation i p).station j = x.station j := by
  simp only [station, setStation, Region.slot_setSlot_of_ne _ h, get_set_of_ne _ h]

end Scene

/-- What a move can be to slot `i` with its reporter, given that the lock of the slot is free.
`breakdown` says whether the move breaks down. -/
inductive Station.Step (i : SlotIndex) (p : Station) (breakdown : Prop) :
    List Happening → Station → Prop
  | still : Step i p breakdown [] p
  | act (a : Act) : Step i p breakdown (p.act i a).2 (p.act i a).1
  | endReplay : Step i p breakdown [] ⟨p.slot.setMode .replayEnded, p.seat⟩
  | round {s : Slot} {g : Option Task} (h : p.slot.Turn s g)
      (hsame : g = none → s = p.slot ∨ breakdown) :
    Step i p breakdown (g.toList.map .granted) ⟨s, p.seat⟩

namespace Scene

/-- A move is a step at every slot. -/
theorem step_station {x : Scene} (hlock : ∀ j, (x.station j).slot.lock = 0) (m : Move)
    (i : SlotIndex) :
    Station.Step i (x.station i) (x.BreaksDown m) (atSlot i (x.step m).2)
      ((x.step m).1.station i) := by
  cases m with
  | act j a =>
    unfold step
    by_cases hslot : i = j
    · subst hslot
      simp only [station_setStation_self, atSlot_pairs_self]
      exact .act a
    · simp only [station_setStation_of_ne x hslot, atSlot_pairs_of_ne (Ne.symm hslot)]
      exact .still
  | endReplay =>
    have hslot := Region.slot_endReplay x.region i
    have hstation : (x.step .endReplay).1.station i =
        ⟨(x.station i).slot.setMode .replayEnded, (x.station i).seat⟩ := by
      rw [step, station, hslot]
      rfl
    rw [hstation]
    exact .endReplay
  | round policy state =>
    obtain ⟨g, hturn, hgranted, hsame⟩ := Region.turn_round policy state hlock i
    have hnew : atSlot i (x.step (.round policy state)).2 = g.toList.map .granted := by
      rw [step, atSlot_map, hgranted]
    rw [hnew]
    exact .round hturn hsame

end Scene

end Turnstile
