import Mathlib.Logic.Function.Basic
import Turnstile.Proofs.Program

/-!
# Programs on a region

A `Play` is a scene with a reporter at every slot, each of which performs a script, in any order. It
counts the steps that every slot has done and keeps the history of its reports. To one slot the play
is a `Part`, and a performed step changes the part of its own slot only (`Play.part_perform_of_ne`),
so what the steps of a script do is said of parts.

A step of a script is a spawn or a report (`Part.perform_cases`). A report finds its task, and
whether it then waits depends on the mode of the slot (`Script.Kept.announce`): under a recording it
ends at once, and under a replay an enforcing reporter waits.
-/

set_option autoImplicit false
set_option relaxedAutoImplicit false

namespace Turnstile

/-- What the reporter of a script does in step `n`. -/
def Script.act? (script : Script) (n : Nat) : Option Act :=
  match script.program[n]? with
  | some (.spawn site label) =>
    some (.spawn (script.id (script.program.ledgerAt n).origins.length) site label)
  | some (.report k payload) =>
    some (.report (script.id k) payload (script.stamp (script.program.ledgerAt n).reports.length))
  | none => none

/-! ### One slot -/

/-- A slot with its reporter, the steps of the script done there, and the history of its reports. -/
structure Part where
  station : Station
  done : Nat
  past : List Happening

namespace Part

/-- One more act at the slot. -/
def act (i : SlotIndex) (p : Part) (a : Act) : Part :=
  { p with station := (p.station.act i a).1, past := p.past ++ (p.station.act i a).2 }

/-- The next act of the script, unless a report waits or the script is over. -/
def next? (script : Script) (p : Part) : Option Act :=
  if p.station.waits then none else script.act? p.done

/-- The next step of the script, if there is one. -/
def perform (script : Script) (i : SlotIndex) (p : Part) : Part :=
  match p.next? script with
  | some a => ⟨(p.act i a).station, p.done + 1, (p.act i a).past⟩
  | none => p

/-- The reports that the script has made. -/
def reports (script : Script) (p : Part) : List Announcement :=
  (script.program.ledgerAt p.done).reports

end Part

/-! ### All slots -/

/-- A scene on which scripts are performed. -/
structure Play where
  scene : Scene
  /-- How many steps of its script every slot has done. -/
  done : SlotIndex → Nat
  history : List (SlotIndex × Happening)

namespace Play

/-- A fresh region with a mode selected in every slot, and a new reporter at every slot. -/
def start (m : ControlMode) (enforcing : SlotIndex → Bool) (spinLimit : SlotIndex → UInt32) :
    Play :=
  let region := (Region.fresh.selectAll m).1
  let seat (i : SlotIndex) : Option Seat :=
    some ⟨.attach i (region.slot i) (enforcing i) (spinLimit i), none⟩
  ⟨⟨region, Vector.ofFn seat⟩, fun _ ↦ 0, []⟩

/-- One move of the scene. -/
def move (x : Play) (m : Move) : Play :=
  { x with scene := (x.scene.step m).1, history := x.history ++ (x.scene.step m).2 }

def part (x : Play) (i : SlotIndex) : Part := ⟨x.scene.station i, x.done i, atSlot i x.history⟩

/-- The next step of the script of slot `i`, if there is one. -/
def perform (scripts : SlotIndex → Script) (i : SlotIndex) (x : Play) : Play :=
  match (x.part i).next? (scripts i) with
  | some a =>
    ⟨(x.move (.act i a)).scene, Function.update x.done i (x.done i + 1),
      (x.move (.act i a)).history⟩
  | none => x

theorem part_act_self (x : Play) (i : SlotIndex) (a : Act) :
    (x.move (.act i a)).part i = (x.part i).act i a := by
  simp only [part, move, Scene.step, Part.act, Scene.station_setStation_self, atSlot_append,
    atSlot_pairs_self]

theorem part_act_of_ne (x : Play) {i j : SlotIndex} (h : j ≠ i) (a : Act) :
    (x.move (.act i a)).part j = x.part j := by
  simp only [part, move, Scene.step, Scene.station_setStation_of_ne _ h, atSlot_append,
    atSlot_pairs_of_ne (Ne.symm h), List.append_nil]

theorem part_perform_self (scripts : SlotIndex → Script) (i : SlotIndex) (x : Play) :
    (x.perform scripts i).part i = (x.part i).perform (scripts i) i := by
  unfold perform Part.perform
  cases hnext : (x.part i).next? (scripts i) with
  | none => rfl
  | some a =>
    change _ = Part.mk ((x.part i).act i a).station ((x.part i).done + 1) ((x.part i).act i a).past
    rw [← part_act_self]
    simp only [part, Function.update_self]

theorem part_perform_of_ne (scripts : SlotIndex → Script) (x : Play) {i j : SlotIndex}
    (h : j ≠ i) : (x.perform scripts i).part j = x.part j := by
  unfold perform
  cases hnext : (x.part i).next? (scripts i) with
  | none => rfl
  | some a =>
    rw [← part_act_of_ne x h a]
    simp only [part, Function.update_of_ne h]
    rfl

end Play

/-! ### The start -/

namespace Region

theorem select_fresh {r : Region} {i : SlotIndex} (h : r.slot i = Slot.fresh) (m : ControlMode) :
    r.select i m = (r.setSlot i (Slot.fresh.setMode m.mode), .ok .uninitialized) := by
  have hselect : Slot.fresh.select m = (Slot.fresh.setMode m.mode, .ok .uninitialized) := by
    cases m <;> rfl
  rw [select, h, hselect]

theorem slot_selectIn {m : ControlMode} (order : List SlotIndex) {r : Region}
    (hdistinct : order.Nodup) (hfresh : ∀ j ∈ order, r.slot j = Slot.fresh) (i : SlotIndex) :
    (r.selectIn m order).1.slot i =
      if i ∈ order then Slot.fresh.setMode m.mode else r.slot i := by
  induction order generalizing r with
  | nil => simp [selectIn]
  | cons j order ih =>
    obtain ⟨hnew, hrest⟩ := List.nodup_cons.1 hdistinct
    rw [selectIn, select_fresh (hfresh j List.mem_cons_self)]
    have hkept : ∀ k ∈ order, (r.setSlot j (Slot.fresh.setMode m.mode)).slot k = Slot.fresh := by
      intro k hk
      have hne : k ≠ j := fun hsame ↦ hnew (hsame ▸ hk)
      rw [slot_setSlot_of_ne r hne]
      exact hfresh k (List.mem_cons_of_mem j hk)
    rw [ih hrest hkept]
    by_cases hmem : i ∈ order
    · rw [if_pos hmem, if_pos (List.mem_cons_of_mem j hmem)]
    · rw [if_neg hmem]
      by_cases hslot : i = j
      · subst hslot
        rw [slot_setSlot_self, if_pos List.mem_cons_self]
      · rw [slot_setSlot_of_ne r hslot, if_neg (by simp [hslot, hmem])]

theorem slot_selectAll_fresh (m : ControlMode) (i : SlotIndex) :
    (fresh.selectAll m).1.slot i = Slot.fresh.setMode m.mode := by
  rw [selectAll, slot_selectIn _ (List.nodup_finRange _) (fun j _ ↦ slot_fresh j),
    if_pos (List.mem_finRange i)]

end Region

namespace Play

/-- At its start every slot is fresh but for its mode. -/
theorem part_start (m : ControlMode) (enforcing : SlotIndex → Bool)
    (spinLimit : SlotIndex → UInt32) (i : SlotIndex) :
    let s := Slot.fresh.setMode m.mode
    (start m enforcing spinLimit).part i =
      ⟨⟨s, some ⟨.attach i s (enforcing i) (spinLimit i), none⟩⟩, 0, []⟩ := by
  have hslot := Region.slot_selectAll_fresh m i
  have hseat (seat : SlotIndex → Option Seat) : (Vector.ofFn seat).get i = seat i :=
    Vector.getElem_ofFn i.isLt
  simp only [part, start, Scene.station, hslot, hseat]
  rfl

end Play

/-! ### What a step does -/

/-- The event of a report at slot `i`. -/
def Announcement.event (a : Announcement) (i : SlotIndex) (id : Int64) (epoch stamp : UInt64) :
    Event := ⟨UInt64.ofNat i, a.reporter id, epoch, stamp, a.payload⟩

namespace Script

variable {script : Script} {r : Reporter} {s : Slot} {m : Mode} {n k : Nat} {payload : Payload}

/-- A report of a script finds its task, and reports it as the ledger has it. -/
theorem Kept.announce (h : script.Kept (script.program.ledgerAt n) r.spawned s.tasks)
    (hstep : script.program[n]? = some (.report k payload)) (hlock : s.lock = 0)
    (hcall : s.callLock = 0) (hmode : s.mode? = some m) (stamp : UInt64) :
    ∃ o, (script.program.ledgerAt n).origins[k]? = some o ∧
      let a : Announcement := ⟨k, o, payload⟩
      let shown := (s.reported (a.event r.slot (script.id k) s.epoch stamp)).setMode m.entered
      r.announce s (script.id k) payload stamp =
        if r.enforcing && m.entered.suspends then
          ⟨{ r with
              tally.reports := r.tally.reports + 1, tally.suspensions := r.tally.suspensions + 1 },
            shown.setDirective .requested, .paused ⟨.polling, .start r.spinLimit⟩⟩
        else
          ⟨{ r with tally.reports := r.tally.reports + 1 },
            if m.entered = .recordActive ∧ payload.kind = .schedule then shown.advance else shown,
            .ended (.ok .carryOn)⟩ := by
  have hlt : k < (script.program.ledgerAt n).origins.length := script.follows.lt_length hstep
  obtain ⟨o, ho⟩ : ∃ o, (script.program.ledgerAt n).origins[k]? = some o :=
    ⟨_, List.getElem?_eq_getElem hlt⟩
  have hid : script.id k ≠ 0 :=
    script.id_ne_zero k (hlt.trans_le (script.program.origins_ledgerAt n).length_le)
  obtain ⟨call, htask⟩ := h.task? ho hid
  have hevent : r.event s { o.task (script.id k) with call := call } payload stamp =
      (⟨k, o, payload⟩ : Announcement).event r.slot (script.id k) s.epoch stamp := rfl
  have hannounce := r.announce_eq hlock hcall hmode htask payload stamp
  rw [hevent] at hannounce
  exact ⟨o, ho, hannounce⟩

end Script

namespace Part

variable {p : Part} {r : Reporter}

/-- A step of a script is a spawn or a report of a reporter that does not wait. There is none while
a report waits, and none when the script is over. -/
theorem perform_cases (script : Script) (i : SlotIndex)
    (hseat : ∃ w, p.station.seat = some ⟨r, w⟩) :
    p.perform script i = p ∧ (p.station.waits ∨ script.program[p.done]? = none) ∨
      p.station.seat = some ⟨r, none⟩ ∧
      ((∃ site label, script.program[p.done]? = some (.spawn site label) ∧
        p.perform script i =
          let id := script.id (script.program.ledgerAt p.done).origins.length
          let ordinal := r.spawned.getD site 0
          ⟨⟨p.station.slot.setTaskRecord id (Task.spawned id site ordinal label).record,
            some ⟨{ r with spawned := r.spawned.insert site (ordinal + 1) }, none⟩⟩,
            p.done + 1, p.past⟩) ∨
      ∃ k payload, script.program[p.done]? = some (.report k payload) ∧
        p.perform script i =
          let stamp := script.stamp (script.program.ledgerAt p.done).reports.length
          let settled := Station.settle (r.announce p.station.slot (script.id k) payload stamp)
            [.suspended]
          ⟨settled.1, p.done + 1, p.past ++ settled.2⟩) := by
  obtain ⟨⟨s, seat⟩, n, past⟩ := p
  obtain ⟨w, rfl⟩ := hseat
  have hperform (a : Act) (hnext : next? script ⟨⟨s, some ⟨r, w⟩⟩, n, past⟩ = some a) :
      perform script i ⟨⟨s, some ⟨r, w⟩⟩, n, past⟩ =
        ⟨((⟨s, some ⟨r, w⟩⟩ : Station).act i a).1, n + 1,
          past ++ ((⟨s, some ⟨r, w⟩⟩ : Station).act i a).2⟩ := by
    unfold perform
    rw [hnext]
    rfl
  cases w with
  | some w => exact .inl ⟨rfl, .inl rfl⟩
  | none =>
    cases hstep : script.program[n]? with
    | none =>
      have hover : next? script ⟨⟨s, some ⟨r, none⟩⟩, n, past⟩ = none := by
        simp [next?, Station.waits, Script.act?, hstep]
      refine .inl ⟨?_, .inr rfl⟩
      unfold perform
      rw [hover]
    | some step =>
      refine .inr ⟨rfl, ?_⟩
      cases step with
      | spawn site label =>
        refine .inl ⟨site, label, rfl, ?_⟩
        have hnext : next? script ⟨⟨s, some ⟨r, none⟩⟩, n, past⟩ =
            some (.spawn (script.id (script.program.ledgerAt n).origins.length) site label) := by
          simp [next?, Station.waits, Script.act?, hstep]
        rw [hperform _ hnext]
        simp only [Station.act, Reporter.spawn, Noted.value_bind, Noted.value_pure,
          List.append_nil]
      | report k payload =>
        refine .inr ⟨k, payload, rfl, ?_⟩
        have hnext : next? script ⟨⟨s, some ⟨r, none⟩⟩, n, past⟩ =
            some (.report (script.id k) payload
              (script.stamp (script.program.ledgerAt n).reports.length)) := by
          simp [next?, Station.waits, Script.act?, hstep]
        rw [hperform _ hnext]
        rfl

end Part

end Turnstile
