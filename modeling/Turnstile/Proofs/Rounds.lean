import Mathlib.Algebra.Order.Ring.Nat
import Turnstile.Proofs.Consultations

/-!
# What a round touches

A round goes through the slots in order and asks the policy about those that are offered. The
account of what it asks (`Policy.logged`) therefore names the slots that were offered, up to one at
which the round may break down, and the region after the round is told by the account alone: a slot
that was asked about is as its choice leaves it, and no other byte has changed (`Region.Played`).
While epochs do not overflow, the only thing that breaks a round down is the policy itself.

`Region.round_frame` states this for regions with free locks in the terms of the words of a slot: a
slot that is granted a task shows the task, its next epoch and the directive to proceed, and is
otherwise as it was.
-/

set_option autoImplicit false
set_option relaxedAutoImplicit false

namespace Turnstile

namespace Slot

theorem isOffered_iff {s : Slot} : s.isOffered ↔
    (s.mode? = some .replayActive ∨ s.mode? = some .exploreActive) ∧
      s.directive? = some .requested := by
  have hcontrolled (m : Mode) : m.isControlled ↔ m = .replayActive ∨ m = .exploreActive := by
    cases m <;> decide
  unfold isOffered hasRequest
  cases s.mode? with
  | none => simp
  | some m => simp [hcontrolled]

theorem canAdvance_iff {s : Slot} : s.canAdvance ↔ s.epoch.toNat < 2 ^ 64 - 1 := by
  simp only [canAdvance, decide_eq_true_iff, UInt64.size]
  omega

end Slot

namespace Region

variable {σ : Type} {policy : Policy σ} {order : List SlotIndex} {summary : RoundSummary}
  {r : Region} {state : σ} {j : SlotIndex}

/-- The slots that wait for a decision under a mode that gives them one. -/
def offeredIn (r : Region) (order : List SlotIndex) : List SlotIndex :=
  order.filter fun i ↦ (r.slot i).isOffered

/-- What a round over some slots, which it enters with some summary, makes of the region by what it
asks. -/
structure Played (order : List SlotIndex) (summary : RoundSummary) (r : Region) (round : Round σ)
    (asked : List (Consultation σ)) : Prop where
  isPrefix : asked.map (·.slot) <+: r.offeredIn order
  offered : round.isComplete → asked.map (·.slot) = r.offeredIn order
  isComplete : round.isComplete ↔ ∀ c ∈ asked, c.outcome ≠ .broken
  total : round.isComplete → round.summary.granted.length + round.summary.waiting =
    summary.granted.length + summary.waiting + asked.length
  slot_asked : ∀ c ∈ asked, round.region.slot c.slot = (r.slot c.slot).afterChoice c.choice
  slot_other : ∀ i, i ∉ asked.map (·.slot) → round.region.slot i = r.slot i
  padding : round.region.padding = r.padding

theorem Played.nil : Played [] summary r (⟨r, state, summary, true⟩ : Round σ) [] where
  isPrefix := List.nil_prefix
  offered _ := rfl
  isComplete := by simp
  total _ := rfl
  slot_asked := by simp
  slot_other _ _ := rfl
  padding := rfl

theorem Played.skip (hoffered : ¬ (r.slot j).isOffered) {round : Round σ}
    {asked : List (Consultation σ)} (h : Played order summary r round asked) :
    Played (j :: order) summary r round asked := by
  have hfilter : r.offeredIn (j :: order) = r.offeredIn order := List.filter_cons_of_neg hoffered
  exact { h with
    isPrefix := hfilter ▸ h.isPrefix
    offered := hfilter ▸ h.offered }

/-- A round that breaks down at a slot has asked about it and goes no further. -/
theorem Played.broken (hoffered : (r.slot j).isOffered) {next : σ} {c : Consultation σ}
    (hslot : c.slot = j) (houtcome : c.outcome = .broken) :
    Played (j :: order) summary r
      ⟨r.setSlot j ((r.slot j).afterChoice c.choice), next, summary, false⟩ [c] where
  isPrefix := by
    have hfilter : r.offeredIn (j :: order) = j :: r.offeredIn order :=
      List.filter_cons_of_pos hoffered
    rw [hfilter]
    exact List.cons_prefix_cons.2 ⟨hslot, List.nil_prefix⟩
  offered h := absurd h Bool.false_ne_true
  isComplete := by simp [houtcome]
  total h := absurd h Bool.false_ne_true
  slot_asked := by
    intro d hd
    rw [List.mem_singleton.1 hd, hslot, slot_setSlot_self]
  slot_other i hi := by
    refine slot_setSlot_of_ne r (fun hij ↦ hi ?_) _
    simp [hij, hslot]
  padding := rfl

/-- No slot comes again, so what a round makes of the others does not depend on what it has made of
this one. -/
theorem Played.cons (hoffered : (r.slot j).isOffered) (hnew : j ∉ order) {c : Consultation σ}
    (hslot : c.slot = j) (houtcome : c.outcome ≠ .broken) {summary' : RoundSummary}
    {round : Round σ} {asked : List (Consultation σ)}
    (hsummary : summary'.granted.length + summary'.waiting =
      summary.granted.length + summary.waiting + 1)
    (h : Played order summary' (r.setSlot j ((r.slot j).afterChoice c.choice)) round asked) :
    Played (j :: order) summary r round (c :: asked) := by
  have hsame : ∀ i ∈ order,
      (r.setSlot j ((r.slot j).afterChoice c.choice)).slot i = r.slot i := by
    intro i hi
    have hne : i ≠ j := by
      rintro rfl
      exact hnew hi
    exact slot_setSlot_of_ne r hne _
  have hrest : (r.setSlot j ((r.slot j).afterChoice c.choice)).offeredIn order =
      r.offeredIn order :=
    List.filter_congr fun i hi ↦ by rw [hsame i hi]
  have hfilter : r.offeredIn (j :: order) = j :: r.offeredIn order :=
    List.filter_cons_of_pos hoffered
  have hother : j ∉ asked.map (·.slot) := by
    intro hj
    have hmem := h.isPrefix.subset hj
    exact hnew (List.mem_of_mem_filter hmem)
  refine ⟨?_, ?_, ?_, ?_, ?_, ?_, h.padding⟩
  · rw [List.map_cons, hfilter, ← hrest]
    exact List.cons_prefix_cons.2 ⟨hslot, h.isPrefix⟩
  · intro hcomplete
    rw [List.map_cons, hfilter, ← hrest, h.offered hcomplete, hslot]
  · rw [h.isComplete, List.forall_mem_cons]
    exact (and_iff_right houtcome).symm
  · intro hcomplete
    rw [h.total hcomplete, hsummary, List.length_cons]
    omega
  · refine List.forall_mem_cons.2 ⟨?_, fun d hd ↦ ?_⟩
    · rw [hslot, h.slot_other j hother, slot_setSlot_self]
    · have hmem : d.slot ∈ order :=
        List.mem_of_mem_filter (h.isPrefix.subset (List.mem_map_of_mem hd))
      rw [h.slot_asked d hd, hsame d.slot hmem]
  · intro i hi
    rw [List.map_cons, List.mem_cons, not_or, hslot] at hi
    rw [h.slot_other i hi.2, slot_setSlot_of_ne r hi.1]

/-- A round under a logged policy adds to the account what the round makes of the region. -/
theorem played_roundOver (policy : Policy σ) (hnodup : order.Nodup) (summary : RoundSummary)
    (r : Region) (state : σ) (earlier : List (Consultation σ)) :
    let round := (roundOver policy order summary r state).value
    ∃ asked,
      (roundOver policy.logged order summary r (state, earlier)).value.state.2 = earlier ++ asked ∧
        Played order summary r round asked := by
  induction order generalizing summary r state earlier with
  | nil => exact ⟨[], (List.append_nil _).symm, .nil⟩
  | cons j order ih =>
    obtain ⟨hnew, hrest⟩ := List.nodup_cons.1 hnodup
    by_cases hoffered : (r.slot j).isOffered
    · obtain ⟨next, choice, hchoice⟩ : ∃ next choice,
          (policy.choose state j (r.slot j).acquire).value = (next, choice) := ⟨_, _, rfl⟩
      let c : Consultation σ := ⟨j, (r.slot j).acquire, state, next, choice⟩
      have hlogged : (policy.logged.choose (state, earlier) j (r.slot j).acquire).value =
          ((next, earlier ++ [c]), choice) := by
        simp only [Policy.logged, Noted.value_bind, Noted.value_pure, hchoice, c]
      simp only [roundOver_of_offered hoffered hchoice, roundOver_of_offered hoffered hlogged]
      have hc : c.outcome = choice.outcome (r.slot j) := rfl
      cases houtcome : choice.outcome (r.slot j) with
      | granted t | waits =>
        rw [houtcome] at hc
        obtain ⟨asked, haccount, hplayed⟩ := ih hrest _ _ next (earlier ++ [c])
        have hanswered : c.outcome ≠ .broken := by simp [hc]
        refine ⟨c :: asked, ?_, hplayed.cons (c := c) hoffered hnew rfl hanswered ?_⟩
        · rw [List.append_assoc] at haccount
          exact haccount
        · simp only [List.length_append, List.length_singleton]
          omega
      | broken => exact ⟨[c], rfl, Played.broken hoffered rfl (hc.trans houtcome)⟩
    · simp only [roundOver_of_unoffered hoffered]
      obtain ⟨asked, haccount, hplayed⟩ := ih hrest summary r state earlier
      exact ⟨asked, haccount, hplayed.skip hoffered⟩

/-- The account of a round over all slots. -/
theorem played_round (policy : Policy σ) (r : Region) (state : σ) :
    let round := (r.round policy state).value
    ∃ asked, (r.round policy.logged (state, [])).value =
        ⟨round.region, (round.state, asked), round.summary, round.isComplete⟩ ∧
      Asked policy (List.finRange Limits.slots) .none r state round asked ∧
      Played (List.finRange Limits.slots) .none r round asked := by
  obtain ⟨asked, haccount, hasked⟩ := asked_round policy r state
  obtain ⟨played, hstate, hplayed⟩ :=
    played_roundOver policy (List.nodup_finRange Limits.slots) .none r state []
  obtain rfl : asked = played := by
    change (r.round policy.logged (state, [])).value.state.2 = played at hstate
    rwa [haccount] at hstate
  exact ⟨asked, haccount, hasked, hplayed⟩

end Region

/-! ### While epochs do not overflow -/

namespace Slot

variable {s : Slot}

/-- Under a free lock, a choice changes a slot only by granting a task. -/
theorem afterChoice_eq (hlock : s.lock = 0) (hadvance : s.canAdvance) (choice : Choice) :
    s.afterChoice choice = (choice.task?.map s.answered).getD s := by
  have hrelease : s.release = s := release_acquire hlock
  cases choice with
  | wait | breakdown => exact hrelease
  | grant t =>
    have hanswered : (s.answered t).release = s.answered t := by
      conv_rhs => rw [← hrelease]
      rfl
    simp only [afterChoice, hadvance, if_true, hanswered]
    rfl

end Slot

namespace Consultation

variable {σ : Type} {c : Consultation σ}

theorem outcome_eq_broken_iff (hadvance : c.seen.canAdvance) :
    c.outcome = .broken ↔ c.choice = .breakdown := by
  unfold outcome Choice.outcome
  cases c.choice <;> simp [hadvance]

end Consultation

/-- A consultation is one of the policy. -/
theorem Policy.Leads.choose_of_mem {σ : Type} {policy : Policy σ} {first last : σ}
    {asked : List (Consultation σ)} (h : policy.Leads first asked last) {c : Consultation σ}
    (hc : c ∈ asked) : (policy.choose c.before c.slot c.seen).value = (c.after, c.choice) := by
  induction asked generalizing first with
  | nil => cases hc
  | cons d asked ih =>
    obtain ⟨-, hchoose, hrest⟩ := h
    obtain rfl | hc := List.mem_cons.1 hc
    · exact hchoose
    · exact ih hrest hc

namespace Region

variable {σ : Type} {r : Region}

/-- The slots whose mode gives a decision and whose directive asks for one. -/
def requesting (r : Region) : List SlotIndex :=
  (List.finRange Limits.slots).filter fun i ↦
    ((r.slot i).mode? = some .replayActive ∨ (r.slot i).mode? = some .exploreActive) ∧
      (r.slot i).directive? = some .requested

theorem offeredIn_finRange (r : Region) :
    r.offeredIn (List.finRange Limits.slots) = r.requesting :=
  List.filter_congr fun _ _ ↦ by
    rw [Bool.eq_iff_iff, Slot.isOffered_iff, decide_eq_true_iff]

/-- A round over a region, told by what the policy is asked. -/
structure RoundFrame (policy : Policy σ) (r : Region) (state : σ) (round : Round σ)
    (asked : List (Consultation σ)) : Prop where
  leads : policy.Leads state asked round.state
  /-- A slot is seen as it was before the round, but for its lock. -/
  seen : ∀ c ∈ asked, c.seen = (r.slot c.slot).acquire
  isPrefix : asked.map (·.slot) <+: r.requesting
  asks_all : round.isComplete → asked.map (·.slot) = r.requesting
  isComplete : round.isComplete ↔ ∀ c ∈ asked, c.choice ≠ .breakdown
  completes : (∀ state i s, (policy.choose state i s).value.2 ≠ .breakdown) → round.isComplete
  granted : round.summary.granted = asked.filterMap fun c ↦ c.choice.task?.map (c.slot, ·)
  total : round.isComplete →
    round.summary.granted.length + round.summary.waiting = r.requesting.length
  slot_granted : ∀ i t, (i, t) ∈ round.summary.granted → round.region.slot i =
    { r.slot i with
      running := t.record
      epoch := (r.slot i).epoch + 1
      directiveWord := Directive.proceed.code }
  epoch_granted : ∀ i t, (i, t) ∈ round.summary.granted →
    (round.region.slot i).epoch.toNat = (r.slot i).epoch.toNat + 1
  slot_other : ∀ i, i ∉ round.summary.granted.map Prod.fst → round.region.slot i = r.slot i
  padding : round.region.padding = r.padding

/-- What the account says of the slots: those of which a task was chosen are granted it, and no
other is changed. -/
theorem Played.slot_cases {order : List SlotIndex} {summary : RoundSummary} {round : Round σ}
    {asked : List (Consultation σ)} (h : Played order summary r round asked)
    (hfree : ∀ i, (r.slot i).lock = 0) (hadvance : ∀ i, (r.slot i).canAdvance) (i : SlotIndex) :
    round.region.slot i = r.slot i ∨ ∃ c ∈ asked, c.slot = i ∧ ∃ t, c.choice.task? = some t ∧
      round.region.slot i = (r.slot i).answered t := by
  by_cases hmem : i ∈ asked.map (·.slot)
  · obtain ⟨c, hc, rfl⟩ := List.mem_map.1 hmem
    have hslot := h.slot_asked c hc
    rw [Slot.afterChoice_eq (hfree c.slot) (hadvance c.slot)] at hslot
    cases htask : c.choice.task? with
    | none =>
      rw [htask] at hslot
      exact .inl hslot
    | some t =>
      rw [htask] at hslot
      exact .inr ⟨c, hc, rfl, t, htask, hslot⟩
  · exact .inl (h.slot_other i hmem)

/-- A round asks the policy about the slots that request a decision under a mode that gives one, in
their order. It changes the slots that are granted a task, in what a grant changes, and no other
byte of the region. -/
theorem round_frame (policy : Policy σ) (r : Region) (state : σ)
    (hfree : ∀ i, (r.slot i).lock = 0) (hepoch : ∀ i, (r.slot i).epoch.toNat < 2 ^ 64 - 1) :
    let round := (r.round policy state).value
    ∃ asked, (r.round policy.logged (state, [])).value =
        ⟨round.region, (round.state, asked), round.summary, round.isComplete⟩ ∧
      RoundFrame policy r state round asked := by
  intro round
  obtain ⟨asked, haccount, hasked, hplayed⟩ := played_round policy r state
  refine ⟨asked, haccount, ?_⟩
  have hadvance (i : SlotIndex) : (r.slot i).canAdvance := Slot.canAdvance_iff.2 (hepoch i)
  have hseen : ∀ c ∈ asked, c.seen.canAdvance := by
    intro c hc
    rw [(hasked.seen c hc).1]
    exact hadvance c.slot
  have hgranted : round.summary.granted =
      asked.filterMap fun c ↦ c.choice.task?.map (c.slot, ·) := by
    rw [hasked.granted]
    refine List.filterMap_congr fun c hc ↦ ?_
    rw [Consultation.listed?_eq, if_pos (hseen c hc)]
  have hcomplete : round.isComplete ↔ ∀ c ∈ asked, c.choice ≠ .breakdown := by
    refine hplayed.isComplete.trans (forall₂_congr fun c hc ↦ not_congr ?_)
    exact Consultation.outcome_eq_broken_iff (hseen c hc)
  have hanswered : ∀ i t, (i, t) ∈ round.summary.granted →
      round.region.slot i = (r.slot i).answered t := by
    intro i t hmem
    rw [hgranted] at hmem
    obtain ⟨c, hc, hsome⟩ := List.mem_filterMap.1 hmem
    obtain ⟨u, hu, heq⟩ := Option.map_eq_some_iff.1 hsome
    cases heq
    have hslot := hplayed.slot_asked c hc
    rwa [Slot.afterChoice_eq (hfree c.slot) (hadvance c.slot), hu] at hslot
  have hall : round.isComplete → asked.map (·.slot) = r.requesting :=
    offeredIn_finRange r ▸ hplayed.offered
  exact {
    leads := hasked.leads
    seen := fun c hc ↦ (hasked.seen c hc).1
    isPrefix := offeredIn_finRange r ▸ hplayed.isPrefix
    asks_all := hall
    isComplete := hcomplete
    completes := by
      intro hnever
      refine hcomplete.2 fun c hc ↦ ?_
      have hchoice := hnever c.before c.slot c.seen
      rwa [hasked.leads.choose_of_mem hc] at hchoice
    granted := hgranted
    total := by
      intro h
      rw [← hall h, List.length_map]
      exact (hplayed.total h).trans (Nat.zero_add _)
    slot_granted := hanswered
    epoch_granted := by
      intro i t hmem
      have hlt := hepoch i
      rw [hanswered i t hmem]
      change ((r.slot i).epoch + 1).toNat = _
      rw [UInt64.toNat_add, UInt64.toNat_one]
      omega
    slot_other := by
      intro i hi
      obtain hsame | ⟨c, hc, rfl, t, ht, -⟩ := hplayed.slot_cases hfree hadvance i
      · exact hsame
      · refine absurd (List.mem_map.2 ⟨(c.slot, t), ?_, rfl⟩) hi
        rw [hgranted]
        exact List.mem_filterMap.2 ⟨c, hc, by rw [ht]; rfl⟩
    padding := hplayed.padding }

/-- A region in which every reporter waits, each under another mode. -/
def crowded : Region where
  slots := Vector.ofFn fun i ↦
    { Slot.fresh with
      modeWord := #v[Mode.recordActive, .replayActive, .finished, .exploreActive][i].code
      directiveWord := Directive.requested.code }
  padding := Buffer.zero _

theorem slot_crowded (i : SlotIndex) : crowded.slot i =
    { Slot.fresh with
      modeWord := #v[Mode.recordActive, .replayActive, .finished, .exploreActive][i].code
      directiveWord := Directive.requested.code } := by
  simp [slot, crowded]

theorem round_frame_crowded :
    (∀ i, (crowded.slot i).lock = 0) ∧ (∀ i, (crowded.slot i).epoch.toNat < 2 ^ 64 - 1) ∧
      let round := (crowded.round Policy.runReporter ()).value
      round.summary.granted.length + round.summary.waiting = [1, 3].length := by
  have hfree : ∀ i, (crowded.slot i).lock = 0 := fun i ↦ by rw [slot_crowded]; rfl
  have hepoch : ∀ i, (crowded.slot i).epoch.toNat < 2 ^ 64 - 1 := fun i ↦ by
    rw [slot_crowded]
    exact (by decide : (0 : UInt64).toNat < 2 ^ 64 - 1)
  obtain ⟨asked, -, hframe⟩ := round_frame Policy.runReporter crowded () hfree hepoch
  have hrequesting : crowded.requesting = [1, 3] := by
    simp only [requesting, slot_crowded]
    decide
  have htotal := hframe.total (hframe.completes fun _ _ _ ↦ by simp [Policy.runReporter])
  rw [hrequesting] at htotal
  exact ⟨hfree, hepoch, htotal⟩

end Region

end Turnstile
