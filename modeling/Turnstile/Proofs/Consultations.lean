import Mathlib.Data.List.Nodup
import Turnstile.Proofs.Scene

/-!
# What a policy is asked in a round

A round asks a policy about one slot after another, and a policy can see what it is asked.
`Policy.logged` makes of a policy one that keeps an account of it, a list of `Consultation`s, and
chooses as before. So a round under the logged policy is the round under the policy itself with the
account added (`Region.asked_round`). What the round does can be read off there: the slots are asked
in order and each is shown as it stood before the round, the consultations lead from the state that
the policy had before the round to the one after it (`Policy.Leads`), and the tasks that they choose
are the ones that the round lists, but for one that is broken off at the last epoch.
-/

set_option autoImplicit false
set_option relaxedAutoImplicit false

namespace Turnstile

/-- What a policy was asked about a slot, and what it chose. -/
structure Consultation (σ : Type) where
  slot : SlotIndex
  /-- The slot as the policy saw it. -/
  seen : Slot
  before : σ
  after : σ
  choice : Choice

namespace Choice

/-- The task that is chosen. -/
def task? : Choice → Option Task
  | .grant t => some t
  | .wait | .breakdown => none

/-- What becomes of the choice in a slot. -/
def outcome (s : Slot) : Choice → Offer
  | .grant t => if s.canAdvance then .granted t else .broken
  | .wait => .waits
  | .breakdown => .broken

end Choice

namespace Consultation

variable {σ : Type}

/-- What became of the choice. -/
def outcome (c : Consultation σ) : Offer := c.choice.outcome c.seen

/-- What the round lists of it. -/
def listed? (c : Consultation σ) : Option (SlotIndex × Task) :=
  match c.outcome with
  | .granted t => some (c.slot, t)
  | .waits | .broken => none

/-- Whether a task was chosen. -/
def isGrant (c : Consultation σ) : Bool := c.choice.task?.isSome

/-- What is chosen is listed, unless it is broken off at the last epoch. -/
theorem listed?_eq (c : Consultation σ) :
    c.listed? = if c.seen.canAdvance then c.choice.task?.map (c.slot, ·) else none := by
  unfold listed? outcome Choice.outcome
  cases c.choice with
  | wait | breakdown => exact (ite_self none).symm
  | grant t => by_cases hadvance : c.seen.canAdvance <;> simp [hadvance, Choice.task?]

theorem listed?_of_not_isGrant {c : Consultation σ} (h : ¬ c.isGrant) : c.listed? = none := by
  have hnone : c.choice.task? = none := by simpa [isGrant] using h
  rw [listed?_eq, hnone]
  exact ite_self none

theorem listed?_eq_none_iff {c : Consultation σ} (h : c.isGrant) :
    c.listed? = none ↔ c.seen.canAdvance = false := by
  obtain ⟨t, ht⟩ := Option.isSome_iff_exists.1 h
  by_cases hadvance : c.seen.canAdvance <;> simp [listed?_eq, hadvance, ht]

/-- Only grants are listed. -/
theorem filterMap_listed? (asked : List (Consultation σ)) :
    (asked.filter isGrant).filterMap listed? = asked.filterMap listed? := by
  rw [List.filterMap_filter]
  refine List.filterMap_congr fun c _ ↦ ?_
  split_ifs with hgrant
  · rfl
  · exact (listed?_of_not_isGrant hgrant).symm

end Consultation

namespace Policy

variable {σ : Type}

/-- A policy that keeps an account of what it is asked. -/
def logged (policy : Policy σ) : Policy (σ × List (Consultation σ)) where
  choose x i s := do
    let (next, choice) ← policy.choose x.1 i s
    return ((next, x.2 ++ [⟨i, s, x.1, next, choice⟩]), choice)

/-- Consultations, one after another, lead from one state of a policy to another. -/
def Leads (policy : Policy σ) : σ → List (Consultation σ) → σ → Prop
  | first, [], last => first = last
  | first, c :: asked, last =>
    c.before = first ∧ (policy.choose c.before c.slot c.seen).value = (c.after, c.choice) ∧
      policy.Leads c.after asked last

theorem Leads.append {policy : Policy σ} {first middle last : σ}
    {asked later : List (Consultation σ)} (h : policy.Leads first asked middle)
    (hlater : policy.Leads middle later last) : policy.Leads first (asked ++ later) last := by
  induction asked generalizing first with
  | nil =>
    obtain rfl : first = middle := h
    exact hlater
  | cons c asked ih =>
    obtain ⟨hbefore, hchoose, hasked⟩ := h
    exact ⟨hbefore, hchoose, ih hasked⟩

end Policy

namespace Slot

/-- The slot after an offer that ends with a choice. -/
def afterChoice (s : Slot) : Choice → Slot
  | .grant t => if s.canAdvance then (s.answered t).release else (s.overrun t).release
  | .wait | .breakdown => s.release

/-- An offer carries out the choice of the policy. -/
theorem value_offer_eq {σ : Type} {policy : Policy σ} {state next : σ} {i : SlotIndex} {s : Slot}
    {choice : Choice} (hchoice : (policy.choose state i s.acquire).value = (next, choice)) :
    (offer policy state i s).value = (s.afterChoice choice, next, choice.outcome s) := by
  unfold offer
  simp only [Noted.value_bind, hchoice]
  cases choice with
  | wait | breakdown => rfl
  | grant t =>
    have hadvance : s.acquire.canAdvance = s.canAdvance := rfl
    by_cases hlast : s.canAdvance
    · simp only [grant, hadvance, hlast, if_true, afterChoice, Choice.outcome]
      rfl
    · simp only [grant, hadvance, hlast, afterChoice, Choice.outcome]
      rfl

/-- The task that is shown as the running one is the one that was chosen, if one was. -/
theorem running_afterChoice (s : Slot) (choice : Choice) :
    (s.afterChoice choice).running = (choice.task?.map Task.record).getD s.running := by
  cases choice with
  | wait | breakdown => rfl
  | grant t =>
    unfold afterChoice
    split_ifs <;> rfl

end Slot

namespace Region

variable {σ : Type} {policy : Policy σ} {order : List SlotIndex} {summary : RoundSummary}
  {r : Region} {state : σ} {j : SlotIndex}

/-- What a round over some slots asks, which it enters with some summary. -/
structure Asked (policy : Policy σ) (order : List SlotIndex) (summary : RoundSummary) (r : Region)
    (state : σ) (round : Round σ) (asked : List (Consultation σ)) : Prop where
  leads : policy.Leads state asked round.state
  slots : (asked.map (·.slot)).Sublist order
  /-- The policy sees every slot as it stood before the round, and locked. -/
  seen : ∀ c ∈ asked, c.seen = (r.slot c.slot).acquire ∧ (r.slot c.slot).isOffered
  granted : round.summary.granted = summary.granted ++ asked.filterMap Consultation.listed?
  running : ∀ i, (round.region.slot i).running = (r.slot i).running ∨
    ∃ c ∈ asked, c.slot = i ∧
      ∃ t, c.choice = .grant t ∧ (round.region.slot i).running = t.record

theorem roundOver_of_unoffered (h : ¬ (r.slot j).isOffered) :
    (roundOver policy (j :: order) summary r state).value =
      (roundOver policy order summary r state).value := by
  rw [roundOver, if_neg h]

theorem roundOver_of_offered (h : (r.slot j).isOffered) {next : σ} {choice : Choice}
    (hchoice : (policy.choose state j (r.slot j).acquire).value = (next, choice)) :
    (roundOver policy (j :: order) summary r state).value =
      let r' := r.setSlot j ((r.slot j).afterChoice choice)
      match choice.outcome (r.slot j) with
      | .granted t =>
        (roundOver policy order { summary with granted := summary.granted ++ [(j, t)] } r'
          next).value
      | .waits =>
        (roundOver policy order { summary with waiting := summary.waiting + 1 } r' next).value
      | .broken => ⟨r', next, summary, false⟩ := by
  rw [roundOver, if_pos h]
  simp only [Noted.value_bind, Slot.value_offer_eq hchoice]
  cases choice.outcome (r.slot j) <;> rfl

/-- What a round asks that ends at once. -/
theorem Asked.nil (isComplete : Bool) :
    Asked policy order summary r state ⟨r, state, summary, isComplete⟩ [] where
  leads := rfl
  slots := List.nil_sublist order
  seen := by simp
  granted := (List.append_nil _).symm
  running := fun _ ↦ .inl rfl

/-- What a round asks that has been passed by a slot. -/
theorem Asked.skip {round : Round σ} {asked : List (Consultation σ)}
    (h : Asked policy order summary r state round asked) :
    Asked policy (j :: order) summary r state round asked :=
  { h with slots := h.slots.trans (List.sublist_cons_self j order) }

/-- What a round asks that has been through one slot. Since no slot comes again, the others are seen
as they were before. -/
theorem Asked.cons (hoffered : (r.slot j).isOffered) {next : σ} {choice : Choice}
    (hchoice : (policy.choose state j (r.slot j).acquire).value = (next, choice)) (hnew : j ∉ order)
    {summary' : RoundSummary} {round : Round σ} {asked : List (Consultation σ)}
    (h : Asked policy order summary' (r.setSlot j ((r.slot j).afterChoice choice)) next round asked)
    (hsummary : summary'.granted = summary.granted ++
      (Consultation.listed? ⟨j, (r.slot j).acquire, state, next, choice⟩).toList) :
    Asked policy (j :: order) summary r state round
      (⟨j, (r.slot j).acquire, state, next, choice⟩ :: asked) := by
  have hother : ∀ c ∈ asked, c.slot ≠ j := by
    rintro c hc rfl
    exact hnew (h.slots.subset (List.mem_map_of_mem hc))
  refine ⟨⟨rfl, hchoice, h.leads⟩, h.slots.cons_cons j, ?_, ?_, ?_⟩
  · intro c hc
    obtain rfl | hc := List.mem_cons.1 hc
    · exact ⟨rfl, hoffered⟩
    · have hseen := h.seen c hc
      rwa [slot_setSlot_of_ne r (hother c hc)] at hseen
  · rw [h.granted, hsummary, List.append_assoc]
    cases hlisted : Consultation.listed? ⟨j, (r.slot j).acquire, state, next, choice⟩ with
    | none => rw [List.filterMap_cons_none hlisted, Option.toList_none, List.nil_append]
    | some x => rw [List.filterMap_cons_some hlisted, Option.toList_some, List.singleton_append]
  · intro i
    obtain hkept | ⟨c, hc, hslot, t, ht, hrunning⟩ := h.running i
    · by_cases hi : i = j
      · subst hi
        rw [slot_setSlot_self, Slot.running_afterChoice] at hkept
        cases choice with
        | wait | breakdown => exact .inl hkept
        | grant t => exact .inr ⟨_, List.mem_cons_self, rfl, t, rfl, hkept⟩
      · rw [slot_setSlot_of_ne r hi] at hkept
        exact .inl hkept
    · exact .inr ⟨c, List.mem_cons_of_mem _ hc, hslot, t, ht, hrunning⟩

/-- A round under a logged policy is the round under the policy itself, and adds what it asks to the
account. -/
theorem asked_roundOver (policy : Policy σ) (hnodup : order.Nodup) (summary : RoundSummary)
    (r : Region) (state : σ) (earlier : List (Consultation σ)) :
    let round := (roundOver policy order summary r state).value
    let logged := (roundOver policy.logged order summary r (state, earlier)).value
    ∃ asked, logged = ⟨round.region, (round.state, earlier ++ asked), round.summary,
        round.isComplete⟩ ∧ Asked policy order summary r state round asked := by
  induction order generalizing summary r state earlier with
  | nil =>
    refine ⟨[], ?_, .nil true⟩
    rw [List.append_nil]
    rfl
  | cons j order ih =>
    obtain ⟨hnew, hrest⟩ := List.nodup_cons.1 hnodup
    by_cases hoffered : (r.slot j).isOffered
    · obtain ⟨next, choice, hchoice⟩ : ∃ next choice,
          (policy.choose state j (r.slot j).acquire).value = (next, choice) := ⟨_, _, rfl⟩
      have hlogged : (policy.logged.choose (state, earlier) j (r.slot j).acquire).value =
          ((next, earlier ++ [⟨j, (r.slot j).acquire, state, next, choice⟩]), choice) := by
        simp only [Policy.logged, Noted.value_bind, Noted.value_pure, hchoice]
      simp only [roundOver_of_offered hoffered hchoice, roundOver_of_offered hoffered hlogged]
      have hlisted : Consultation.listed? ⟨j, (r.slot j).acquire, state, next, choice⟩ =
          match choice.outcome (r.slot j) with
          | .granted t => some (j, t)
          | .waits | .broken => none := rfl
      generalize hc : Consultation.mk j (r.slot j).acquire state next choice = c at hlisted ⊢
      cases houtcome : choice.outcome (r.slot j) with
      | granted t | waits =>
        rw [houtcome] at hlisted
        obtain ⟨asked, hround, hasked⟩ := ih hrest _ _ next (earlier ++ [c])
        refine ⟨c :: asked, ?_, hc ▸ hasked.cons hoffered hchoice hnew ?_⟩
        · rw [List.append_assoc] at hround
          exact hround
        · simp [hc, hlisted]
      | broken =>
        rw [houtcome] at hlisted
        refine ⟨[c], rfl, hc ▸ (Asked.nil false).cons hoffered hchoice hnew ?_⟩
        simp [hc, hlisted]
    · simp only [roundOver_of_unoffered hoffered]
      obtain ⟨asked, hround, hasked⟩ := ih hrest summary r state earlier
      exact ⟨asked, hround, hasked.skip⟩

/-- What a round over all slots asks. -/
theorem asked_round (policy : Policy σ) (r : Region) (state : σ) :
    let round := (r.round policy state).value
    ∃ asked, (r.round policy.logged (state, [])).value =
        ⟨round.region, (round.state, asked), round.summary, round.isComplete⟩ ∧
      Asked policy (List.finRange Limits.slots) .none r state round asked :=
  asked_roundOver policy (List.nodup_finRange _) .none r state []

end Region

end Turnstile
