import Turnstile.Proofs.Tenure
import Turnstile.Session.Agents

/-!
# What acts do to the inherited region

Acts that only look leave the session as it is (`Act.Reads`), and most of the rest leave everything
that bears on the inherited region alone (`Act.Stays`). The others change it in steps of its tenure,
if they start from a session in which the agent that they have found is there (`Act.StepsFrom`). All
three are closed under composition, so that what a whole act does is read off its parts. The parts
that matter are few: an agent goes (`Act.stepsFrom_removeAgent`), a probe comes
(`Act.stepsFrom_replaceAgent`), and a probe attaches (`Act.stepsFrom_reach`). Every act by which a
program uses an agent finds it, reaches its slot, and then leaves the region alone (`Act.Engages`).
-/

set_option autoImplicit false
set_option relaxedAutoImplicit false

namespace Turnstile

namespace Session

namespace Act

variable {α β : Type} {told : Settings → Prop} {w next : World} {who : String}

/-- The session after an act. -/
def final (act : Act α) (w : World) : World := (act.runIn w).value.2

theorem value_bind_of_ok {x : Act α} {a : α} (hx : (x.runIn w).value = (.ok a, next))
    (f : α → Act β) : ((x >>= f).runIn w).value = ((f a).runIn next).value := by
  change (x.runIn w >>= fun r ↦ ExceptT.bindCont f r.1 r.2).value = _
  rw [Noted.value_bind, hx]
  rfl

theorem value_bind_of_error {x : Act α} {e : Failure} (hx : (x.runIn w).value = (.error e, next))
    (f : α → Act β) : ((x >>= f).runIn w).value = (.error e, next) := by
  change (x.runIn w >>= fun r ↦ ExceptT.bindCont f r.1 r.2).value = _
  rw [Noted.value_bind, hx]
  rfl

theorem final_bind_of_ok {x : Act α} {a : α} (hx : (x.runIn w).value = (.ok a, next))
    (f : α → Act β) : (x >>= f).final w = (f a).final next :=
  congrArg Prod.snd (value_bind_of_ok hx f)

theorem final_bind_of_error {x : Act α} {e : Failure} (hx : (x.runIn w).value = (.error e, next))
    (f : α → Act β) : (x >>= f).final w = next :=
  congrArg Prod.snd (value_bind_of_error hx f)

/-- An act ends with a result or with a failure. -/
theorem run_cases (x : Act α) (w : World) :
    (∃ a, (x.runIn w).value = (.ok a, x.final w)) ∨
      ∃ e, (x.runIn w).value = (.error e, x.final w) := by
  unfold final
  obtain ⟨result, next⟩ := (x.runIn w).value
  cases result with
  | ok a => exact .inl ⟨a, rfl⟩
  | error e => exact .inr ⟨e, rfl⟩

/-- What relates the sessions before and after each part of an act relates those before and after
the act. -/
theorem final_bind_of {R : World → World → Prop} (htrans : ∀ {u v w}, R u v → R v w → R u w)
    {x : Act α} {f : α → Act β} (hx : R w (x.final w))
    (hf : ∀ a next, (x.runIn w).value = (.ok a, next) → R next ((f a).final next)) :
    R w ((x >>= f).final w) := by
  obtain ⟨a, hrun⟩ | ⟨e, hrun⟩ := x.run_cases w
  · rw [final_bind_of_ok hrun]
    exact htrans hx (hf a _ hrun)
  · rw [final_bind_of_error hrun]
    exact hx

/-! ### Acts that only look -/

/-- An act leaves the session as it is. -/
def Reads (act : Act α) : Prop := ∀ w, act.final w = w

theorem Reads.bind {x : Act α} {f : α → Act β} (hx : x.Reads) (hf : ∀ a, (f a).Reads) :
    (x >>= f).Reads := fun w ↦
  final_bind_of (R := fun w next ↦ next = w) (fun h hlater ↦ hlater.trans h) (hx w)
    fun a next _ ↦ hf a next

theorem reads_pure (a : α) : Reads (pure a) := fun _ ↦ rfl

theorem reads_throw (f : Failure) : Reads (throw f : Act α) := fun _ ↦ rfl

theorem value_get (w : World) : ((get : Act World).runIn w).value = (.ok w, w) := rfl

theorem reads_get : Reads (get : Act World) := fun _ ↦ rfl

theorem reads_noted (x : Noted α) : Reads (noted x) := fun _ ↦ rfl

theorem reads_controlled (x : Except Error α) : Reads (controlled x) := by
  cases x with
  | ok a => exact reads_pure a
  | error e => exact reads_throw _

theorem controlled_eq_ok {x : Except Error α} {a : α}
    (h : ((controlled x).runIn w).value = (.ok a, next)) : x = .ok a := by
  cases x with
  | ok b =>
    cases h
    rfl
  | error e => cases h

theorem reads_needed (x : Option α) : Reads (needed x) := by
  cases x with
  | some a => exact reads_pure a
  | none => exact reads_throw _

theorem needed_eq_ok {x : Option α} {a : α} (h : ((needed x).runIn w).value = (.ok a, next)) :
    next = w ∧ x = some a := by
  cases x with
  | some b =>
    cases h
    exact ⟨rfl, rfl⟩
  | none => cases h

theorem reads_agent (who : String) : Reads (agent who) := by
  refine reads_get.bind fun w ↦ (reads_needed _).bind fun a ↦ ?_
  cases w.isBusy who with
  | true => exact (reads_throw _).bind fun _ ↦ reads_pure _
  | false => exact reads_pure _

theorem reads_checkFree (who : String) : Reads (checkFree who) := by
  refine reads_get.bind fun w ↦ ?_
  cases w.isBusy who with
  | true => exact reads_throw _
  | false => exact reads_pure _

theorem reads_openPlace : Reads openPlace := reads_get.bind fun _ ↦ reads_needed _

theorem value_openPlace {place : Place} (hopened : w.opened = some place) :
    (openPlace.runIn w).value = (.ok place, w) := by
  rw [openPlace, value_bind_of_ok (value_get w), hopened]
  rfl

theorem reads_openRegion : Reads openRegion :=
  reads_openPlace.bind fun _ ↦ reads_get.bind fun _ ↦ reads_pure _

theorem value_openRegion {place : Place} (hopened : w.opened = some place) :
    (openRegion.runIn w).value = (.ok (w.region place), w) :=
  value_bind_of_ok (value_openPlace hopened) _

theorem reads_disk : Reads disk := reads_get.bind fun _ ↦ reads_needed _

theorem reads_slotOf (r : Reporter) (place : Place) : Reads (slotOf r place) :=
  reads_get.bind fun _ ↦ reads_pure _

theorem reads_showTask (who : String) (id : Int64) : Reads (showTask who id) := by
  refine (reads_agent who).bind fun a ↦ ?_
  cases a with
  | reporter r place => exact (reads_slotOf r place).bind fun _ ↦ reads_pure _
  | probe p => exact reads_throw _

theorem reads_state (who : String) : Reads (state who) := by
  refine (reads_agent who).bind fun a ↦ ?_
  cases a with
  | reporter r place =>
    refine (reads_slotOf r place).bind fun s ↦ ?_
    cases s.coverage? with
    | some c => exact reads_pure _
    | none => exact reads_throw _
  | probe p => exact reads_pure _

/-! ### Acts that leave the inherited region alone -/

/-- An act leaves everything that bears on the inherited region alone. -/
def Stays (act : Act α) : Prop := ∀ w, (act.final w).tenure = w.tenure

/-- What an act does to the region from some session on is done in steps. -/
def StepsFrom (told : Settings → Prop) (w : World) (act : Act α) : Prop :=
  w.tenure.Leads told (act.final w).tenure

theorem Reads.stays {act : Act α} (h : act.Reads) : act.Stays := fun w ↦ congrArg World.tenure (h w)

theorem Stays.stepsFrom {act : Act α} (h : act.Stays) (w : World) : act.StepsFrom told w := by
  unfold StepsFrom
  rw [h w]
  exact Tenure.leads_refl told w.tenure

theorem Reads.stepsFrom {act : Act α} (h : act.Reads) (w : World) : act.StepsFrom told w :=
  h.stays.stepsFrom w

theorem StepsFrom.bind {x : Act α} {f : α → Act β} (hx : x.StepsFrom told w)
    (hf : ∀ a next, (x.runIn w).value = (.ok a, next) → (f a).StepsFrom told next) :
    (x >>= f).StepsFrom told w :=
  final_bind_of (R := fun w next ↦ w.tenure.Leads told next.tenure)
    (fun h hlater ↦ h.trans hlater) hx hf

/-- If what follows an act leaves the region alone, the act has done all that is done to it. -/
theorem tenure_bind_of_stays (x : Act α) {f : α → Act β} (hf : ∀ a, (f a).Stays) (w : World) :
    ((x >>= f).final w).tenure = (x.final w).tenure := by
  obtain ⟨a, hrun⟩ | ⟨e, hrun⟩ := x.run_cases w
  · rw [final_bind_of_ok hrun]
    exact hf a _
  · rw [final_bind_of_error hrun]

theorem Stays.bind {x : Act α} {f : α → Act β} (hx : x.Stays) (hf : ∀ a, (f a).Stays) :
    (x >>= f).Stays := fun w ↦ (tenure_bind_of_stays x hf w).trans (hx w)

theorem stays_modify {f : World → World} (hf : ∀ w, (f w).tenure = w.tenure) :
    Stays (modify f : Act Unit) := hf

/-! ### What agents do -/

theorem value_agent_eq (who : String) (w : World) :
    ((agent who).runIn w).value = ((do
      let a ← needed w.agents[who]?
      if w.isBusy who then throw .busy
      return a : Act Agent).runIn w).value := rfl

theorem value_agent {a : Agent} (hagent : w.agents[who]? = some a) (hfree : w.isBusy who = false) :
    ((agent who).runIn w).value = (.ok a, w) := by
  rw [value_agent_eq, hagent, hfree]
  rfl

/-- Whom an act finds under a name is there. -/
theorem agent_eq_ok {a : Agent} (h : ((agent who).runIn w).value = (.ok a, next)) :
    next = w ∧ w.agents[who]? = some a := by
  rw [value_agent_eq] at h
  cases hagent : w.agents[who]? with
  | none =>
    rw [hagent] at h
    cases h
  | some b =>
    rw [hagent] at h
    cases hbusy : w.isBusy who with
    | true =>
      rw [hbusy] at h
      cases h
    | false =>
      rw [hbusy] at h
      cases h
      exact ⟨rfl, rfl⟩

/-- An act on an agent may count on the agent being there. -/
theorem stepsFrom_agent_bind {f : Agent → Act α}
    (hf : ∀ w a, w.agents[who]? = some a → (f a).StepsFrom told w) (w : World) :
    (agent who >>= f).StepsFrom told w := by
  refine ((reads_agent who).stepsFrom w).bind fun a next hrun ↦ ?_
  obtain ⟨rfl, hagent⟩ := agent_eq_ok hrun
  exact hf next a hagent

/-- So may an act that looks for an agent whose report waits. -/
theorem stepsFrom_found_bind {f : Agent → Act α}
    (hf : ∀ a, w.agents[who]? = some a → (f a).StepsFrom told w) :
    (do
      let a ← needed (← get).agents[who]?
      f a).StepsFrom told w := by
  refine (reads_get.stepsFrom w).bind fun found next hrun ↦ ?_
  cases hrun
  refine ((reads_needed _).stepsFrom w).bind fun a next hrun ↦ ?_
  obtain ⟨rfl, hagent⟩ := needed_eq_ok hrun
  exact hf a hagent

theorem stays_keep (who : String) (r : Reporter) (place : Place) (s : Slot) :
    Stays (keep who r place s) := by
  refine stays_modify fun w ↦ (World.tenure_modify _ who ?_).trans (w.tenure_setRegion _ place)
  rintro (⟨r', place'⟩ | ⟨settings, backing, attached⟩)
  · rfl
  · cases attached <;> rfl

theorem final_removeAgent (who : String) (w : World) :
    (removeAgent who).final w = { w with
      agents := w.agents.erase who, mapped := w.mapped && !w.tenure.holds who } := by
  have hholds : w.tenure.holds who = (w.agents[who]?.bind Agent.stake).any (·.2) := rfl
  have hfinal : ∀ f : World → World, (modify f : Act Unit).final w = f w := fun _ ↦ rfl
  rw [removeAgent, hfinal, hholds]
  dsimp only
  cases hagent : w.agents[who]? with
  | none => rfl
  | some a => cases a <;> rfl

theorem stepsFrom_removeAgent (who : String) (w : World) : (removeAgent who).StepsFrom told w := by
  unfold StepsFrom
  rw [final_removeAgent, World.tenure_erase]
  exact (Tenure.Step.leave who).leads

theorem stepsFrom_replaceAgent (who : String) {a : Agent}
    (ha : ∀ x, a.stake = some x → told x.1 ∧ x.2 = false) (w : World) :
    (replaceAgent who a).StepsFrom told w := by
  refine (stepsFrom_removeAgent who w).bind fun u next hrun ↦ ?_
  have hnext : next = (removeAgent who).final w := (congrArg Prod.snd hrun).symm
  have hnone : next.tenure.probes who = none := by
    rw [hnext, final_removeAgent, World.tenure_erase]
    exact Function.update_self who _ _
  have htenure : ((setAgent who a).final next).tenure =
      ⟨next.mapped, Function.update next.tenure.probes who a.stake⟩ :=
    next.tenure_insert who a next.mapped
  unfold StepsFrom
  rw [htenure]
  cases hstake : a.stake with
  | none =>
    rw [← hnone, Function.update_eq_self]
    exact Tenure.leads_refl told _
  | some x =>
    obtain ⟨s, b⟩ := x
    obtain ⟨htold, rfl⟩ : told s ∧ b = false := ha _ hstake
    exact (Tenure.Step.enter htold hnone).leads

/-! ### Attempts in a session -/

section Reach

variable {p : Probe} {mapped : Bool}

theorem value_reach_of_reached {a : Attachment}
    (h : p.reach w.storage w.mapped = (mapped, .attached a)) :
    ((reach who p).runIn w).value = (.ok a, { w with
      agents := w.agents.insert who (.probe { p with attached := some a })
      mapped := mapped }) := by
  rw [reach, value_bind_of_ok (value_get w), ← World.storage, h]
  rfl

theorem value_reach_of_failed {e : Error} (h : p.reach w.storage w.mapped = (mapped, .failed e)) :
    ((reach who p).runIn w).value = (.error (.control e), { w with mapped := mapped }) := by
  rw [reach, value_bind_of_ok (value_get w), ← World.storage, h]
  rfl

theorem value_reach_of_crashed (h : p.reach w.storage w.mapped = (mapped, .crashed)) :
    ((reach who p).runIn w).value = (.error .crash, { w with mapped := mapped }) := by
  rw [reach, value_bind_of_ok (value_get w), ← World.storage, h]
  rfl

theorem value_reach_of_attached {a : Attachment} (h : p.attached = some a) :
    ((reach who p).runIn w).value = (.ok a, { w with
      agents := w.agents.insert who (.probe { p with attached := some a }) }) :=
  value_reach_of_reached (by simp [Probe.reach, h])

variable (hidle : p.attached = none)

include hidle

theorem value_reach_of_missing (hslot : p.settings.slot = none) :
    ((reach who p).runIn w).value = (.error (.control .noSlotGiven), w) :=
  value_reach_of_failed (Probe.reach_of_missing hidle hslot w.mapped)

variable (hslot : p.settings.slot ≠ none)

include hslot

theorem value_reach_of_mapped (hmapped : w.mapped = true) :
    ((reach who p).runIn w).value = (.error (.control .alreadyMapped), w) := by
  have hreach : p.reach w.storage w.mapped = (w.mapped, .failed .alreadyMapped) := by
    rw [hmapped]
    exact Probe.reach_of_mapped hidle hslot
  exact value_reach_of_failed hreach

variable (hmapped : w.mapped = false)

include hmapped

theorem value_reach_of_impossible (hdescriptor : p.settings.descriptor = -1) :
    ((reach who p).runIn w).value = (.error .crash, { w with mapped := true }) := by
  refine value_reach_of_crashed ?_
  rw [hmapped]
  exact Probe.reach_of_impossible hidle hslot hdescriptor

variable (hdescriptor : p.settings.descriptor ≠ -1)

include hdescriptor

theorem value_reach_of_inherit_ok {a : Attachment} (h : p.inherit w.storage = .ok a) :
    ((reach who p).runIn w).value = (.ok a, { w with
      agents := w.agents.insert who (.probe { p with attached := some a }), mapped := true }) := by
  refine value_reach_of_reached ?_
  rw [hmapped]
  exact Probe.reach_of_inherit_ok hidle hslot hdescriptor h

theorem value_reach_of_inherit_error {e : Error} (h : p.inherit w.storage = .error e) :
    ((reach who p).runIn w).value = (.error (.control e), w) := by
  have hreach : p.reach w.storage w.mapped = (w.mapped, .failed e) := by
    rw [hmapped]
    exact Probe.reach_of_inherit_error hidle hslot hdescriptor h
  exact value_reach_of_failed hreach

end Reach

theorem stepsFrom_reach {p : Probe} (hp : w.agents[who]? = some (.probe p)) :
    (reach who p).StepsFrom told w := by
  have hprobe : w.tenure.probes who = some (p.settings, p.holdsInherited) := by
    change w.agents[who]?.bind Agent.stake = _
    rw [hp]
    rfl
  unfold StepsFrom final
  cases hattached : p.attached with
  | some a =>
    have hstake : (Agent.probe { p with attached := some a }).stake = w.tenure.probes who := by
      rw [hprobe]
      simp [Agent.stake, Probe.holdsInherited, hattached]
    have htenure := w.tenure_insert who (.probe { p with attached := some a }) w.mapped
    rw [hstake, Function.update_eq_self] at htenure
    rw [value_reach_of_attached hattached]
    exact htenure ▸ Tenure.leads_refl told w.tenure
  | none =>
    have hidle : w.tenure.probes who = some (p.settings, false) := by
      rw [hprobe]
      simp [Probe.holdsInherited, hattached]
    by_cases hslot : p.settings.slot = none
    · rw [value_reach_of_missing hattached hslot]
      exact Tenure.leads_refl told w.tenure
    · cases hmapped : w.mapped with
      | true =>
        rw [value_reach_of_mapped hattached hslot hmapped]
        exact Tenure.leads_refl told w.tenure
      | false =>
        by_cases hdescriptor : p.settings.descriptor = -1
        · rw [value_reach_of_impossible hattached hslot hmapped hdescriptor]
          exact (Tenure.Step.crash hidle hmapped hdescriptor).leads
        · obtain ⟨i, name, a, -, hinherited, -, hok⟩ | ⟨e, -, herror⟩ :=
            Probe.inherit_cases hslot w.storage
          · have hstake : (Agent.probe { p with attached := some a }).stake =
                some (p.settings, true) := by
              simp [Agent.stake, Probe.holdsInherited, hinherited]
            rw [value_reach_of_inherit_ok hattached hslot hmapped hdescriptor hok,
              World.tenure_insert, hstake]
            exact (Tenure.Step.map hidle hmapped).leads
          · rw [value_reach_of_inherit_error hattached hslot hmapped hdescriptor herror]
            exact Tenure.leads_refl told w.tenure

theorem stepsFrom_reporter? {a : Agent} (ha : w.agents[who]? = some a) :
    (reporter? who a).StepsFrom told w := by
  cases a with
  | reporter r place => exact (reads_pure _).stepsFrom w
  | probe p =>
    change StepsFrom told w (if p.isEnabled then do
        let a ← reach who p
        return some (a.reporter, a.place)
      else return none)
    cases p.isEnabled with
    | true => exact (stepsFrom_reach ha).bind fun a next _ ↦ (reads_pure _).stepsFrom next
    | false => exact (reads_pure _).stepsFrom w

/-- An act that finds its agent, reaches the slot of it, and then leaves the region alone. -/
def Engages (who : String) (act : Act α) : Prop :=
  ∃ f : Agent → Option (Reporter × Place) → Act α, (∀ a x, (f a x).Stays) ∧
    act = do
      let a ← agent who
      f a (← reporter? who a)

theorem Engages.stepsFrom {act : Act α} (h : act.Engages who) (w : World) :
    act.StepsFrom told w := by
  obtain ⟨f, hf, rfl⟩ := h
  exact stepsFrom_agent_bind (fun _ a ha ↦ (stepsFrom_reporter? ha).bind fun x next _ ↦
    (hf a x).stepsFrom next) w

theorem stays_setClock (c : Clock) : Stays (setClock c) := fun _ ↦ rfl

theorem engages_spawnOne (who : String) (id : Int64) (site : UInt64) (label : String) :
    (spawnOne who id site label).Engages who := by
  refine ⟨_, fun _ x ↦ ?_, rfl⟩
  cases x with
  | none => exact (reads_pure _).stays
  | some x =>
    exact (reads_slotOf _ _).stays.bind fun s ↦ (reads_noted _).stays.bind fun _ ↦
      (stays_keep _ _ _ _).bind fun _ ↦ (reads_pure _).stays

theorem stepsFrom_spawn (who : String) (id : Int64) (site : UInt64) (label : String) (count : Nat)
    (w : World) : (spawn who id site label count).StepsFrom told w := by
  induction count using Nat.strongRecOn generalizing id w with
  | ind count ih =>
    match count with
    | 0 => exact ((reads_agent who).stays.bind fun _ ↦ (reads_pure _).stays).stepsFrom w
    | 1 => exact (engages_spawnOne who id site label).stepsFrom w
    | count + 2 =>
      exact ((engages_spawnOne who id site label).stepsFrom w).bind fun _ next _ ↦
        ih (count + 1) (Nat.lt_succ_self _) (id + 1) next

theorem engages_setStatus (who : String) (id : Int64) (status : StatusWord) :
    (setStatus who id status).Engages who := by
  refine ⟨_, fun a x ↦ ?_, rfl⟩
  cases x with
  | none => exact (reads_pure _).stays
  | some x =>
    refine (reads_slotOf _ _).stays.bind fun s ↦ (reads_noted _).stays.bind fun _ ↦
      (reads_controlled _).stays.bind fun _ ↦ (stays_keep _ _ _ _).bind fun _ ↦ ?_
    cases a <;> exact (reads_pure _).stays

theorem engages_blockOne (who id : String) : (blockOne who id).Engages who := by
  refine ⟨_, fun _ x ↦ ?_, rfl⟩
  cases x with
  | none => exact (reads_pure _).stays
  | some x =>
    exact (reads_slotOf _ _).stays.bind fun s ↦ (reads_noted _).stays.bind fun _ ↦
      stays_keep _ _ _ _

theorem stepsFrom_block (who : String) (ids : List String) (w : World) :
    (block who ids).StepsFrom told w := by
  have hall : ∀ w, (ids.forM (blockOne who)).StepsFrom told w := by
    induction ids with
    | nil => exact (reads_pure ()).stepsFrom
    | cons id ids ih =>
      exact fun w ↦ ((engages_blockOne who id).stepsFrom w).bind fun _ next _ ↦ ih next
  exact ((reads_agent who).stepsFrom w).bind fun _ next _ ↦ hall next

theorem engages_finish (who : String) : (finish who).Engages who := by
  refine ⟨_, fun a x ↦ ?_, rfl⟩
  cases x with
  | none => exact (reads_pure _).stays
  | some x =>
    refine (reads_slotOf _ _).stays.bind fun s ↦ ?_
    split
    · exact stays_keep _ _ _ _
    · exact (reads_pure _).stays
    · exact (reads_throw _).stays

theorem stepsFrom_drop (who : String) (w : World) : (drop who).StepsFrom told w :=
  ((reads_agent who).stepsFrom w).bind fun _ next _ ↦ stepsFrom_removeAgent who next

theorem stepsFrom_attach (who : String) (slot : Nat) (enforcing : Bool) (spinLimit : UInt32)
    (w : World) : (attach who slot enforcing spinLimit).StepsFrom told w := by
  refine ((reads_checkFree who).stepsFrom w).bind fun _ next _ ↦ ?_
  refine (reads_openPlace.stepsFrom next).bind fun place next _ ↦ ?_
  refine ((reads_controlled _).stepsFrom next).bind fun i next _ ↦ ?_
  refine (reads_openRegion.stepsFrom next).bind fun r next _ ↦ ?_
  exact (stepsFrom_replaceAgent who (by rintro x ⟨⟩) next).bind fun _ next _ ↦
    (reads_pure _).stepsFrom next

theorem stepsFrom_instrument (who : String) {settings : Settings} (htold : told settings)
    (w : World) : (instrument who settings).StepsFrom told w := by
  refine ((reads_checkFree who).stepsFrom w).bind fun _ next _ ↦ ?_
  refine (reads_openPlace.stepsFrom next).bind fun place next _ ↦ ?_
  refine (reads_openRegion.stepsFrom next).bind fun r next _ ↦ ?_
  refine ((reads_controlled _).stepsFrom next).bind fun p next hp ↦ ?_
  refine (stepsFrom_replaceAgent who ?_ next).bind fun _ next _ ↦ (reads_pure _).stepsFrom next
  rintro x ⟨⟩
  obtain ⟨hsettings, hholds⟩ := Probe.of_ofRegion (controlled_eq_ok hp)
  exact ⟨hsettings ▸ htold, hholds⟩

theorem stepsFrom_instrumentLazily (who : String) {settings : Settings} (htold : told settings)
    (path : Option String) (w : World) :
    (instrumentLazily who settings path).StepsFrom told w := by
  have hreplace : ∀ backing w, StepsFrom told w (do
      let p := Probe.unattached settings backing
      replaceAgent who (.probe p)
      return p.isEnabled) := by
    intro backing w
    refine (stepsFrom_replaceAgent who ?_ w).bind fun _ next _ ↦ (reads_pure _).stepsFrom next
    rintro x ⟨⟩
    exact ⟨htold, rfl⟩
  refine ((reads_checkFree who).stepsFrom w).bind fun _ next _ ↦ ?_
  cases path with
  | none => exact hreplace none next
  | some path =>
    refine (reads_disk.stepsFrom next).bind fun d next _ ↦ ?_
    split
    · exact hreplace _ next
    · exact (reads_throw _).stepsFrom next

/-! ### What errands do -/

theorem stays_settle (e : Errand) (place : Place) (reported : Reported) :
    Stays (settle e place reported) := by
  unfold settle
  split
  · exact (stays_keep _ _ _ _).bind fun _ ↦ (reads_pure _).stays
  · exact (stays_keep _ _ _ _).bind fun _ ↦ (reads_pure _).stays
  · exact (stays_keep _ _ _ _).bind fun _ ↦ (reads_throw _).stays

/-- A report reaches the slot of its agent, and then leaves the region alone. -/
theorem reportOnce_eq (e : Errand) (a : Agent) :
    ∃ f : Option (Reporter × Place) → Act (Resume ⊕ Wait), (∀ x, (f x).Stays) ∧
      reportOnce e a = reporter? e.agent a >>= f := by
  refine ⟨_, fun x ↦ ?_, rfl⟩
  cases x with
  | none => exact (reads_pure _).stays
  | some x =>
    obtain ⟨r, place⟩ := x
    refine reads_get.stays.bind fun w ↦ ?_
    dsimp only
    split
    · refine reads_get.stays.bind fun w ↦ (reads_noted _).stays.bind fun x ↦ ?_
      exact (stays_setClock x.2).bind fun _ ↦ (reads_pure _).stays.bind fun _ ↦
        stays_settle e place _
    · exact (reads_pure _).stays.bind fun stamp ↦ stays_settle e place _

theorem stepsFrom_reportOnce {e : Errand} {a : Agent} (ha : w.agents[e.agent]? = some a) :
    (reportOnce e a).StepsFrom told w := by
  obtain ⟨f, hf, heq⟩ := reportOnce_eq e a
  rw [heq]
  exact (stepsFrom_reporter? ha).bind fun x next _ ↦ (hf x).stepsFrom next

theorem stepsFrom_forgive (e : Errand) (f : Failure) (w : World) :
    (forgive e f).StepsFrom told w := by
  unfold forgive
  split
  · exact (reads_pure _).stepsFrom w
  · exact ((reads_noted _).stepsFrom w).bind fun _ next _ ↦
      (stepsFrom_removeAgent _ next).bind fun _ next _ ↦ (reads_pure _).stepsFrom next
  · exact (reads_throw _).stepsFrom w

theorem StepsFrom.outcome {act : Act α} (h : act.StepsFrom told w) :
    (outcome act).StepsFrom told w := h

theorem StepsFrom.attempt {e : Errand} {report : Act (Resume ⊕ Wait)}
    (h : report.StepsFrom told w) : (attempt e report).StepsFrom told w := by
  refine h.outcome.bind fun result next _ ↦ ?_
  split
  · exact (reads_pure _).stepsFrom next
  · exact (reads_pure _).stepsFrom next
  · refine (stepsFrom_forgive e _ next).bind fun response next _ ↦ ?_
    cases response with
    | some response => exact (reads_pure _).stepsFrom next
    | none => exact (reads_throw _).stepsFrom next

theorem stepsFrom_makeReports (e : Errand) (left : Nat) (w : World) :
    (makeReports e left).StepsFrom told w := by
  induction left generalizing w with
  | zero => exact (reads_pure _).stepsFrom w
  | succ left ih =>
    refine stepsFrom_found_bind fun a ha ↦
      (stepsFrom_reportOnce ha).attempt.bind fun result next _ ↦ ?_
    split
    · exact (reads_pure _).stepsFrom next
    · exact (reads_pure _).stepsFrom next
    · split
      · exact (reads_pure _).stepsFrom next
      · exact ih next

theorem stepsFrom_resumeErrand (p : Pause) (w : World) : (resumeErrand p).StepsFrom told w := by
  refine stepsFrom_found_bind fun a ha ↦
    StepsFrom.bind (StepsFrom.attempt ?_) fun result next _ ↦ ?_
  · refine (stepsFrom_reporter? ha).bind fun x next _ ↦ ?_
    cases x with
    | none => exact (reads_pure _).stepsFrom next
    | some x => exact (reads_get.stays.bind fun w ↦ stays_settle _ _ _).stepsFrom next
  · split
    · exact (reads_pure _).stepsFrom next
    · exact (reads_pure _).stepsFrom next
    · split
      · exact (reads_pure _).stepsFrom next
      · exact stepsFrom_makeReports _ _ next

theorem stepsFrom_report (who : String) (task : Int64) (content : Content) (count : Nat)
    (vital : Bool) (w : World) : (report who task content count vital).StepsFrom told w := by
  refine ((reads_noted _).stepsFrom w).bind fun payload next _ ↦ ?_
  refine ((reads_agent who).stepsFrom next).bind fun a next _ ↦ ?_
  refine (stepsFrom_makeReports _ count next).outcome.bind fun result next _ ↦ ?_
  split
  · exact (reads_pure _).stepsFrom next
  · exact (reads_pure _).stepsFrom next
  · exact (Stays.bind (fun _ ↦ rfl) fun _ ↦ (reads_pure _).stays).stepsFrom next

end Act

/-! ### Runs -/

theorem leads_poll (told : Settings → Prop) (pauses : List Pause) (w : World) :
    w.tenure.Leads told (poll pauses w).value.2.2.tenure := by
  induction pauses generalizing w with
  | nil => exact Tenure.leads_refl told _
  | cons p pauses ih =>
    have hfirst : w.tenure.Leads told ((Act.resumeErrand p).final w).tenure :=
      Act.stepsFrom_resumeErrand p w
    have hrest : (poll (p :: pauses) w).value.2.2 =
        (poll pauses ((Act.resumeErrand p).final w)).value.2.2 := by
      unfold Act.final
      simp only [poll, Noted.value_bind]
      split <;> rfl
    rw [hrest]
    exact hfirst.trans (ih _)

/-- The session after an act and the turns of the errands that wait. -/
def Act.turned {α : Type} (act : Act α) (w : World) : World := (turn act w).value.2.2

theorem leads_turned {α : Type} {told : Settings → Prop} {act : Act α} {w : World}
    (h : act.StepsFrom told w) : w.tenure.Leads told (act.turned w).tenure :=
  h.trans (leads_poll told _ _)

end Session

end Turnstile
