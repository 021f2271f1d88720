import Mathlib.Logic.Function.Basic
import Mathlib.Logic.Relation
import Turnstile.Session.World

/-!
# The tenure of the inherited region

A process maps the region that it inherited for one probe at a time, and knows by a flag whether it
has. The first part is about a single attempt. An idle probe is led to a slot of the region in a
file (`Probe.LeadsTo`), or else something is wrong with what it was told, and the error says what
(`Probe.Misled`, `Probe.inherit_cases`). The equations `Probe.reach_of_missing` to
`Probe.reach_of_inherit_error` say what the attempt does to the flag.

The second part is about a session. All that bears on the region is its `Tenure`: the flag and, for
every probe, what it was told and whether it holds the region. `Tenure.Step` lists what one change
can do to it, and every invariant is a property that these steps keep. At most one agent holds the
region, and only while the flag is set (`Tenure.Sound.step`). The flag is set only while an agent
holds the region, as long as no probe is told the descriptor -1 (`Tenure.Exact.step`). A flag that
is set for nobody is never cleared (`Tenure.Stranded.step`).
-/

set_option autoImplicit false
set_option relaxedAutoImplicit false

namespace Turnstile

/-! ### Attempts -/

theorem Region.checkLayout_cases (r : Region) :
    ((∀ j, (r.slot j).version = Limits.layoutVersion) ∧ r.checkLayout = .ok ()) ∨
      ∃ j, (r.slot j).version ≠ Limits.layoutVersion ∧
        r.checkLayout = .error (.wrongVersion j (r.slot j).version) := by
  unfold checkLayout
  cases hforeign : r.foreignSlot? with
  | some j =>
    have hversion := List.find?_some hforeign
    exact .inr ⟨j, by simpa using hversion, rfl⟩
  | none =>
    have hall := List.find?_eq_none.1 hforeign
    exact .inl ⟨fun j ↦ by simpa using hall j (List.mem_finRange j), rfl⟩

namespace Probe

variable {p : Probe} {d : Disk}

/-- What a probe was told leads to a slot of the region in a file. -/
structure LeadsTo (p : Probe) (d : Disk) (i : SlotIndex) (name : String) : Prop where
  slot : p.settings.slot.map UInt64.toNat = some i.val
  backing : p.backing = some name
  length : (d.file name).length = Limits.regionLength
  layout : ∀ j, ((d.file name).image.slot j).version = Limits.layoutVersion

/-- What an error says against what a probe was told. -/
inductive Misled (p : Probe) (d : Disk) : Error → Prop
  | unopened (hbacking : p.backing = none) : Misled p d (.os .badDescriptor)
  | size {name : String} (hbacking : p.backing = some name)
      (hlength : (d.file name).length ≠ Limits.regionLength) :
      Misled p d (.wrongSize (d.file name).length)
  | layout {name : String} (hbacking : p.backing = some name) {j : SlotIndex}
      (hversion : ((d.file name).image.slot j).version ≠ Limits.layoutVersion) :
      Misled p d (.wrongVersion j ((d.file name).image.slot j).version)
  | slot {n : UInt64} (hslot : p.settings.slot = some n) (hrange : Limits.slots ≤ n.toNat) :
      Misled p d (.slotOutOfRange n.toNat)

theorem LeadsTo.slot_ne_none {i : SlotIndex} {name : String} (h : p.LeadsTo d i name) :
    p.settings.slot ≠ none := by
  intro hnone
  have hindex := h.slot
  rw [hnone] at hindex
  cases hindex

/-- A probe is not both led and misled. -/
theorem Misled.not_leadsTo {e : Error} (h : p.Misled d e) {i : SlotIndex} {name : String}
    (hleads : p.LeadsTo d i name) : False := by
  cases h with
  | unopened hbacking => cases hbacking.symm.trans hleads.backing
  | size hbacking hlength =>
    cases hbacking.symm.trans hleads.backing
    exact hlength hleads.length
  | layout hbacking hversion =>
    cases hbacking.symm.trans hleads.backing
    exact hversion (hleads.layout _)
  | slot hslot hrange =>
    have hindex := hleads.slot
    rw [hslot, Option.map_some, Option.some_inj] at hindex
    omega

/-- What attaching comes to on the region that a descriptor is open on. -/
def inherit (p : Probe) (d : Disk) : Except Error Attachment := do
  let (region, place) ← p.inheritedRegion d
  attach p.settings region place true

/-- Attaching is led to a slot, or finds what is wrong. -/
theorem inherit_cases (hslot : p.settings.slot ≠ none) (d : Disk) :
    (∃ i name a, p.LeadsTo d i name ∧ a.inherited ∧ a.place = .file name ∧ p.inherit d = .ok a) ∨
      ∃ e, p.Misled d e ∧ p.inherit d = .error e := by
  obtain ⟨n, hn⟩ := Option.ne_none_iff_exists'.1 hslot
  unfold inherit inheritedRegion
  cases hbacking : p.backing with
  | none => exact .inr ⟨_, .unopened hbacking, rfl⟩
  | some name =>
    by_cases hlength : (d.file name).length = Limits.regionLength
    · obtain ⟨hversions, hlayout⟩ | ⟨j, hversion, hlayout⟩ := (d.file name).image.checkLayout_cases
      · by_cases hrange : n.toNat < Limits.slots
        · refine .inl ⟨⟨n.toNat, hrange⟩, name, ⟨.attach ⟨n.toNat, hrange⟩ ((d.file name).image.slot
            ⟨n.toNat, hrange⟩) p.settings.enforces p.settings.spinLimit, .file name, true⟩,
            ⟨by simp [hn], hbacking, hlength, hversions⟩, rfl, rfl, ?_⟩
          simp [File.region, hlength, hlayout, attach, hn, Region.slotIndex, hrange]
          rfl
        · refine .inr ⟨_, .slot hn (Nat.le_of_not_lt hrange), ?_⟩
          simp [File.region, hlength, hlayout, attach, hn, Region.slotIndex, hrange]
          rfl
      · refine .inr ⟨_, .layout hbacking hversion, ?_⟩
        simp [File.region, hlength, hlayout]
        rfl
    · refine .inr ⟨_, .size hbacking hlength, ?_⟩
      simp [File.region, hlength]
      rfl

/-- A probe over a region that is mapped already has not inherited it. -/
theorem of_ofRegion {settings : Settings} {r : Region} {place : Place}
    (h : ofRegion settings r place = .ok p) : p.settings = settings ∧ p.holdsInherited = false := by
  unfold ofRegion attach at h
  cases hslot : settings.slot with
  | none =>
    rw [hslot] at h
    cases h
  | some n =>
    rw [hslot] at h
    cases hindex : Region.slotIndex n.toNat with
    | error e =>
      simp only [hindex] at h
      cases h
    | ok i =>
      simp only [hindex] at h
      cases h
      exact ⟨rfl, rfl⟩

section Reach

variable (hidle : p.attached = none)

include hidle

theorem reach_of_missing (hslot : p.settings.slot = none) (mapped : Bool) :
    p.reach d mapped = (mapped, .failed .noSlotGiven) := by
  simp [reach, hidle, hslot]

theorem reach_of_mapped (hslot : p.settings.slot ≠ none) :
    p.reach d true = (true, .failed .alreadyMapped) := by
  simp [reach, hidle, hslot]

theorem reach_of_impossible (hslot : p.settings.slot ≠ none)
    (hdescriptor : p.settings.descriptor = -1) : p.reach d false = (true, .crashed) := by
  simp [reach, hidle, hslot, hdescriptor]

theorem reach_of_inherit_ok (hslot : p.settings.slot ≠ none)
    (hdescriptor : p.settings.descriptor ≠ -1) {a : Attachment} (h : p.inherit d = .ok a) :
    p.reach d false = (true, .attached a) := by
  simp only [reach, hidle, hdescriptor, Option.isNone_iff_eq_none, hslot, if_false]
  rw [← inherit, h]
  rfl

theorem reach_of_inherit_error (hslot : p.settings.slot ≠ none)
    (hdescriptor : p.settings.descriptor ≠ -1) {e : Error} (h : p.inherit d = .error e) :
    p.reach d false = (false, .failed e) := by
  simp only [reach, hidle, hdescriptor, Option.isNone_iff_eq_none, hslot, if_false]
  rw [← inherit, h]
  rfl

end Reach

end Probe

namespace Session

/-! ### Who holds the region -/

/-- What a session keeps that bears on the inherited region: the flag of the process and, under the
names of the agents, what each probe was told and whether it holds the region. -/
@[ext]
structure Tenure where
  mapped : Bool
  probes : String → Option (Settings × Bool)

namespace Tenure

variable {told : Settings → Prop} {t next : Tenure}

/-- Whether an agent holds the region. -/
def holds (t : Tenure) (who : String) : Bool := (t.probes who).any (·.2)

/-- What one change can do. `told` are the settings that a new probe can have. -/
inductive Step (told : Settings → Prop) (t : Tenure) : Tenure → Prop
  /-- An agent goes, and unmaps the region if it holds it. -/
  | leave (who : String) :
    Step told t ⟨t.mapped && !t.holds who, Function.update t.probes who none⟩
  /-- A probe comes, and has not inherited anything. -/
  | enter {who : String} {s : Settings} (htold : told s) (hnew : t.probes who = none) :
    Step told t ⟨t.mapped, Function.update t.probes who (some (s, false))⟩
  /-- A probe maps the region, which nobody else has mapped. -/
  | map {who : String} {s : Settings} (hprobe : t.probes who = some (s, false))
      (hfree : t.mapped = false) :
    Step told t ⟨true, Function.update t.probes who (some (s, true))⟩
  /-- A probe sets the flag for a descriptor that no descriptor can have as its number. -/
  | crash {who : String} {s : Settings} (hprobe : t.probes who = some (s, false))
      (hfree : t.mapped = false) (hdescriptor : s.descriptor = -1) :
    Step told t ⟨true, t.probes⟩

theorem holds_update (t : Tenure) (mapped : Bool) (who : String) (x : Option (Settings × Bool))
    (a : String) : holds ⟨mapped, Function.update t.probes who x⟩ a =
      if a = who then x.any (·.2) else t.holds a := by
  by_cases ha : a = who
  · subst ha
    simp [holds]
  · simp [holds, ha]

/-- After a step, the region is held by those who held it before, but for one who went, or else by
the one who has just mapped it. -/
theorem Step.holds_cases (h : t.Step told next) :
    ((∀ a, next.holds a ↔ t.holds a) ∧
      (next.mapped = t.mapped ∨ next.mapped ∧ ∃ who s b, t.probes who = some (s, b) ∧
        s.descriptor = -1)) ∨
    (∃ who, (∀ a, next.holds a ↔ a ≠ who ∧ t.holds a) ∧
      next.mapped = (t.mapped && !t.holds who)) ∨
    t.mapped = false ∧ next.mapped ∧ ∃ who, ∀ a, next.holds a ↔ a = who ∨ t.holds a := by
  cases h with
  | leave who =>
    refine .inr (.inl ⟨who, fun a ↦ ?_, rfl⟩)
    rw [holds_update]
    by_cases ha : a = who <;> simp [ha]
  | @enter who s htold hnew =>
    refine .inl ⟨fun a ↦ ?_, .inl rfl⟩
    rw [holds_update]
    by_cases ha : a = who <;> simp [ha, holds, hnew]
  | @map who s hprobe hfree =>
    refine .inr (.inr ⟨hfree, rfl, who, fun a ↦ ?_⟩)
    rw [holds_update]
    by_cases ha : a = who <;> simp [ha]
  | crash hprobe hfree hdescriptor =>
    exact .inl ⟨fun a ↦ Iff.rfl, .inr ⟨rfl, _, _, _, hprobe, hdescriptor⟩⟩

/-- At most one agent holds the region, and only while the flag is set. -/
structure Sound (t : Tenure) : Prop where
  single : ∀ {a b}, t.holds a → t.holds b → a = b
  flagged : ∀ {a}, t.holds a → t.mapped

theorem Sound.not_holds (h : t.Sound) (hfree : t.mapped = false) (a : String) : ¬ t.holds a := by
  intro ha
  have hmapped := h.flagged ha
  rw [hfree] at hmapped
  cases hmapped

theorem Sound.step (h : t.Sound) (hstep : t.Step told next) : next.Sound := by
  obtain ⟨hholds, hmapped⟩ | ⟨who, hholds, hmapped⟩ | ⟨hfree, hmapped, who, hholds⟩ :=
    hstep.holds_cases
  · refine ⟨fun ha hb ↦ h.single ((hholds _).1 ha) ((hholds _).1 hb), fun ha ↦ ?_⟩
    obtain hmapped | ⟨hmapped, -⟩ := hmapped
    · rw [hmapped]
      exact h.flagged ((hholds _).1 ha)
    · exact hmapped
  · refine ⟨fun ha hb ↦ h.single ((hholds _).1 ha).2 ((hholds _).1 hb).2, fun ha ↦ ?_⟩
    obtain ⟨hne, ha⟩ := (hholds _).1 ha
    have hleaver : ¬ t.holds who := fun hwho ↦ hne (h.single ha hwho)
    simpa [hmapped, hleaver] using h.flagged ha
  · have honly : ∀ {a}, next.holds a → a = who := by
      intro a ha
      exact ((hholds a).1 ha).resolve_right (h.not_holds hfree a)
    exact ⟨fun ha hb ↦ (honly ha).trans (honly hb).symm, fun _ ↦ hmapped⟩

/-- Every probe has been told what probes can be told. -/
def Told (told : Settings → Prop) (t : Tenure) : Prop :=
  ∀ who s b, t.probes who = some (s, b) → told s

theorem Told.step (h : t.Told told) (hstep : t.Step told next) : next.Told told := by
  have hupdate : ∀ (who : String) (x : Option (Settings × Bool)) (mapped : Bool),
      (∀ s b, x = some (s, b) → told s) → Told told ⟨mapped, Function.update t.probes who x⟩ := by
    intro who x mapped hx a s b ha
    by_cases hne : a = who
    · subst hne
      exact hx s b (by simpa using ha)
    · exact h a s b (by simpa [hne] using ha)
  cases hstep with
  | leave who => exact hupdate who none _ (by simp)
  | @enter who s htold hnew => exact hupdate who _ _ (by simpa using htold)
  | @map who s hprobe hfree => exact hupdate who _ _ (by simpa using h who s false hprobe)
  | crash hprobe hfree hdescriptor => exact h

/-- The flag is set while the region is held, and otherwise not. -/
def Exact (t : Tenure) : Prop := t.mapped = true ↔ ∃ a, t.holds a

/-- A step keeps the flag exact, unless it comes upon an impossible descriptor. -/
theorem Exact.step (h : t.Exact) (hsound : t.Sound) (htold : t.Told fun s ↦ s.descriptor ≠ -1)
    (hstep : t.Step told next) : next.Exact := by
  obtain ⟨hholds, hmapped⟩ | ⟨who, hholds, hmapped⟩ | ⟨-, hmapped, who, hholds⟩ :=
    hstep.holds_cases
  · obtain hmapped | ⟨-, who, s, b, hprobe, hdescriptor⟩ := hmapped
    · simp only [Exact, hholds, hmapped]
      exact h
    · exact absurd hdescriptor (htold who s b hprobe)
  · by_cases hwho : t.holds who
    · refine iff_of_false (by simp [hmapped, hwho]) ?_
      rintro ⟨a, ha⟩
      obtain ⟨hne, ha⟩ := (hholds a).1 ha
      exact hne (hsound.single ha hwho)
    · have hsame : ∀ a, next.holds a ↔ t.holds a := by
        intro a
        rw [hholds a]
        exact ⟨And.right, fun ha ↦ ⟨fun heq ↦ hwho (heq ▸ ha), ha⟩⟩
      simp only [Exact, hsame, hmapped, hwho, Bool.not_false, Bool.and_true]
      exact h
  · exact iff_of_true hmapped ⟨who, (hholds who).2 (.inl rfl)⟩

/-- The flag is set and nobody holds the region. -/
def Stranded (t : Tenure) : Prop := t.mapped = true ∧ ∀ a, ¬ t.holds a

/-- Nothing clears a flag that is set for nobody. -/
theorem Stranded.step (h : t.Stranded) (hstep : t.Step told next) : next.Stranded := by
  obtain ⟨hmapped, hnobody⟩ := h
  obtain ⟨hholds, hkept⟩ | ⟨who, hholds, hkept⟩ | ⟨hfree, -⟩ := hstep.holds_cases
  · refine ⟨?_, fun a ha ↦ hnobody a ((hholds a).1 ha)⟩
    obtain hkept | ⟨hkept, -⟩ := hkept
    · exact hkept.trans hmapped
    · exact hkept
  · refine ⟨?_, fun a ha ↦ hnobody a ((hholds a).1 ha).2⟩
    simpa [hkept, hmapped] using hnobody who
  · rw [hmapped] at hfree
    cases hfree

/-! #### Steps in a row -/

/-- Steps lead from one state to another. -/
def Leads (told : Settings → Prop) (t next : Tenure) : Prop :=
  Relation.ReflTransGen (Step told) t next

theorem leads_refl (told : Settings → Prop) (t : Tenure) : t.Leads told t := .refl

theorem Step.leads (h : t.Step told next) : t.Leads told next := .single h

theorem Leads.trans {last : Tenure} (h : t.Leads told next) (hlater : next.Leads told last) :
    t.Leads told last := Relation.ReflTransGen.trans h hlater

/-- What every step keeps holds on. -/
theorem Leads.keeps {P : Tenure → Prop} (h : t.Leads told next) (ht : P t)
    (hstep : ∀ {t next}, P t → t.Step told next → P next) : P next := by
  unfold Leads at h
  induction h with
  | refl => exact ht
  | tail _ hlast ih => exact hstep ih hlast

theorem Sound.leads (h : t.Sound) (hleads : t.Leads told next) : next.Sound :=
  hleads.keeps h Sound.step

theorem Stranded.leads (h : t.Stranded) (hleads : t.Leads told next) : next.Stranded :=
  hleads.keeps h Stranded.step

/-- If no probe is told an impossible descriptor, the flag stays exact. -/
theorem Exact.leads (h : t.Exact) (hsound : t.Sound) (htold : t.Told (·.descriptor ≠ -1))
    (hleads : t.Leads (·.descriptor ≠ -1) next) : next.Exact := by
  have hkept : next.Sound ∧ next.Told (·.descriptor ≠ -1) ∧ next.Exact := by
    refine hleads.keeps (P := fun t ↦ t.Sound ∧ t.Told (·.descriptor ≠ -1) ∧ t.Exact)
      ⟨hsound, htold, h⟩ ?_
    rintro t next ⟨hsound, htold, h⟩ hstep
    exact ⟨hsound.step hstep, htold.step hstep, h.step hsound htold hstep⟩
  exact hkept.2.2

end Tenure

/-- What an agent keeps that bears on the inherited region. -/
def Agent.stake : Agent → Option (Settings × Bool)
  | .reporter _ _ => none
  | .probe p => some (p.settings, p.holdsInherited)

namespace World

/-- The files that descriptors can be open on. -/
def storage (w : World) : Disk := w.disk.getD .empty

/-- What a session keeps that bears on the inherited region. -/
def tenure (w : World) : Tenure := ⟨w.mapped, fun who ↦ w.agents[who]?.bind Agent.stake⟩

/-- An agent holds the region that the process inherited. -/
def Holds (w : World) (who : String) : Prop :=
  ∃ p, w.agents[who]? = some (.probe p) ∧ p.holdsInherited = true

theorem holds_tenure (w : World) (who : String) : w.tenure.holds who ↔ w.Holds who := by
  change (w.agents[who]?.bind Agent.stake).any (·.2) ↔ _
  unfold Holds
  cases w.agents[who]? with
  | none => simp
  | some a => cases a <;> simp [Agent.stake]

theorem tenure_insert (w : World) (who : String) (a : Agent) (mapped : Bool) :
    tenure { w with agents := w.agents.insert who a, mapped := mapped } =
      ⟨mapped, Function.update w.tenure.probes who a.stake⟩ := by
  ext1
  · rfl
  · funext x
    by_cases hx : x = who
    · subst hx
      simp [tenure]
    · simp [tenure, hx, Std.TreeMap.getElem?_insert, Ne.symm hx]

theorem tenure_erase (w : World) (who : String) (mapped : Bool) :
    tenure { w with agents := w.agents.erase who, mapped := mapped } =
      ⟨mapped, Function.update w.tenure.probes who none⟩ := by
  ext1
  · rfl
  · funext x
    by_cases hx : x = who
    · subst hx
      simp [tenure]
    · simp [tenure, hx, Std.TreeMap.getElem?_erase, Ne.symm hx]

/-- An agent changes in what does not bear on the region. -/
theorem tenure_modify (w : World) (who : String) {f : Agent → Agent}
    (hf : ∀ a, (f a).stake = a.stake) :
    tenure { w with agents := w.agents.modify who f } = w.tenure := by
  ext1
  · rfl
  · funext x
    change (w.agents.modify who f)[x]?.bind Agent.stake = w.agents[x]?.bind Agent.stake
    by_cases hx : who = x
    · subst hx
      rw [Std.TreeMap.getElem?_modify_self]
      cases w.agents[who]? with
      | none => rfl
      | some a => exact hf a
    · simp [Std.TreeMap.getElem?_modify, hx]

theorem tenure_setRegion (w : World) (r : Region) (place : Place) :
    (w.setRegion r place).tenure = w.tenure := by
  cases place with
  | memory => rfl
  | file name =>
    unfold setRegion
    cases w.disk <;> rfl

end World

end Session

end Turnstile
