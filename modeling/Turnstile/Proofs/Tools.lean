import Turnstile.Proofs.Dumps
import Turnstile.Proofs.Inheritance
import Turnstile.Proofs.Rounds

/-!
# What the tools leave alone

A region belongs to the programs that run in it, and the tools that work on its file from outside
change only what they name. `Command.allows` says for each tool what that is. Every tool keeps to it
on every way out (`Command.within_run`), and since a dump leaves a region as it was, a second dump
shows the same schedule (`Command.tools_frame`).

All of this is said of regions whose locks are free: a tool that takes a lock waits until it is.
-/

set_option autoImplicit false
set_option relaxedAutoImplicit false

namespace Turnstile

/-! ### Slots and regions -/

namespace Slot

variable {s next last : Slot}

/-- At most the mode has changed. -/
def SameButMode (s next : Slot) : Prop := next = { s with modeWord := next.modeWord }

/-- At most the mode and what an answer writes have changed. -/
def SameButAnswer (s next : Slot) : Prop :=
  next = { s with
    modeWord := next.modeWord
    running := next.running
    epoch := next.epoch
    directiveWord := next.directiveWord }

theorem sameButMode_setMode (s : Slot) (m : Mode) : s.SameButMode (s.setMode m) := rfl

theorem SameButMode.trans (h : s.SameButMode next) (h' : next.SameButMode last) :
    s.SameButMode last := by
  rw [SameButMode] at h h' ⊢
  rw [h', h]

theorem SameButAnswer.trans (h : s.SameButAnswer next) (h' : next.SameButAnswer last) :
    s.SameButAnswer last := by
  rw [SameButAnswer] at h h' ⊢
  rw [h', h]

theorem SameButMode.sameButAnswer (h : s.SameButMode next) : s.SameButAnswer next := by
  rw [SameButMode] at h
  rw [SameButAnswer, h]

theorem SameButAnswer.isFree (h : s.SameButAnswer next) (hfree : s.IsFree) : next.IsFree :=
  ⟨(congrArg Slot.lock h).trans hfree.lock, (congrArg Slot.callLock h).trans hfree.callLock⟩

/-- A mode is selected or refused. -/
theorem sameButMode_select (hfree : s.IsFree) (m : ControlMode) :
    s.SameButMode (s.select m).1 := by
  cases hrefusal : s.refusal m with
  | some e =>
    rw [select_of_refusal hrefusal]
    exact release_acquire hfree.lock
  | none =>
    obtain ⟨old, hold⟩ := select_of_admits hrefusal
    have hrelease : (s.setMode m.mode).release = s.setMode m.mode :=
      release_acquire (s := s.setMode m.mode) hfree.lock
    rw [hold, hrelease]
    exact s.sameButMode_setMode m.mode

/-- A task is granted, or not, or not to the end. -/
theorem sameButAnswer_afterChoice (hfree : s.IsFree) (choice : Choice) :
    s.SameButAnswer (s.afterChoice choice) := by
  have hrelease : s.release = s := release_acquire hfree.lock
  cases choice with
  | wait | breakdown => exact hrelease
  | grant t =>
    -- the slot before is written as one whose lock has just been let go
    unfold afterChoice SameButAnswer
    split_ifs <;> conv_rhs => rw [← hrelease]
    · rfl
    · rfl

/-- Somebody who looks at a slot leaves it as it was. -/
theorem inspect_of_free (hfree : s.IsFree) (i : SlotIndex) (withTasks : Bool) :
    (s.inspect i withTasks).1 = s := by
  unfold inspect
  cases s.coverage? with
  | none => rfl
  | some c =>
    obtain ⟨lock, callLock, modeWord, callWord, version, directiveWord, running, tasks, epoch, log,
      blockCount, rows⟩ := s
    obtain ⟨rfl, rfl⟩ := hfree
    rfl

end Slot

namespace Region

variable {r next last : Region} {R : SlotIndex → Slot → Slot → Prop}

/-- What has changed in a region has changed in its slots, and in each in a certain way. -/
structure ChangesSlots (R : SlotIndex → Slot → Slot → Prop) (r next : Region) : Prop where
  slot : ∀ i, R i (r.slot i) (next.slot i)
  padding : next.padding = r.padding

theorem ChangesSlots.setSlot (h : r.ChangesSlots R next) {i : SlotIndex} {s : Slot}
    (hs : R i (r.slot i) s) : r.ChangesSlots R (next.setSlot i s) := by
  refine ⟨fun j ↦ ?_, h.padding⟩
  by_cases hj : j = i
  · subst hj
    rwa [slot_setSlot_self]
  · rw [slot_setSlot_of_ne next hj]
    exact h.slot j

/-- The region has changed as a replay may change it. -/
abbrev SameButAnswers (r next : Region) : Prop := r.ChangesSlots (fun _ ↦ Slot.SameButAnswer) next

theorem sameButAnswers_refl (r : Region) : r.SameButAnswers r := ⟨fun _ ↦ rfl, rfl⟩

theorem SameButAnswers.trans (h : r.SameButAnswers next) (h' : next.SameButAnswers last) :
    r.SameButAnswers last :=
  ⟨fun i ↦ (h.slot i).trans (h'.slot i), h'.padding.trans h.padding⟩

theorem SameButAnswers.isFree (h : r.SameButAnswers next) (hfree : r.IsFree) : next.IsFree :=
  fun i ↦ (h.slot i).isFree (hfree i)

theorem sameButAnswers_select (hfree : r.IsFree) (i : SlotIndex) (m : ControlMode) :
    r.SameButAnswers (r.select i m).1 :=
  r.sameButAnswers_refl.setSlot (Slot.sameButMode_select (hfree i) m).sameButAnswer

theorem sameButAnswers_selectIn (hfree : r.IsFree) (m : ControlMode) (order : List SlotIndex) :
    r.SameButAnswers (r.selectIn m order).1 := by
  induction order generalizing r with
  | nil => exact r.sameButAnswers_refl
  | cons i order ih =>
    have hfirst := sameButAnswers_select hfree i m
    unfold selectIn
    cases hselect : r.select i m with
    | mk r' previous =>
      rw [hselect] at hfirst
      cases previous with
      | ok old => exact hfirst.trans (ih (hfirst.isFree hfree))
      | error e => exact hfirst

theorem sameButAnswers_round {σ : Type} (hfree : r.IsFree) (policy : Policy σ) (state : σ) :
    r.SameButAnswers (r.round policy state).value.region := by
  obtain ⟨asked, -, -, hplayed⟩ := played_round policy r state
  refine ⟨fun i ↦ ?_, hplayed.padding⟩
  by_cases hasked : i ∈ asked.map (·.slot)
  · obtain ⟨c, hc, rfl⟩ := List.mem_map.1 hasked
    rw [hplayed.slot_asked c hc]
    exact Slot.sameButAnswer_afterChoice (hfree c.slot) c.choice
  · rw [hplayed.slot_other i hasked]
    rfl

theorem sameButAnswers_replayRounds (hfree : r.IsFree) (rounds : Nat) (p : Replayer) :
    r.SameButAnswers (replayRounds rounds r p).value.region := by
  induction rounds generalizing r p with
  | zero => exact r.sameButAnswers_refl
  | succ rounds ih =>
    have hround := sameButAnswers_round hfree Replayer.policy p
    unfold replayRounds
    split_ifs with hexhausted
    · exact r.sameButAnswers_refl
    · simp only [Noted.value_bind]
      split_ifs with hgoes
      · exact hround.trans (ih (hround.isFree hfree) _)
      · exact hround

theorem val_slotIndex {n : Nat} {i : SlotIndex} (h : slotIndex n = .ok i) : i.val = n := by
  unfold slotIndex at h
  split_ifs at h
  cases h
  rfl

theorem sameButAnswers_endReplay (r : Region) : r.SameButAnswers r.endReplay :=
  ⟨fun i ↦ by rw [slot_endReplay]; rfl, rfl⟩

end Region

/-! ### What the tools may change -/

namespace Command

/-- What a tool may change in a region: to look at it and to read its logs changes nothing, to
select a mode and to end the replay change modes, and a replay changes modes and answers. -/
def allows : Command → Region → Region → Prop
  | .create .. => fun _ _ ↦ True
  | .inspect .. | .dump .. => fun r next ↦ next = r
  | .select _ _ slot => Region.ChangesSlots fun i s next ↦
      s.SameButMode next ∧ ∀ n ∈ slot, i.val ≠ n → next = s
  | .endReplay _ => Region.ChangesSlots fun _ ↦ Slot.SameButMode
  | .replay .. => Region.ChangesSlots fun _ ↦ Slot.SameButAnswer

theorem allows_refl (c : Command) (r : Region) : c.allows r r := by
  cases c with
  | create => trivial
  | inspect | dump => rfl
  | select => exact ⟨fun _ ↦ ⟨rfl, fun _ _ _ ↦ rfl⟩, rfl⟩
  | endReplay | replay => exact ⟨fun _ ↦ rfl, rfl⟩

/-- The path of the schedule that is written, if one is written to a file. -/
def output? : Command → Option String
  | .dump _ output _ => output
  | _ => none

end Command

namespace Job

variable {P : Workplace → Prop} {b : Bounds}

/-- Slots that are looked at one after another are left as they were. -/
theorem upholds_inspectSlots (withTasks : Bool) (numbers : List Nat) (r : Region) :
    (inspectSlots withTasks numbers r).Upholds P fun x ↦ r.IsFree → x.1 = r := by
  induction numbers generalizing r with
  | nil => exact upholds_pure fun _ ↦ rfl
  | cons n numbers ih =>
    unfold inspectSlots
    refine (upholds_succeeding (Q := fun _ ↦ True) _ fun _ _ ↦ trivial).bind fun i _ ↦ ?_
    have hinspect (hfree : r.IsFree) : r.setSlot i ((r.slot i).inspect i withTasks).1 = r := by
      rw [Slot.inspect_of_free (hfree i), Region.setSlot_slot]
    obtain ⟨s, state, heq⟩ : ∃ s state, (r.slot i).inspect i withTasks = (s, state) := ⟨_, _, rfl⟩
    rw [heq] at hinspect
    simp only [heq]
    cases state with
    | none => exact upholds_throw _
    | some state =>
      refine (upholds_waitUntil _).bind fun _ _ ↦ (ih (r.setSlot i s)).bind ?_
      rintro ⟨r', states⟩ hrest
      refine upholds_pure fun hfree ↦ ?_
      rw [hinspect hfree] at hrest
      exact hrest hfree

theorem upholds_inspectRegion (hfree : b.image.IsFree)
    (hallowed : b.allowed = fun r next ↦ next = r) (path : String) (slot : Option Nat)
    (withTasks json : Bool) :
    (inspectRegion path slot withTasks json).Upholds b.Holds fun _ ↦ True := by
  refine (upholds_openRegion path).bind ?_
  rintro ⟨name, r⟩ hr
  refine (upholds_slotNumbers slot).bind fun numbers _ ↦ ?_
  refine (upholds_inspectSlots withTasks numbers r).bind ?_
  rintro ⟨r', states⟩ hlooked
  rw [hallowed] at hr
  have hkept : name = b.name → b.allowed b.image r' := by
    intro hname
    obtain rfl : r = b.image := hr hname
    rw [hallowed]
    exact hlooked hfree
  refine (upholds_keep hkept).bind fun _ _ ↦ ?_
  cases json with
  | true => exact upholds_print _
  | false =>
    refine upholds_get.bind fun w _ ↦ ?_
    refine (upholds_forIn (fun line _ ↦ ?_) _).bind fun _ _ ↦ upholds_pure trivial
    exact (upholds_print line).bind fun _ _ ↦ upholds_pure trivial

/-- Modes are selected in the slots that were named. -/
theorem upholds_selectSlots (hfree : b.image.IsFree) {slot : Option Nat}
    (hallowed : b.allowed = Region.ChangesSlots fun i s next ↦
      s.SameButMode next ∧ ∀ n ∈ slot, i.val ≠ n → next = s)
    {name : String} (m : ControlMode) {numbers : List Nat}
    (hnumbers : ∀ n ∈ numbers, ∀ k ∈ slot, n = k) {r : Region}
    (hr : name = b.name → b.allowed b.image r) :
    (selectSlots name m numbers r).Upholds b.Holds fun _ ↦ True := by
  induction numbers generalizing r with
  | nil => exact upholds_pure trivial
  | cons n numbers ih =>
    unfold selectSlots
    refine (upholds_succeeding (Q := fun i ↦ i.val = n) _ fun i ↦ Region.val_slotIndex).bind ?_
    rintro i rfl
    refine (upholds_waitUntil _).bind fun _ _ ↦ ?_
    have hselected : name = b.name → b.allowed b.image (r.select i m).1 := by
      intro hname
      rw [hallowed] at hr ⊢
      have hsofar := hr hname
      refine hsofar.setSlot ⟨?_, fun k hk hne ↦ absurd (hnumbers i.val (by simp) k hk) hne⟩
      have hslot := (hsofar.slot i).1
      exact hslot.trans (Slot.sameButMode_select (hslot.sameButAnswer.isFree (hfree i)) m)
    refine (upholds_keep hselected).bind fun _ _ ↦ ?_
    refine (upholds_succeeding (Q := fun _ ↦ True) _ fun _ _ ↦ trivial).bind fun _ _ ↦ ?_
    refine (upholds_paint _ _).bind fun _ _ ↦ (upholds_print _).bind fun _ _ ↦ ?_
    exact ih (fun n hn ↦ hnumbers n (by simp [hn])) hselected

theorem upholds_selectMode (hfree : b.image.IsFree) {slot : Option Nat}
    (hallowed : b.allowed = Region.ChangesSlots fun i s next ↦
      s.SameButMode next ∧ ∀ n ∈ slot, i.val ≠ n → next = s) (path : String) (m : ControlMode) :
    (selectMode path m slot).Upholds b.Holds fun _ ↦ True := by
  refine (upholds_openRegion path).bind ?_
  rintro ⟨name, r⟩ hr
  exact (upholds_slotNumbers slot).bind fun numbers hnumbers ↦
    upholds_selectSlots hfree hallowed m hnumbers hr

theorem upholds_endReplay (hallowed : b.allowed = Region.ChangesSlots fun _ ↦ Slot.SameButMode)
    (path : String) : (endReplay path).Upholds b.Holds fun _ ↦ True := by
  refine (upholds_openRegion path).bind ?_
  rintro ⟨name, r⟩ hr
  refine upholds_keep fun hname ↦ ?_
  rw [hallowed] at hr ⊢
  have hfound := hr hname
  refine ⟨fun i ↦ (hfound.slot i).trans ?_, hfound.padding⟩
  rw [Region.slot_endReplay]
  exact Slot.sameButMode_setMode _ _

theorem upholds_closeReplay {name : String} {round : Round Replayer}
    (hround : name = b.name → b.allowed b.image round.region.endReplay) :
    (closeReplay name round).Upholds b.Holds fun _ ↦ True := by
  refine (upholds_keep hround).bind fun _ _ ↦ ?_
  split_ifs <;> exact (upholds_paint _ _).bind fun _ _ ↦ upholds_print _

theorem upholds_conductReplay (hlog : ∀ path ∈ b.logFile, b.Avoids path)
    (hfree : b.image.IsFree) (hallowed : b.allowed = Region.SameButAnswers) {name : String}
    {r : Region} (hr : name = b.name → b.allowed b.image r) (p : Replayer) (unlocked : Bool)
    (patience : Nat) :
    (conductReplay name r p unlocked patience).Upholds b.Holds fun _ ↦ True := by
  rw [hallowed] at hr
  refine (upholds_waitUntil _).bind fun _ _ ↦ (upholds_noted hlog _).bind ?_
  rintro round rfl
  have hround : name = b.name → b.image.SameButAnswers (r.replay p).value.region := fun hname ↦
    (hr hname).trans (Region.sameButAnswers_replayRounds ((hr hname).isFree hfree) _ p)
  refine (upholds_keep (hallowed ▸ hround)).bind fun _ _ ↦ ?_
  have hend : name = b.name → b.allowed b.image (r.replay p).value.region.endReplay :=
    fun hname ↦ hallowed ▸ (hround hname).trans (Region.sameButAnswers_endReplay _)
  have hclose : Upholds b.Holds (do
      unless (r.replay p).value.state.isExhausted do
        log (.stalled patience (r.replay p).value.state.remaining)
      closeReplay name (r.replay p).value) fun _ ↦ True := by
    cases (r.replay p).value.state.isExhausted with
    | false => exact (upholds_log hlog _).bind fun _ _ ↦ upholds_closeReplay hend
    | true => exact upholds_closeReplay hend
  cases (r.replay p).value.isComplete with
  | false => exact (upholds_throw (Q := fun _ ↦ True) _).bind fun _ _ ↦ hclose
  | true => exact hclose

theorem upholds_replaySchedule (hlog : ∀ path ∈ b.logFile, b.Avoids path)
    (hfree : b.image.IsFree) (hallowed : b.allowed = Region.SameButAnswers)
    (path schedule : String) (perSlot : Bool) (patience : Nat) :
    (replaySchedule path schedule perSlot patience).Upholds b.Holds fun _ ↦ True := by
  rw [replaySchedule_eq]
  refine (upholds_loadSchedule schedule).bind fun s _ ↦ (upholds_openRegion path).bind ?_
  rintro ⟨name, r⟩ hr
  refine (upholds_noted hlog _).bind fun replayer _ ↦ ?_
  have hselected : name = b.name → b.allowed b.image
      (r.selectIn .replay (r.reached (List.finRange Limits.slots))).1 := by
    intro hname
    rw [hallowed] at hr ⊢
    have hfound := hr hname
    exact hfound.trans (Region.sameButAnswers_selectIn (hfound.isFree hfree) _ _)
  refine (upholds_keep hselected).bind fun _ _ ↦ ?_
  refine (upholds_succeeding (Q := fun _ ↦ True) _ fun _ _ ↦ trivial).bind fun _ _ ↦ ?_
  exact upholds_conductReplay hlog hfree hallowed hselected _ _ _

end Job

namespace Command

theorem upholds_job {c : Command} (hcreate : ∀ region mode, c ≠ .create region mode)
    {d : Disk} {logFile : Option String} {name : String} (hfree : (d.file name).image.IsFree)
    (hlog : ∀ path ∈ logFile, d.place path ≠ .ok name)
    (houtput : ∀ path ∈ c.output?, d.place path ≠ .ok name) :
    c.job.Upholds (Bounds.Holds ⟨d, logFile, name, c.allows⟩) fun _ ↦ True := by
  have himage : (Bounds.image ⟨d, logFile, name, c.allows⟩).IsFree := hfree
  cases c with
  | create region mode => exact absurd rfl (hcreate region mode)
  | inspect region slot withTasks json =>
    exact Job.upholds_inspectRegion himage rfl region slot withTasks json
  | select region mode slot => exact Job.upholds_selectMode himage rfl region mode
  | endReplay region => exact Job.upholds_endReplay rfl region
  | dump region output slot => exact Job.upholds_dumpLogs hlog houtput region slot
  | replay region schedule perSlot patience =>
    exact Job.upholds_replaySchedule hlog himage rfl region schedule perSlot patience

/-- What a tool leaves of the file of a region whose locks are free. -/
theorem within_run {env : Options.Environment} {args : List String} {i : Invocation}
    (hread : Invocation.read env args = .ok i)
    (hcreate : ∀ region mode, i.command ≠ .create region mode) (terminal : Bool) {d : Disk}
    {name : String} (hfree : (d.file name).image.IsFree)
    (hlog : ∀ path ∈ i.logFile, d.place path ≠ .ok name)
    (houtput : ∀ path ∈ i.command.output?, d.place path ≠ .ok name) :
    d.Within name i.command.allows (run env terminal args d).disk := by
  have hjob : (i.job env).Upholds (Bounds.Holds ⟨d, i.logFile, name, i.command.allows⟩)
      fun _ ↦ True :=
    (Job.upholds_openLog hlog).bind fun _ _ ↦ (Job.upholds_forM Job.upholds_remark _).bind
      fun _ _ ↦ upholds_job hcreate hfree hlog houtput
  rw [run_of_read hread, disk_ofJob]
  exact (hjob (i.workplace env terminal d) ⟨.refl d i.command.allows_refl, rfl⟩).1.disk

/-- The tools change only what they name. To look at a region and to dump its logs changes nothing,
so that a second dump shows what the first one showed; to select modes and to end the replay change
modes; and a replay changes modes and what answers write. The log and the schedule are assumed to
be written elsewhere. -/
theorem tools_frame {env : Options.Environment} {args : List String} {i : Invocation}
    (hread : Invocation.read env args = .ok i)
    (hcreate : ∀ region mode, i.command ≠ .create region mode) (terminal : Bool) {d : Disk}
    {name : String} (hfree : (d.file name).image.IsFree)
    (hlog : ∀ path ∈ i.logFile, d.place path ≠ .ok name)
    (houtput : ∀ path ∈ i.command.output?, d.place path ≠ .ok name) :
    let o := run env terminal args d
    (o.disk.file name).length = (d.file name).length ∧
      i.command.allows (d.file name).image (o.disk.file name).image ∧
      ∀ path output slot, i.command = .dump path output slot → d.openRegion path = .ok name →
        o.code = some 0 → ∃ s, (d.file name).image.dumped? slot = some s ∧ o.Shows output s ∧
          (run env terminal args o.disk).Shows output s := by
  intro o
  have hwithin : d.Within name i.command.allows o.disk :=
    within_run hread hcreate terminal hfree hlog houtput
  refine ⟨hwithin.length, hwithin.image, fun path output slot hdump hopen hcode ↦ ?_⟩
  obtain ⟨s, hs⟩ := exists_affords hread hdump hlog hopen hcode
  rw [hdump] at hwithin
  have hagain := hs.of_same hwithin.directories hwithin.image
  have hlogAgain : ∀ path ∈ i.logFile, o.disk.place path ≠ .ok name := fun path hpath ↦
    (Disk.place_eq_ok_iff hwithin.directories).not.2 (hlog path hpath)
  exact ⟨s, hs.dumped, shows_of_affords hread hdump hlog hopen hs,
    shows_of_affords hread hdump hlogAgain (hwithin.openRegion hopen) hagain⟩

/-- A region in which one slot waits with a report, and another one has recorded two. -/
def busy (i j : SlotIndex) : Region :=
  (Scene.after [.act i (.attach true 16), .act i (.spawn 1 0x100 "main.main"),
    .act i (.select .replay), .act i (.report 1 .schedule 3),
    .act j (.attach true 16), .act j (.spawn 1 0x100 "main.main"), .act j (.select .record),
    .act j (.report 1 .schedule 1), .act j (.report 1 .schedule 2)]).region

theorem isFree_busy : (busy 0 1).IsFree := by
  have hlocks : ∀ i, ((busy 0 1).slot i).lock = 0 ∧ ((busy 0 1).slot i).callLock = 0 := by
    decide +kernel
  exact fun i ↦ ⟨(hlocks i).1, (hlocks i).2⟩

/-- Beside a region there is room for a log and for its schedule. -/
theorem affords_keeping {r : Region} {s : Schedule} (hdumped : r.dumped? none = some s) :
    (Disk.keeping r).Affords "r" (some "l") (some "s") none s := by
  have hplain : ∀ s ∈ ["l", "s"], s ∈ ["l", "r", "s"] ∧ Device.ofName? s = none := by
    decide +kernel
  have htakes {path : String} (h : path ∈ ["l", "s"]) (bytes : List UInt8) :
      (Disk.keeping r).Takes path bytes := by
    obtain ⟨hplace, hdevice⟩ := hplain path h
    exact ⟨path, Disk.place_keeping r hplace, by simp [hdevice]⟩
  have himage : ((Disk.keeping r).file "r").image = r := congrArg File.image Disk.file_keeping
  refine ⟨?_, himage ▸ hdumped, ?_⟩
  · rintro path ⟨⟩
    exact htakes (by decide) _
  · rintro path ⟨⟩
    exact htakes (by decide) _

/-- The busy region is dumped twice to a file, with a log in another one, and then a mode is
selected in slot 1, or the schedule in the file is replayed. -/
theorem tools_frame_busy :
    let r := busy 0 1
    let d := Disk.keeping r
    let dumping := ["--log-file", "l", "dump", "r", "--output", "s"]
    let dumped := run [] false dumping d
    let selected := run [] false ["--log-file", "l", "mode", "--slot", "1", "r", "explore"]
      dumped.disk
    let replayed := run [] false ["--log-file", "l", "replay", "r", "s"] dumped.disk
    ((r.slot 0).hasRequest ∧ (r.slot 0).log.cursor = 1 ∧ (r.slot 1).log.cursor = 2) ∧
      r.IsFree ∧ d.place "l" = .ok "l" ∧ d.place "s" = .ok "s" ∧
      ((dumped.disk.file "r").image = r ∧ ∃ s, r.dumped? none = some s ∧
        dumped.Shows (some "s") s ∧ (run [] false dumping dumped.disk).Shows (some "s") s) ∧
      r.ChangesSlots (fun i s next ↦ s.SameButMode next ∧ (i ≠ 1 → next = s))
        (selected.disk.file "r").image ∧
      r.SameButAnswers (replayed.disk.file "r").image := by
  intro r d dumping dumped selected replayed
  have hdump : Invocation.read [] dumping =
      .ok ⟨.warn, some "l", .dump "r" (some "s") none⟩ := by decide +kernel
  have hselect : Invocation.read [] ["--log-file", "l", "mode", "--slot", "1", "r", "explore"] =
      .ok ⟨.warn, some "l", .select "r" .explore (some 1)⟩ := by decide +kernel
  have hreplay : Invocation.read [] ["--log-file", "l", "replay", "r", "s"] =
      .ok ⟨.warn, some "l", .replay "r" "s" false 30⟩ := by decide +kernel
  have hused : (r.slot 0).hasRequest ∧ (r.slot 0).log.cursor = 1 ∧
      (r.slot 1).log.cursor = 2 := by decide +kernel
  -- the log and the schedule are written to files of their own
  have hplaceLog : d.place "l" = .ok "l" := Disk.place_keeping r (by decide)
  have hplaceOutput : d.place "s" = .ok "s" := Disk.place_keeping r (by decide)
  have hlog : ∀ path ∈ some "l", d.place path ≠ .ok "r" := by
    rintro path ⟨⟩
    simp [hplaceLog]
  have houtput : ∀ path ∈ some "s", d.place path ≠ .ok "r" := by
    rintro path ⟨⟩
    simp [hplaceOutput]
  have himage : (d.file "r").image = r := congrArg File.image Disk.file_keeping
  have hfree : (d.file "r").image.IsFree := himage ▸ isFree_busy
  have hopen : d.openRegion "r" = .ok "r" := Disk.openRegion_keeping (by decide +kernel)
  have hdumped : (r.dumped? none).isSome := by decide +kernel
  obtain ⟨s, hs⟩ := Option.isSome_iff_exists.1 hdumped
  have hcode : dumped.code = some 0 :=
    (shows_of_affords hdump rfl hlog hopen (affords_keeping hs)).code
  obtain ⟨-, hsame, hdumps⟩ := tools_frame hdump (by simp) false hfree hlog houtput
  obtain ⟨s', hs', hshows, hagain⟩ := hdumps "r" (some "s") none rfl hopen hcode
  -- the other tools find the region as it was
  have hleft : (dumped.disk.file "r").image = r := hsame.trans himage
  have hfreeAfter : (dumped.disk.file "r").image.IsFree := hleft ▸ isFree_busy
  have hdirectories : dumped.disk.directories = d.directories :=
    (within_run hdump (by simp) false hfree hlog houtput).directories
  have hlogAfter : ∀ path ∈ some "l", dumped.disk.place path ≠ .ok "r" := fun path hpath ↦
    (Disk.place_eq_ok_iff hdirectories).not.2 (hlog path hpath)
  obtain ⟨-, hselected, -⟩ := tools_frame hselect (by simp) false hfreeAfter hlogAfter
    (by simp [output?])
  obtain ⟨-, hreplayed, -⟩ := tools_frame hreplay (by simp) false hfreeAfter hlogAfter
    (by simp [output?])
  rw [hleft] at hselected hreplayed
  refine ⟨hused, isFree_busy, hplaceLog, hplaceOutput, ⟨hleft, s', himage ▸ hs', hshows, hagain⟩,
    ⟨fun i ↦ ?_, hselected.padding⟩, hreplayed⟩
  obtain ⟨hmode, hother⟩ := hselected.slot i
  exact ⟨hmode, fun hi ↦ hother 1 rfl fun hval ↦ hi (Fin.ext hval)⟩

end Command

end Turnstile
