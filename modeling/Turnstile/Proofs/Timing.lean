import Turnstile.Proofs.Choices
import Turnstile.Proofs.Consultations
import Turnstile.Proofs.Reports
import Turnstile.Proofs.TaskTable

/-!
# A replayer decides when, never whom

A replayer resumes the reporter if a request does not fit the recording, and otherwise the task that
it finds in the task table under the recorded identity. The two are the same task to the last bit.
A report enters its task in the table and shows the same record as the running one, and while it
waits for a grant neither of them changes, so the running task is an entry of the table
(`Scene.showsEntry_after`); and as long as a slot has had one reporter, no other entry has its
identity. A replayer that is asked about a waiting slot therefore lets it wait or chooses what
`Policy.runReporter` would choose (`Scene.choice_of_replayer`), whether the request fits or not, and
a round under a replayer grants a slot nothing but its reporter (`Scene.granted_of_replayer`).

The table and the running record part when a grant of some other task is broken off, which happens
at the last epoch only (`Scene.Unbroken`); identities repeat when the spawns at a site are more than
64 bits can number.
-/

set_option autoImplicit false
set_option relaxedAutoImplicit false

namespace Turnstile

namespace Slot

variable {s : Slot}

/-- While a report waits for a grant, the running task is the one that is found under its id. -/
def ShowsEntry (s : Slot) : Prop :=
  s.hasRequest → s.task? s.runningTask.id = some s.runningTask

theorem task?_congr {s' : Slot} (h : s'.tasks = s.tasks) (id : Int64) :
    s'.task? id = s.task? id := by
  rw [task?, task?, taskRecord, taskRecord, h]

/-- A reported task is found under its id as it is shown. -/
theorem task?_reported (s : Slot) {e : Event} (hid : e.task.id ≠ 0) :
    (s.reported e).task? (s.reported e).runningTask.id = some (s.reported e).runningTask := by
  have hentry : (s.reported e).taskRecord e.task.id = e.task.record := by
    simp [taskRecord, reported, record, publish, setTaskRecord]
  have hshown : (s.reported e).runningTask = e.task.record.task := rfl
  have hname : e.task.record.id = e.task.id := by simp only [Task.record]
  have hshownName : e.task.record.task.id = e.task.id := by simp only [TaskRecord.task, Task.record]
  have hused : e.task.record.isEmpty = false := by
    rw [TaskRecord.isEmpty, hname]
    exact decide_eq_false hid
  rw [hshown, hshownName, task?, hentry]
  exact if_pos ⟨hused, hname⟩

theorem id_ne_zero_of_task? {id : Int64} {t : Task} (h : s.task? id = some t) : t.id ≠ 0 := by
  obtain ⟨⟨hused, -⟩, htask⟩ := Option.ite_none_right_eq_some.1 h
  obtain rfl := Option.some.inj htask
  exact of_decide_eq_false hused

end Slot

/-! ### The running task is an entry of the table -/

namespace Stage

/-- A request has just been raised, or it was there before and nothing has become of it. -/
theorem requested_of_walk? {stage : Stage} {new : List Happening}
    (hwalk : stage.walk? new = some .requested) :
    .suspended ∈ new ∨ stage = .requested ∧ new = [] := by
  obtain rfl | ⟨before, h, rfl⟩ := List.eq_nil_or_concat' new
  · exact .inr ⟨by simpa [walk?] using hwalk, rfl⟩
  · obtain ⟨_, -, hnext⟩ := walk?_concat_eq_some hwalk
    obtain rfl := eq_of_next?_requested hnext
    exact .inl (by simp)

end Stage

namespace Station

variable {i : SlotIndex} {p q : Station} {stage : Stage} {new : List Happening} {breakdown : Prop}

/-- An act that reports something is a report of a known task. -/
theorem exists_of_report? {a : Act} {e : Event} (h : p.report? a = some e) :
    ∃ r id payload stamp t, p.seat = some ⟨r, none⟩ ∧ a = .report id payload stamp ∧
      p.slot.task? id = some t ∧ e = r.event p.slot t payload stamp := by
  obtain ⟨s, seat⟩ := p
  match seat, a with
  | some ⟨r, none⟩, .report id payload stamp =>
    obtain ⟨t, htask, rfl⟩ := Option.map_eq_some_iff.1 h
    exact ⟨r, id, payload, stamp, t, rfl, rfl, htask, rfl⟩

/-- A report that begins to wait has entered its task and shows it. -/
theorem Sound.showsEntry_of_suspended (h : Sound i p stage) {a : Act}
    (hsuspended : .suspended ∈ (p.act i a).2) : (p.act i a).1.slot.ShowsEntry := by
  intro _
  obtain ⟨e, hreport, -⟩ := h.running_of_suspended hsuspended
  obtain ⟨r, id, payload, stamp, t, hseat, rfl, htask, rfl⟩ := exists_of_report? hreport
  obtain ⟨m, hmode⟩ := h.mode
  have hannounce := r.announce_eq h.lock h.callLock hmode htask payload stamp
  have hact : (p.act i (.report id payload stamp)).1.slot =
      (r.announce p.slot id payload stamp).slot := by
    obtain ⟨s, seat⟩ := p
    obtain rfl : seat = some ⟨r, none⟩ := hseat
    exact slot_settle _ _
  have hparts : (p.act i (.report id payload stamp)).1.slot.tasks =
        (p.slot.reported (r.event p.slot t payload stamp)).tasks ∧
      (p.act i (.report id payload stamp)).1.slot.runningTask =
        (p.slot.reported (r.event p.slot t payload stamp)).runningTask := by
    rw [hact, hannounce]
    split_ifs <;> exact ⟨rfl, rfl⟩
  have hid : t.id ≠ 0 := Slot.id_ne_zero_of_task? htask
  rw [hparts.2, Slot.task?_congr hparts.1]
  exact p.slot.task?_reported hid

/-- Every step keeps the running task of a waiting report an entry of the table, unless it breaks
down at the last epoch. -/
theorem Sound.showsEntry_step (h : Sound i p stage) (hentry : p.slot.ShowsEntry)
    (hunbroken : breakdown → p.slot.canAdvance) (hstep : Step i p breakdown new q) :
    q.slot.ShowsEntry := by
  intro hrequest
  obtain ⟨next, hwalk, hsound⟩ := h.step hstep
  have hnext : next = .requested := by
    apply Stage.eq_requested_of_directive
    rw [← hsound.directive]
    exact of_decide_eq_true hrequest
  rw [hnext] at hwalk
  obtain hsuspended | ⟨rfl, rfl⟩ := Stage.requested_of_walk? hwalk
  · cases hstep with
    | act a => exact h.showsEntry_of_suspended hsuspended hrequest
    | still | endReplay => exact absurd hsuspended List.not_mem_nil
    | round => simp at hsuspended
  · have hwaits : p.waits = true := h.waits.2 (by simp)
    obtain ⟨-, htasks, hrunning | ⟨t, -, hgranted | ⟨hlast, hbreakdown⟩⟩⟩ := h.kept hwaits hstep
    · have hbefore : p.slot.hasRequest = true := by
        rw [Slot.hasRequest, h.directive?_eq]
        rfl
      have hfound := hentry hbefore
      rw [Slot.task?_congr htasks, Slot.runningTask, hrunning]
      exact hfound
    · exact absurd hgranted (by simp)
    · exact absurd (hunbroken hbreakdown) (by simp [hlast])

end Station

namespace Scene

/-- In no round is a grant broken off at a slot: no round of the run breaks down while the slot is
at its last epoch. -/
def Unbroken (moves : List Move) (i : SlotIndex) : Prop :=
  ∀ earlier m, earlier ++ [m] <+: moves → (after earlier).BreaksDown m →
    ((after earlier).station i).slot.canAdvance

theorem showsEntry_after {moves : List Move} {i : SlotIndex} (hunbroken : Unbroken moves i) :
    ((after moves).station i).slot.ShowsEntry := by
  induction moves using List.reverseRecOn with
  | nil =>
    change (fresh.station i).slot.ShowsEntry
    rw [station_fresh]
    intro hrequest
    exact absurd hrequest (by decide)
  | append_singleton moves m ih =>
    have hearlier : Unbroken moves i := fun earlier v hpast ↦
      hunbroken earlier v (hpast.trans (List.prefix_append _ _))
    have hlock : ∀ j, ((after moves).station j).slot.lock = 0 := by
      intro j
      obtain ⟨_, _, hsound⟩ := sound_after moves j
      exact hsound.lock
    obtain ⟨stage, -, hsound⟩ := sound_after moves i
    rw [after_concat]
    exact hsound.showsEntry_step (ih hearlier) (hunbroken moves m List.prefix_rfl)
      (step_station hlock m i)

/-- While a report waits at a slot that has had one reporter, looking for the identity of the
running task finds that task. -/
theorem findTask?_running {moves : List Move} {i : SlotIndex}
    (hone : (acts moves i).countP Act.attaches ≤ 1)
    (hfew : ∀ site, (acts moves i).countP (Act.spawnsAt site) ≤ 2 ^ 64)
    (hunbroken : Unbroken moves i) (hrequest : ((after moves).station i).slot.hasRequest) :
    let s := ((after moves).station i).slot
    s.findTask? s.runningTask.site s.runningTask.ordinal = some s.runningTask := by
  intro s
  have hfollows := follows_after moves i
  have hentry : s.task? s.runningTask.id = some s.runningTask :=
    showsEntry_after hunbroken hrequest
  refine Slot.findTask?_of_unique hfollows.table hentry fun other u hu hidentity ↦ ?_
  exact hfollows.eq_of_identity hone (hfew _) (hfollows.table.task?_eq_some.1 hentry)
    (hfollows.table.task?_eq_some.1 hu) hidentity

end Scene

/-! ### What is granted -/

/-- An event is answered with the reporter, if that is what its identity finds. -/
theorem Event.answer_eq_runningTask {s : Slot}
    (h : s.findTask? s.runningTask.site s.runningTask.ordinal = some s.runningTask) (e : Event) :
    e.answer s = s.runningTask := by
  unfold answer
  by_cases hdesync : e.isDesync s
  · exact if_pos hdesync
  · have hidentity : s.runningTask.identity = e.task.identity := by
      simpa [isDesync] using hdesync
    obtain ⟨hsite, hordinal⟩ := Prod.ext_iff.1 hidentity
    have hsite : s.runningTask.site = e.task.site := hsite
    have hordinal : s.runningTask.ordinal = e.task.ordinal := hordinal
    rw [if_neg hdesync, ← hsite, ← hordinal, h, Option.getD_some]

/-- A replayer lets a slot wait that it takes no event for, and answers any other one with the event
that it has taken. -/
theorem Replayer.choice_eq (r : Replayer) (i : SlotIndex) (s : Slot) :
    (r.choose i s).value.2 =
      match (r.takeFor i).2 with
      | none => .wait
      | some e => .grant (e.answer s) := by
  unfold choose
  obtain ⟨next, taken⟩ := r.takeFor i
  cases taken with
  | none => rfl
  | some e =>
    by_cases hsame : s.runningTask.identity = e.task.identity
    · simp [hsame, Event.answer, Event.isDesync]
    · simp [hsame, Event.answer, Event.isDesync]

/-- A consultation is one of those that lead from one state of a policy to another. -/
theorem Policy.Leads.choose {σ : Type} {policy : Policy σ} {first last : σ}
    {asked : List (Consultation σ)} (h : policy.Leads first asked last) :
    ∀ c ∈ asked, (policy.choose c.before c.slot c.seen).value = (c.after, c.choice) := by
  induction asked generalizing first with
  | nil => exact List.forall_mem_nil _
  | cons c asked ih =>
    obtain ⟨-, hchoose, hrest⟩ := h
    exact List.forall_mem_cons.2 ⟨hchoose, ih hrest⟩

/-- What a round lists was chosen by the policy for a slot that it was offered. -/
theorem Region.choice_of_granted {σ : Type} (policy : Policy σ) (r : Region) (state : σ)
    {i : SlotIndex} {t : Task} (h : (i, t) ∈ (r.round policy state).value.summary.granted) :
    (r.slot i).isOffered ∧ ∃ before after,
      (policy.choose before i (r.slot i).acquire).value = (after, .grant t) := by
  obtain ⟨asked, -, hasked⟩ := asked_round policy r state
  rw [hasked.granted] at h
  obtain ⟨c, hc, hlisted⟩ := List.mem_filterMap.1 (List.nil_append _ ▸ h)
  obtain ⟨hseen, hoffered⟩ := hasked.seen c hc
  have hchoose := hasked.leads.choose c hc
  rw [Consultation.listed?_eq] at hlisted
  obtain ⟨-, hlisted⟩ := Option.ite_none_right_eq_some.1 hlisted
  obtain ⟨u, hu, hpair⟩ := Option.map_eq_some_iff.1 hlisted
  obtain ⟨rfl, rfl⟩ := Prod.mk.inj hpair
  have hchoice : c.choice = .grant u := by
    cases hc : c.choice with
    | grant v => rw [hc] at hu; exact congrArg Choice.grant (Option.some.inj hu)
    | wait | breakdown => rw [hc] at hu; cases hu
  rw [hseen, hchoice] at hchoose
  exact ⟨hoffered, c.before, c.after, hchoose⟩

namespace Scene

/-- Any run of the scheduler and one reporter from a fresh region, seen at one slot, in which no
count of 64 bits runs out. Whatever schedule a replayer has, in whatever order it keeps, and how far
it has come: asked about the slot while a report waits there, it lets the slot wait or chooses what
the policy of running the reporter chooses, and a round under it grants the slot nothing else. -/
theorem choice_of_replayer (moves : List Move) (i : SlotIndex)
    (hone : (acts moves i).countP Act.attaches ≤ 1)
    (hfew : ∀ site, (acts moves i).countP (Act.spawnsAt site) ≤ 2 ^ 64)
    (hunbroken : Unbroken moves i) :
    let s := ((after moves).station i).slot
    (s.hasRequest → ∀ r : Replayer,
      (r.choose i s.acquire).value.2 =
        match (r.takeFor i).2 with
        | none => .wait
        | some _ => (Policy.runReporter.choose () i s.acquire).value.2) ∧
      ∀ (r : Replayer) (t : Task),
        (i, t) ∈ ((after moves).region.round Replayer.policy r).value.summary.granted →
          t = s.runningTask := by
  intro s
  have hchoice : s.hasRequest → ∀ r : Replayer,
      (r.choose i s.acquire).value.2 =
        match (r.takeFor i).2 with
        | none => .wait
        | some _ => (Policy.runReporter.choose () i s.acquire).value.2 := by
    intro hrequest r
    have hfound : s.acquire.findTask? s.acquire.runningTask.site s.acquire.runningTask.ordinal =
        some s.acquire.runningTask := findTask?_running hone hfew hunbroken hrequest
    rw [r.choice_eq]
    cases (r.takeFor i).2 with
    | none => rfl
    | some e => exact congrArg Choice.grant (Event.answer_eq_runningTask hfound e)
  refine ⟨hchoice, fun r t hgranted ↦ ?_⟩
  obtain ⟨hoffered, before, next, hchosen⟩ := Region.choice_of_granted _ _ _ hgranted
  have hrequest : s.hasRequest := (Bool.and_eq_true_iff.1 hoffered).2
  have hanswer := hchoice hrequest before
  have hgrant : (before.choose i s.acquire).value.2 = .grant t := congrArg Prod.snd hchosen
  rw [hgrant] at hanswer
  cases htake : (before.takeFor i).2 with
  | none => simp [htake] at hanswer
  | some e =>
    rw [htake] at hanswer
    exact Choice.grant.inj hanswer

/-- A reporter waits with a call under replay. -/
def calling (i : SlotIndex) : List Move :=
  [.attach true 16, .spawn 1 0x100 "main.main", .select .replay,
    .report 1 (.call ⟨3, [.bool true], []⟩) 7].map (Move.act i)

/-- A replayer whose next event is one of the slot by the first task that was spawned at a site. -/
def expecting (i : SlotIndex) (site : UInt64) : Replayer :=
  ⟨.ofList [⟨UInt64.ofNat i, Task.spawned 5 site 0 "main.main", 0, 0, .schedule⟩], true, 0⟩

theorem choice_of_replayer_calling :
    let s := ((after (calling 0)).station 0).slot
    (acts (calling 0) 0).countP Act.attaches ≤ 1 ∧
      (∀ site, (acts (calling 0) 0).countP (Act.spawnsAt site) ≤ 2 ^ 64) ∧
      Unbroken (calling 0) 0 ∧ s.hasRequest ∧ s.runningTask.id = 1 ∧
      ((expecting 0 0x100).choose 0 s.acquire).value.2 = .grant s.runningTask ∧
      ((expecting 0 0x200).choose 0 s.acquire).value.2 = .grant s.runningTask ∧
      ((expecting 1 0x100).choose 0 s.acquire).value.2 = .wait := by
  intro s
  have hacts : acts (calling 0) 0 = [.attach true 16, .spawn 1 0x100 "main.main", .select .replay,
      .report 1 (.call ⟨3, [.bool true], []⟩) 7] := by
    decide +kernel
  have hone : (acts (calling 0) 0).countP Act.attaches ≤ 1 := by
    rw [hacts]
    decide
  have hfew (site : UInt64) : (acts (calling 0) 0).countP (Act.spawnsAt site) ≤ 2 ^ 64 := by
    rw [hacts]
    exact List.countP_le_length.trans (by decide)
  have hunbroken : Unbroken (calling 0) 0 := by
    intro earlier m hpast hbreaks
    obtain ⟨a, -, rfl⟩ := List.mem_map.1
      (hpast.subset (List.mem_append_right _ (List.mem_singleton_self m)))
    exact hbreaks.elim
  have hrequest : s.hasRequest := by decide +kernel
  have hid : s.runningTask.id = 1 := by decide +kernel
  have hchoice := (choice_of_replayer (calling 0) 0 hone hfew hunbroken).1 hrequest
  exact ⟨hone, hfew, hunbroken, hrequest, hid, hchoice _, hchoice _, hchoice _⟩

end Scene

end Turnstile
