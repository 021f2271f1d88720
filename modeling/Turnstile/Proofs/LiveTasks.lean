import Mathlib.Data.List.Nodup
import Turnstile.Proofs.Program

/-!
# Live tasks

The task table of a slot is indexed by ids modulo its size, so a spawn takes the entry of whichever
task stood there before. `Scene.acts` is what a slot has seen of a run: the acts of its reporters
and of the scheduler, without those that could not be made, such as a spawn by a reporter that
waits. `Live acts id t` says of such a list that `id` has the task `t` after it: nobody has taken
the entry since the last spawn of `id`, and `t` is what was spawned then, with the status and the
call of the acts since.

`TableOf` ties a task table to this relation, and each kind of act keeps it (`TableOf.spawn`,
`TableOf.update`, `TableOf.refuse`, `TableOf.still`). What the two sides find in such a table is
read off the relation: a task under its id (`TableOf.task?_eq_some`), the list of the tasks
(`Slot.mem_taskList`, `Slot.nodup_taskList`) and a task of an identity
(`Slot.task?_of_findTask?`, `Slot.findTask?_eq_none`).
-/

set_option autoImplicit false
set_option relaxedAutoImplicit false

namespace Turnstile

open Slot (taskIndex)

/-! ### What a slot sees of a run -/

deriving instance DecidableEq for Act

/-- Whether an act can be made. A reporter that waits only polls. -/
def Station.allows (p : Station) : Act → Bool
  | .attach _ _ => p.seat.isNone
  | .poll => p.waits
  | .select _ => true
  | .detach | .spawn _ _ _ | .setStatus _ _ | .finish | .report _ _ _ | .hit _ =>
    p.seat.any (·.wait.isNone)

namespace Scene

/-- The act that a move makes at slot `i`, if it makes one there. -/
def actsOf (x : Scene) (i : SlotIndex) : Move → List Act
  | .act j a => if j = i ∧ (x.station i).allows a then [a] else []
  | .endReplay | .round _ _ => []

/-- The acts made at slot `i` by some moves from the fresh scene. -/
def acts (moves : List Move) (i : SlotIndex) : List Act :=
  (moves.foldl (fun (x, acts) m ↦ ((x.step m).1, acts ++ x.actsOf i m)) (fresh, [])).2

theorem acts_concat (moves : List Move) (m : Move) (i : SlotIndex) :
    acts (moves ++ [m]) i = acts moves i ++ (after moves).actsOf i m := by
  have hafter : (moves.foldl (fun (x, acts) m ↦ ((x.step m).1, acts ++ x.actsOf i m))
      ((fresh, []) : Scene × List Act)).1 = after moves := by
    induction moves using List.reverseRecOn with
    | nil => rfl
    | append_singleton moves m ih => rw [List.foldl_concat, after_concat, ← ih]
  rw [acts, List.foldl_concat, ← hafter, acts]

end Scene

namespace Act

/-- Whether an act attaches a reporter. -/
def attaches : Act → Bool
  | .attach _ _ => true
  | _ => false

/-- Whether an act spawns a task at a site. -/
def spawnsAt (site : UInt64) : Act → Bool
  | .spawn _ other _ => other = site
  | _ => false

/-- Whether an act spawns a task in the table entry of an id. -/
def displaces (id : Int64) : Act → Bool
  | .spawn other _ _ => other.toInt % Limits.tasks = id.toInt % Limits.tasks
  | _ => false

/-- The status to which an act moves the task of an id. -/
def status? (id : Int64) : Act → Option StatusWord
  | .setStatus other status => if other = id then some status else none
  | _ => none

/-- The call that the task of an id carries from an act on, if the act is a report of it. -/
def call? (id : Int64) : Act → Option (Option Call)
  | .report other payload _ => if other = id then some payload.call? else none
  | _ => none

/-- Whether an act enters a task in the table. -/
def entersTask : Act → Bool
  | .spawn _ _ _ | .setStatus _ _ | .report _ _ _ => true
  | _ => false

/-- Whether an act concerns the task of an id, which it does not spawn. -/
def isAbout (id : Int64) : Act → Bool
  | .setStatus other _ | .report other _ _ => other = id
  | _ => false

theorem displaces_spawn (id other : Int64) (site : UInt64) (label : String) :
    displaces id (.spawn other site label) = false ↔ taskIndex id ≠ taskIndex other := by
  have hindex : taskIndex id = taskIndex other ↔
      other.toInt % Limits.tasks = id.toInt % Limits.tasks :=
    ⟨fun h ↦ (Slot.eq_of_taskIndex h).symm, fun h ↦ by rw [taskIndex, taskIndex, h]⟩
  rw [displaces, decide_eq_false_iff_not, Ne, hindex]

end Act

/-! ### Live tasks -/

/-- What a stored task keeps of the call that it carries. A call under the number that stands for
none is lost, and any other one comes back in its normal form. -/
def keptCall (call : Option Call) : Option Call :=
  (call.filter (·.number ≠ Call.noNumber)).map Call.normal

/-- The status that the acts since its spawn have left a task with. -/
def lastStatus (id : Int64) (acts : List Act) : StatusWord :=
  (acts.reverse.findSome? (Act.status? id)).getD (.ofStatus .idle)

/-- The call that the acts since its spawn have left a task with. -/
def lastCall (id : Int64) (acts : List Act) : Option Call :=
  keptCall ((acts.reverse.findSome? (Act.call? id)).getD none)

/-- How many tasks the reporter that is attached last has spawned at a site. -/
def spawnCount (site : UInt64) (acts : List Act) : Nat :=
  acts.foldl (fun n a ↦ if a.attaches then 0 else if a.spawnsAt site then n + 1 else n) 0

/-- After some acts, `id` has the task `t`. -/
def Live (acts : List Act) (id : Int64) (t : Task) : Prop :=
  id ≠ 0 ∧ ∃ earlier site label later,
    acts = earlier ++ .spawn id site label :: later ∧
    (∀ a ∈ later, a.displaces id = false) ∧
    t = ⟨lastStatus id later, id, site, UInt64.ofNat (spawnCount site earlier),
      padded Limits.text label, lastCall id later⟩

section Live

variable {acts : List Act} {a : Act} {id : Int64} {t : Task}

theorem spawnCount_concat (site : UInt64) (acts : List Act) (a : Act) :
    spawnCount site (acts ++ [a]) =
      if a.attaches then 0
      else if a.spawnsAt site then spawnCount site acts + 1 else spawnCount site acts := by
  rw [spawnCount, List.foldl_concat, spawnCount]

theorem lastStatus_concat (id : Int64) (acts : List Act) (a : Act) :
    lastStatus id (acts ++ [a]) = (a.status? id).getD (lastStatus id acts) := by
  rw [lastStatus, List.reverse_concat, List.findSome?_cons]
  cases a.status? id <;> rfl

theorem lastCall_concat (id : Int64) (acts : List Act) (a : Act) :
    lastCall id (acts ++ [a]) = ((a.call? id).map keptCall).getD (lastCall id acts) := by
  rw [lastCall, List.reverse_concat, List.findSome?_cons]
  cases a.call? id <;> rfl

/-- The task that an act leaves of a task that it does not displace. -/
def Act.updated (a : Act) (t : Task) : Task :=
  { t with
    status := (a.status? t.id).getD t.status
    call := ((a.call? t.id).map keptCall).getD t.call }

theorem Act.updated_eq_self (hstatus : a.status? t.id = none) (hcall : a.call? t.id = none) :
    a.updated t = t := by
  rw [updated, hstatus, hcall]
  rfl

theorem Act.displaces_of_isAbout (ha : a.isAbout id) (other : Int64) :
    a.displaces other = false := by
  cases a <;> first | rfl | simp [isAbout] at ha

/-- An act about one task leaves the others as they are. -/
theorem Act.updated_of_isAbout (ha : a.isAbout id) (hid : t.id ≠ id) : a.updated t = t := by
  cases a with
  | setStatus other status =>
    obtain rfl : other = id := of_decide_eq_true ha
    exact updated_eq_self (if_neg hid.symm) rfl
  | report other payload stamp =>
    obtain rfl : other = id := of_decide_eq_true ha
    exact updated_eq_self rfl (if_neg hid.symm)
  | attach _ _ | detach | spawn _ _ _ | hit _ | finish | poll | select _ => simp [isAbout] at ha

theorem Live.id_eq (h : Live acts id t) : t.id = id := by
  obtain ⟨-, earlier, site, label, later, -, -, rfl⟩ := h
  rfl

/-- After one more act an id has a task if the act spawns it, or leaves it where it was. -/
theorem live_concat : Live (acts ++ [a]) id t ↔
    id ≠ 0 ∧ (∃ site label, a = .spawn id site label ∧
      t = Task.spawned id site (UInt64.ofNat (spawnCount site acts)) label) ∨
    ∃ u, Live acts id u ∧ a.displaces id = false ∧ t = a.updated u := by
  constructor
  · rintro ⟨hid, earlier, site, label, later, hacts, hlater, rfl⟩
    obtain rfl | ⟨later, b, rfl⟩ := List.eq_nil_or_concat' later
    · obtain ⟨rfl, hlast⟩ := List.append_inj' hacts rfl
      exact .inl ⟨hid, site, label, List.singleton_inj.1 hlast, rfl⟩
    · rw [← List.cons_append, ← List.append_assoc] at hacts
      obtain ⟨rfl, hlast⟩ := List.append_inj' hacts rfl
      obtain rfl := List.singleton_inj.1 hlast
      refine .inr ⟨_, ⟨hid, earlier, site, label, later, rfl, ?_, rfl⟩, ?_, ?_⟩
      · intro b hb
        exact hlater b (List.mem_append_left _ hb)
      · exact hlater a (List.mem_append_right _ (List.mem_singleton_self a))
      · rw [lastStatus_concat, lastCall_concat]
        rfl
  · rintro (⟨hid, site, label, rfl, rfl⟩ |
      ⟨u, ⟨hid, earlier, site, label, later, rfl, hlater, rfl⟩, hkeeps, rfl⟩)
    · exact ⟨hid, acts, site, label, [], rfl, by simp, rfl⟩
    · refine ⟨hid, earlier, site, label, later ++ [a], by simp, ?_, ?_⟩
      · intro b hb
        obtain hb | hb := List.mem_append.1 hb
        · exact hlater b hb
        · rw [List.mem_singleton.1 hb]
          exact hkeeps
      · rw [lastStatus_concat, lastCall_concat]
        rfl

theorem not_live_nil : ¬ Live [] id t := by
  rintro ⟨-, earlier, site, label, later, hacts, -⟩
  simp at hacts

theorem keptCall_some (c : Call) :
    keptCall (some c) = if c.number = Call.noNumber then none else some c.normal := by
  by_cases hnumber : c.number = Call.noNumber
  · rw [keptCall, Option.filter_some_neg (by simp [hnumber]), if_pos hnumber]
    rfl
  · rw [keptCall, Option.filter_some_pos (by simp [hnumber]), if_neg hnumber]
    rfl

theorem keptCall_keptCall (call : Option Call) : keptCall (keptCall call) = keptCall call := by
  cases call with
  | none => rfl
  | some c =>
    rw [keptCall_some]
    by_cases hnumber : c.number = Call.noNumber
    · rw [if_pos hnumber]
      rfl
    · have hnormal : c.normal.number ≠ Call.noNumber := hnumber
      rw [if_neg hnumber, keptCall_some, if_neg hnormal, Call.normal_eq_self c.isNormal_normal]

/-- What is read back of a task whose label fits its record. -/
theorem Task.task_record_of_fits (h : FitsPadded Limits.text t.label) :
    t.record.task = { t with call := keptCall t.call } := by
  have hlabel : (Buffer.ofPadded Limits.text t.label).paddedText = t.label := by
    rw [Buffer.paddedText_ofPadded, padded_eq_self h]
  cases hcall : t.call with
  | none =>
    simp only [record, TaskRecord.task, hcall, hlabel, if_true]
    rfl
  | some c =>
    simp only [record, TaskRecord.task, hcall, hlabel, Call.call_record, keptCall_some]

theorem Live.label_fits (h : Live acts id t) : FitsPadded Limits.text t.label := by
  obtain ⟨-, earlier, site, label, later, -, -, rfl⟩ := h
  exact fitsPadded_padded _ _

theorem Live.keptCall_call (h : Live acts id t) : keptCall t.call = t.call := by
  obtain ⟨-, earlier, site, label, later, -, -, rfl⟩ := h
  exact keptCall_keptCall _

end Live

/-! ### The table -/

/-- A task table that holds the live tasks and no other ones. -/
structure TableOf (acts : List Act) (tasks : Vector TaskRecord Limits.tasks) : Prop where
  entry (id : Int64) (t : Task) (h : Live acts id t) : (tasks.get (taskIndex id)).task = t
  only (place : Fin Limits.tasks) (h : (tasks.get place).isEmpty = false) :
    ∃ id t, Live acts id t ∧ taskIndex id = place

namespace TableOf

variable {acts : List Act} {a : Act} {tasks : Vector TaskRecord Limits.tasks}
  {id : Int64} {t : Task}

theorem of_fresh : TableOf [] (Vector.replicate _ TaskRecord.zero) where
  entry id t h := absurd h not_live_nil
  only place h := by
    have hzero : TaskRecord.zero.isEmpty = true := rfl
    simp [Vector.get, hzero] at h

/-- An act that enters no task changes no live task. -/
theorem still (h : TableOf acts tasks) (ha : a.entersTask = false) :
    TableOf (acts ++ [a]) tasks := by
  have hlive (id : Int64) (t : Task) : Live (acts ++ [a]) id t ↔ Live acts id t := by
    have hupdated (u : Task) : a.updated u = u := by
      cases a <;> first | rfl | simp [Act.entersTask] at ha
    have hkeeps : a.displaces id = false := by
      cases a <;> first | rfl | simp [Act.entersTask] at ha
    rw [live_concat]
    constructor
    · rintro (⟨-, site, label, rfl, -⟩ | ⟨u, hu, -, rfl⟩)
      · simp [Act.entersTask] at ha
      · rwa [hupdated]
    · intro ht
      exact .inr ⟨t, ht, hkeeps, (hupdated t).symm⟩
  constructor
  · intro id t ht
    exact h.entry id t ((hlive id t).1 ht)
  · intro place hused
    obtain ⟨id, t, ht, hplace⟩ := h.only place hused
    exact ⟨id, t, (hlive id t).2 ht, hplace⟩

/-- A spawn takes its entry from whichever task stood there. -/
theorem spawn (h : TableOf acts tasks) (id : Int64) (site : UInt64) (label : String) :
    TableOf (acts ++ [.spawn id site label])
      (tasks.set (taskIndex id)
        (Task.spawned id site (UInt64.ofNat (spawnCount site acts)) label).record
        (taskIndex id).isLt) := by
  constructor
  · intro other t ht
    obtain ⟨-, site', label', hsame, rfl⟩ | ⟨u, hu, hkeeps, rfl⟩ := live_concat.1 ht
    · obtain ⟨rfl, rfl, rfl⟩ := Act.spawn.inj hsame
      rw [get_set_self]
      exact Task.task_record_of_fits (fitsPadded_padded _ _)
    · have hplace := (Act.displaces_spawn other id site label).1 hkeeps
      rw [get_set_of_ne tasks hplace, h.entry other u hu]
      rfl
  · intro place hused
    by_cases hplace : place = taskIndex id
    · subst hplace
      rw [get_set_self] at hused
      have hid : id ≠ 0 := of_decide_eq_false hused
      exact ⟨id, _, live_concat.2 (.inl ⟨hid, site, label, rfl, rfl⟩), rfl⟩
    · rw [get_set_of_ne tasks hplace] at hused
      obtain ⟨other, t, ht, rfl⟩ := h.only place hused
      have hkeeps := (Act.displaces_spawn other id site label).2 hplace
      exact ⟨other, _, live_concat.2 (.inr ⟨t, ht, hkeeps, rfl⟩), rfl⟩

/-- A task is found under its id exactly if it is live. -/
theorem task?_eq_some {s : Slot} (h : TableOf acts s.tasks) :
    s.task? id = some t ↔ Live acts id t := by
  have hfound : s.task? id = some t ↔
      ((s.tasks.get (taskIndex id)).isEmpty = false ∧ (s.tasks.get (taskIndex id)).id = id) ∧
        some (s.tasks.get (taskIndex id)).task = some t := Option.ite_none_right_eq_some
  rw [hfound, Option.some_inj]
  constructor
  · rintro ⟨⟨hused, hid⟩, htask⟩
    obtain ⟨other, u, hu, hplace⟩ := h.only _ hused
    have hentry := h.entry other u hu
    rw [hplace, htask] at hentry
    have hother : other = id := by
      rw [← hu.id_eq, ← hentry, ← htask]
      exact hid
    rwa [← hother, hentry]
  · intro ht
    have hentry := h.entry id t ht
    have hid : (s.tasks.get (taskIndex id)).id = id := (congrArg Task.id hentry).trans ht.id_eq
    refine ⟨⟨?_, hid⟩, hentry⟩
    rw [TaskRecord.isEmpty, hid]
    exact decide_eq_false ht.1

/-- An act about a live task enters it again. -/
theorem update (h : TableOf acts tasks) (ht : Live acts id t) (ha : a.isAbout id) {u : Task}
    (hu : u.record.task = a.updated t) :
    TableOf (acts ++ [a]) (tasks.set (taskIndex id) u.record (taskIndex id).isLt) := by
  have hid : u.id ≠ 0 := by
    have hread : u.record.task.id = u.id := by simp only [TaskRecord.task, Task.record]
    have hkept : (a.updated t).id = t.id := rfl
    rw [← hread, hu, hkept, ht.id_eq]
    exact ht.1
  constructor
  · intro other v hv
    obtain ⟨-, site, label, rfl, -⟩ | ⟨w, hw, -, rfl⟩ := live_concat.1 hv
    · simp [Act.isAbout] at ha
    · by_cases hplace : taskIndex other = taskIndex id
      · have hsame : w = t := by
          rw [← h.entry other w hw, hplace]
          exact h.entry id t ht
        rw [hplace, get_set_self, hu, hsame]
      · have hother : w.id ≠ id := by
          rintro hsame
          rw [← hsame, hw.id_eq] at hplace
          exact hplace rfl
        rw [get_set_of_ne tasks hplace, h.entry other w hw, Act.updated_of_isAbout ha hother]
  · intro place hused
    by_cases hplace : place = taskIndex id
    · exact ⟨id, _, live_concat.2 (.inr ⟨t, ht, Act.displaces_of_isAbout ha id, rfl⟩), hplace.symm⟩
    · rw [get_set_of_ne tasks hplace] at hused
      obtain ⟨other, w, hw, rfl⟩ := h.only place hused
      exact ⟨other, _, live_concat.2 (.inr ⟨w, hw, Act.displaces_of_isAbout ha other, rfl⟩), rfl⟩

/-- An act about an id without a task is refused. -/
theorem refuse (h : TableOf acts tasks) (hnone : ∀ t, ¬ Live acts id t) (ha : a.isAbout id) :
    TableOf (acts ++ [a]) tasks := by
  have hupdated {other : Int64} {w : Task} (hw : Live acts other w) : a.updated w = w := by
    refine Act.updated_of_isAbout ha ?_
    rintro rfl
    rw [hw.id_eq] at hnone
    exact hnone w hw
  constructor
  · intro other v hv
    obtain ⟨-, site, label, rfl, -⟩ | ⟨w, hw, -, rfl⟩ := live_concat.1 hv
    · simp [Act.isAbout] at ha
    · rw [hupdated hw]
      exact h.entry other w hw
  · intro place hused
    obtain ⟨other, w, hw, rfl⟩ := h.only place hused
    exact ⟨other, _, live_concat.2 (.inr ⟨w, hw, Act.displaces_of_isAbout ha other, rfl⟩), rfl⟩

/-- The ids of different entries are different. -/
theorem taskIndex_id (h : TableOf acts tasks) {place : Fin Limits.tasks}
    (hused : (tasks.get place).isEmpty = false) : taskIndex (tasks.get place).id = place := by
  obtain ⟨id, t, ht, rfl⟩ := h.only place hused
  have hid : (tasks.get (taskIndex id)).id = id :=
    (congrArg Task.id (h.entry id t ht)).trans ht.id_eq
  rw [hid]

end TableOf

/-! ### Lists of the table -/

namespace Slot

variable {acts : List Act} {s : Slot} {t : Task}

theorem toList_tasks (s : Slot) :
    s.tasks.toList = (List.finRange Limits.tasks).map s.tasks.get := by
  apply List.ext_get
  · simp
  · intro n h₁ h₂
    simp [Vector.get]

theorem mem_tasks_iff {r : TaskRecord} : r ∈ s.tasks.toList ↔ ∃ place, s.tasks.get place = r := by
  rw [toList_tasks, List.mem_map]
  simp

/-- An entry in use is found under the id of its task. -/
theorem task?_of_entry (h : TableOf acts s.tasks) {r : TaskRecord} (hmem : r ∈ s.tasks.toList)
    (hused : r.isEmpty = false) : s.task? r.id = some r.task := by
  obtain ⟨place, rfl⟩ := mem_tasks_iff.1 hmem
  obtain ⟨id, t, ht, rfl⟩ := h.only place hused
  have hentry := h.entry id t ht
  have hid : (s.tasks.get (taskIndex id)).id = id := (congrArg Task.id hentry).trans ht.id_eq
  rw [hid, hentry]
  exact h.task?_eq_some.2 ht

theorem entry_of_task? {id : Int64} (h : s.task? id = some t) :
    ∃ r ∈ s.tasks.toList, r.isEmpty = false ∧ r.id = id ∧ r.task = t := by
  obtain ⟨⟨hused, hid⟩, htask⟩ := Option.ite_none_right_eq_some.1 h
  exact ⟨_, mem_tasks_iff.2 ⟨taskIndex id, rfl⟩, hused, hid, Option.some.inj htask⟩

/-- The list of the tasks lists what is found under some id. -/
theorem mem_taskList (h : TableOf acts s.tasks) : t ∈ s.taskList ↔ s.task? t.id = some t := by
  unfold taskList
  rw [List.mem_map]
  constructor
  · rintro ⟨r, hr, rfl⟩
    obtain ⟨hmem, hused⟩ := List.mem_filter.1 hr
    exact task?_of_entry h hmem (of_decide_eq_true hused)
  · intro hfound
    obtain ⟨r, hmem, hused, -, htask⟩ := entry_of_task? hfound
    exact ⟨r, List.mem_filter.2 ⟨hmem, decide_eq_true hused⟩, htask⟩

/-- The list of the tasks lists no id twice. -/
theorem nodup_taskList (h : TableOf acts s.tasks) : (s.taskList.map Task.id).Nodup := by
  unfold taskList
  rw [toList_tasks, List.filter_map, List.map_map, List.map_map]
  refine List.Nodup.map_on ?_ ((List.nodup_finRange _).filter _)
  intro a ha b hb hsame
  have hused (place : Fin Limits.tasks) (hplace : place ∈ (List.finRange Limits.tasks).filter
      ((fun r : TaskRecord ↦ decide (r.isEmpty = false)) ∘ s.tasks.get)) :
      (s.tasks.get place).isEmpty = false := by
    exact of_decide_eq_true (List.mem_filter.1 hplace).2
  rw [← h.taskIndex_id (hused a ha), ← h.taskIndex_id (hused b hb)]
  exact congrArg taskIndex hsame

/-- Looking for an identity finds a task that has it. -/
theorem task?_of_findTask? (h : TableOf acts s.tasks) {site ordinal : UInt64}
    (hfound : s.findTask? site ordinal = some t) :
    s.task? t.id = some t ∧ t.identity = (site, ordinal) := by
  obtain ⟨r, hr, rfl⟩ := Option.map_eq_some_iff.1 hfound
  obtain ⟨hused, hsite, hordinal⟩ : r.isEmpty = false ∧ r.site = site ∧ r.ordinal = ordinal := by
    simpa using List.find?_some hr
  exact ⟨task?_of_entry h (List.mem_of_find?_eq_some hr) hused, Prod.ext hsite hordinal⟩

/-- Looking for an identity fails if no task has it. -/
theorem findTask?_eq_none (h : TableOf acts s.tasks) (site ordinal : UInt64) :
    s.findTask? site ordinal = none ↔
      ∀ id t, s.task? id = some t → t.identity ≠ (site, ordinal) := by
  unfold findTask?
  rw [Option.map_eq_none_iff, List.find?_eq_none]
  constructor
  · intro hnone id t hfound hidentity
    obtain ⟨r, hmem, hused, -, rfl⟩ := entry_of_task? hfound
    obtain ⟨hsite, hordinal⟩ := Prod.ext_iff.1 hidentity
    exact hnone r hmem (decide_eq_true ⟨hused, hsite, hordinal⟩)
  · intro hnone r hmem hr
    obtain ⟨hused, hsite, hordinal⟩ := of_decide_eq_true hr
    exact hnone r.id r.task (task?_of_entry h hmem hused) (Prod.ext hsite hordinal)

end Slot

end Turnstile
