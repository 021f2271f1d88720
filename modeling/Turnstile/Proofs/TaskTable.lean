import Turnstile.Proofs.LiveTasks

/-!
# The task table is a map of the live tasks

Every act that a slot sees keeps its task table a table of the live tasks, and the reporter knows
its own spawns (`Station.Follows`). The number of a task counts the spawns of its own reporter at
the site (`spawnCount`). As long as a slot has had one reporter, these are all the spawns at the
site (`Station.Follows.spawnCount_eq`), so that identities are unique
(`Station.Follows.eq_of_identity`). `Scene.task_table` says what the two sides find in the table
then, for every run of that reporter and the scheduler.
-/

set_option autoImplicit false
set_option relaxedAutoImplicit false

namespace Turnstile

open Slot (taskIndex)

/-! ### Runs -/

theorem Slot.Turn.tasks_eq {s s' : Slot} {g : Option Task} (h : s.Turn s' g) :
    s'.tasks = s.tasks := by
  cases h <;> rfl

namespace Station

variable {i : SlotIndex} {p : Station} {acts : List Act} {stage : Stage}

/-- An act that cannot be made changes nothing. -/
theorem act_of_not_allows {a : Act} (h : p.allows a = false) : p.act i a = (p, []) := by
  obtain ⟨s, seat⟩ := p
  rcases seat with _ | ⟨r, _ | w⟩
  · cases a <;> first | rfl | simp [allows] at h
  · cases a <;> first | rfl | simp [allows] at h
  · cases a <;> first | rfl | simp [allows, waits] at h

/-- A reporter that does not wait sits there. -/
theorem exists_of_any_isNone {seat : Option Seat} (h : seat.any (·.wait.isNone)) :
    ∃ r, seat = some ⟨r, none⟩ := by
  rcases seat with _ | ⟨r, _ | w⟩
  · exact absurd h Bool.false_ne_true
  · exact ⟨r, rfl⟩
  · exact absurd h Bool.false_ne_true

theorem exists_of_waits {s : Slot} {seat : Option Seat} (h : Station.waits ⟨s, seat⟩) :
    ∃ r w, seat = some ⟨r, some w⟩ := by
  rcases seat with _ | ⟨r, _ | w⟩
  · exact absurd h Bool.false_ne_true
  · exact absurd h Bool.false_ne_true
  · exact ⟨r, w, rfl⟩

/-- A station after the acts that it has seen. Its table holds the live tasks, its reporter knows
its own spawns, and before the first reporter there is nothing to spawn tasks. -/
structure Follows (p : Station) (acts : List Act) : Prop where
  table : TableOf acts p.slot.tasks
  spawned (seat : Seat) (h : p.seat = some seat) (site : UInt64) :
    seat.reporter.spawned.getD site 0 = UInt64.ofNat (spawnCount site acts)
  attached (h : acts.countP Act.attaches = 0) : p.seat = none
  first (earlier : List Act) (h : earlier <+: acts) (hnone : earlier.countP Act.attaches = 0)
    (site : UInt64) : earlier.countP (Act.spawnsAt site) = 0

theorem follows_fresh : Follows ⟨.fresh, none⟩ [] where
  table := .of_fresh
  spawned := by rintro seat ⟨⟩
  attached _ := rfl
  first earlier h _ site := by simp [List.prefix_nil.1 h]

/-- What one more act asks for beside the table. -/
theorem Follows.concat (h : Follows p acts) {a : Act} (hallows : p.allows a) {q : Station}
    (htable : TableOf (acts ++ [a]) q.slot.tasks)
    (hspawned : ∀ seat, q.seat = some seat → ∀ site,
      seat.reporter.spawned.getD site 0 = UInt64.ofNat (spawnCount site (acts ++ [a])))
    (hseat : p.seat = none → a.attaches = false → q.seat = none) : Follows q (acts ++ [a]) := by
  have hsplit : (acts ++ [a]).countP Act.attaches = 0 →
      acts.countP Act.attaches = 0 ∧ a.attaches = false := by
    rw [List.countP_append, List.countP_singleton]
    intro hnone
    cases ha : a.attaches with
    | false => exact ⟨by omega, rfl⟩
    | true => simp [ha] at hnone
  refine ⟨htable, hspawned, ?_, ?_⟩
  · intro hnone
    obtain ⟨hbefore, ha⟩ := hsplit hnone
    exact hseat (h.attached hbefore) ha
  · intro earlier hpast hnone site
    obtain rfl | hpast := List.prefix_concat_iff.1 hpast
    · obtain ⟨hbefore, ha⟩ := hsplit hnone
      have hempty := h.attached hbefore
      have hother : a.spawnsAt site = false := by
        cases a <;> first | rfl | simp [allows, hempty] at hallows
      rw [List.countP_append, h.first acts List.prefix_rfl hbefore, List.countP_singleton, hother]
      rfl
    · exact h.first earlier hpast hnone site

/-- An act that leaves the tasks and the spawns of the reporter alone. -/
theorem Follows.still (h : Follows p acts) {a : Act} (hallows : p.allows a) {q : Station}
    (ha : a.entersTask = false) (hattaches : a.attaches = false)
    (htasks : q.slot.tasks = p.slot.tasks)
    (hseat : ∀ seat, q.seat = some seat →
      ∃ before, p.seat = some before ∧ seat.reporter.spawned = before.reporter.spawned) :
    Follows q (acts ++ [a]) := by
  refine h.concat hallows (htasks ▸ h.table.still ha) ?_ ?_
  · intro seat hq site
    obtain ⟨before, hp, hsame⟩ := hseat seat hq
    have hother : a.spawnsAt site = false := by
      cases a <;> first | rfl | simp [Act.entersTask] at ha
    rw [hsame, h.spawned before hp, spawnCount_concat, hattaches, hother]
    rfl
  · intro hnone _
    cases hq : q.seat with
    | none => rfl
    | some seat =>
      obtain ⟨before, hp, -⟩ := hseat seat hq
      rw [hnone] at hp
      exact absurd hp (by simp)

/-- An act about a task counts no spawn. -/
theorem Follows.about {s s' : Slot} {r r' : Reporter} {w : Option Wait}
    (h : Follows ⟨s, some ⟨r, none⟩⟩ acts) {a : Act} {id : Int64} (ha : a.isAbout id)
    (hsame : r'.spawned = r.spawned)
    (htable : TableOf (acts ++ [a]) s'.tasks) : Follows ⟨s', some ⟨r', w⟩⟩ (acts ++ [a]) := by
  have hallows : Station.allows ⟨s, some ⟨r, none⟩⟩ a := by
    cases a <;> first | rfl | simp [Act.isAbout] at ha
  refine h.concat hallows htable ?_ (by simp)
  rintro seat ⟨⟩ site
  have hattaches : a.attaches = false := by
    cases a <;> first | rfl | simp [Act.isAbout] at ha
  have hother : a.spawnsAt site = false := by
    cases a <;> first | rfl | simp [Act.isAbout] at ha
  rw [spawnCount_concat, hattaches, hother, hsame]
  exact h.spawned _ rfl site

theorem Follows.report (h : Follows p acts) (hsound : Sound i p stage) {id : Int64}
    {payload : Payload} {stamp : UInt64} (hallows : p.allows (.report id payload stamp)) :
    Follows (p.act i (.report id payload stamp)).1 (acts ++ [.report id payload stamp]) := by
  obtain ⟨s, seat⟩ := p
  obtain ⟨m, hmode⟩ := hsound.mode
  obtain ⟨r, rfl⟩ := exists_of_any_isNone hallows
  have ha : Act.isAbout id (.report id payload stamp) := decide_eq_true rfl
  cases htask : s.task? id with
  | none =>
    simp only [act, Reporter.announce_of_unknown htask, settle]
    refine h.about ha rfl (h.table.refuse ?_ ha)
    intro t ht
    rw [h.table.task?_eq_some.2 ht] at htask
    exact absurd htask (by simp)
  | some t =>
    have hlive : Live acts id t := h.table.task?_eq_some.1 htask
    obtain rfl := hlive.id_eq
    have htable : TableOf (acts ++ [.report t.id payload stamp])
        (s.tasks.set (taskIndex t.id) (r.event s t payload stamp).task.record) := by
      refine h.table.update hlive ha ?_
      have hfits : FitsPadded Limits.text (r.event s t payload stamp).task.label :=
        hlive.label_fits
      have hcall : Act.call? t.id (.report t.id payload stamp) = some payload.call? := if_pos rfl
      rw [Task.task_record_of_fits hfits, Act.updated, hcall]
      rfl
    have hannounce := r.announce_eq hsound.lock hsound.callLock hmode htask payload stamp
    simp only [act, hannounce]
    by_cases hwaits : (r.enforcing && m.entered.suspends) = true
    · simp only [hwaits, if_true, settle]
      exact h.about ha rfl htable
    · simp only [hwaits, settle]
      refine h.about ha rfl ?_
      by_cases hadvance : m.entered = .recordActive ∧ payload.kind = .schedule
      · rw [if_pos hadvance]
        exact htable
      · rw [if_neg hadvance]
        exact htable

theorem Follows.setStatus (h : Follows p acts) {id : Int64} {status : StatusWord}
    (hallows : p.allows (.setStatus id status)) :
    Follows (p.act i (.setStatus id status)).1 (acts ++ [.setStatus id status]) := by
  obtain ⟨s, seat⟩ := p
  obtain ⟨r, rfl⟩ := exists_of_any_isNone hallows
  have ha : Act.isAbout id (.setStatus id status) := decide_eq_true rfl
  cases htask : s.task? id with
  | none =>
    simp only [act, Reporter.setStatus, htask, Noted.value_pure]
    refine h.about ha rfl (h.table.refuse ?_ ha)
    intro t ht
    rw [h.table.task?_eq_some.2 ht] at htask
    exact absurd htask (by simp)
  | some t =>
    have hlive : Live acts id t := h.table.task?_eq_some.1 htask
    simp only [act, Reporter.setStatus, htask]
    refine h.about ha rfl (h.table.update hlive ha ?_)
    have hfits : FitsPadded Limits.text ({ t with status := status } : Task).label :=
      hlive.label_fits
    have hstatus : Act.status? t.id (.setStatus id status) = some status :=
      if_pos hlive.id_eq.symm
    rw [Task.task_record_of_fits hfits, Act.updated, hstatus, hlive.keptCall_call]
    rfl

theorem Follows.spawn (h : Follows p acts) {id : Int64} {site : UInt64} {label : String}
    (hallows : p.allows (.spawn id site label)) :
    Follows (p.act i (.spawn id site label)).1 (acts ++ [.spawn id site label]) := by
  obtain ⟨s, seat⟩ := p
  obtain ⟨r, rfl⟩ := exists_of_any_isNone hallows
  have hcount := h.spawned _ rfl site
  refine h.concat hallows ?_ ?_ (by simp)
  · change TableOf _ (s.tasks.set (taskIndex id)
      (Task.spawned id site (r.spawned.getD site 0) label).record)
    rw [hcount]
    exact h.table.spawn id site label
  · rintro seat ⟨⟩ other
    change (r.spawned.insert site (r.spawned.getD site 0 + 1)).getD other 0 = _
    rw [spawnCount_concat, Std.HashMap.getD_insert, hcount]
    by_cases hsite : site = other
    · subst hsite
      simp [Act.attaches, Act.spawnsAt]
    · have hother := h.spawned _ rfl other
      simpa [Act.attaches, Act.spawnsAt, hsite] using hother

theorem Follows.hit (h : Follows p acts) {block : String} (hallows : p.allows (.hit block)) :
    Follows (p.act i (.hit block)).1 (acts ++ [.hit block]) := by
  obtain ⟨s, seat⟩ := p
  obtain ⟨r, rfl⟩ := exists_of_any_isNone hallows
  cases hrow : r.rows[block]? with
  | some row =>
    simp only [Station.act, Reporter.reportBlock, hrow, Noted.value_pure]
    exact h.still hallows rfl rfl rfl (by rintro seat ⟨⟩; exact ⟨_, rfl, rfl⟩)
  | none =>
    by_cases hroom : r.rows.size < Limits.blocks
    · simp only [Station.act, Reporter.reportBlock, hrow, hroom, if_true, Noted.value_pure]
      exact h.still hallows rfl rfl rfl (by rintro seat ⟨⟩; exact ⟨_, rfl, rfl⟩)
    · simp only [Station.act, Reporter.reportBlock, hrow, hroom, if_false]
      exact h.still hallows rfl rfl rfl (by rintro seat ⟨⟩; exact ⟨_, rfl, rfl⟩)

/-- Every act that is made keeps table and counts. -/
theorem Follows.act (h : Follows p acts) (hsound : Sound i p stage) {a : Act}
    (hallows : p.allows a) : Follows (p.act i a).1 (acts ++ [a]) := by
  cases a with
  | report id payload stamp => exact h.report hsound hallows
  | setStatus id status => exact h.setStatus hallows
  | select m =>
    refine h.still hallows rfl rfl ?_ fun seat hseat ↦ ⟨seat, hseat, rfl⟩
    change (p.slot.select m).1.tasks = p.slot.tasks
    obtain hsame | hmode := Slot.select_eq hsound.lock m
    · rw [hsame]
    · rw [hmode]
      rfl
  | attach enforcing spinLimit =>
    obtain ⟨s, seat⟩ := p
    cases seat with
    | some seat => simp [allows] at hallows
    | none =>
      refine h.concat hallows (h.table.still rfl) ?_ (by simp [Act.attaches])
      rintro seat ⟨⟩ site
      rw [spawnCount_concat]
      exact Std.HashMap.getD_empty
  | detach =>
    obtain ⟨s, seat⟩ := p
    obtain ⟨r, rfl⟩ := exists_of_any_isNone hallows
    exact h.still hallows rfl rfl rfl (by rintro seat ⟨⟩)
  | spawn id site label => exact h.spawn hallows
  | hit block => exact h.hit hallows
  | finish =>
    obtain ⟨s, seat⟩ := p
    obtain ⟨r, rfl⟩ := exists_of_any_isNone hallows
    cases hfinish : s.finish with
    | error e =>
      simp only [Station.act, hfinish]
      exact h.still hallows rfl rfl rfl fun seat hseat ↦ ⟨seat, hseat, rfl⟩
    | ok s' =>
      simp only [Station.act, hfinish]
      obtain rfl := Slot.eq_setMode_of_finish hfinish
      exact h.still hallows rfl rfl rfl fun seat hseat ↦ ⟨seat, hseat, rfl⟩
  | poll =>
    obtain ⟨s, seat⟩ := p
    obtain ⟨r, ⟨phase, pace⟩, rfl⟩ := exists_of_waits hallows
    obtain rfl : phase = .polling := hsound.phase r ⟨phase, pace⟩ rfl
    simp only [Station.act, Reporter.resume_eq hsound.lock]
    cases s.answer? with
    | none => exact h.still hallows rfl rfl rfl (by rintro seat ⟨⟩; exact ⟨_, rfl, rfl⟩)
    | some a => exact h.still hallows rfl rfl rfl (by rintro seat ⟨⟩; exact ⟨_, rfl, rfl⟩)

/-- A station with other words beside its tasks. -/
theorem Follows.of_tasks_eq (h : Follows p acts) {s : Slot} (htasks : s.tasks = p.slot.tasks) :
    Follows ⟨s, p.seat⟩ acts :=
  ⟨htasks ▸ h.table, h.spawned, h.attached, h.first⟩

end Station

/-- After any moves every station follows the acts that it has seen. -/
theorem Scene.follows_after (moves : List Move) (i : SlotIndex) :
    ((after moves).station i).Follows (acts moves i) := by
  induction moves using List.reverseRecOn with
  | nil =>
    change (fresh.station i).Follows []
    rw [station_fresh]
    exact Station.follows_fresh
  | append_singleton moves m ih =>
    have hlock : ∀ j, ((after moves).station j).slot.lock = 0 := by
      intro j
      obtain ⟨_, _, hsound⟩ := sound_after moves j
      exact hsound.lock
    rw [after_concat, acts_concat]
    cases m with
    | act j a =>
      by_cases hslot : j = i
      · subst hslot
        rw [step, station_setStation_self]
        cases hallows : ((after moves).station j).allows a with
        | true =>
          obtain ⟨stage, -, hsound⟩ := sound_after moves j
          simpa [actsOf, hallows] using ih.act hsound hallows
        | false => simpa [actsOf, hallows, Station.act_of_not_allows hallows] using ih
      · rw [step, station_setStation_of_ne _ (Ne.symm hslot)]
        simpa [actsOf, hslot] using ih
    | endReplay =>
      rw [actsOf, List.append_nil]
      refine ih.of_tasks_eq ?_
      change ((after moves).region.endReplay.slot i).tasks = _
      rw [Region.slot_endReplay]
      rfl
    | round policy state =>
      rw [actsOf, List.append_nil]
      obtain ⟨g, hturn, -⟩ := Region.turn_round policy state hlock i
      exact ih.of_tasks_eq hturn.tasks_eq

/-! ### Numbers of tasks -/

section Numbers

variable {acts earlier later : List Act} {site : UInt64}

theorem spawnCount_append (earlier : List Act) (hnone : later.countP Act.attaches = 0) :
    spawnCount site (earlier ++ later) =
      spawnCount site earlier + later.countP (Act.spawnsAt site) := by
  induction later using List.reverseRecOn with
  | nil => simp
  | append_singleton later a ih =>
    rw [List.countP_append, List.countP_singleton] at hnone
    have ha : a.attaches = false := by
      cases ha : a.attaches with
      | false => rfl
      | true => simp [ha] at hnone
    rw [← List.append_assoc, spawnCount_concat, ih (by omega), ha, List.countP_append,
      List.countP_singleton]
    by_cases hspawn : a.spawnsAt site = true
    · simp [hspawn, Nat.add_assoc]
    · simp [hspawn]

theorem spawnCount_le_countP (site : UInt64) (acts : List Act) :
    spawnCount site acts ≤ acts.countP (Act.spawnsAt site) := by
  induction acts using List.reverseRecOn with
  | nil => exact le_rfl
  | append_singleton acts a ih =>
    rw [spawnCount_concat, List.countP_append, List.countP_singleton]
    split_ifs <;> omega

/-- While there is one reporter at most, every spawn is one of its own. -/
theorem Station.Follows.spawnCount_eq {p : Station} (h : p.Follows acts)
    (hone : acts.countP Act.attaches ≤ 1) (hpast : earlier <+: acts) (site : UInt64) :
    spawnCount site earlier = earlier.countP (Act.spawnsAt site) := by
  induction earlier using List.reverseRecOn with
  | nil => rfl
  | append_singleton earlier a ih =>
    have hbefore : earlier <+: acts := (List.prefix_append _ _).trans hpast
    rw [spawnCount_concat, List.countP_append, List.countP_singleton, ih hbefore]
    by_cases ha : a.attaches = true
    · have hattached := hpast.sublist.countP_le (p := Act.attaches)
      rw [List.countP_append, List.countP_singleton, if_pos ha] at hattached
      have hother : a.spawnsAt site = false := by
        cases a <;> first | rfl | simp [Act.attaches] at ha
      rw [if_pos ha, h.first earlier hbefore (by omega), hother]
      rfl
    · rw [if_neg ha]
      split_ifs <;> rfl

/-- Two places in a list: one and the same, or one before the other. -/
theorem eq_or_prefix_of_split {α : Type} {l before before' after after' : List α} {a a' : α}
    (h : l = before ++ a :: after) (h' : l = before' ++ a' :: after') :
    before = before' ∨ before ++ [a] <+: before' ∨ before' ++ [a'] <+: before := by
  rw [h] at h'
  obtain ⟨middle, hbefore, hafter⟩ | ⟨middle, hbefore, hafter⟩ := List.append_eq_append_iff.1 h'
  · cases middle with
    | nil => exact .inl (by simpa using hbefore.symm)
    | cons b middle =>
      obtain ⟨rfl, -⟩ := List.cons.inj hafter
      exact .inr (.inl ⟨middle, by rw [hbefore]; simp⟩)
  · cases middle with
    | nil => exact .inl (by simpa using hbefore)
    | cons b middle =>
      obtain ⟨rfl, -⟩ := List.cons.inj hafter
      exact .inr (.inr ⟨middle, by rw [hbefore]; simp⟩)

/-- A reporter numbers its spawns at a site one after the other. -/
theorem spawnCount_lt {id : Int64} {label : String}
    (hpast : earlier ++ [.spawn id site label] <+: later)
    (hsame : earlier.countP Act.attaches = later.countP Act.attaches) :
    spawnCount site earlier < spawnCount site later := by
  obtain ⟨middle, rfl⟩ := hpast
  rw [List.countP_append, List.countP_append, List.countP_singleton] at hsame
  have hspawn : Act.spawnsAt site (.spawn id site label) = true := decide_eq_true rfl
  have hattaches : Act.attaches (.spawn id site label) = false := rfl
  rw [spawnCount_append _ (by omega), spawnCount_concat, hspawn, hattaches]
  simp only [Bool.false_eq_true, if_false, if_true]
  omega

/-- Two spawns of one reporter at one site have different numbers, unless there are more spawns than
numbers. -/
theorem eq_of_ordinal {id id' : Int64} {label label' : String} {earlier' later' : List Act}
    (hfew : acts.countP (Act.spawnsAt site) ≤ 2 ^ 64)
    (h : acts = earlier ++ .spawn id site label :: later)
    (h' : acts = earlier' ++ .spawn id' site label' :: later')
    (hsame : earlier.countP Act.attaches = earlier'.countP Act.attaches)
    (hordinal : UInt64.ofNat (spawnCount site earlier) = UInt64.ofNat (spawnCount site earlier')) :
    earlier = earlier' := by
  have hbound {e l : List Act} {j : Int64} {s : String} (he : acts = e ++ .spawn j site s :: l) :
      spawnCount site e < UInt64.size := by
    have hcount := spawnCount_le_countP site e
    have hspawn : Act.spawnsAt site (.spawn j site s) = true := decide_eq_true rfl
    have hsize : UInt64.size = 2 ^ 64 := rfl
    rw [he, List.countP_append, List.countP_cons_of_pos hspawn] at hfew
    omega
  have hnumber : spawnCount site earlier = spawnCount site earlier' := by
    rw [← UInt64.toNat_ofNat_of_lt' (hbound h), ← UInt64.toNat_ofNat_of_lt' (hbound h'), hordinal]
  obtain heq | hpast | hpast := eq_or_prefix_of_split h h'
  · exact heq
  · exact absurd (spawnCount_lt hpast hsame) (by omega)
  · exact absurd (spawnCount_lt hpast hsame.symm) (by omega)

end Numbers

/-- Looking for the identity of a task finds the task, if no other one has the identity. -/
theorem Slot.findTask?_of_unique {acts : List Act} {s : Slot} {id : Int64} {t : Task}
    (h : TableOf acts s.tasks) (ht : s.task? id = some t)
    (hunique : ∀ other u, s.task? other = some u → u.identity = t.identity → other = id) :
    s.findTask? t.site t.ordinal = some t := by
  cases hfound : s.findTask? t.site t.ordinal with
  | none => exact absurd rfl ((findTask?_eq_none h _ _).1 hfound id t ht)
  | some u =>
    obtain ⟨hu, hidentity⟩ := task?_of_findTask? h hfound
    have hid := hunique u.id u hu hidentity
    rw [hid] at hu
    rw [← hu, ht]

/-- While there is one reporter at most, its tasks have different identities. -/
theorem Station.Follows.eq_of_identity {p : Station} {acts : List Act} (h : p.Follows acts)
    (hone : acts.countP Act.attaches ≤ 1) {id id' : Int64} {t t' : Task}
    (hfew : acts.countP (Act.spawnsAt t.site) ≤ 2 ^ 64) (ht : Live acts id t)
    (ht' : Live acts id' t') (hidentity : t'.identity = t.identity) : id' = id := by
  have hattached {e l : List Act} {j : Int64} {site : UInt64} {s : String}
      (he : acts = e ++ .spawn j site s :: l) : e.countP Act.attaches = 1 := by
    have hpast : e ++ [.spawn j site s] <+: acts := ⟨l, by rw [he]; simp⟩
    have hfirst := h.first _ hpast
    have hle := hpast.sublist.countP_le (p := Act.attaches)
    have hspawn : Act.spawnsAt site (.spawn j site s) = true := decide_eq_true rfl
    have hattaches : Act.attaches (.spawn j site s) = false := rfl
    rw [List.countP_append, List.countP_singleton, hattaches] at hfirst hle
    by_contra hnone
    have hnever := hfirst (by simp only [Bool.false_eq_true, if_false] at *; omega) site
    rw [List.countP_append, List.countP_singleton, hspawn, if_pos rfl] at hnever
    omega
  obtain ⟨-, earlier, site, label, later, hacts, -, rfl⟩ := ht
  obtain ⟨-, earlier', site', label', later', hacts', -, rfl⟩ := ht'
  obtain ⟨rfl, hordinal⟩ := Prod.ext_iff.1 hidentity
  obtain rfl := eq_of_ordinal hfew hacts' hacts ((hattached hacts').trans (hattached hacts).symm)
    hordinal
  rw [hacts] at hacts'
  obtain ⟨hspawn, -⟩ := List.cons.inj (List.append_cancel_left hacts')
  exact (Act.spawn.inj hspawn).1.symm

/-- Any run of the scheduler and one reporter from a fresh region, seen at one slot. Both sides find
under an id the task of its last spawn, unless another spawn has taken the entry since, with the
status that was set last, with the call of the last report as it is stored, and with the number of
spawns at the site before. The list of the tasks lists what is found under some id, each id once.
Looking for an identity finds a task that has it, the only one as long as there are numbers left,
and nothing if there is none. To move or to report an unknown task is refused, and then nothing
changes. -/
theorem Scene.task_table (moves : List Move) (i : SlotIndex)
    (hone : (acts moves i).countP Act.attaches ≤ 1) :
    let s := ((after moves).station i).slot
    (∀ id t, s.task? id = some t ↔ id ≠ 0 ∧ ∃ earlier site label later,
      acts moves i = earlier ++ .spawn id site label :: later ∧
      (∀ a ∈ later, a.displaces id = false) ∧
      t = ⟨lastStatus id later, id, site, UInt64.ofNat (earlier.countP (Act.spawnsAt site)),
        padded Limits.text label, lastCall id later⟩) ∧
    (∀ t, t ∈ s.taskList ↔ s.task? t.id = some t) ∧
    (s.taskList.map Task.id).Nodup ∧
    (∀ site ordinal,
      (∀ t, s.findTask? site ordinal = some t →
        s.task? t.id = some t ∧ t.identity = (site, ordinal)) ∧
      (s.findTask? site ordinal = none ↔
        ∀ id t, s.task? id = some t → t.identity ≠ (site, ordinal)) ∧
      ((acts moves i).countP (Act.spawnsAt site) ≤ 2 ^ 64 →
        ∀ id t, s.task? id = some t → t.identity = (site, ordinal) →
          s.findTask? site ordinal = some t)) ∧
    (∀ (r : Reporter) id, s.task? id = none →
      (∀ status, r.setStatus s id status = pure (.error (.unknownTask id))) ∧
      ∀ payload stamp,
        r.report s id payload stamp = ⟨r, s, .ended (.error (.unknownTask id))⟩) := by
  intro s
  have hfollows := follows_after moves i
  have htable : TableOf (acts moves i) s.tasks := hfollows.table
  have hcount {earlier later : List Act} {a : Act} (h : acts moves i = earlier ++ a :: later)
      (site : UInt64) : spawnCount site earlier = earlier.countP (Act.spawnsAt site) :=
    hfollows.spawnCount_eq hone (h ▸ List.prefix_append _ _) site
  refine ⟨?_, fun t ↦ Slot.mem_taskList htable, Slot.nodup_taskList htable, ?_, ?_⟩
  · intro id t
    rw [htable.task?_eq_some]
    constructor
    · rintro ⟨hid, earlier, site, label, later, hacts, hlater, rfl⟩
      exact ⟨hid, earlier, site, label, later, hacts, hlater, by rw [hcount hacts]⟩
    · rintro ⟨hid, earlier, site, label, later, hacts, hlater, rfl⟩
      exact ⟨hid, earlier, site, label, later, hacts, hlater, by rw [hcount hacts]⟩
  · intro site ordinal
    refine ⟨fun t ↦ Slot.task?_of_findTask? htable, Slot.findTask?_eq_none htable site ordinal,
      ?_⟩
    intro hfew id t ht hidentity
    obtain ⟨rfl, rfl⟩ := Prod.ext_iff.1 hidentity
    refine Slot.findTask?_of_unique htable ht fun other u hu hsame ↦ ?_
    exact hfollows.eq_of_identity hone hfew (htable.task?_eq_some.1 ht)
      (htable.task?_eq_some.1 hu) hsame
  · intro r id hnone
    refine ⟨fun status ↦ ?_, fun payload stamp ↦ ?_⟩
    · rw [Reporter.setStatus, hnone]
    · rw [Reporter.report, Reporter.announce_of_unknown hnone]
      rfl

namespace Scene

/-- A second task takes the entry of the first, and both are moved. -/
def displacing (i : SlotIndex) : List Move :=
  [.act i (.attach true 16), .act i (.spawn 1 0x100 "main.main"),
    .act i (.spawn 4097 0x100 "worker"), .act i (.setStatus 4097 (.ofStatus .running)),
    .act i (.setStatus 1 (.ofStatus .dead))]

theorem task_table_displacing :
    let s := ((after (displacing 0)).station 0).slot
    (acts (displacing 0) 0).countP Act.attaches ≤ 1 ∧ s.task? 1 = none ∧
      s.task? 4097 = some ⟨.ofStatus .running, 4097, 0x100, 1, "worker", none⟩ := by
  intro s
  have hacts : acts (displacing 0) 0 =
      [.attach true 16, .spawn 1 0x100 "main.main", .spawn 4097 0x100 "worker",
        .setStatus 4097 (.ofStatus .running), .setStatus 1 (.ofStatus .dead)] := by
    decide +kernel
  have hone : (acts (displacing 0) 0).countP Act.attaches ≤ 1 := by
    rw [hacts]
    decide
  obtain ⟨hfound, -⟩ := task_table (displacing 0) 0 hone
  refine ⟨hone, ?_, ?_⟩
  · by_contra hsome
    obtain ⟨t, ht⟩ := Option.ne_none_iff_exists'.1 hsome
    obtain ⟨-, earlier, site, label, later, hsplit, hlater, -⟩ := (hfound 1 t).1 ht
    rw [hacts] at hsplit
    have hdisplaced : Act.spawn 4097 0x100 "worker" ∈ later := by
      rcases earlier with _ | ⟨a, _ | ⟨b, _ | ⟨c, _ | ⟨d, _ | ⟨e, earlier⟩⟩⟩⟩⟩
      all_goals simp at hsplit
      simp [← hsplit.2.2]
    exact absurd (hlater _ hdisplaced) (by decide)
  · refine (hfound 4097 _).2 ⟨by decide, [.attach true 16, .spawn 1 0x100 "main.main"], 0x100,
      "worker", [.setStatus 4097 (.ofStatus .running), .setStatus 1 (.ofStatus .dead)], hacts, ?_,
      ?_⟩
    · decide
    · decide +kernel

end Scene

end Turnstile
