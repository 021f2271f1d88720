import Turnstile.Proofs.TaskTable

/-!
# Identities of tasks across reporters

An identity is meant to name one task: the program counter that spawned it, and how many tasks were
spawned there before. The count is kept by the reporter, while the task table stays with the slot,
and a reporter that attaches counts from zero although it picks up the coverage that it finds. So
identities tell apart the tasks of one reporter (`Live.eq_of_reporter`), and the tasks of two
reporters only where these spawn at different sites: the first spawn of a reporter at a site takes
the identity of a task that is still in the table (`Scene.identity_repeated`).

`Scene.identities_by_reporter` collects what holds of every run, and
`Scene.not_forall_identity_unique` is a run after which two tasks have one identity.
-/

set_option autoImplicit false
set_option relaxedAutoImplicit false

namespace Turnstile

/-- The `n`-th reporter of a slot spawned the task of an id. -/
def SpawnedBy (acts : List Act) (id : Int64) (n : Nat) : Prop :=
  ∃ earlier site label later,
    acts = earlier ++ .spawn id site label :: later ∧
    (∀ a ∈ later, a.displaces id = false) ∧ earlier.countP Act.attaches = n

section Reporters

variable {acts : List Act} {id id' : Int64} {t t' : Task} {n : Nat}

/-- The spawn that nobody has displaced is the last one of its id. -/
theorem eq_of_last_spawn {earlier earlier' later later' : List Act} {site site' : UInt64}
    {label label' : String} (h : acts = earlier ++ .spawn id site label :: later)
    (h' : acts = earlier' ++ .spawn id site' label' :: later')
    (hlater : ∀ a ∈ later, a.displaces id = false)
    (hlater' : ∀ a ∈ later', a.displaces id = false) : earlier = earlier' := by
  have hnever {e e' l l' : List Act} {x y : UInt64} {u v : String}
      (he : acts = e ++ .spawn id x u :: l) (he' : acts = e' ++ .spawn id y v :: l')
      (hl : ∀ a ∈ l, a.displaces id = false) : ¬ e ++ [.spawn id x u] <+: e' := by
    rintro ⟨middle, rfl⟩
    rw [he, List.append_assoc, List.append_assoc] at he'
    have hrest := List.append_cancel_left he'
    have hmem : Act.spawn id y v ∈ l := by
      rw [(List.cons.inj hrest).2]
      simp
    have hself : Act.displaces id (.spawn id y v) = true := decide_eq_true rfl
    rw [hl _ hmem] at hself
    exact absurd hself (by decide)
  obtain heq | hpast | hpast := eq_or_prefix_of_split h h'
  · exact heq
  · exact absurd hpast (hnever h h' hlater)
  · exact absurd hpast (hnever h' h hlater')

theorem Live.exists_spawnedBy (h : Live acts id t) : ∃ n, SpawnedBy acts id n := by
  obtain ⟨-, earlier, site, label, later, hacts, hlater, -⟩ := h
  exact ⟨_, earlier, site, label, later, hacts, hlater, rfl⟩

/-- Two live tasks of one reporter have different identities. -/
theorem Live.eq_of_reporter (hfew : acts.countP (Act.spawnsAt t.site) ≤ 2 ^ 64)
    (ht : Live acts id t) (ht' : Live acts id' t') (hby : SpawnedBy acts id n)
    (hby' : SpawnedBy acts id' n) (hidentity : t'.identity = t.identity) : id' = id := by
  have hattached {j : Int64} {e l : List Act} {x : UInt64} {u : String}
      (he : acts = e ++ .spawn j x u :: l) (hl : ∀ a ∈ l, a.displaces j = false)
      (hj : SpawnedBy acts j n) : e.countP Act.attaches = n := by
    obtain ⟨e', x', u', l', he', hl', hn⟩ := hj
    rw [eq_of_last_spawn he he' hl hl', hn]
  obtain ⟨-, earlier, site, label, later, hacts, hlater, rfl⟩ := ht
  obtain ⟨-, earlier', site', label', later', hacts', hlater', rfl⟩ := ht'
  obtain ⟨rfl, hordinal⟩ := Prod.ext_iff.1 hidentity
  have hsame : earlier'.countP Act.attaches = earlier.countP Act.attaches :=
    (hattached hacts' hlater' hby').trans (hattached hacts hlater hby).symm
  obtain rfl := eq_of_ordinal hfew hacts' hacts hsame hordinal
  rw [hacts] at hacts'
  obtain ⟨hspawn, -⟩ := List.cons.inj (List.append_cancel_left hacts')
  exact (Act.spawn.inj hspawn).1.symm

end Reporters

namespace Scene

/-- A reporter that attaches counts from zero: its first spawn at the site of the first task of a
former reporter takes the identity of that task, which is still there. -/
theorem identity_repeated {moves : List Move} {i : SlotIndex} {id : Int64} {t : Task}
    (hempty : ((after moves).station i).seat = none)
    (ht : ((after moves).station i).slot.task? id = some t) (hfirst : t.ordinal = 0) {other : Int64}
    (hother : other ≠ 0) (hplace : id.toInt % Limits.tasks ≠ other.toInt % Limits.tasks)
    (enforcing : Bool) (spinLimit : UInt32) (label : String) :
    let respawned := moves ++ [.act i (.attach enforcing spinLimit)] ++
      [.act i (.spawn other t.site label)]
    let s := ((after respawned).station i).slot
    s.task? id = some t ∧
      ∃ u, s.task? other = some u ∧ u.identity = t.identity := by
  intro respawned s
  have hattach : (after moves).actsOf i (.act i (.attach enforcing spinLimit)) =
      [.attach enforcing spinLimit] := by
    simp [actsOf, Station.allows, hempty]
  have hseat : ((after (moves ++ [.act i (.attach enforcing spinLimit)])).station i).seat =
      some ⟨.attach i ((after moves).station i).slot enforcing spinLimit, none⟩ := by
    rw [after_concat, step, station_setStation_self]
    simp only [Station.act, hempty]
  have hspawn : (after (moves ++ [.act i (.attach enforcing spinLimit)])).actsOf i
      (.act i (.spawn other t.site label)) = [.spawn other t.site label] := by
    simp [actsOf, Station.allows, hseat]
  have hacts : acts respawned i =
      acts moves i ++ [.attach enforcing spinLimit] ++ [.spawn other t.site label] := by
    rw [acts_concat, acts_concat, hattach, hspawn]
  have htable : TableOf (acts respawned i) s.tasks := (follows_after respawned i).table
  have hlive := (follows_after moves i).table.task?_eq_some.1 ht
  have hcount : spawnCount t.site (acts moves i ++ [.attach enforcing spinLimit]) = 0 := by
    rw [spawnCount_concat]
    rfl
  have hkeeps : Act.displaces id (.spawn other t.site label) = false :=
    decide_eq_false fun h ↦ hplace h.symm
  refine ⟨htable.task?_eq_some.2 ?_, Task.spawned other t.site 0 label,
    htable.task?_eq_some.2 ?_, ?_⟩
  · rw [hacts, live_concat]
    exact .inr ⟨t, live_concat.2 (.inr ⟨t, hlive, rfl, rfl⟩), hkeeps, rfl⟩
  · rw [hacts, live_concat]
    exact .inl ⟨hother, t.site, label, rfl, by rw [hcount]; rfl⟩
  · exact Prod.ext rfl hfirst.symm

/-- Any run of the scheduler and any number of reporters, one after the other, seen at one slot.
Every task in the table was spawned by one of the reporters, and the tasks of one reporter have
different identities. Looking for the identity of a task finds the task if every task of its site is
one of its own reporter. Otherwise it may find another one: whenever a reporter attaches and spawns
a task at the site of a first task that is still in the table, the two have one identity. -/
theorem identities_by_reporter (moves : List Move) (i : SlotIndex)
    (hfew : ∀ site, (acts moves i).countP (Act.spawnsAt site) ≤ 2 ^ 64) :
    let s := ((after moves).station i).slot
    (∀ id t, s.task? id = some t → ∃ n, SpawnedBy (acts moves i) id n) ∧
    (∀ id id' t t' n, s.task? id = some t → s.task? id' = some t' →
      SpawnedBy (acts moves i) id n → SpawnedBy (acts moves i) id' n →
      t.identity = t'.identity → id = id') ∧
    (∀ id t n, s.task? id = some t →
      (∀ id' t', s.task? id' = some t' → t'.site = t.site → SpawnedBy (acts moves i) id' n) →
      s.findTask? t.site t.ordinal = some t) ∧
    (((after moves).station i).seat = none → ∀ id t, s.task? id = some t → t.ordinal = 0 →
      ∀ other, other ≠ 0 → id.toInt % Limits.tasks ≠ other.toInt % Limits.tasks →
      ∀ enforcing spinLimit label,
        let respawned := moves ++ [.act i (.attach enforcing spinLimit)] ++
          [.act i (.spawn other t.site label)]
        let s' := ((after respawned).station i).slot
        s'.task? id = some t ∧ ∃ u, s'.task? other = some u ∧ u.identity = t.identity) := by
  intro s
  have htable : TableOf (acts moves i) s.tasks := (follows_after moves i).table
  refine ⟨?_, ?_, ?_, ?_⟩
  · intro id t ht
    exact (htable.task?_eq_some.1 ht).exists_spawnedBy
  · intro id id' t t' n ht ht' hby hby' hidentity
    exact Live.eq_of_reporter (hfew t'.site) (htable.task?_eq_some.1 ht')
      (htable.task?_eq_some.1 ht) hby' hby hidentity
  · intro id t n ht halone
    refine Slot.findTask?_of_unique htable ht fun other u hu hidentity ↦ ?_
    have hsite : u.site = t.site := congrArg Prod.fst hidentity
    exact Live.eq_of_reporter (hfew t.site) (htable.task?_eq_some.1 ht)
      (htable.task?_eq_some.1 hu) (halone id t ht rfl) (halone other u hu hsite) hidentity
  · intro hempty id t ht hfirst other hother hplace enforcing spinLimit label
    exact identity_repeated hempty ht hfirst hother hplace enforcing spinLimit label

/-- A reporter spawns two tasks at one site and goes away. -/
def paired (i : SlotIndex) : List Move :=
  [.act i (.attach true 16), .act i (.spawn 1 0x100 "worker"), .act i (.spawn 2 0x100 "worker"),
    .act i .detach]

theorem acts_paired :
    acts (paired 0) 0 =
      [.attach true 16, .spawn 1 0x100 "worker", .spawn 2 0x100 "worker", .detach] := by
  decide +kernel

theorem seat_paired : ((after (paired 0)).station 0).seat = none := by
  have hnone : ((after (paired 0)).station 0).seat.isNone = true := by decide +kernel
  exact Option.isNone_iff_eq_none.1 hnone

theorem task?_paired : let s := ((after (paired 0)).station 0).slot
    s.task? 1 = some (Task.spawned 1 0x100 0 "worker") ∧
      s.task? 2 = some (Task.spawned 2 0x100 1 "worker") := by
  have htable := (follows_after (paired 0) 0).table
  rw [acts_paired] at htable
  constructor
  · refine htable.task?_eq_some.2 ⟨by decide, [.attach true 16], 0x100, "worker",
      [.spawn 2 0x100 "worker", .detach], rfl, ?_, ?_⟩
    · decide
    · decide +kernel
  · refine htable.task?_eq_some.2 ⟨by decide, [.attach true 16, .spawn 1 0x100 "worker"], 0x100,
      "worker", [.detach], rfl, ?_, ?_⟩
    · decide
    · decide +kernel

theorem spawnedBy_paired {id : Int64} {n : Nat} (h : SpawnedBy (acts (paired 0) 0) id n) :
    n = 1 := by
  obtain ⟨earlier, site, label, later, hsplit, -, hn⟩ := h
  rw [acts_paired] at hsplit
  rcases earlier with _ | ⟨a, _ | ⟨b, _ | ⟨c, _ | ⟨d, earlier⟩⟩⟩⟩
  all_goals simp at hsplit
  · rw [← hn, ← hsplit.1]
    rfl
  · rw [← hn, ← hsplit.1, ← hsplit.2.1]
    rfl

/-- The two tasks have different identities, and each is found by its own. When another reporter
comes and spawns a third task there, that has the identity of the first. -/
theorem identities_by_reporter_paired :
    let s := ((after (paired 0)).station 0).slot
    (∀ site, (acts (paired 0) 0).countP (Act.spawnsAt site) ≤ 2 ^ 64) ∧
      (s.task? 1 = some (Task.spawned 1 0x100 0 "worker") ∧
        s.task? 2 = some (Task.spawned 2 0x100 1 "worker")) ∧
      (∀ id id' t t', s.task? id = some t → s.task? id' = some t' → t.identity = t'.identity →
        id = id') ∧
      s.findTask? 0x100 0 = some (Task.spawned 1 0x100 0 "worker") ∧
      s.findTask? 0x100 1 = some (Task.spawned 2 0x100 1 "worker") ∧
      ((after (paired 0)).station 0).seat = none ∧
      let s' := ((after (paired 0 ++ [.act 0 (.attach true 16)] ++
        [.act 0 (.spawn 3 0x100 "worker")])).station 0).slot
      s'.task? 1 = some (Task.spawned 1 0x100 0 "worker") ∧
        ∃ u, s'.task? 3 = some u ∧ u.identity = (0x100, 0) := by
  intro s
  have hfew (site : UInt64) : (acts (paired 0) 0).countP (Act.spawnsAt site) ≤ 2 ^ 64 := by
    rw [acts_paired]
    exact List.countP_le_length.trans (by decide)
  obtain ⟨hspawned, hunique, hfound, hrepeated⟩ := identities_by_reporter (paired 0) 0 hfew
  have hby (id : Int64) (t : Task) (ht : s.task? id = some t) :
      SpawnedBy (acts (paired 0) 0) id 1 := by
    obtain ⟨n, hn⟩ := hspawned id t ht
    rwa [spawnedBy_paired hn] at hn
  obtain ⟨hfirst, hsecond⟩ := task?_paired
  refine ⟨hfew, task?_paired, fun id id' t t' ht ht' ↦ ?_, ?_, ?_, seat_paired, ?_⟩
  · exact hunique id id' t t' 1 ht ht' (hby id t ht) (hby id' t' ht')
  · exact hfound 1 _ 1 hfirst fun other u hu _ ↦ hby other u hu
  · exact hfound 2 _ 1 hsecond fun other u hu _ ↦ hby other u hu
  · exact hrepeated seat_paired 1 _ hfirst rfl 3 (by decide) (by decide) true 16 "worker"

/-- A reporter spawns a task and goes away. -/
def departed (i : SlotIndex) : List Move :=
  [.act i (.attach true 16), .act i (.spawn 1 0x100 "main.main"), .act i .detach]

theorem acts_departed :
    acts (departed 0) 0 = [.attach true 16, .spawn 1 0x100 "main.main", .detach] := by
  decide +kernel

theorem seat_departed : ((after (departed 0)).station 0).seat = none := by
  have hnone : ((after (departed 0)).station 0).seat.isNone = true := by decide +kernel
  exact Option.isNone_iff_eq_none.1 hnone

theorem task?_departed : ((after (departed 0)).station 0).slot.task? 1 =
    some (Task.spawned 1 0x100 0 "main.main") := by
  have htable := (follows_after (departed 0) 0).table
  rw [acts_departed] at htable
  refine htable.task?_eq_some.2 ⟨by decide, [.attach true 16], 0x100, "main.main", [.detach], rfl,
    ?_, ?_⟩
  · decide
  · decide +kernel

/-- Two tasks have one identity once the reporter of the first has been replaced. -/
theorem not_forall_identity_unique :
    ¬ ∀ (moves : List Move) (i : SlotIndex) (id id' : Int64) (t t' : Task),
      ((after moves).station i).slot.task? id = some t →
      ((after moves).station i).slot.task? id' = some t' → t.identity = t'.identity → id = id' := by
  intro hunique
  have hother : (2 : Int64) ≠ 0 := by decide
  obtain ⟨hfirst, u, hsecond, hidentity⟩ := identity_repeated seat_departed task?_departed rfl
    hother (by decide) true 16 "main.main"
  have hsame := hunique _ 0 1 2 _ u hfirst hsecond hidentity.symm
  exact absurd hsame (by decide)

end Scene

end Turnstile
