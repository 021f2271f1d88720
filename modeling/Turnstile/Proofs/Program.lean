import Mathlib.Data.Fintype.Card
import Mathlib.Data.List.Basic
import Turnstile.Proofs.Handshake
import Turnstile.Proofs.NormalForm

/-!
# Programs under a reporter

A `Program` is what the side of a reporter does by itself: it spawns tasks and makes reports on
their behalf. Ids differ from run to run, so a program names a task by the order of its spawns, and
what a program does to the tables of a slot depends on the ids that a run gives. `Ledger` keeps what
does not: the origins of the tasks, and the reports made. A `Script` is a program with the ids and
the stamps of one run.

`Script.Kept` ties the task table of a slot to the ledger of what its program has done so far, and
it is kept by both steps of a program (`Script.Kept.spawn`, `Script.Kept.report`). The identity of a
task picks out one entry of the table (`Script.Kept.eq_of_identity`), although ids only have to be
distinct modulo the size of the table.
-/

set_option autoImplicit false
set_option relaxedAutoImplicit false

namespace Turnstile

/-! ### Programs -/

/-- A step of a program. It counts its tasks in the order in which it spawns them. -/
inductive ProgramStep
  | spawn (site : UInt64) (label : String)
  | report (task : Nat) (payload : Payload)

abbrev Program := List ProgramStep

/-- What of a task is the same in every run. -/
structure Origin where
  site : UInt64
  ordinal : UInt64
  label : String

namespace Origin

def identity (o : Origin) : UInt64 × UInt64 := (o.site, o.ordinal)

/-- The task in a run that gives it an id. -/
def task (o : Origin) (id : Int64) : Task := .spawned id o.site o.ordinal o.label

end Origin

/-- A report of a program. -/
structure Announcement where
  /-- The number of the task that reports. -/
  task : Nat
  origin : Origin
  payload : Payload

/-- The task as it reports, in a run that gives it an id. -/
def Announcement.reporter (a : Announcement) (id : Int64) : Task :=
  { a.origin.task id with call := a.payload.call? }

/-- What a program has done. -/
structure Ledger where
  origins : List Origin
  reports : List Announcement

namespace Ledger

def empty : Ledger := ⟨[], []⟩

/-- How many tasks were spawned at a site. -/
def spawnedAt (l : Ledger) (site : UInt64) : Nat := l.origins.countP (·.site = site)

/-- The ledger after one more step. A report of a task that was not spawned is none. -/
def next (l : Ledger) : ProgramStep → Ledger
  | .spawn site label =>
    { l with origins := l.origins ++ [⟨site, UInt64.ofNat (l.spawnedAt site), label⟩] }
  | .report k payload =>
    match l.origins[k]? with
    | some o => { l with reports := l.reports ++ [⟨k, o, payload⟩] }
    | none => l

/-- Whether every report in the rest of a program follows the spawn of its task. -/
def Admits (l : Ledger) : Program → Prop
  | [] => True
  | .spawn site label :: rest => (l.next (.spawn site label)).Admits rest
  | .report k payload :: rest =>
    k < l.origins.length ∧ (l.next (.report k payload)).Admits rest

end Ledger

namespace Program

/-- What a program does. -/
def ledger (program : Program) : Ledger := program.foldl Ledger.next .empty

/-- The ledger of the first `n` steps. -/
def ledgerAt (program : Program) (n : Nat) : Ledger := ledger (program.take n)

theorem ledgerAt_succ {program : Program} {n : Nat} {step : ProgramStep}
    (h : program[n]? = some step) : program.ledgerAt (n + 1) = (program.ledgerAt n).next step := by
  have htake : program.take (n + 1) = program.take n ++ [step] := by
    rw [List.take_add_one, h, Option.toList_some]
  rw [ledgerAt, ledger, htake, List.foldl_concat, ledgerAt, ledger]

theorem ledgerAt_report {program : Program} {n k : Nat} {payload : Payload} {o : Origin}
    (h : program[n]? = some (.report k payload))
    (ho : (program.ledgerAt n).origins[k]? = some o) :
    program.ledgerAt (n + 1) = { program.ledgerAt n with
      reports := (program.ledgerAt n).reports ++ [⟨k, o, payload⟩] } := by
  rw [ledgerAt_succ h]
  simp only [Ledger.next, ho]

end Program

namespace Ledger

/-- Steps only add to a ledger. -/
theorem prefix_foldl (steps : Program) (l : Ledger) :
    l.origins <+: (steps.foldl next l).origins ∧ l.reports <+: (steps.foldl next l).reports := by
  induction steps generalizing l with
  | nil => exact ⟨List.prefix_rfl, List.prefix_rfl⟩
  | cons step steps ih =>
    obtain ⟨horigins, hreports⟩ := ih (l.next step)
    cases step with
    | spawn site label => exact ⟨(List.prefix_append _ _).trans horigins, hreports⟩
    | report k payload =>
      cases htask : l.origins[k]? with
      | none =>
        have hsame : l.next (.report k payload) = l := by simp only [next, htask]
        rw [hsame] at horigins hreports
        rw [List.foldl_cons, hsame]
        exact ⟨horigins, hreports⟩
      | some o =>
        have hnext : l.next (.report k payload) =
            { l with reports := l.reports ++ [⟨k, o, payload⟩] } := by simp only [next, htask]
        rw [hnext] at horigins hreports
        rw [List.foldl_cons, hnext]
        exact ⟨horigins, (List.prefix_append _ _).trans hreports⟩

/-- The task of a report has been spawned. -/
theorem Admits.lt_length {steps : Program} {l : Ledger} (h : l.Admits steps) {n k : Nat}
    {payload : Payload} (hstep : steps[n]? = some (.report k payload)) :
    k < ((steps.take n).foldl next l).origins.length := by
  induction steps generalizing l n with
  | nil => simp at hstep
  | cons step steps ih =>
    cases n with
    | zero =>
      obtain rfl : step = .report k payload := by simpa using hstep
      exact h.1
    | succ n =>
      have hrest : steps[n]? = some (.report k payload) := by simpa using hstep
      cases step with
      | spawn site label => exact ih h hrest
      | report j other => exact ih h.2 hrest

/-- Every task is numbered among the tasks of its site. -/
theorem ordinal_foldl (steps : Program) {l : Ledger}
    (h : ∀ k o, l.origins[k]? = some o →
      o.ordinal = UInt64.ofNat ((l.origins.take k).countP (·.site = o.site)))
    {k : Nat} {o : Origin} (hk : (steps.foldl next l).origins[k]? = some o) :
    o.ordinal = UInt64.ofNat (((steps.foldl next l).origins.take k).countP (·.site = o.site)) := by
  induction steps generalizing l with
  | nil => exact h k o hk
  | cons step steps ih =>
    refine ih ?_ hk
    intro j a hj
    cases step with
    | spawn site label =>
      simp only [next] at hj ⊢
      by_cases hlt : j < l.origins.length
      · rw [List.getElem?_append_left hlt] at hj
        rw [List.take_append_of_le_length hlt.le]
        exact h j a hj
      · have hlast : j = l.origins.length := by
          have hbound := (List.getElem?_eq_some_iff.1 hj).1
          simp only [List.length_append, List.length_singleton] at hbound
          omega
        subst hlast
        rw [List.getElem?_concat_length] at hj
        obtain rfl := Option.some.inj hj
        rw [List.take_append_of_le_length le_rfl, List.take_length]
        rfl
    | report m payload =>
      have hsame : (l.next (.report m payload)).origins = l.origins := by
        cases htask : l.origins[m]? <;> simp only [next, htask]
      rw [hsame] at hj ⊢
      exact h j a hj

end Ledger

namespace Program

variable {program : Program}

theorem origins_ledgerAt (program : Program) (n : Nat) :
    (program.ledgerAt n).origins <+: program.ledger.origins := by
  have hsplit : program.ledger = (program.drop n).foldl Ledger.next (program.ledgerAt n) := by
    rw [ledgerAt, ledger, ledger, ← List.foldl_append, List.take_append_drop]
  rw [hsplit]
  exact (Ledger.prefix_foldl _ _).1

theorem reports_ledgerAt (program : Program) (n : Nat) :
    (program.ledgerAt n).reports <+: program.ledger.reports := by
  have hsplit : program.ledger = (program.drop n).foldl Ledger.next (program.ledgerAt n) := by
    rw [ledgerAt, ledger, ledger, ← List.foldl_append, List.take_append_drop]
  rw [hsplit]
  exact (Ledger.prefix_foldl _ _).2

/-- Two tasks of one site have different numbers, unless there are more than numbers. -/
theorem eq_of_identity {j k : Nat} {a b : Origin} (hfew : program.ledger.origins.length ≤ 2 ^ 64)
    (hj : program.ledger.origins[j]? = some a) (hk : program.ledger.origins[k]? = some b)
    (hsame : a.identity = b.identity) : j = k := by
  obtain ⟨hsite, hordinal⟩ := Prod.ext_iff.1 hsame
  have hbefore (m : Nat) (o : Origin) (hm : program.ledger.origins[m]? = some o) :
      o.ordinal.toNat = (program.ledger.origins.take m).countP (·.site = o.site) := by
    have hlt := (List.getElem?_eq_some_iff.1 hm).1
    have hcount := List.countP_le_length (p := fun a : Origin ↦ decide (a.site = o.site))
      (l := program.ledger.origins.take m)
    rw [List.length_take] at hcount
    have hnumber : o.ordinal =
        UInt64.ofNat ((program.ledger.origins.take m).countP (·.site = o.site)) :=
      Ledger.ordinal_foldl program (by simp [Ledger.empty]) hm
    have hsize : UInt64.size = 2 ^ 64 := rfl
    rw [hnumber, UInt64.toNat_ofNat_of_lt' (by omega)]
  have hmore (m n : Nat) (o : Origin) (hlt : m < n) (hm : program.ledger.origins[m]? = some o) :
      (program.ledger.origins.take m).countP (·.site = o.site) <
        (program.ledger.origins.take n).countP (·.site = o.site) := by
    have hnext : (program.ledger.origins.take (m + 1)).countP (·.site = o.site) =
        (program.ledger.origins.take m).countP (·.site = o.site) + 1 := by
      rw [List.take_add_one, hm, Option.toList_some, List.countP_append]
      simp
    have hmono : (program.ledger.origins.take (m + 1)).countP (·.site = o.site) ≤
        (program.ledger.origins.take n).countP (·.site = o.site) :=
      (List.take_sublist_take_left (by omega)).countP_le
    omega
  have hnumbers : (program.ledger.origins.take j).countP (·.site = a.site) =
      (program.ledger.origins.take k).countP (·.site = b.site) := by
    rw [← hbefore j a hj, ← hbefore k b hk]
    exact congrArg UInt64.toNat hordinal
  change a.site = b.site at hsite
  obtain hlt | heq | hgt := lt_trichotomy j k
  · have hless := hmore j k a hlt hj
    rw [hnumbers, hsite] at hless
    exact absurd hless (lt_irrefl _)
  · exact heq
  · have hless := hmore k j b hgt hk
    rw [← hnumbers, hsite] at hless
    exact absurd hless (lt_irrefl _)

end Program

/-! ### Scripts -/

/-- A program with what one run adds to it. -/
structure Script where
  program : Program
  /-- The ids of the tasks, in the order of their spawns. -/
  id : Nat → Int64
  /-- The times of the reports, in their order. -/
  stamp : Nat → UInt64
  follows : Ledger.empty.Admits program
  id_ne_zero : ∀ k < program.ledger.origins.length, id k ≠ 0
  /-- No task takes the place of another in the task table. -/
  id_distinct : ∀ j k, j < program.ledger.origins.length → k < program.ledger.origins.length →
    (id j).toInt % Limits.tasks = (id k).toInt % Limits.tasks → j = k

namespace Slot

theorem eq_of_taskIndex {a b : Int64} (h : taskIndex a = taskIndex b) :
    a.toInt % Limits.tasks = b.toInt % Limits.tasks := by
  have hval : (a.toInt % (4096 : Nat)).toNat % 4096 = (b.toInt % (4096 : Nat)).toNat % 4096 :=
    congrArg Fin.val h
  change a.toInt % (4096 : Nat) = b.toInt % (4096 : Nat)
  omega

end Slot

namespace Script

variable {script : Script} {l : Ledger} {j k n : Nat} {o : Origin}

open Slot (taskIndex)

theorem origin_of_ledgerAt (hk : (script.program.ledgerAt n).origins[k]? = some o) :
    script.program.ledger.origins[k]? = some o := by
  obtain ⟨hlt, rfl⟩ := List.getElem?_eq_some_iff.1 hk
  have hfirst := script.program.origins_ledgerAt n
  exact List.getElem?_eq_some_iff.2
    ⟨lt_of_lt_of_le hlt hfirst.length_le, (hfirst.getElem hlt).symm⟩

theorem eq_of_taskIndex (hj : j < script.program.ledger.origins.length)
    (hk : k < script.program.ledger.origins.length)
    (h : taskIndex (script.id j) = taskIndex (script.id k)) : j = k :=
  script.id_distinct j k hj hk (Slot.eq_of_taskIndex h)

/-- The tasks of a program fit the table. -/
theorem length_origins_le (script : Script) :
    script.program.ledger.origins.length ≤ Limits.tasks := by
  have hinjective : Function.Injective
      fun k : Fin script.program.ledger.origins.length ↦ taskIndex (script.id k) := by
    intro j k h
    exact Fin.ext (script.eq_of_taskIndex j.isLt k.isLt h)
  simpa using Fintype.card_le_of_injective _ hinjective

/-- A task table and the counts of a reporter, after the steps of a ledger. Every task has its
entry, with the call that it last reported, and no other entry is used. -/
structure Kept (script : Script) (l : Ledger) (spawned : Std.HashMap UInt64 UInt64)
    (tasks : Vector TaskRecord Limits.tasks) : Prop where
  spawnedAt (site : UInt64) : spawned.getD site 0 = UInt64.ofNat (l.spawnedAt site)
  entry (k : Nat) (o : Origin) (h : l.origins[k]? = some o) :
    ∃ call, tasks.get (taskIndex (script.id k)) = { o.task (script.id k) with call := call }.record
  only (place : Fin Limits.tasks) (h : (tasks.get place).isEmpty = false) :
    ∃ k o, l.origins[k]? = some o ∧ taskIndex (script.id k) = place

theorem kept_empty (script : Script) :
    script.Kept .empty ∅ (Vector.replicate _ TaskRecord.zero) where
  spawnedAt site := by
    simp [Ledger.spawnedAt, Ledger.empty]
  entry k o h := by
    simp [Ledger.empty] at h
  only place h := by
    have hzero : TaskRecord.zero.isEmpty = true := rfl
    simp [Vector.get, hzero] at h

/-- A spawn enters its task in the table. -/
theorem Kept.spawn {spawned : Std.HashMap UInt64 UInt64} {tasks : Vector TaskRecord Limits.tasks}
    (h : script.Kept (script.program.ledgerAt n) spawned tasks) {site : UInt64} {label : String}
    (hstep : script.program[n]? = some (.spawn site label)) :
    let id := script.id (script.program.ledgerAt n).origins.length
    let ordinal := spawned.getD site 0
    script.Kept (script.program.ledgerAt (n + 1)) (spawned.insert site (ordinal + 1))
      (tasks.set (taskIndex id) (Task.spawned id site ordinal label).record) := by
  intro id ordinal
  have hordinal : ordinal = UInt64.ofNat ((script.program.ledgerAt n).spawnedAt site) :=
    h.spawnedAt site
  have hnext := Program.ledgerAt_succ hstep
  have hlength : (script.program.ledgerAt n).origins.length <
      script.program.ledger.origins.length := by
    have hprefix := (script.program.origins_ledgerAt (n + 1)).length_le
    rw [hnext] at hprefix
    simp only [Ledger.next, List.length_append, List.length_singleton] at hprefix
    omega
  rw [hnext]
  constructor
  · intro other
    simp only [Ledger.next, Ledger.spawnedAt, List.countP_append, List.countP_singleton]
    by_cases hsite : site = other
    · subst hsite
      simp only [Std.HashMap.getD_insert_self, decide_true, if_true, UInt64.ofNat_add, hordinal]
      rfl
    · have hkept := h.spawnedAt other
      simp only [Std.HashMap.getD_insert, beq_iff_eq, hsite, if_false, hkept, decide_false]
      rfl
  · intro k o hk
    simp only [Ledger.next] at hk
    by_cases hlt : k < (script.program.ledgerAt n).origins.length
    · rw [List.getElem?_append_left hlt] at hk
      obtain ⟨call, hentry⟩ := h.entry k o hk
      have hplace : taskIndex (script.id k) ≠ taskIndex id := by
        intro hsame
        have hnumbers := script.eq_of_taskIndex (hlt.trans hlength) hlength hsame
        omega
      exact ⟨call, (get_set_of_ne tasks hplace _).trans hentry⟩
    · have hlast : k = (script.program.ledgerAt n).origins.length := by
        have hbound := (List.getElem?_eq_some_iff.1 hk).1
        simp only [List.length_append, List.length_singleton] at hbound
        omega
      subst hlast
      rw [List.getElem?_concat_length] at hk
      obtain rfl := Option.some.inj hk
      refine ⟨none, (get_set_self tasks (taskIndex id) _).trans ?_⟩
      rw [hordinal]
      rfl
  · intro place hused
    simp only [Ledger.next]
    by_cases hplace : taskIndex id = place
    · exact ⟨_, _, List.getElem?_concat_length, hplace⟩
    · rw [get_set_of_ne tasks (Ne.symm hplace)] at hused
      obtain ⟨k, o, hk, hindex⟩ := h.only place hused
      have hlt := (List.getElem?_eq_some_iff.1 hk).1
      exact ⟨k, o, by rw [List.getElem?_append_left hlt, hk], hindex⟩

/-- A report enters its task again, with the call that it carries. -/
theorem Kept.report {spawned : Std.HashMap UInt64 UInt64} {tasks : Vector TaskRecord Limits.tasks}
    (h : script.Kept (script.program.ledgerAt n) spawned tasks) {payload : Payload}
    (hstep : script.program[n]? = some (.report k payload))
    (hk : (script.program.ledgerAt n).origins[k]? = some o) :
    script.Kept (script.program.ledgerAt (n + 1)) spawned
      (tasks.set (taskIndex (script.id k))
        ((⟨k, o, payload⟩ : Announcement).reporter (script.id k)).record) := by
  rw [Program.ledgerAt_report hstep hk]
  constructor
  · exact h.spawnedAt
  · intro j a hj
    change (script.program.ledgerAt n).origins[j]? = some a at hj
    by_cases hsame : j = k
    · subst hsame
      obtain rfl := Option.some.inj (hj.symm.trans hk)
      exact ⟨payload.call?, get_set_self tasks _ _⟩
    · obtain ⟨call, hentry⟩ := h.entry j a hj
      have hplace : taskIndex (script.id j) ≠ taskIndex (script.id k) := by
        intro hindex
        have hjlt := (List.getElem?_eq_some_iff.1 (origin_of_ledgerAt hj)).1
        have hklt := (List.getElem?_eq_some_iff.1 (origin_of_ledgerAt hk)).1
        exact hsame (script.eq_of_taskIndex hjlt hklt hindex)
      exact ⟨call, (get_set_of_ne tasks hplace _).trans hentry⟩
  · intro place hused
    by_cases hplace : taskIndex (script.id k) = place
    · exact ⟨k, o, hk, hplace⟩
    · rw [get_set_of_ne tasks (Ne.symm hplace)] at hused
      exact h.only place hused

/-- What is read back of a task but for its call. -/
theorem task_record_origin (o : Origin) (id : Int64) (call : Option Call) :
    ∃ read, { o.task id with call := call : Task }.record.task =
      { o.task id with call := read } := by
  have hlabel : (Buffer.ofPadded Limits.text (padded Limits.text o.label)).paddedText =
      padded Limits.text o.label := by
    rw [Buffer.paddedText_ofPadded, padded_eq_self (fitsPadded_padded _ _)]
  refine ⟨{ o.task id with call := call : Task }.record.task.call, ?_⟩
  simp only [Task.record, TaskRecord.task, Origin.task, Task.spawned, hlabel]

/-- A spawned task is found under its id. -/
theorem Kept.task? {spawned : Std.HashMap UInt64 UInt64} {s : Slot}
    (h : script.Kept l spawned s.tasks) (hk : l.origins[k]? = some o) (hid : script.id k ≠ 0) :
    ∃ call, s.task? (script.id k) = some { o.task (script.id k) with call := call } := by
  obtain ⟨call, hentry⟩ := h.entry k o hk
  obtain ⟨read, hread⟩ := task_record_origin o (script.id k) call
  refine ⟨read, ?_⟩
  have hrecord : s.taskRecord (script.id k) =
      { o.task (script.id k) with call := call : Task }.record := hentry
  have hused : ({ o.task (script.id k) with call := call : Task }.record).isEmpty = false :=
    decide_eq_false hid
  unfold Slot.task?
  simp only [hrecord, hused, hread, true_and]
  exact if_pos rfl

/-- Looking for the identity of a spawned task finds no other one. -/
theorem Kept.eq_of_identity {spawned : Std.HashMap UInt64 UInt64} {s : Slot} {t : Task}
    (h : script.Kept (script.program.ledgerAt n) spawned s.tasks)
    (hk : (script.program.ledgerAt n).origins[k]? = some o)
    (hfound : s.findTask? o.site o.ordinal = some t) :
    t = (s.taskRecord (script.id k)).task := by
  obtain ⟨r, hr, rfl⟩ := Option.map_eq_some_iff.1 hfound
  obtain ⟨hused, hsite, hordinal⟩ :
      r.isEmpty = false ∧ r.site = o.site ∧ r.ordinal = o.ordinal := by
    simpa using List.find?_some hr
  obtain ⟨place, rfl⟩ : ∃ place : Fin Limits.tasks, s.tasks.get place = r := by
    obtain ⟨place, hplace, hr⟩ := List.getElem_of_mem (List.mem_of_find?_eq_some hr)
    rw [Vector.length_toList] at hplace
    exact ⟨⟨place, hplace⟩, hr⟩
  obtain ⟨j, a, hj, rfl⟩ := h.only place hused
  obtain ⟨call, hrecord⟩ := h.entry j a hj
  rw [hrecord] at hsite hordinal
  have hidentity : a.identity = o.identity := Prod.ext hsite hordinal
  have hfew : script.program.ledger.origins.length ≤ 2 ^ 64 :=
    script.length_origins_le.trans (by decide)
  have hjk := Program.eq_of_identity hfew (origin_of_ledgerAt hj) (origin_of_ledgerAt hk) hidentity
  rw [hjk]
  rfl

end Script

end Turnstile
