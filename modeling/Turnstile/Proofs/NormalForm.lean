import Mathlib.Algebra.Group.Int.Defs
import Mathlib.Algebra.Group.Nat.Defs
import Turnstile.Event.Basic
import Turnstile.Proofs.Text

/-!
# The normal form of an event

A record has a fixed size, so an event that is stored and read again comes back in a normal form:
counted texts are cut to their buffers, padded texts moreover stop before their first zero
character, and lists keep as many entries as there is room for. Everything else comes back as it
was, numbers over their full range and doubles bit by bit. `Event.normal_form` collects what holds
of the normal form: it is what is read back, it is stored in the same record, it is the event itself
if that keeps the bounds (`Event.IsNormal`), and the record holds zero bytes wherever its tags and
counts select nothing (`EventRecord.selected`).

The statements are proved for values, calls, tasks and payloads in turn, each from those of its
parts. A task that claims to carry a call with the number that stands for no call is outside: its
record says that it carries none.
-/

set_option autoImplicit false
set_option relaxedAutoImplicit false

namespace Turnstile

/-! ### Counted tables -/

section Tables

variable {α β : Type} {n : Nat}

theorem tableOf_take (zero : α) (entries : List α) :
    tableOf n zero (entries.take n) = tableOf n zero entries := by
  apply Vector.toList_inj.1
  have hrest : n - (entries.take n).length = n - entries.length := by
    rw [List.length_take]
    omega
  rw [toList_tableOf, toList_tableOf, hrest, List.take_take, Nat.min_self]

/-- Keep what `select` keeps of the first `count` entries of a table, and zero entries after them.
-/
def selectedEntries (zero : α) (select : α → α) (count : Nat) (table : Vector α n) : Vector α n :=
  tableOf n zero ((table.toList.take count).map select)

/-- A table written from a list holds nothing past the count of what was written. -/
theorem selectedEntries_tableOf (n : Nat) (zero : α) {select : α → α} {entries : List α}
    (hselect : ∀ a ∈ entries, select a = a) :
    selectedEntries zero select (min entries.length n) (tableOf n zero entries) =
      tableOf n zero entries := by
  have hmap : (entries.take n).map select = (entries.take n).map id :=
    List.map_congr_left fun a ha ↦ hselect a (List.mem_of_mem_take ha)
  rw [List.map_id] at hmap
  rw [selectedEntries, take_tableOf, hmap, tableOf_take]

theorem min_length_map_take (f : α → β) (room : Nat) (entries : List α) :
    min ((entries.take room).map f).length room = min entries.length room := by
  rw [List.length_map, List.length_take]
  omega

theorem toNat_ofNat_min (count : Nat) {room : Nat} (h : room < 2 ^ 32) :
    (UInt32.ofNat (min count room)).toNat = min count room :=
  UInt32.toNat_ofNat_of_lt' (lt_of_le_of_lt (Nat.min_le_right _ _) h)

end Tables

namespace Buffer

variable {n : Nat}

/-- The first `count` bytes of a buffer, and zero bytes after them. -/
def counted (b : Buffer n) (count : Nat) : Buffer n := ofBytes n (b.toList.take count)

/-- The bytes of a buffer before its first zero byte, and zero bytes after them. -/
def unpadded (b : Buffer n) : Buffer n := ofBytes n (b.toList.takeWhile (· ≠ 0))

theorem counted_ofBytes (bytes : List UInt8) :
    (ofBytes n bytes).counted (min bytes.length n) = ofBytes n bytes := by
  simp only [counted, ofBytes]
  rw [take_tableOf, tableOf_take]

theorem unpadded_ofPadded (s : String) : (ofPadded n s).unpadded = ofPadded n s := by
  have hfits := fitsPadded_padded n s
  have hread : (ofPadded n s).toList.takeWhile (· ≠ 0) = utf8 (padded n s) := by
    rw [ofPadded, toList_ofBytes hfits.1, List.takeWhile_append_of_pos]
    · rw [List.takeWhile_replicate]
      simp
    · intro b hb
      exact decide_eq_true (ne_zero_of_mem_utf8 hfits.2 hb)
  rw [unpadded, hread, ofPadded]

end Buffer

/-! ### Values -/

namespace Value

/-- The value that its record gives back: a text is cut to its buffer. -/
def normal : Value → Value
  | .text kind s => .text kind (fitting Limits.text s)
  | v => v

/-- A value whose text, if it is one, fits its buffer. -/
def IsNormal : Value → Prop
  | .text _ s => Fits Limits.text s
  | _ => True

theorem isNormal_normal (v : Value) : v.normal.IsNormal := by
  cases v with
  | text kind s => exact fits_fitting Limits.text s
  | _ => trivial

theorem normal_eq_self {v : Value} (h : v.IsNormal) : v.normal = v := by
  cases v with
  | text kind s => rw [normal, fitting_eq_self h]
  | _ => rfl

theorem value_record (v : Value) : v.record.value = v.normal := by
  cases v with
  | number kind n => simp [record, ValueRecord.value, tag, Tag.ofNumber?_code, normal]
  | bool b => cases b <;> simp [record, ValueRecord.value, tag, Tag.ofNumber?_code, normal]
  | float x => simp [record, ValueRecord.value, tag, Tag.ofNumber?_code, normal]
  | count kind n => simp [record, ValueRecord.value, tag, Tag.ofNumber?_code, normal]
  | text kind s =>
    have hfits := fits_fitting Limits.text s
    have hlength : (UInt32.ofNat (utf8 (fitting Limits.text s)).length).toNat =
        (utf8 (fitting Limits.text s)).length :=
      UInt32.toNat_ofNat_of_lt' (lt_of_le_of_lt hfits (by decide))
    simp [record, ValueRecord.value, tag, Tag.ofNumber?_code, normal, hlength,
      Buffer.text_ofBytes_utf8 hfits]
  | unsupported => rfl

theorem record_normal (v : Value) : v.normal.record = v.record := by
  cases v with
  | text kind s => simp only [normal, record, tag, fitting_eq_self (fits_fitting Limits.text s)]
  | _ => rfl

end Value

/-- What the tag and the length of a value record select, everything else zero. -/
def ValueRecord.selected (r : ValueRecord) : ValueRecord :=
  let blank := { zero with tag := r.tag }
  match Value.Tag.ofNumber? r.tag with
  | some (.number _) | some (.count _) => { blank with integer := r.integer }
  | some .bool => { blank with boolean := r.boolean }
  | some .float => { blank with float := r.float }
  | some (.text _) =>
    { blank with textLength := r.textLength, text := r.text.counted r.textLength.toNat }
  | some .unsupported => { blank with mark := r.mark }
  | none => blank

theorem Value.selected_record (v : Value) : v.record.selected = v.record := by
  cases v with
  | text kind s =>
    have hfits := fits_fitting Limits.text s
    have hlength : (UInt32.ofNat (utf8 (fitting Limits.text s)).length).toNat =
        min (utf8 (fitting Limits.text s)).length Limits.text := by
      rw [Nat.min_eq_left hfits]
      exact UInt32.toNat_ofNat_of_lt' (lt_of_le_of_lt hfits (by decide))
    simp [record, ValueRecord.selected, tag, Tag.ofNumber?_code, hlength, Buffer.counted_ofBytes]
  | unsupported => rfl
  | _ => simp [record, ValueRecord.selected, tag, Tag.ofNumber?_code]

/-! ### Calls -/

namespace Call

/-- The call that its record gives back. -/
def normal (c : Call) : Call where
  number := c.number
  arguments := (c.arguments.take Limits.callValues).map Value.normal
  results := (c.results.take Limits.callValues).map Value.normal

/-- A call with no more values than its record holds, each in normal form. -/
structure IsNormal (c : Call) : Prop where
  arguments_le : c.arguments.length ≤ Limits.callValues
  results_le : c.results.length ≤ Limits.callValues
  arguments : ∀ v ∈ c.arguments, v.IsNormal
  results : ∀ v ∈ c.results, v.IsNormal

end Call

/-- Cutting a list to its first entries and each of them to its normal form gives entries in normal
form. -/
theorem forall_mem_map_normal {α : Type} {normal : α → α} {IsNormal : α → Prop}
    (hnormal : ∀ a, IsNormal (normal a)) (room : Nat) (entries : List α) :
    ((entries.take room).map normal).length ≤ room ∧
      ∀ a ∈ (entries.take room).map normal, IsNormal a := by
  constructor
  · rw [List.length_map, List.length_take]
    exact Nat.min_le_left _ _
  · intro a ha
    obtain ⟨b, -, rfl⟩ := List.mem_map.1 ha
    exact hnormal b

/-- A short list of entries in normal form is not changed. -/
theorem map_normal_eq_self {α : Type} {normal : α → α} {IsNormal : α → Prop}
    (hself : ∀ {a}, IsNormal a → normal a = a) {room : Nat} {entries : List α}
    (hroom : entries.length ≤ room) (hentries : ∀ a ∈ entries, IsNormal a) :
    (entries.take room).map normal = entries := by
  have hmap : entries.map normal = entries.map id :=
    List.map_congr_left fun a ha ↦ hself (hentries a ha)
  rw [List.take_of_length_le hroom, hmap, List.map_id]

/-- Entries in normal form are stored in the same table. -/
theorem tableOf_map_normal {α β : Type} {normal : α → α} {record : α → β}
    (hrecord : ∀ a, record (normal a) = record a) (room : Nat) (zero : β) (entries : List α) :
    tableOf room zero (((entries.take room).map normal).map record) =
      tableOf room zero (entries.map record) := by
  have hmap : (entries.take room).map (record ∘ normal) = (entries.take room).map record :=
    List.map_congr_left fun a _ ↦ hrecord a
  rw [List.map_map, hmap, List.map_take, tableOf_take]

namespace CallRecord

theorem values_table (values : List Value) :
    CallRecord.values (UInt32.ofNat (min values.length Limits.callValues)) (table values) =
      (values.take Limits.callValues).map Value.normal := by
  have hread := take_tableOf Limits.callValues ValueRecord.zero (values.map Value.record)
  rw [List.length_map] at hread
  have hvalue : (values.take Limits.callValues).map (ValueRecord.value ∘ Value.record) =
      (values.take Limits.callValues).map Value.normal :=
    List.map_congr_left fun v _ ↦ Value.value_record v
  rw [CallRecord.values, table, toNat_ofNat_min _ (by decide), hread, ← List.map_take, List.map_map,
    hvalue]

/-- What the counts of a call record select, everything else zero. -/
def selected (r : CallRecord) : CallRecord where
  number := r.number
  argumentCount := r.argumentCount
  resultCount := r.resultCount
  gap := 0
  arguments :=
    selectedEntries ValueRecord.zero ValueRecord.selected r.argumentCount.toNat r.arguments
  results := selectedEntries ValueRecord.zero ValueRecord.selected r.resultCount.toNat r.results

theorem selectedEntries_table (values : List Value) :
    selectedEntries ValueRecord.zero ValueRecord.selected
        (UInt32.ofNat (min values.length Limits.callValues)).toNat (table values) =
      table values := by
  have hselect : ∀ r ∈ values.map Value.record, r.selected = r := by
    intro r hr
    obtain ⟨v, -, rfl⟩ := List.mem_map.1 hr
    exact v.selected_record
  have htable := selectedEntries_tableOf Limits.callValues ValueRecord.zero hselect
  rwa [List.length_map, ← toNat_ofNat_min values.length (by decide)] at htable

end CallRecord

namespace Call

theorem isNormal_normal (c : Call) : c.normal.IsNormal := by
  have harguments := forall_mem_map_normal Value.isNormal_normal Limits.callValues c.arguments
  have hresults := forall_mem_map_normal Value.isNormal_normal Limits.callValues c.results
  exact ⟨harguments.1, hresults.1, harguments.2, hresults.2⟩

theorem normal_eq_self {c : Call} (h : c.IsNormal) : c.normal = c := by
  rw [normal, map_normal_eq_self Value.normal_eq_self h.arguments_le h.arguments,
    map_normal_eq_self Value.normal_eq_self h.results_le h.results]

theorem call_record (c : Call) : c.record.call = c.normal := by
  rw [record, CallRecord.call, CallRecord.values_table, CallRecord.values_table, normal]

theorem record_normal (c : Call) : c.normal.record = c.record := by
  simp only [record, normal, CallRecord.table, min_length_map_take,
    tableOf_map_normal Value.record_normal]

theorem selected_record (c : Call) : c.record.selected = c.record := by
  rw [record, CallRecord.selected, CallRecord.selectedEntries_table,
    CallRecord.selectedEntries_table]

end Call

/-! ### Tasks -/

namespace Task

/-- The task that its record gives back. -/
def normal (t : Task) : Task :=
  { t with label := padded Limits.text t.label, call := t.call.map Call.normal }

/-- A task whose texts and lists keep the bounds of its record. -/
structure IsNormal (t : Task) : Prop where
  label : FitsPadded Limits.text t.label
  call : ∀ c ∈ t.call, c.IsNormal

/-- A task that carries no call under the number that stands for none. -/
def IsStorable (t : Task) : Prop := ∀ c ∈ t.call, c.number ≠ Call.noNumber

theorem isNormal_normal (t : Task) : t.normal.IsNormal where
  label := fitsPadded_padded Limits.text t.label
  call c hc := by
    obtain ⟨d, -, rfl⟩ := Option.map_eq_some_iff.1 hc
    exact d.isNormal_normal

theorem normal_eq_self {t : Task} (h : t.IsNormal) : t.normal = t := by
  have hcall : t.call.map Call.normal = t.call := by
    cases hc : t.call with
    | none => rfl
    | some c => rw [Option.map_some, Call.normal_eq_self (h.call c hc)]
  rw [normal, padded_eq_self h.label, hcall]

theorem task_record {t : Task} (h : t.IsStorable) : t.record.task = t.normal := by
  cases hc : t.call with
  | none => simp [record, TaskRecord.task, normal, hc, Buffer.paddedText_ofPadded]
  | some c =>
    have hnumber : c.number ≠ Call.noNumber := h c hc
    simp [record, TaskRecord.task, normal, hc, hnumber, Buffer.paddedText_ofPadded,
      Call.call_record]

theorem record_normal (t : Task) : t.normal.record = t.record := by
  have hlabel : Buffer.ofPadded Limits.text (padded Limits.text t.label) =
      Buffer.ofPadded Limits.text t.label := by
    rw [Buffer.ofPadded, padded_eq_self (fitsPadded_padded _ _), Buffer.ofPadded]
  cases hc : t.call with
  | none => simp [record, normal, hc, hlabel]
  | some c => simp only [record, normal, hc, hlabel, Option.map_some, Call.record_normal]; rfl

/-- Whatever call a task carries, what is read back of it can be stored again and again. -/
theorem task_record_task (t : Task) : t.record.task.record.task = t.record.task := by
  obtain ⟨u, hu, hread⟩ : ∃ u : Task, u.IsStorable ∧ t.record.task = u.normal := by
    by_cases hstorable : t.IsStorable
    · exact ⟨t, hstorable, task_record hstorable⟩
    · refine ⟨{ t with call := none }, by simp [IsStorable], ?_⟩
      cases hc : t.call with
      | none => exact absurd (by simp [IsStorable, hc]) hstorable
      | some c =>
        have hnumber : c.number = Call.noNumber := by simpa [IsStorable, hc] using hstorable
        simp [record, TaskRecord.task, normal, hc, hnumber, Buffer.paddedText_ofPadded]
  rw [hread, record_normal, task_record hu]

end Task

/-- What the number of its call selects in a task record, everything else zero. -/
def TaskRecord.selected (r : TaskRecord) : TaskRecord :=
  { r with
    label := r.label.unpadded
    call := if r.callNumber = Call.noNumber then CallRecord.zero else r.call.selected }

theorem Task.selected_record {t : Task} (h : t.IsStorable) : t.record.selected = t.record := by
  cases hc : t.call with
  | none => simp [record, TaskRecord.selected, hc, Buffer.unpadded_ofPadded]
  | some c =>
    have hnumber : c.number ≠ Call.noNumber := h c hc
    simp [record, TaskRecord.selected, hc, hnumber, Buffer.unpadded_ofPadded,
      Call.selected_record]

/-! ### Payloads -/

namespace Variable

/-- The variable that its record gives back. -/
def normal (v : Variable) : Variable :=
  ⟨padded Limits.text v.name, padded Limits.text v.value, padded Limits.text v.typeName⟩

/-- A variable whose texts keep the bounds of its record. -/
structure IsNormal (v : Variable) : Prop where
  name : FitsPadded Limits.text v.name
  value : FitsPadded Limits.text v.value
  typeName : FitsPadded Limits.text v.typeName

theorem isNormal_normal (v : Variable) : v.normal.IsNormal :=
  ⟨fitsPadded_padded _ _, fitsPadded_padded _ _, fitsPadded_padded _ _⟩

theorem normal_eq_self {v : Variable} (h : v.IsNormal) : v.normal = v := by
  rw [normal, padded_eq_self h.name, padded_eq_self h.value, padded_eq_self h.typeName]

theorem toVariable_record (v : Variable) : v.record.toVariable = v.normal := by
  simp only [record, VariableRecord.toVariable, Buffer.paddedText_ofPadded, normal]

theorem record_normal (v : Variable) : v.normal.record = v.record := by
  simp only [record, normal, Buffer.ofPadded, padded_eq_self (fitsPadded_padded _ _)]

end Variable

/-- The texts of a variable record, everything after them zero. -/
def VariableRecord.selected (r : VariableRecord) : VariableRecord :=
  ⟨r.name.unpadded, r.value.unpadded, r.typeName.unpadded⟩

theorem Variable.selected_record (v : Variable) : v.record.selected = v.record := by
  simp only [record, VariableRecord.selected, Buffer.unpadded_ofPadded]

namespace Dump

/-- The dump that its record gives back. -/
def normal (d : Dump) : Dump :=
  ⟨padded Limits.text d.point, (d.vars.take Limits.dumpVariables).map Variable.normal⟩

/-- A dump that keeps the bounds of its record. -/
structure IsNormal (d : Dump) : Prop where
  point : FitsPadded Limits.text d.point
  vars_le : d.vars.length ≤ Limits.dumpVariables
  vars : ∀ v ∈ d.vars, v.IsNormal

theorem isNormal_normal (d : Dump) : d.normal.IsNormal := by
  have hvars := forall_mem_map_normal Variable.isNormal_normal Limits.dumpVariables d.vars
  exact ⟨fitsPadded_padded _ _, hvars.1, hvars.2⟩

theorem normal_eq_self {d : Dump} (h : d.IsNormal) : d.normal = d := by
  rw [normal, padded_eq_self h.point, map_normal_eq_self Variable.normal_eq_self h.vars_le h.vars]

theorem toNat_count (d : Dump) :
    d.record.count.toNat = min d.vars.length Limits.dumpVariables :=
  UInt64.toNat_ofNat_of_lt' (lt_of_le_of_lt (Nat.min_le_right _ _) (by decide))

theorem dump_record (d : Dump) : d.record.dump = d.normal := by
  have hread := take_tableOf Limits.dumpVariables VariableRecord.zero (d.vars.map Variable.record)
  have hvars : (d.vars.take Limits.dumpVariables).map
      (VariableRecord.toVariable ∘ Variable.record) =
        (d.vars.take Limits.dumpVariables).map Variable.normal :=
    List.map_congr_left fun v _ ↦ v.toVariable_record
  rw [List.length_map, ← toNat_count] at hread
  rw [DumpRecord.dump]
  simp only [record] at hread ⊢
  rw [hread, Buffer.paddedText_ofPadded, ← List.map_take, List.map_map, hvars, normal]

theorem record_normal (d : Dump) : d.normal.record = d.record := by
  simp only [record, normal, min_length_map_take, tableOf_map_normal Variable.record_normal,
    Buffer.ofPadded, padded_eq_self (fitsPadded_padded _ _)]

end Dump

/-- What its count selects in a dump record, everything else zero. -/
def DumpRecord.selected (r : DumpRecord) : DumpRecord where
  count := r.count
  point := r.point.unpadded
  vars := selectedEntries VariableRecord.zero VariableRecord.selected r.count.toNat r.vars

theorem Dump.selected_record (d : Dump) : d.record.selected = d.record := by
  have hselect : ∀ r ∈ d.vars.map Variable.record, r.selected = r := by
    intro r hr
    obtain ⟨v, -, rfl⟩ := List.mem_map.1 hr
    exact v.selected_record
  have hvars := selectedEntries_tableOf Limits.dumpVariables VariableRecord.zero hselect
  rw [List.length_map, ← toNat_count] at hvars
  rw [DumpRecord.selected]
  simp only [record] at hvars ⊢
  rw [hvars, Buffer.unpadded_ofPadded]

namespace Message

/-- The message that its record gives back. -/
def normal (m : Message) : Message := ⟨m.body.take Limits.text⟩

/-- A message that its record holds whole. -/
def IsNormal (m : Message) : Prop := m.body.length ≤ Limits.text

theorem isNormal_normal (m : Message) : m.normal.IsNormal := by
  rw [IsNormal, normal, List.length_take]
  exact Nat.min_le_left _ _

theorem normal_eq_self {m : Message} (h : m.IsNormal) : m.normal = m := by
  rw [normal, List.take_of_length_le h]

theorem message_record (m : Message) : m.record.message = m.normal := by
  simp only [record, MessageRecord.message, toNat_ofNat_min m.body.length (by decide : 64 < 2 ^ 32),
    Buffer.ofBytes, take_tableOf, normal]

theorem record_normal (m : Message) : m.normal.record = m.record := by
  have hlength : min (m.body.take Limits.text).length Limits.text =
      min m.body.length Limits.text := by
    rw [List.length_take]
    omega
  simp only [record, normal, hlength, Buffer.ofBytes, tableOf_take]

end Message

/-- What its length selects in a message record, everything else zero. -/
def MessageRecord.selected (r : MessageRecord) : MessageRecord :=
  ⟨r.length, 0, r.body.counted r.length.toNat⟩

theorem Message.selected_record (m : Message) : m.record.selected = m.record := by
  simp only [record, MessageRecord.selected,
    toNat_ofNat_min m.body.length (by decide : 64 < 2 ^ 32), Buffer.counted_ofBytes]

namespace Payload

/-- The payload that its record gives back. -/
def normal : Payload → Payload
  | .dump d => .dump d.normal
  | .call c => .call c.normal
  | .send m => .send m.normal
  | .receive m => .receive m.normal
  | .schedule => .schedule

/-- A payload that keeps the bounds of its record. -/
def IsNormal : Payload → Prop
  | .dump d => d.IsNormal
  | .call c => c.IsNormal
  | .send m => m.IsNormal
  | .receive m => m.IsNormal
  | .schedule => True

theorem isNormal_normal (p : Payload) : p.normal.IsNormal := by
  cases p with
  | dump d => exact d.isNormal_normal
  | call c => exact c.isNormal_normal
  | send m => exact m.isNormal_normal
  | receive m => exact m.isNormal_normal
  | schedule => trivial

theorem normal_eq_self {p : Payload} (h : p.IsNormal) : p.normal = p := by
  cases p with
  | dump d => rw [normal, Dump.normal_eq_self h]
  | call c => rw [normal, Call.normal_eq_self h]
  | send m => rw [normal, Message.normal_eq_self h]
  | receive m => rw [normal, Message.normal_eq_self h]
  | schedule => rfl

end Payload

/-! ### Events -/

namespace Event

/-- The event that its record gives back. -/
def normal (e : Event) : Event := { e with task := e.task.normal, payload := e.payload.normal }

/-- An event that keeps the bounds of its record. -/
structure IsNormal (e : Event) : Prop where
  task : e.task.IsNormal
  payload : e.payload.IsNormal

/-- An event whose slot is told by the sign of its record, and whose task carries no call under the
number that stands for none. -/
structure IsStorable (e : Event) : Prop where
  slot : e.slot.toNat < 2 ^ 31
  task : e.task.IsStorable

theorem isNormal_normal (e : Event) : e.normal.IsNormal :=
  ⟨e.task.isNormal_normal, e.payload.isNormal_normal⟩

theorem normal_eq_self {e : Event} (h : e.IsNormal) : e.normal = e := by
  rw [normal, Task.normal_eq_self h.task, Payload.normal_eq_self h.payload]

end Event

theorem toInt_toInt32 {n : UInt64} (h : n.toNat < 2 ^ 31) :
    n.toUInt32.toInt32.toInt = n.toNat := by
  have hword : n.toUInt32.toNat = n.toNat := by
    rw [UInt64.toNat_toUInt32]
    omega
  change n.toUInt32.toBitVec.toInt = n.toNat
  rw [BitVec.toInt_eq_toNat_of_lt]
  · rw [UInt32.toNat_toBitVec, hword]
  · rw [UInt32.toNat_toBitVec, hword]
    omega

namespace EventRecord

/-- What its kind selects in an event record, everything else zero. -/
def selected (r : EventRecord) : EventRecord :=
  let blank := { zero with
    kind := r.kind
    slot := r.slot
    task := r.task.selected
    epoch := r.epoch
    stamp := r.stamp }
  match EventKind.ofCode? r.kind with
  | some .dump => { blank with dump := r.dump.selected }
  | some .call => { blank with call := r.call.selected }
  | some .send | some .receive => { blank with message := r.message.selected }
  | some .schedule | none => blank

end EventRecord

namespace Event

theorem payload_record (e : Event) : e.record.payload e.payload.kind = e.payload.normal := by
  cases hp : e.payload with
  | dump d => simp [record, EventRecord.payload, Payload.kind, Payload.normal, hp, d.dump_record]
  | call c => simp [record, EventRecord.payload, Payload.kind, Payload.normal, hp, c.call_record]
  | send m =>
    simp [record, EventRecord.payload, Payload.kind, Payload.normal, hp, m.message_record]
  | receive m =>
    simp [record, EventRecord.payload, Payload.kind, Payload.normal, hp, m.message_record]
  | schedule => simp [EventRecord.payload, Payload.kind, Payload.normal]

/-- The fields of an event record that do not depend on the kind. -/
theorem header_record (e : Event) :
    e.record.kind = e.payload.kind.code ∧ e.record.slot = e.slot.toUInt32.toInt32 ∧
      e.record.task = e.task.record ∧ e.record.epoch = e.epoch ∧ e.record.stamp = e.stamp := by
  cases hp : e.payload <;> simp [record, hp]

/-- An event is read back from its record in whatever form its task is. -/
theorem event?_record_of_slot {e : Event} (h : e.slot.toNat < 2 ^ 31) :
    e.record.event? = some { e with task := e.task.record.task, payload := e.payload.normal } := by
  obtain ⟨hkind, hslot, htask, hepoch, hstamp⟩ := e.header_record
  have hint := toInt_toInt32 h
  have hsign : ¬ e.slot.toUInt32.toInt32 < 0 := by
    rw [Int32.lt_iff_toInt_lt, hint]
    exact Int.not_lt.2 (Int.natCast_nonneg _)
  rw [EventRecord.event?, hkind, EventKind.ofCode?_code]
  simp only [hslot, if_neg hsign, hint, Int.toNat_natCast, UInt64.ofNat_toNat, htask, hepoch,
    hstamp, payload_record]

theorem event?_record {e : Event} (h : e.IsStorable) : e.record.event? = some e.normal := by
  rw [event?_record_of_slot h.slot, Task.task_record h.task, normal]

theorem record_normal (e : Event) : e.normal.record = e.record := by
  cases hp : e.payload <;>
    simp only [record, normal, hp, Payload.normal, Payload.kind, Task.record_normal,
      Dump.record_normal, Call.record_normal, Message.record_normal]

theorem selected_record {e : Event} (h : e.IsStorable) : e.record.selected = e.record := by
  have htask := Task.selected_record h.task
  cases hp : e.payload <;>
    simp [record, EventRecord.selected, hp, Payload.kind, EventKind.ofCode?_code, htask,
      Dump.selected_record, Call.selected_record, Message.selected_record]

/-- What is read back from the record of an event is its normal form, in which every text is the
longest start that its buffer holds. Normal forms are stored in the same bytes and are their own
normal forms; an event within the bounds comes back unchanged; and a record is zero wherever its
tags and counts select nothing. -/
theorem normal_form (e : Event) (hslot : e.slot.toNat < 2 ^ 31)
    (hcall : ∀ c ∈ e.task.call, c.number ≠ Call.noNumber) :
    (∀ s : String, LongestPrefix (Fits Limits.text) s (fitting Limits.text s) ∧
        LongestPrefix (FitsPadded Limits.text) s (padded Limits.text s)) ∧
      e.record.event? = some e.normal ∧
      Packed.pack e.normal.record = Packed.pack e.record ∧
      e.normal.normal = e.normal ∧
      (e.IsNormal → e.record.event? = some e) ∧
      e.record.selected = e.record := by
  have hstorable : e.IsStorable := ⟨hslot, hcall⟩
  have hread := event?_record hstorable
  refine ⟨fun s ↦ ⟨longestPrefix_fitting _ s, longestPrefix_padded _ s⟩, hread, ?_, ?_, ?_, ?_⟩
  · rw [record_normal]
  · exact normal_eq_self e.isNormal_normal
  · intro hnormal
    rw [hread, normal_eq_self hnormal]
  · exact selected_record hstorable

/-- An event that is too long in every way: its label has a zero character, the text of its first
argument has a character across the end of the buffer, and there are too many arguments, variables
and characters. -/
def overlong : Event where
  slot := 0x7FFFFFFF
  task := ⟨⟨0x1003⟩, -1, 0x100, 0, "main\x00worker",
    some ⟨10, .text .string (String.ofList (List.replicate 63 'a' ++ ['é'])) ::
      List.replicate 11 (.count .pointer 0xFFFFFFFFFFFFFFFF), []⟩⟩
  epoch := 0xFFFFFFFFFFFFFFFF
  stamp := 0
  payload := .dump ⟨String.ofList (List.replicate 65 'p'), List.replicate 129 ⟨"n", "1", "int"⟩⟩

theorem normal_form_overlong :
    overlong.slot.toNat < 2 ^ 31 ∧ (∀ c ∈ overlong.task.call, c.number ≠ Call.noNumber) ∧
      overlong.record.event? = some overlong.normal ∧
      Packed.pack overlong.normal.record = Packed.pack overlong.record := by
  have hslot : overlong.slot.toNat < 2 ^ 31 := by decide
  have hcall : ∀ c ∈ overlong.task.call, c.number ≠ Call.noNumber := by
    rintro c ⟨⟩
    decide
  have h := normal_form overlong hslot hcall
  exact ⟨hslot, hcall, h.2.1, h.2.2.1⟩

end Event

end Turnstile
