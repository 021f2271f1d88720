import Turnstile.Proofs.NormalForm

/-!
# What decoding reads

Decoding reads no more of a record than its tags and counts select. This is a statement about two
records: `EventRecord.Agrees` compares them where the tags and counts look, and nowhere else, and
two stretches of bytes that agree are read as the same event, or both as none
(`EventRecord.decoding_reads_selection`). The relation follows the nesting of the records. Two
counted tables have to agree on how many entries their counts read, not on the counts themselves,
and then entry by entry (`TablesAgree`). A counted text is such a table of bytes; a padded text has
to agree before its first zero byte (`Buffer.AgreePadded`).

How much agreement leaves open is told by `EventRecord.laidOver`. It keeps of a record what the tags
and counts select and takes everything else from another record, the counts past a full table
included; whatever that other record is, the result agrees with the first
(`EventRecord.agrees_laidOver`).
-/

set_option autoImplicit false
set_option relaxedAutoImplicit false

namespace Turnstile

/-! ### Counted tables -/

section Tables

variable {α β κ : Type} {n : Nat}

/-- Two counted tables whose counts read equally many entries, related pair by pair. What stands
behind these, and by how much a count passes the end of its table, does not matter. -/
structure TablesAgree (R : α → α → Prop) (count count' : Nat) (table table' : Vector α n) :
    Prop where
  counts : min count n = min count' n
  entries : ∀ (i : Nat) (h : i < n), i < count → R table[i] table'[i]

namespace TablesAgree

variable {R : α → α → Prop} {count count' : Nat} {table table' : Vector α n}

/-- Tables that agree are read as the same list if related entries are read alike. -/
theorem map_take (h : TablesAgree R count count' table table') {read : α → β}
    (hread : ∀ {a b}, R a b → read a = read b) :
    (table.toList.take count).map read = (table'.toList.take count').map read := by
  have hcounts := h.counts
  apply List.ext_getElem
  · simp only [List.length_map, List.length_take, Vector.length_toList, hcounts]
  · intro i hi hi'
    simp only [List.length_map, List.length_take, Vector.length_toList] at hi hi'
    have hentry := hread (h.entries i (by omega) (by omega))
    simpa using hentry

theorem take_eq (h : TablesAgree (· = ·) count count' table table') :
    table.toList.take count = table'.toList.take count' := by
  have hmap : (table.toList.take count).map id = (table'.toList.take count').map id :=
    h.map_take fun hab ↦ hab
  rwa [List.map_id, List.map_id] at hmap

end TablesAgree

/-- A count that reads as many entries as `count` does: `junk` if that one does, else `count`. -/
def overCount (toNat : κ → Nat) (room : Nat) (count junk : κ) : κ :=
  if min (toNat junk) room = min (toNat count) room then junk else count

/-- The first `count` entries of a table, each over the entry of another table at its place, and the
entries of that other table behind them. -/
def overEntries (lay : α → α → α) (count : Nat) (table junk : Vector α n) : Vector α n :=
  Vector.ofFn fun i ↦ if i < count then lay table[i] junk[i] else junk[i]

theorem tablesAgree_over {R : α → α → Prop} {lay : α → α → α} (hover : ∀ a junk, R a (lay a junk))
    (toNat : κ → Nat) (count junkCount : κ) (table junk : Vector α n) :
    TablesAgree R (toNat count) (toNat (overCount toNat n count junkCount)) table
      (overEntries lay (toNat count) table junk) where
  counts := by
    unfold overCount
    split
    · exact Eq.symm ‹_›
    · rfl
  entries i hi hcount := by
    simp only [overEntries, Vector.getElem_ofFn, if_pos hcount]
    exact hover _ _

/-- Where a list stops satisfying a test is seen from its entries up to and with that place. -/
theorem takeWhile_eq_of_take {test : α → Bool} {entries entries' : List α}
    (hlength : entries.length = entries'.length)
    (htake : entries.take ((entries.takeWhile test).length + 1) =
      entries'.take ((entries.takeWhile test).length + 1)) :
    entries.takeWhile test = entries'.takeWhile test := by
  induction entries generalizing entries' with
  | nil => rw [List.length_eq_zero_iff.1 hlength.symm]
  | cons a rest ih =>
    obtain ⟨a', rest', rfl⟩ := List.exists_cons_of_length_eq_add_one hlength.symm
    cases htest : test a with
    | false =>
      simp only [List.takeWhile_cons, htest] at htake ⊢
      simp_all
    | true =>
      simp only [List.takeWhile_cons, htest, if_true, List.length_cons, List.take_succ_cons,
        List.cons.injEq] at htake hlength ⊢
      obtain ⟨rfl, htake⟩ := htake
      simp only [htest, if_true, ih (Nat.succ_injective hlength) htake]

end Tables

namespace Buffer

variable {n : Nat}

/-- Two padded buffers that show the same bytes before their first zero byte. -/
def AgreePadded (b b' : Buffer n) : Prop :=
  b.toList.takeWhile (· ≠ 0) = b'.toList.takeWhile (· ≠ 0)

theorem AgreePadded.paddedText_eq {b b' : Buffer n} (h : AgreePadded b b') :
    b.paddedText = b'.paddedText := by
  rw [paddedText, paddedText, h]

/-- The bytes of a counted text, with those of another buffer behind them. -/
def overCounted (count : Nat) (b junk : Buffer n) : Buffer n :=
  overEntries (fun byte _ ↦ byte) count b junk

theorem tablesAgree_overCounted {κ : Type} (toNat : κ → Nat) (count junkCount : κ)
    (b junk : Buffer n) :
    TablesAgree (· = ·) (toNat count) (toNat (overCount toNat n count junkCount)) b
      (b.overCounted (toNat count) junk) := by
  apply tablesAgree_over
  intro byte junkByte
  rfl

/-- The bytes of a padded text and the zero byte that ends it, with those of another buffer behind
them. -/
def overPadded (b junk : Buffer n) : Buffer n :=
  b.overCounted ((b.toList.takeWhile (· ≠ 0)).length + 1) junk

theorem agreePadded_over (b junk : Buffer n) : AgreePadded b (b.overPadded junk) := by
  have hagree := tablesAgree_overCounted id ((b.toList.takeWhile (· ≠ 0)).length + 1)
    ((b.toList.takeWhile (· ≠ 0)).length + 1) b junk
  have htake := hagree.take_eq
  rw [overCount, if_pos rfl] at htake
  exact takeWhile_eq_of_take (by rw [Vector.length_toList, Vector.length_toList]) htake

end Buffer

/-! ### Values -/

namespace ValueRecord

/-- Two stored values of one tag with the same contents in the field that the tag selects. The mark
of an unsupported value is not looked at. -/
def Agrees (r r' : ValueRecord) : Prop :=
  r.tag = r'.tag ∧
    match Value.Tag.ofNumber? r.tag with
    | some (.number _) | some (.count _) => r.integer = r'.integer
    | some .bool => r.boolean = r'.boolean
    | some .float => r.float = r'.float
    | some (.text _) =>
      TablesAgree (· = ·) r.textLength.toNat r'.textLength.toNat r.text r'.text
    | some .unsupported | none => True

theorem Agrees.value_eq {r r' : ValueRecord} (h : r.Agrees r') : r.value = r'.value := by
  obtain ⟨htag, hfield⟩ := h
  rw [value, value, ← htag]
  cases hkind : Value.Tag.ofNumber? r.tag with
  | none => rfl
  | some kind =>
    cases kind with
    | text kind =>
      have htext : TablesAgree (· = ·) r.textLength.toNat r'.textLength.toNat r.text r'.text := by
        simpa only [hkind] using hfield
      simp only [Buffer.text, htext.take_eq]
    | unsupported => rfl
    | _ => simp_all

/-- The field that the tag of a stored value selects, everything else from another one. -/
def laidOver (r junk : ValueRecord) : ValueRecord :=
  let rest := { junk with tag := r.tag }
  match Value.Tag.ofNumber? r.tag with
  | some (.number _) | some (.count _) => { rest with integer := r.integer }
  | some .bool => { rest with boolean := r.boolean }
  | some .float => { rest with float := r.float }
  | some (.text _) =>
    { rest with
      textLength := overCount UInt32.toNat Limits.text r.textLength junk.textLength
      text := r.text.overCounted r.textLength.toNat junk.text }
  | some .unsupported | none => rest

theorem agrees_laidOver (r junk : ValueRecord) : r.Agrees (r.laidOver junk) := by
  unfold Agrees laidOver
  cases hkind : Value.Tag.ofNumber? r.tag with
  | none => exact ⟨rfl, trivial⟩
  | some kind =>
    cases kind with
    | text kind =>
      exact ⟨rfl, Buffer.tablesAgree_overCounted UInt32.toNat r.textLength junk.textLength _ _⟩
    | unsupported => exact ⟨rfl, trivial⟩
    | _ => exact ⟨rfl, rfl⟩

end ValueRecord

/-! ### Calls -/

namespace CallRecord

/-- Two stored calls of one number with the same values as far as their counts go. -/
structure Agrees (r r' : CallRecord) : Prop where
  number : r.number = r'.number
  arguments : TablesAgree ValueRecord.Agrees r.argumentCount.toNat r'.argumentCount.toNat
    r.arguments r'.arguments
  results : TablesAgree ValueRecord.Agrees r.resultCount.toNat r'.resultCount.toNat
    r.results r'.results

theorem Agrees.call_eq {r r' : CallRecord} (h : r.Agrees r') : r.call = r'.call := by
  have harguments := h.arguments.map_take ValueRecord.Agrees.value_eq
  have hresults := h.results.map_take ValueRecord.Agrees.value_eq
  rw [call, call, values, values, values, values, h.number, harguments, hresults]

/-- The number of a stored call and the values that its counts select, everything else from another
one. -/
def laidOver (r junk : CallRecord) : CallRecord where
  number := r.number
  argumentCount := overCount UInt32.toNat Limits.callValues r.argumentCount junk.argumentCount
  resultCount := overCount UInt32.toNat Limits.callValues r.resultCount junk.resultCount
  gap := junk.gap
  arguments := overEntries ValueRecord.laidOver r.argumentCount.toNat r.arguments junk.arguments
  results := overEntries ValueRecord.laidOver r.resultCount.toNat r.results junk.results

theorem agrees_laidOver (r junk : CallRecord) : r.Agrees (r.laidOver junk) where
  number := rfl
  arguments := tablesAgree_over ValueRecord.agrees_laidOver UInt32.toNat _ _ _ _
  results := tablesAgree_over ValueRecord.agrees_laidOver UInt32.toNat _ _ _ _

end CallRecord

/-! ### Tasks -/

namespace TaskRecord

/-- Two stored tasks with the same fields and the same label. Their calls are compared only if there
are any, which the number beside them tells. -/
structure Agrees (r r' : TaskRecord) : Prop where
  status : r.status = r'.status
  callNumber : r.callNumber = r'.callNumber
  id : r.id = r'.id
  site : r.site = r'.site
  ordinal : r.ordinal = r'.ordinal
  label : Buffer.AgreePadded r.label r'.label
  call : r.callNumber ≠ Call.noNumber → r.call.Agrees r'.call

theorem Agrees.task_eq {r r' : TaskRecord} (h : r.Agrees r') : r.task = r'.task := by
  have hcall : (if r.callNumber = Call.noNumber then none else some r.call.call) =
      if r'.callNumber = Call.noNumber then none else some r'.call.call := by
    rw [← h.callNumber]
    split
    · rfl
    · rw [(h.call ‹_›).call_eq]
  rw [task, task, h.status, h.id, h.site, h.ordinal, h.label.paddedText_eq, hcall]

/-- A stored task with its label and its call, if it has one, over those of another one. -/
def laidOver (r junk : TaskRecord) : TaskRecord :=
  { r with
    label := r.label.overPadded junk.label
    call := if r.callNumber = Call.noNumber then junk.call else r.call.laidOver junk.call }

theorem agrees_laidOver (r junk : TaskRecord) : r.Agrees (r.laidOver junk) := by
  have hlabel := Buffer.agreePadded_over r.label junk.label
  have hcall : r.callNumber ≠ Call.noNumber → r.call.Agrees (r.laidOver junk).call := by
    intro hnumber
    have hover : (r.laidOver junk).call = r.call.laidOver junk.call := if_neg hnumber
    rw [hover]
    exact r.call.agrees_laidOver junk.call
  unfold laidOver at hcall ⊢
  exact ⟨rfl, rfl, rfl, rfl, rfl, hlabel, hcall⟩

end TaskRecord

/-! ### Payloads -/

namespace VariableRecord

/-- Two stored variables with the same texts. -/
structure Agrees (r r' : VariableRecord) : Prop where
  name : Buffer.AgreePadded r.name r'.name
  value : Buffer.AgreePadded r.value r'.value
  typeName : Buffer.AgreePadded r.typeName r'.typeName

theorem Agrees.toVariable_eq {r r' : VariableRecord} (h : r.Agrees r') :
    r.toVariable = r'.toVariable := by
  rw [toVariable, toVariable, h.name.paddedText_eq, h.value.paddedText_eq,
    h.typeName.paddedText_eq]

/-- The texts of a stored variable over those of another one. -/
def laidOver (r junk : VariableRecord) : VariableRecord :=
  ⟨r.name.overPadded junk.name, r.value.overPadded junk.value, r.typeName.overPadded junk.typeName⟩

theorem agrees_laidOver (r junk : VariableRecord) : r.Agrees (r.laidOver junk) :=
  ⟨Buffer.agreePadded_over _ _, Buffer.agreePadded_over _ _, Buffer.agreePadded_over _ _⟩

end VariableRecord

namespace DumpRecord

/-- Two stored dumps at one point with the same variables as far as their counts go. -/
structure Agrees (r r' : DumpRecord) : Prop where
  point : Buffer.AgreePadded r.point r'.point
  vars : TablesAgree VariableRecord.Agrees r.count.toNat r'.count.toNat r.vars r'.vars

theorem Agrees.dump_eq {r r' : DumpRecord} (h : r.Agrees r') : r.dump = r'.dump := by
  rw [dump, dump, h.point.paddedText_eq, h.vars.map_take VariableRecord.Agrees.toVariable_eq]

/-- The point of a stored dump and the variables that its count selects, everything else from
another one. -/
def laidOver (r junk : DumpRecord) : DumpRecord where
  count := overCount UInt64.toNat Limits.dumpVariables r.count junk.count
  point := r.point.overPadded junk.point
  vars := overEntries VariableRecord.laidOver r.count.toNat r.vars junk.vars

theorem agrees_laidOver (r junk : DumpRecord) : r.Agrees (r.laidOver junk) where
  point := Buffer.agreePadded_over _ _
  vars := tablesAgree_over VariableRecord.agrees_laidOver UInt64.toNat _ _ _ _

end DumpRecord

namespace MessageRecord

/-- Two stored messages with the same bytes as far as their lengths go. -/
def Agrees (r r' : MessageRecord) : Prop :=
  TablesAgree (· = ·) r.length.toNat r'.length.toNat r.body r'.body

theorem Agrees.message_eq {r r' : MessageRecord} (h : r.Agrees r') : r.message = r'.message := by
  rw [message, message, h.take_eq]

/-- The bytes of a stored message that its length selects, everything else from another one. -/
def laidOver (r junk : MessageRecord) : MessageRecord where
  length := overCount UInt32.toNat Limits.text r.length junk.length
  gap := junk.gap
  body := r.body.overCounted r.length.toNat junk.body

theorem agrees_laidOver (r junk : MessageRecord) : r.Agrees (r.laidOver junk) :=
  Buffer.tablesAgree_overCounted UInt32.toNat r.length junk.length r.body junk.body

end MessageRecord

/-! ### Events -/

namespace EventRecord

/-- Two records agree on the payload of a kind. -/
def AgreesOn (r r' : EventRecord) : EventKind → Prop
  | .dump => r.dump.Agrees r'.dump
  | .call => r.call.Agrees r'.call
  | .send | .receive => r.message.Agrees r'.message
  | .schedule => True

/-- Two stored events of one kind with the same head, tasks that agree, and agreement on the one
payload that the kind names. -/
structure Agrees (r r' : EventRecord) : Prop where
  kind : r.kind = r'.kind
  slot : r.slot = r'.slot
  epoch : r.epoch = r'.epoch
  stamp : r.stamp = r'.stamp
  task : r.task.Agrees r'.task
  payload : ∀ kind ∈ EventKind.ofCode? r.kind, r.AgreesOn r' kind

theorem AgreesOn.payload_eq {r r' : EventRecord} {kind : EventKind} (h : r.AgreesOn r' kind) :
    r.payload kind = r'.payload kind := by
  cases kind with
  | dump => exact congrArg Payload.dump (DumpRecord.Agrees.dump_eq h)
  | call => exact congrArg Payload.call (CallRecord.Agrees.call_eq h)
  | send => exact congrArg Payload.send (MessageRecord.Agrees.message_eq h)
  | receive => exact congrArg Payload.receive (MessageRecord.Agrees.message_eq h)
  | schedule => rfl

/-- Records that agree hold the same event, or none. -/
theorem Agrees.event?_eq {r r' : EventRecord} (h : r.Agrees r') : r.event? = r'.event? := by
  rw [event?, event?, ← h.kind, ← h.slot, ← h.epoch, ← h.stamp, ← h.task.task_eq]
  cases hkind : EventKind.ofCode? r.kind with
  | none => rfl
  | some kind => simp only [(h.payload kind hkind).payload_eq]

/-- What the kind of a stored event selects, everything else from another one. -/
def laidOver (r junk : EventRecord) : EventRecord :=
  let rest := { r with
    task := r.task.laidOver junk.task
    dump := junk.dump
    call := junk.call
    message := junk.message }
  match EventKind.ofCode? r.kind with
  | some .dump => { rest with dump := r.dump.laidOver junk.dump }
  | some .call => { rest with call := r.call.laidOver junk.call }
  | some .send | some .receive => { rest with message := r.message.laidOver junk.message }
  | some .schedule | none => rest

/-- A record agrees with itself written over any other one: no byte that its tags and counts leave
out is compared. -/
theorem agrees_laidOver (r junk : EventRecord) : r.Agrees (r.laidOver junk) := by
  have hhead : (r.laidOver junk).kind = r.kind ∧ (r.laidOver junk).slot = r.slot ∧
      (r.laidOver junk).epoch = r.epoch ∧ (r.laidOver junk).stamp = r.stamp ∧
      (r.laidOver junk).task = r.task.laidOver junk.task := by
    unfold laidOver
    split <;> exact ⟨rfl, rfl, rfl, rfl, rfl⟩
  obtain ⟨hkind, hslot, hepoch, hstamp, htask⟩ := hhead
  refine ⟨hkind.symm, hslot.symm, hepoch.symm, hstamp.symm, htask ▸ r.task.agrees_laidOver _, ?_⟩
  intro kind hkind
  rw [Option.mem_def] at hkind
  rw [laidOver, hkind]
  cases kind with
  | dump => exact r.dump.agrees_laidOver junk.dump
  | call => exact r.call.agrees_laidOver junk.call
  | send => exact r.message.agrees_laidOver junk.message
  | receive => exact r.message.agrees_laidOver junk.message
  | schedule => trivial

/-- The bytes of a stored event. -/
def bytes (r : EventRecord) : Buffer (Packed.size EventRecord) :=
  ⟨(Packed.pack r).toArray, LawfulPacked.length_pack r⟩

theorem unpack_bytes (r : EventRecord) : Packed.unpack r.bytes.toList = r := by
  have hread := LawfulPacked.unpack_pack r []
  rwa [List.append_nil] at hread

/-- Decoding reads only what the tags and counts select. Any two stretches of bytes of the size of a
stored event that agree there are read as the same event, or both as none. Everything else is free:
a record agrees with what is left of any other record after it has been written over that. -/
theorem decoding_reads_selection :
    (∀ bytes bytes' : Buffer (Packed.size EventRecord),
      (Packed.unpack bytes.toList : EventRecord).Agrees (Packed.unpack bytes'.toList) →
        (Packed.unpack bytes.toList : EventRecord).event? =
          (Packed.unpack bytes'.toList : EventRecord).event?) ∧
      ∀ r junk : EventRecord, r.Agrees (r.laidOver junk) :=
  ⟨fun _ _ hagrees ↦ hagrees.event?_eq, agrees_laidOver⟩

/-- A record in which every bit is set. -/
def stale : EventRecord := Packed.unpack (List.replicate (Packed.size EventRecord) 0xFF)

/-- A dump is read from among stale bytes, which fill the payloads that it is not. -/
theorem event?_over_stale :
    (Packed.unpack Event.overlong.record.bytes.toList : EventRecord).Agrees
        (Packed.unpack (Event.overlong.record.laidOver stale).bytes.toList) ∧
      (Packed.unpack (Event.overlong.record.laidOver stale).bytes.toList : EventRecord).event? =
        some Event.overlong.normal ∧
      (Event.overlong.record.laidOver stale).call = stale.call ∧
      (Event.overlong.record.laidOver stale).message = stale.message := by
  have hagrees : (Packed.unpack Event.overlong.record.bytes.toList : EventRecord).Agrees
      (Packed.unpack (Event.overlong.record.laidOver stale).bytes.toList) := by
    rw [unpack_bytes, unpack_bytes]
    exact agrees_laidOver Event.overlong.record stale
  have hstorable : Event.overlong.IsStorable := by
    refine ⟨by decide, ?_⟩
    rintro c ⟨⟩
    decide
  have hread := decoding_reads_selection.1 _ _ hagrees
  rw [unpack_bytes, Event.event?_record hstorable] at hread
  exact ⟨hagrees, hread.symm, rfl, rfl⟩

end EventRecord

end Turnstile
