import Turnstile.Proofs.NormalForm

/-!
# Reading any record, writing it and reading it again

A record in the region can hold any bytes, so its texts need not be texts: the reader puts a
replacement character in the place of what spells nothing. That character takes three bytes, and
what is read from a buffer need no longer fit it. `EventRecord.rereading` says what is true of every
record that holds an event. Its padded texts have no zero character, since the reader makes a zero
character of a zero byte only (`zero_not_mem_lossyFrom`, for which a state of the reader leads to
code points of characters alone, `OpenChar.IsSound`). Its texts take at most three times the bytes
of their buffers, and keep within the buffers if the record's bytes spell texts. Writing the event
and reading it again gives the event exactly if its texts keep their bounds and its call is not
stored under the number that stands for none; and after one such round nothing changes any more.

Neither of the two conditions can be left out (`EventRecord.not_forall_rereads`).
-/

set_option autoImplicit false
set_option relaxedAutoImplicit false

namespace Turnstile

/-! ### Where the reader can get to -/

namespace OpenChar

/-- The least code point to which a state can lead. -/
def first (o : OpenChar) : Nat := (o.bits * 64 + o.low.toNat % 64) * 64 ^ (o.owed - 1)

/-- The code points to which a state can lead stay below this one. -/
def bound (o : OpenChar) : Nat := (o.bits * 64 + o.high.toNat % 64 + 1) * 64 ^ (o.owed - 1)

/-- Whatever continues it within its ranges, the state leads to a character, and not to the zero
character. -/
structure IsSound (o : OpenChar) : Prop where
  owed_pos : 1 ≤ o.owed
  owed_le : o.owed ≤ 3
  low : 0x80 ≤ o.low.toNat
  high : o.high.toNat < 0xC0
  first_pos : 0 < o.first
  valid : o.bound ≤ 0xD800 ∨ 0xE000 ≤ o.first ∧ o.bound ≤ 0x110000

end OpenChar

theorem Lead.isSound_of_opens {b : UInt8} {o : OpenChar} (h : Lead.ofByte b = .opens o) :
    o.IsSound := by
  simp only [Lead.ofByte, UInt8.lt_iff_toNat_lt, ← UInt8.toNat_inj, UInt8.reduceToNat] at h
  split_ifs at h <;> cases h <;> constructor <;>
    simp only [OpenChar.first, OpenChar.bound, UInt8.reduceToNat, Nat.reduceSub, Nat.reducePow] <;>
    omega

theorem toNat_ofNat_of_valid {n : Nat} (hvalid : n < 0xD800 ∨ 0xE000 ≤ n ∧ n < 0x110000) :
    (Char.ofNat n).toNat = n := by
  have hn : n.isValidChar := by
    unfold Nat.isValidChar
    omega
  rw [Char.ofNat, dif_pos hn]
  rfl

theorem ofNat_ne_zero {n : Nat} (hpos : 0 < n)
    (hvalid : n < 0xD800 ∨ 0xE000 ≤ n ∧ n < 0x110000) : Char.ofNat n ≠ '\x00' := by
  intro hzero
  have hval := toNat_ofNat_of_valid hvalid
  rw [hzero] at hval
  exact absurd hval hpos.ne

namespace OpenChar

variable {o : OpenChar} {b : UInt8}

/-- A continuation byte lies in its range by its low six bits as well. -/
theorem IsSound.mod_mem (h : o.IsSound) (hrange : o.low ≤ b ∧ b ≤ o.high) :
    o.low.toNat % 64 ≤ b.toNat % 64 ∧ b.toNat % 64 ≤ o.high.toNat % 64 := by
  have hlow := UInt8.le_iff_toNat_le.1 hrange.1
  have hhigh := UInt8.le_iff_toNat_le.1 hrange.2
  have hmin := h.low
  have hmax := h.high
  omega

theorem IsSound.ne_zero_of_extend {c : Char} (h : o.IsSound) (hrange : o.low ≤ b ∧ b ≤ o.high)
    (hextend : o.extend b = .whole c) : c ≠ '\x00' := by
  have howed : o.owed = 1 := by
    have hpos := h.owed_pos
    by_contra hne
    rw [extend, if_neg (by omega)] at hextend
    cases hextend
  rw [extend, if_pos howed.le] at hextend
  cases hextend
  have hmod := h.mod_mem hrange
  have hpos := h.first_pos
  have hvalid := h.valid
  simp only [first, bound, howed, Nat.sub_self, Nat.pow_zero, Nat.mul_one] at hpos hvalid
  exact ofNat_ne_zero (by omega) (by omega)

/-- A continuation byte narrows what a state can lead to. -/
theorem IsSound.extend {o' : OpenChar} (h : o.IsSound) (hrange : o.low ≤ b ∧ b ≤ o.high)
    (hextend : o.extend b = .opens o') : o'.IsSound := by
  have howed : 2 ≤ o.owed := by
    by_contra hlt
    rw [OpenChar.extend, if_pos (by omega)] at hextend
    cases hextend
  rw [OpenChar.extend, if_neg (by omega)] at hextend
  cases hextend
  obtain ⟨hlow, hhigh⟩ := h.mod_mem hrange
  obtain ⟨owed, howed⟩ := Nat.exists_eq_add_of_le' howed
  have hfirst : o.first ≤ first ⟨o.owed - 1, o.bits * 64 + b.toNat % 64, 0x80, 0xBF⟩ := by
    calc o.first = (o.bits * 64 + o.low.toNat % 64) * 64 ^ (owed + 1) := by
          rw [first, howed]; rfl
      _ ≤ (o.bits * 64 + b.toNat % 64) * 64 ^ (owed + 1) :=
          Nat.mul_le_mul_right _ (Nat.add_le_add_left hlow _)
      _ = first ⟨o.owed - 1, o.bits * 64 + b.toNat % 64, 0x80, 0xBF⟩ := by
          simp only [first, howed, UInt8.reduceToNat]
          rw [Nat.pow_succ', ← Nat.mul_assoc]; rfl
  have hbound : bound ⟨o.owed - 1, o.bits * 64 + b.toNat % 64, 0x80, 0xBF⟩ ≤ o.bound := by
    calc bound ⟨o.owed - 1, o.bits * 64 + b.toNat % 64, 0x80, 0xBF⟩ =
          (o.bits * 64 + b.toNat % 64 + 1) * 64 ^ (owed + 1) := by
          simp only [bound, howed, UInt8.reduceToNat]
          rw [Nat.pow_succ', ← Nat.mul_assoc, Nat.add_mul _ 1 64]; rfl
      _ ≤ (o.bits * 64 + o.high.toNat % 64 + 1) * 64 ^ (owed + 1) :=
          Nat.mul_le_mul_right _ (by omega)
      _ = o.bound := by rw [bound, howed]; rfl
  have hle := h.owed_le
  have hpos := h.first_pos
  have hvalid := h.valid
  refine ⟨?_, ?_, ?_, ?_, ?_, ?_⟩
  · change 1 ≤ o.owed - 1
    omega
  · change o.owed - 1 ≤ 3
    omega
  · exact le_rfl
  · exact (by decide : (0xBF : UInt8).toNat < 0xC0)
  · exact hpos.trans_le hfirst
  · exact hvalid.imp hbound.trans (And.imp (le_trans · hfirst) hbound.trans)

end OpenChar

/-! ### What the reader makes of stray bytes -/

/-- A byte that cannot continue a character breaks it off and is read from the start. -/
theorem lossyFrom_of_not_mem_range {o : OpenChar} {b : UInt8} (bs : List UInt8)
    (hrange : ¬ (o.low ≤ b ∧ b ≤ o.high)) :
    lossyFrom (some o) (b :: bs) = replacementChar :: lossyFrom none (b :: bs) := by
  simp only [lossyFrom, if_neg hrange]

/-- A byte that is a character by itself is that of ASCII, or a stray one. -/
theorem Lead.cases_of_whole {b : UInt8} {c : Char} (hlead : Lead.ofByte b = .whole c) :
    b.toNat < 0x80 ∧ c = Char.ofNat b.toNat ∨ c = replacementChar := by
  simp only [Lead.ofByte, UInt8.lt_iff_toNat_lt, UInt8.reduceToNat] at hlead
  split_ifs at hlead with hascii <;> cases hlead
  · exact .inl ⟨hascii, rfl⟩
  · exact .inr rfl
  · exact .inr rfl

theorem Lead.ne_zero_of_whole {b : UInt8} {c : Char} (hb : b ≠ 0)
    (hlead : Lead.ofByte b = .whole c) : c ≠ '\x00' := by
  obtain ⟨hascii, rfl⟩ | rfl := Lead.cases_of_whole hlead
  · have hpos : 0 < b.toNat := Nat.pos_of_ne_zero fun h ↦ hb (UInt8.toNat_inj.1 h)
    exact ofNat_ne_zero hpos (by omega)
  · decide

theorem Lead.utf8Size_le_of_whole {b : UInt8} {c : Char} (hlead : Lead.ofByte b = .whole c) :
    c.utf8Size ≤ 3 := by
  obtain ⟨hascii, rfl⟩ | rfl := Lead.cases_of_whole hlead
  · have hval := toNat_ofNat_of_valid (n := b.toNat) (by omega)
    have hle : (Char.ofNat b.toNat).toNat ≤ 127 := hval.le.trans (Nat.le_of_lt_succ hascii)
    have hone := Char.utf8Size_eq_one_iff.2 (UInt32.le_iff_toNat_le.2 hle)
    omega
  · decide

/-- Only the zero byte is read as the zero character. -/
theorem zero_not_mem_lossyFrom {state : Option OpenChar} {bytes : List UInt8}
    (hstate : ∀ o ∈ state, o.IsSound) (hbytes : (0 : UInt8) ∉ bytes) :
    '\x00' ∉ lossyFrom state bytes := by
  have hreplacement : '\x00' ≠ replacementChar := by decide
  induction bytes generalizing state with
  | nil =>
    cases state with
    | none => simp [lossyFrom]
    | some o => simpa [lossyFrom] using hreplacement
  | cons b bs ih =>
    have hb : b ≠ 0 := (List.ne_of_not_mem_cons hbytes).symm
    have hbs : (0 : UInt8) ∉ bs := List.not_mem_of_not_mem_cons hbytes
    have hstart : '\x00' ∉ lossyFrom none (b :: bs) := by
      rw [lossyFrom]
      split
      · rename_i c hlead
        have hc := Lead.ne_zero_of_whole hb hlead
        exact List.not_mem_cons_of_ne_of_not_mem hc.symm (ih (by simp) hbs)
      · rename_i o hlead
        exact ih (by simpa using Lead.isSound_of_opens hlead) hbs
    cases state with
    | none => exact hstart
    | some o =>
      have ho : o.IsSound := hstate o rfl
      by_cases hrange : o.low ≤ b ∧ b ≤ o.high
      · rw [lossyFrom, if_pos hrange]
        split
        · rename_i c hextend
          have hc := ho.ne_zero_of_extend hrange hextend
          exact List.not_mem_cons_of_ne_of_not_mem hc.symm (ih (by simp) hbs)
        · rename_i o' hextend
          exact ih (by simpa using ho.extend hrange hextend) hbs
      · rw [lossyFrom_of_not_mem_range bs hrange]
        exact List.not_mem_cons_of_ne_of_not_mem hreplacement hstart

/-- No byte is read as more than three bytes. -/
theorem length_utf8_lossyFrom (state : Option OpenChar) (bytes : List UInt8) :
    ((lossyFrom state bytes).flatMap String.utf8EncodeChar).length ≤
      3 * (bytes.length + if state.isSome then 1 else 0) := by
  have hreplacement : replacementChar.utf8Size = 3 := by decide
  induction bytes generalizing state with
  | nil => cases state <;> simp [lossyFrom, hreplacement]
  | cons b bs ih =>
    have hstart : ((lossyFrom none (b :: bs)).flatMap String.utf8EncodeChar).length ≤
        3 * (b :: bs).length := by
      rw [lossyFrom]
      split
      · rename_i c hlead
        have hc := Lead.utf8Size_le_of_whole hlead
        have hrest := ih none
        simp at hrest ⊢
        omega
      · rename_i o hlead
        simpa using ih (some o)
    cases state with
    | none => simpa using hstart
    | some o =>
      by_cases hrange : o.low ≤ b ∧ b ≤ o.high
      · rw [lossyFrom, if_pos hrange]
        split
        · rename_i c hextend
          have hc := Char.utf8Size_le_four c
          have hrest := ih none
          simp at hrest ⊢
          omega
        · rename_i o' hextend
          have hrest := ih (some o')
          simp at hrest ⊢
          omega
      · rw [lossyFrom_of_not_mem_range bs hrange]
        simp [hreplacement] at hstart ⊢
        omega

theorem zero_not_mem_lossyText {bytes : List UInt8} (h : (0 : UInt8) ∉ bytes) :
    '\x00' ∉ (lossyText bytes).toList := by
  rw [lossyText, String.toList_ofList]
  exact zero_not_mem_lossyFrom (by simp) h

theorem fits_lossyText {bytes : List UInt8} {budget : Nat} (h : bytes.length ≤ budget) :
    Fits (3 * budget) (lossyText bytes) := by
  have hlength := length_utf8_lossyFrom none bytes
  simp only [Option.isSome_none, Bool.false_eq_true, if_false, Nat.add_zero] at hlength
  rw [Fits, utf8, lossyText, String.toList_ofList]
  omega

/-! ### The texts of an event, and the bytes from which they are read -/

def Value.texts : Value → List String
  | .text _ s => [s]
  | _ => []

def Call.texts (c : Call) : List String := (c.arguments ++ c.results).flatMap Value.texts

def Variable.texts (v : Variable) : List String := [v.name, v.value, v.typeName]

def Dump.texts (d : Dump) : List String := d.point :: d.vars.flatMap Variable.texts

namespace Event

/-- The texts of the values of an event. -/
def countedTexts (e : Event) : List String :=
  e.task.call.toList.flatMap Call.texts ++
    match e.payload with
    | .call c => c.texts
    | _ => []

/-- The label of the task, and the texts of a dump. -/
def paddedTexts (e : Event) : List String :=
  e.task.label ::
    match e.payload with
    | .dump d => d.texts
    | _ => []

/-- The texts of the event keep the bounds of their buffers. -/
structure IsBounded (e : Event) : Prop where
  padded : ∀ s ∈ e.paddedTexts, FitsPadded Limits.text s
  counted : ∀ s ∈ e.countedTexts, Fits Limits.text s

end Event

/-- The bytes of a buffer before its first zero byte. -/
def Buffer.paddedBytes {n : Nat} (b : Buffer n) : List UInt8 := b.toList.takeWhile (· ≠ 0)

def ValueRecord.textBytes (r : ValueRecord) : List (List UInt8) :=
  match Value.Tag.ofNumber? r.tag with
  | some (.text _) => [r.text.toList.take r.textLength.toNat]
  | _ => []

def CallRecord.textBytes (r : CallRecord) : List (List UInt8) :=
  (r.arguments.toList.take r.argumentCount.toNat ++
    r.results.toList.take r.resultCount.toNat).flatMap ValueRecord.textBytes

def VariableRecord.textBytes (r : VariableRecord) : List (List UInt8) :=
  [r.name.paddedBytes, r.value.paddedBytes, r.typeName.paddedBytes]

def DumpRecord.textBytes (r : DumpRecord) : List (List UInt8) :=
  r.point.paddedBytes :: (r.vars.toList.take r.count.toNat).flatMap VariableRecord.textBytes

namespace EventRecord

def countedBytes (r : EventRecord) : List (List UInt8) :=
  (if r.task.callNumber = Call.noNumber then [] else r.task.call.textBytes) ++
    match EventKind.ofCode? r.kind with
    | some .call => r.call.textBytes
    | _ => []

def paddedBytes (r : EventRecord) : List (List UInt8) :=
  r.task.label.paddedBytes ::
    match EventKind.ofCode? r.kind with
    | some .dump => r.dump.textBytes
    | _ => []

/-- The bytes that stand where a record keeps texts are the bytes of texts. -/
def IsSpelled (r : EventRecord) : Prop :=
  ∀ bytes ∈ r.paddedBytes ++ r.countedBytes, ∃ s : String, utf8 s = bytes

end EventRecord

theorem ValueRecord.texts_value (r : ValueRecord) : r.value.texts = r.textBytes.map lossyText := by
  rw [value, textBytes]
  split <;> simp_all [Value.texts, Buffer.text]

theorem CallRecord.texts_call (r : CallRecord) : r.call.texts = r.textBytes.map lossyText := by
  have hvalue : Value.texts ∘ ValueRecord.value = fun r ↦ r.textBytes.map lossyText :=
    funext ValueRecord.texts_value
  rw [Call.texts, call, values, values, ← List.map_append, List.flatMap_map, textBytes,
    List.map_flatMap]
  exact congrArg (List.flatMap · _) hvalue

theorem DumpRecord.texts_dump (r : DumpRecord) : r.dump.texts = r.textBytes.map lossyText := by
  simp only [Dump.texts, dump, textBytes, List.map_cons, List.flatMap_map, List.map_flatMap,
    Variable.texts, VariableRecord.toVariable, VariableRecord.textBytes, List.map_nil]
  rfl

namespace EventRecord

variable {r : EventRecord} {e : Event}

theorem eq_of_event? (hread : r.event? = some e) :
    ∃ kind, EventKind.ofCode? r.kind = some kind ∧
      e = ⟨UInt64.ofNat r.slot.toInt.toNat, r.task.task, r.epoch, r.stamp, r.payload kind⟩ := by
  rw [event?] at hread
  split at hread
  · cases hread
  · rename_i kind hkind
    split_ifs at hread
    exact ⟨kind, hkind, (Option.some.inj hread).symm⟩

theorem countedTexts_of_event? (hread : r.event? = some e) :
    e.countedTexts = r.countedBytes.map lossyText := by
  obtain ⟨kind, hkind, rfl⟩ := eq_of_event? hread
  have htask : r.task.task.call.toList.flatMap Call.texts =
      (if r.task.callNumber = Call.noNumber then [] else r.task.call.textBytes).map lossyText := by
    rw [TaskRecord.task]
    split_ifs <;> simp [CallRecord.texts_call]
  cases kind <;> simp [Event.countedTexts, countedBytes, payload, hkind, htask,
    CallRecord.texts_call]

theorem paddedTexts_of_event? (hread : r.event? = some e) :
    e.paddedTexts = r.paddedBytes.map lossyText := by
  obtain ⟨kind, hkind, rfl⟩ := eq_of_event? hread
  cases kind <;> simp [Event.paddedTexts, paddedBytes, payload, hkind, DumpRecord.texts_dump] <;>
    rfl

end EventRecord

/-! ### What the buffers hold -/

namespace Buffer

variable {n : Nat}

theorem length_paddedBytes_le (b : Buffer n) : b.paddedBytes.length ≤ n := by
  have hle := (List.takeWhile_prefix (l := b.toList) (· ≠ 0)).length_le
  rwa [Vector.length_toList] at hle

theorem zero_not_mem_paddedBytes (b : Buffer n) : (0 : UInt8) ∉ b.paddedBytes := by
  intro hzero
  simpa using List.mem_takeWhile_imp hzero

end Buffer

theorem ValueRecord.length_le_of_mem_textBytes {r : ValueRecord} {bytes : List UInt8}
    (h : bytes ∈ r.textBytes) : bytes.length ≤ Limits.text := by
  rw [textBytes] at h
  split at h
  · rw [List.mem_singleton.1 h, List.length_take, Vector.length_toList]
    exact Nat.min_le_right _ _
  · cases h

theorem CallRecord.length_le_of_mem_textBytes {r : CallRecord} {bytes : List UInt8}
    (h : bytes ∈ r.textBytes) : bytes.length ≤ Limits.text := by
  obtain ⟨value, -, hmem⟩ := List.mem_flatMap.1 h
  exact value.length_le_of_mem_textBytes hmem

/-- The bytes of a padded text are those of some buffer. -/
theorem DumpRecord.exists_of_mem_textBytes {r : DumpRecord} {bytes : List UInt8}
    (h : bytes ∈ r.textBytes) : ∃ b : Buffer Limits.text, bytes = b.paddedBytes := by
  rcases List.mem_cons.1 h with rfl | h
  · exact ⟨r.point, rfl⟩
  · obtain ⟨v, -, hmem⟩ := List.mem_flatMap.1 h
    simp only [VariableRecord.textBytes, List.mem_cons, List.not_mem_nil, or_false] at hmem
    rcases hmem with rfl | rfl | rfl
    · exact ⟨v.name, rfl⟩
    · exact ⟨v.value, rfl⟩
    · exact ⟨v.typeName, rfl⟩

namespace EventRecord

variable {r : EventRecord} {bytes : List UInt8}

theorem exists_of_mem_paddedBytes (h : bytes ∈ r.paddedBytes) :
    ∃ b : Buffer Limits.text, bytes = b.paddedBytes := by
  rcases List.mem_cons.1 h with rfl | h
  · exact ⟨r.task.label, rfl⟩
  · split at h
    · exact DumpRecord.exists_of_mem_textBytes h
    · cases h

theorem length_le_of_mem_countedBytes (h : bytes ∈ r.countedBytes) :
    bytes.length ≤ Limits.text := by
  rcases List.mem_append.1 h with h | h
  · split_ifs at h
    · cases h
    · exact CallRecord.length_le_of_mem_textBytes h
  · split at h
    · exact CallRecord.length_le_of_mem_textBytes h
    · cases h

end EventRecord

/-! ### Bounds and normal forms -/

theorem Value.isNormal_iff {v : Value} : v.IsNormal ↔ ∀ s ∈ v.texts, Fits Limits.text s := by
  cases v <;> simp [IsNormal, texts]

theorem Variable.isNormal_iff {v : Variable} :
    v.IsNormal ↔ ∀ s ∈ v.texts, FitsPadded Limits.text s := by
  simp only [texts, List.forall_mem_cons, List.not_mem_nil, false_imp_iff, implies_true, and_true]
  exact ⟨fun h ↦ ⟨h.name, h.value, h.typeName⟩, fun h ↦ ⟨h.1, h.2.1, h.2.2⟩⟩

/-- A call record has room for no more values than a call in normal form has. -/
theorem CallRecord.isNormal_call (r : CallRecord) :
    r.call.IsNormal ↔ ∀ s ∈ r.call.texts, Fits Limits.text s := by
  have hlength (count : UInt32) (table : Vector ValueRecord Limits.callValues) :
      (values count table).length ≤ Limits.callValues := by
    rw [values, List.length_map, List.length_take, Vector.length_toList]
    exact Nat.min_le_right _ _
  simp only [Call.texts, List.forall_mem_flatMap, List.forall_mem_append, ← Value.isNormal_iff]
  exact ⟨fun h ↦ ⟨h.arguments, h.results⟩, fun h ↦ ⟨hlength _ _, hlength _ _, h.1, h.2⟩⟩

theorem DumpRecord.isNormal_dump (r : DumpRecord) :
    r.dump.IsNormal ↔ ∀ s ∈ r.dump.texts, FitsPadded Limits.text s := by
  have hlength : r.dump.vars.length ≤ Limits.dumpVariables := by
    rw [dump, List.length_map, List.length_take, Vector.length_toList]
    exact Nat.min_le_right _ _
  simp only [Dump.texts, List.forall_mem_cons, List.forall_mem_flatMap, ← Variable.isNormal_iff]
  exact ⟨fun h ↦ ⟨h.point, h.vars⟩, fun h ↦ ⟨h.1, hlength, h.2⟩⟩

theorem MessageRecord.isNormal_message (r : MessageRecord) : r.message.IsNormal := by
  rw [Message.IsNormal, message, List.length_take, Vector.length_toList]
  exact Nat.min_le_right _ _

theorem TaskRecord.isNormal_task (r : TaskRecord) :
    r.task.IsNormal ↔ FitsPadded Limits.text r.task.label ∧
      ∀ s ∈ r.task.call.toList.flatMap Call.texts, Fits Limits.text s := by
  have hcall : (∀ c ∈ r.task.call, c.IsNormal) ↔
      ∀ s ∈ r.task.call.toList.flatMap Call.texts, Fits Limits.text s := by
    rw [task]
    split_ifs <;> simp [CallRecord.isNormal_call]
  rw [← hcall]
  exact ⟨fun h ↦ ⟨h.label, h.call⟩, fun h ↦ ⟨h.1, h.2⟩⟩

namespace EventRecord

variable {r : EventRecord} {e : Event}

/-- What is read from a record exceeds no capacity, so only its texts can keep it from its normal
form. -/
theorem isNormal_iff_isBounded (hread : r.event? = some e) : e.IsNormal ↔ e.IsBounded := by
  obtain ⟨kind, -, rfl⟩ := eq_of_event? hread
  have htask := TaskRecord.isNormal_task r.task
  constructor
  · rintro ⟨hnormal, hpayload⟩
    obtain ⟨hlabel, hcall⟩ := htask.1 hnormal
    refine ⟨List.forall_mem_cons.2 ⟨hlabel, ?_⟩, List.forall_mem_append.2 ⟨hcall, ?_⟩⟩
    · cases kind <;> first | exact (DumpRecord.isNormal_dump _).1 hpayload | simp [payload]
    · cases kind <;> first | exact (CallRecord.isNormal_call _).1 hpayload | simp [payload]
  · rintro ⟨hpadded, hcounted⟩
    obtain ⟨hlabel, hdump⟩ := List.forall_mem_cons.1 hpadded
    obtain ⟨htaskCall, hcall⟩ := List.forall_mem_append.1 hcounted
    refine ⟨htask.2 ⟨hlabel, htaskCall⟩, ?_⟩
    cases kind with
    | dump => exact (DumpRecord.isNormal_dump _).2 hdump
    | call => exact (CallRecord.isNormal_call _).2 hcall
    | send => exact r.message.isNormal_message
    | receive => exact r.message.isNormal_message
    | schedule => trivial

end EventRecord

theorem Task.task_record_eq_self_iff {t : Task} :
    t.record.task = t ↔ t.IsNormal ∧ t.IsStorable := by
  constructor
  · intro hself
    have hstorable : t.IsStorable := by
      intro c (hc : t.call = some c) hnumber
      have hnone : t.record.task.call = none := by
        simp [record, TaskRecord.task, hc, hnumber]
      rw [hself, hc] at hnone
      cases hnone
    rw [task_record hstorable] at hself
    exact ⟨hself ▸ t.isNormal_normal, hstorable⟩
  · rintro ⟨hnormal, hstorable⟩
    rw [task_record hstorable, normal_eq_self hnormal]

theorem Payload.normal_eq_self_iff {p : Payload} : p.normal = p ↔ p.IsNormal :=
  ⟨fun h ↦ h ▸ p.isNormal_normal, normal_eq_self⟩

namespace EventRecord

variable {r : EventRecord} {e : Event}

theorem slot_lt_of_event? (hread : r.event? = some e) : e.slot.toNat < 2 ^ 31 := by
  obtain ⟨kind, -, rfl⟩ := eq_of_event? hread
  have hlt := r.slot.toInt_lt
  have hword : r.slot.toInt.toNat < 2 ^ 31 := by omega
  change (UInt64.ofNat r.slot.toInt.toNat).toNat < 2 ^ 31
  rwa [UInt64.toNat_ofNat_of_lt' (hword.trans (by decide))]

/-- Reading an event, writing it and reading it again gives the event if nothing of it had to be
cut, and its call is told by its number. -/
theorem event?_record_eq_self_iff (hread : r.event? = some e) :
    e.record.event? = some e ↔ e.IsBounded ∧ e.task.IsStorable := by
  rw [Event.event?_record_of_slot (slot_lt_of_event? hread), ← isNormal_iff_isBounded hread]
  constructor
  · intro hself
    have htask := congrArg Event.task (Option.some.inj hself)
    have hpayload := congrArg Event.payload (Option.some.inj hself)
    obtain ⟨hnormal, hstorable⟩ := Task.task_record_eq_self_iff.1 htask
    exact ⟨⟨hnormal, Payload.normal_eq_self_iff.1 hpayload⟩, hstorable⟩
  · rintro ⟨⟨htask, hpayload⟩, hstorable⟩
    rw [Task.task_record_eq_self_iff.2 ⟨htask, hstorable⟩, Payload.normal_eq_self hpayload]

theorem isStorable_iff (hread : r.event? = some e) : e.task.IsStorable ↔
    (r.task.callNumber ≠ Call.noNumber → r.task.call.number ≠ Call.noNumber) := by
  obtain ⟨kind, -, rfl⟩ := eq_of_event? hread
  simp [Task.IsStorable, TaskRecord.task, CallRecord.call]

/-- After one round, an event is read as it was written. -/
theorem exists_event?_record (hread : r.event? = some e) :
    ∃ e', e.record.event? = some e' ∧ e'.record.event? = some e' := by
  have hslot := slot_lt_of_event? hread
  refine ⟨_, Event.event?_record_of_slot hslot, ?_⟩
  have hagain := Event.event?_record_of_slot
    (e := { e with task := e.task.record.task, payload := e.payload.normal }) hslot
  rwa [e.task.task_record_task, Payload.normal_eq_self e.payload.isNormal_normal] at hagain

theorem isBounded_of_isSpelled (hread : r.event? = some e) (hspelled : r.IsSpelled) :
    e.IsBounded := by
  obtain ⟨hpadded, hcounted⟩ := List.forall_mem_append.1 hspelled
  constructor
  · rw [paddedTexts_of_event? hread, List.forall_mem_map]
    intro bytes hmem
    obtain ⟨b, rfl⟩ := exists_of_mem_paddedBytes hmem
    obtain ⟨s, hs⟩ := hpadded _ hmem
    refine ⟨?_, zero_not_mem_lossyText b.zero_not_mem_paddedBytes⟩
    rw [Fits, ← hs, lossyText_utf8, hs]
    exact b.length_paddedBytes_le
  · rw [countedTexts_of_event? hread, List.forall_mem_map]
    intro bytes hmem
    obtain ⟨s, hs⟩ := hcounted _ hmem
    rw [Fits, ← hs, lossyText_utf8, hs]
    exact length_le_of_mem_countedBytes hmem

/-- What holds of any record that holds an event: which bounds its texts keep, and what becomes of
it when it is written and read again. -/
theorem rereading (hread : r.event? = some e) :
    (∀ s ∈ e.paddedTexts, '\x00' ∉ s.toList) ∧
      (∀ s ∈ e.paddedTexts ++ e.countedTexts, Fits (3 * Limits.text) s) ∧
      (r.IsSpelled → e.IsBounded) ∧
      (e.record.event? = some e ↔ e.IsBounded ∧
        (r.task.callNumber ≠ Call.noNumber → r.task.call.number ≠ Call.noNumber)) ∧
      ∃ e', e.record.event? = some e' ∧ e'.IsBounded ∧ e'.record.event? = some e' := by
  refine ⟨?_, ?_, isBounded_of_isSpelled hread, ?_, ?_⟩
  · rw [paddedTexts_of_event? hread, List.forall_mem_map]
    intro bytes hmem
    obtain ⟨b, rfl⟩ := exists_of_mem_paddedBytes hmem
    exact zero_not_mem_lossyText b.zero_not_mem_paddedBytes
  · rw [paddedTexts_of_event? hread, countedTexts_of_event? hread, ← List.map_append,
      List.forall_mem_map]
    intro bytes hmem
    rcases List.mem_append.1 hmem with hmem | hmem
    · obtain ⟨b, rfl⟩ := exists_of_mem_paddedBytes hmem
      exact fits_lossyText b.length_paddedBytes_le
    · exact fits_lossyText (length_le_of_mem_countedBytes hmem)
  · rw [event?_record_eq_self_iff hread, isStorable_iff hread]
  · obtain ⟨e', hreread, hsame⟩ := exists_event?_record hread
    exact ⟨e', hreread, ((event?_record_eq_self_iff hreread).1 hsame).1, hsame⟩

/-- A record whose label spells nothing. -/
def stray : EventRecord :=
  { zero with
    kind := EventKind.schedule.code
    task := { TaskRecord.idle with label := Vector.replicate _ 0xFF } }

/-- The event that `stray` holds. -/
def strayEvent : Event where
  slot := 0
  task := ⟨⟨0⟩, 0, 0, 0, String.ofList (List.replicate 64 replacementChar), none⟩
  epoch := 0
  stamp := 0
  payload := .schedule

theorem event?_stray : stray.event? = some strayEvent := by decide +kernel

theorem rereading_stray : stray.event? = some strayEvent ∧
    ∃ e', strayEvent.record.event? = some e' ∧ e'.IsBounded ∧ e'.record.event? = some e' :=
  ⟨event?_stray, (rereading event?_stray).2.2.2.2⟩

/-- A record that tells the number of a call, while the record of the call has the number that
stands for none. -/
def disagreeing : EventRecord :=
  { zero with
    kind := EventKind.schedule.code
    task := { TaskRecord.zero with
      callNumber := 5
      call := { CallRecord.zero with number := Call.noNumber } } }

/-- The event that `disagreeing` holds. -/
def disagreeingEvent : Event where
  slot := 0
  task := ⟨⟨0⟩, 0, 0, 0, "", some ⟨Call.noNumber, [], []⟩⟩
  epoch := 0
  stamp := 0
  payload := .schedule

theorem event?_disagreeing : disagreeing.event? = some disagreeingEvent := by decide +kernel

/-- Stray bytes are read as a text that is too long for its buffer; and an event within its bounds
loses a call that is told by its own number only. -/
theorem not_forall_rereads :
    (¬ ∀ (r : EventRecord) (e : Event), r.event? = some e → e.IsBounded) ∧
      ¬ ∀ (r : EventRecord) (e : Event), r.event? = some e → e.IsBounded →
        e.record.event? = some e := by
  constructor
  · intro hall
    have hbounded := hall stray strayEvent event?_stray
    have hlabel : (utf8 strayEvent.task.label).length ≤ Limits.text :=
      (List.forall_mem_cons.1 hbounded.padded).1.1
    have hlong : (utf8 strayEvent.task.label).length = 192 := by decide +kernel
    rw [hlong] at hlabel
    exact absurd hlabel (by decide)
  · intro hall
    have hbounded : disagreeingEvent.IsBounded := by
      refine ⟨List.forall_mem_cons.2 ⟨⟨Nat.zero_le _, ?_⟩, by simp [disagreeingEvent]⟩, ?_⟩
      · simp [disagreeingEvent]
      · simp [Event.countedTexts, disagreeingEvent, Call.texts]
    have hsame := hall disagreeing disagreeingEvent event?_disagreeing hbounded
    have hstorable := ((event?_record_eq_self_iff event?_disagreeing).1 hsame).2
    exact hstorable ⟨Call.noNumber, [], []⟩ rfl rfl

end EventRecord

end Turnstile
