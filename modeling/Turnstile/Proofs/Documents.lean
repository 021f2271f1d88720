import Turnstile.Proofs.Shapes
import Turnstile.Schedule

/-!
# Schedules that are read as they were written

For every part of a schedule there are two facts: its reader accepts what is written of it, with
`isFinite` for the flag of its doubles (`Value.accepts`, `Task.accepts`, `Event.accepts`), and it is
made again of what was read (`Value.ofJson?_toJson`, `Task.ofJson?_toJson`, `Event.ofJson?_toJson`).
Only coverage does not come back as it was: its counts are entered one after another into an empty
map, which is an equal one (`Coverage.toList_rebuilt`, `Schedule.rebuilt_beq`). Coverage that was
left out because no slot has any is read as none (`Schedule.reads_toJson`).

A schedule of finite doubles therefore comes back from its document if it is of the present layout,
and is refused for its layout otherwise (`Schedule.document_roundTrip`). With a double that is not
finite its document cannot be read (`Schedule.ofDocument_of_not_isFinite`).
-/

set_option autoImplicit false
set_option relaxedAutoImplicit false

namespace Turnstile

open Json.Reader

/-! ### Integers of their types -/

theorem accepts_unsigned {expected : String} {n bound : Nat} (h : n < bound)
    (hbound : bound ≤ UInt64.size) :
    Accepts (integer expected 0 ((bound : Int) - 1)) (.int n) true :=
  accepts_integer (by omega) (by omega) (by decide) (by omega)

theorem accepts_unsigned8 (n : UInt8) : Accepts unsigned8 (.int n.toNat) true :=
  accepts_unsigned n.toNat_lt (by decide)

theorem accepts_unsigned32 (n : UInt32) : Accepts unsigned32 (.int n.toNat) true :=
  accepts_unsigned n.toNat_lt (by decide)

theorem accepts_unsigned64 (n : UInt64) : Accepts unsigned64 (.int n.toNat) true :=
  accepts_unsigned n.toNat_lt le_rfl

theorem accepts_size (n : UInt64) : Accepts size (.int n.toNat) true :=
  accepts_unsigned n.toNat_lt le_rfl

theorem accepts_signed64 (n : Int64) : Accepts signed64 (.int n.toInt) true :=
  accepts_integer n.minValue_le_toInt n.toInt_le (by decide) (by decide)

theorem accepts_signed32 (n : Int32) : Accepts signed32 (.int n.toInt) true :=
  accepts_integer n.minValue_le_toInt n.toInt_le (by decide) (by decide)

/-- What is made again of every item, is made of the list. -/
theorem mapM_map_eq_some {α β γ : Type} {f : α → β} {g : β → Option γ} {h : α → γ} {xs : List α}
    (hg : ∀ x ∈ xs, g (f x) = some (h x)) : (xs.map f).mapM g = some (xs.map h) := by
  induction xs with
  | nil => rfl
  | cons x xs ih =>
    rw [List.map_cons, List.mapM_cons, hg x List.mem_cons_self,
      ih fun y hy ↦ hg y (List.mem_cons_of_mem _ hy)]
    rfl

theorem mapM_map_eq_self {α β : Type} {f : α → β} {g : β → Option α} {xs : List α}
    (hg : ∀ x ∈ xs, g (f x) = some x) : (xs.map f).mapM g = some xs := by
  have h : (xs.map f).mapM g = some (xs.map id) := mapM_map_eq_some hg
  rwa [List.map_id] at h

/-! ### Values -/

namespace Value

/-- Whether a value is no double or a finite one. -/
def isFinite : Value → Bool
  | .float x => x.isFinite
  | _ => true

theorem Tag.ofArmName?_armName (t : Tag) : ofArmName? t.armName = some t := by
  rcases t with kind | _ | _ | kind | kind | _ <;> first | decide | (cases kind <;> decide)

theorem find?_armName (t : Tag) :
    (Tag.all.map fun t ↦ (⟨t.armName, t.contents⟩ : Json.Reader.Variant)).find?
      (·.name = t.armName) = some ⟨t.armName, t.contents⟩ := by
  have h := t.ofArmName?_armName
  rw [Tag.ofArmName?] at h
  rw [List.find?_map]
  exact congrArg (Option.map _) h

/-- A value is read as it was written. -/
theorem accepts (v : Value) : Accepts reader v.toJson v.isFinite := by
  cases v with
  | number kind n => exact accepts_choice (find?_armName (.number kind)) (accepts_signed64 n)
  | bool b => exact accepts_choice (find?_armName .bool) (accepts_boolean b)
  | float x => exact accepts_choice (find?_armName .float) (accepts_double x)
  | count kind n => exact accepts_choice (find?_armName (.count kind)) (accepts_unsigned64 n)
  | text kind s => exact accepts_choice (find?_armName (.text kind)) (accepts_text s)
  | unsupported => exact accepts_choice_bare (find?_armName .unsupported)

theorem ofJson?_toJson (v : Value) : ofJson? v.toJson = some v := by
  cases v with
  | number kind n => simp [toJson, ofJson?, tag, Tag.ofArmName?_armName, ofContents?]
  | bool b => simp [toJson, ofJson?, tag, Tag.ofArmName?_armName, ofContents?]
  | float x => simp [toJson, ofJson?, tag, Tag.ofArmName?_armName, ofContents?]
  | count kind n => simp [toJson, ofJson?, tag, Tag.ofArmName?_armName, ofContents?]
  | text kind s => simp [toJson, ofJson?, tag, Tag.ofArmName?_armName, ofContents?]
  | unsupported => simp [toJson, ofJson?, tag]

end Value

/-! ### Calls and tasks -/

namespace Call

/-- Whether every double among the arguments and the results is finite. -/
def isFinite (c : Call) : Bool := c.arguments.all Value.isFinite && c.results.all Value.isFinite

theorem accepts (c : Call) : Accepts reader c.toJson c.isFinite := by
  refine accepts_record [
    ⟨⟨"syscall", signed32, .refused⟩, .int c.number.toInt, true⟩,
    ⟨⟨"args", list Value.reader, .refused⟩, .array (c.arguments.map Value.toJson),
      c.arguments.all Value.isFinite⟩,
    ⟨⟨"rets", list Value.reader, .refused⟩, .array (c.results.map Value.toJson),
      c.results.all Value.isFinite⟩] rfl (by decide) ?_ rfl (by simp [isFinite])
  simp only [List.forall_mem_cons]
  exact ⟨accepts_signed32 c.number, accepts_list fun v _ ↦ v.accepts,
    accepts_list fun v _ ↦ v.accepts, nofun⟩

theorem ofJson?_toJson (c : Call) : ofJson? c.toJson = some c := by
  have hvalues (vs : List Value) : (vs.map Value.toJson).mapM Value.ofJson? = some vs :=
    mapM_map_eq_self fun v _ ↦ v.ofJson?_toJson
  simp only [toJson, ofJson?, hvalues, Int32.ofInt_toInt]
  rfl

end Call

namespace Task

/-- Whether every double in the call of a task is finite. -/
def isFinite (t : Task) : Bool := t.call.all Call.isFinite

theorem accepts (t : Task) : Accepts reader t.toJson t.isFinite := by
  refine accepts_record [
    ⟨⟨"status", unsigned32, .refused⟩, .int t.status.word.toNat, true⟩,
    ⟨⟨"gid", signed64, .refused⟩, .int t.id.toInt, true⟩,
    ⟨⟨"gpc", unsigned64, .refused⟩, .int t.site.toNat, true⟩,
    ⟨⟨"routine_count", unsigned64, .refused⟩, .int t.ordinal.toNat, true⟩,
    ⟨⟨"func_info", text, .refused⟩, .string t.label, true⟩,
    ⟨⟨"syscall", optional Call.reader, .null⟩, _, t.isFinite⟩] rfl (by decide) ?_ rfl (by simp)
  simp only [List.forall_mem_cons]
  refine ⟨accepts_unsigned32 _, accepts_signed64 _, accepts_unsigned64 _, accepts_unsigned64 _,
    accepts_text _, ?_, nofun⟩
  rw [isFinite]
  cases t.call with
  | none => exact accepts_optional_null _
  | some c => exact accepts_optional c.accepts

theorem ofJson?_toJson (t : Task) : ofJson? t.toJson = some t := by
  obtain ⟨status, id, site, ordinal, label, call⟩ := t
  cases call with
  | none => simp [toJson, ofJson?]
  | some c =>
    have hcall := c.ofJson?_toJson
    rw [Call.toJson] at hcall
    simp [toJson, ofJson?, Call.toJson, hcall]

end Task

/-! ### Events -/

namespace Variable

theorem accepts (v : Variable) : Accepts reader v.toJson true := by
  refine accepts_record [
    ⟨⟨"name", text, .refused⟩, .string v.name, true⟩,
    ⟨⟨"value", text, .refused⟩, .string v.value, true⟩,
    ⟨⟨"type_name", text, .refused⟩, .string v.typeName, true⟩] rfl (by decide) ?_ rfl rfl
  simp only [List.forall_mem_cons]
  exact ⟨accepts_text _, accepts_text _, accepts_text _, nofun⟩

theorem ofJson?_toJson (v : Variable) : ofJson? v.toJson = some v := rfl

end Variable

namespace Dump

theorem accepts (d : Dump) : Accepts reader d.toJson true := by
  refine accepts_record [
    ⟨⟨"log_id", text, .refused⟩, .string d.point, true⟩,
    ⟨⟨"vars", list Variable.reader, .refused⟩, .array (d.vars.map Variable.toJson),
      d.vars.all fun _ ↦ true⟩] rfl (by decide) ?_ rfl (by simp)
  simp only [List.forall_mem_cons]
  exact ⟨accepts_text _, accepts_list fun v _ ↦ v.accepts, nofun⟩

theorem ofJson?_toJson (d : Dump) : ofJson? d.toJson = some d := by
  have hvars : (d.vars.map Variable.toJson).mapM Variable.ofJson? = some d.vars :=
    mapM_map_eq_self fun v _ ↦ v.ofJson?_toJson
  simp only [toJson, ofJson?, hvars]
  rfl

end Dump

namespace Message

theorem accepts (m : Message) : Accepts reader m.toJson true := by
  refine accepts_record [
    ⟨⟨"body", list unsigned8, .refused⟩, .array (m.body.map fun b ↦ .int b.toNat),
      m.body.all fun _ ↦ true⟩] rfl (by decide) ?_ rfl (by simp)
  simp only [List.forall_mem_cons]
  exact ⟨accepts_list fun b _ ↦ accepts_unsigned8 b, nofun⟩

theorem ofJson?_toJson (m : Message) : ofJson? m.toJson = some m := by
  have hbytes : (m.body.map fun b ↦ Json.int b.toNat).mapM byteOfJson? = some m.body :=
    mapM_map_eq_self fun b _ ↦ by simp [byteOfJson?]
  simp only [toJson, ofJson?, hbytes]
  rfl

end Message

namespace Payload

/-- Whether every double in a payload is finite. -/
def isFinite : Payload → Bool
  | .call c => c.isFinite
  | _ => true

theorem accepts (p : Payload) : Accepts reader p.toJson p.isFinite := by
  cases p with
  | dump d => exact accepts_choice rfl d.accepts
  | call c => exact accepts_choice rfl c.accepts
  | send m => exact accepts_choice rfl m.accepts
  | receive m => exact accepts_choice rfl m.accepts
  | schedule => exact accepts_choice_bare rfl

theorem ofJson?_toJson (p : Payload) : ofJson? p.toJson = some p := by
  have hkind (k : EventKind) : kindOfName? k.name = some k := by cases k <;> decide
  cases p with
  | dump d => simp [toJson, ofJson?, kind, hkind, d.ofJson?_toJson]
  | call c => simp [toJson, ofJson?, kind, hkind, c.ofJson?_toJson]
  | send m => simp [toJson, ofJson?, kind, hkind, m.ofJson?_toJson]
  | receive m => simp [toJson, ofJson?, kind, hkind, m.ofJson?_toJson]
  | schedule => simp [toJson, ofJson?, kind]

end Payload

namespace Event

/-- Whether every double in an event is finite. -/
def isFinite (e : Event) : Bool := e.task.isFinite && e.payload.isFinite

theorem accepts (e : Event) : Accepts reader e.toJson e.isFinite := by
  refine accepts_record [
    ⟨⟨"proc_id", size, .refused⟩, .int e.slot.toNat, true⟩,
    ⟨⟨"task", Task.reader, .refused⟩, e.task.toJson, e.task.isFinite⟩,
    ⟨⟨"epoch", unsigned64, .refused⟩, .int e.epoch.toNat, true⟩,
    ⟨⟨"stamp", unsigned64, .default (.int 0)⟩, .int e.stamp.toNat, true⟩,
    ⟨⟨"payload", Payload.reader, .refused⟩, e.payload.toJson, e.payload.isFinite⟩] rfl (by decide)
    ?_ rfl (by simp [isFinite])
  simp only [List.forall_mem_cons]
  exact ⟨accepts_size _, e.task.accepts, accepts_unsigned64 _, accepts_unsigned64 _,
    e.payload.accepts, nofun⟩

theorem ofJson?_toJson (e : Event) : ofJson? e.toJson = some e := by
  simp [toJson, ofJson?, e.task.ofJson?_toJson, e.payload.ofJson?_toJson]

end Event

/-! ### Documents -/

/-- What a reader makes of a text, it makes of the text as a whole document. -/
theorem fst_runAt_of_reads {α : Type} {r : Json.Reader α} {bytes rest : List UInt8} {a : α}
    (h : Reads r bytes (.ok a) rest) : (r.runAt (.start bytes)).1 = .ok a := by
  obtain ⟨taken, ahead, hrun⟩ := h 0 false
  exact congrArg Prod.fst hrun

theorem fst_runAt_of_reads_error {α : Type} {r : Json.Reader α} {bytes : List UInt8}
    {cause : Json.Cause} (rest : List UInt8) (h : Reads r bytes (.error cause) rest) :
    ∃ looked, (r.runAt (.start bytes)).1 = .error ⟨cause, looked⟩ := by
  obtain ⟨looked, c, hrun⟩ := h 0 false
  exact ⟨looked, congrArg Prod.fst hrun⟩

/-- A value and a line break are a whole document. -/
theorem document_of_reads {α : Type} {r : Json.Reader α} {bytes : List UInt8} {a : α}
    (h : Reads r bytes (.ok a) [0x0A]) : document r bytes = .ok a := by
  have hblank : Blank [0x0A] := rfl
  have hnothing : ∀ b ∈ ([] : List UInt8).head?, isBlank b = false := nofun
  exact fst_runAt_of_reads (h.bind ((reads_skipBlanks hblank hnothing).bind (Reads.pure a [])))

theorem document_of_reads_error {α : Type} {r : Json.Reader α} {bytes rest : List UInt8}
    {cause : Json.Cause} (h : Reads r bytes (.error cause) rest) :
    ∃ looked, document r bytes = .error ⟨cause, looked⟩ :=
  fst_runAt_of_reads_error rest h.bind_error

/-! ### Coverage -/

namespace Coverage

theorem accepts (c : Coverage) : Accepts reader c.toJson true := by
  refine accepts_map fun m hm ↦ ?_
  obtain ⟨⟨id, hits⟩, -, rfl⟩ := List.mem_map.1 hm
  exact accepts_unsigned64 hits

/-- The coverage made of the counts of another one, one after another. -/
def rebuilt (c : Coverage) : Coverage :=
  ⟨c.toList.foldl (fun hitsOf count ↦ hitsOf.insert count.1 count.2) ∅⟩

theorem ofJson?_toJson (c : Coverage) : ofJson? c.toJson = some c.rebuilt := by
  have hcounts (counts : List (String × UInt64)) (hitsOf : Std.TreeMap String UInt64) :
      (counts.map fun count ↦ (count.1, Json.int count.2.toNat)).foldlM enter? ⟨hitsOf⟩ =
        some ⟨counts.foldl (fun hitsOf count ↦ hitsOf.insert count.1 count.2) hitsOf⟩ := by
    induction counts generalizing hitsOf with
    | nil => rfl
    | cons count counts ih =>
      rw [List.map_cons, List.foldlM_cons, List.foldl_cons, ← ih]
      simp [enter?]
  exact hcounts c.toList ∅

/-- The counts of a coverage tell it. -/
theorem toList_rebuilt (c : Coverage) : c.rebuilt.toList = c.toList := by
  have hofList : (Std.TreeMap.ofList c.toList).Equiv c.hitsOf := by
    refine Std.TreeMap.Equiv.of_forall_constGet?_eq fun id ↦ ?_
    cases h : c.hitsOf[id]? with
    | some hits =>
      exact Std.TreeMap.getElem?_ofList_of_mem Std.ReflCmp.compare_self
        Std.TreeMap.distinct_keys_toList (Std.TreeMap.mem_toList_iff_getElem?_eq_some.2 h)
    | none =>
      refine Std.TreeMap.getElem?_ofList_of_contains_eq_false (Bool.eq_false_iff.2 fun hmem ↦ ?_)
      obtain ⟨⟨id', hits⟩, hcount, rfl⟩ := List.mem_map.1 (List.contains_iff_mem.1 hmem)
      rw [Std.TreeMap.mem_toList_iff_getElem?_eq_some.1 hcount] at h
      cases h
  exact (Std.TreeMap.ofList_equiv_foldl.symm.trans hofList).toList_eq

end Coverage

/-! ### Schedules -/

namespace Schedule

/-- Whether every double in a schedule is finite. -/
def isFinite (s : Schedule) : Bool := s.events.all Event.isFinite

/-- What is read of a schedule: also the coverage that is left out where it is empty. -/
def readForm (s : Schedule) : Json :=
  .object [
    ("layout_version", .int s.layoutVersion.toNat),
    ("events", .array (s.events.map Event.toJson)),
    ("lost", .int s.lost.toNat),
    ("coverage", .array (s.coverage.map Coverage.toJson))]

/-- The fields that are always written. -/
def given (s : Schedule) : List Given := [
  ⟨⟨"layout_version", unsigned32, .refused⟩, .int s.layoutVersion.toNat, true⟩,
  ⟨⟨"events", list Event.reader, .refused⟩, .array (s.events.map Event.toJson), s.isFinite⟩,
  ⟨⟨"lost", unsigned64, .default (.int 0)⟩, .int s.lost.toNat, true⟩]

/-- The field of the coverage. -/
def coverageField : Json.Reader.Field :=
  ⟨"coverage", list Coverage.reader, .default (.array [])⟩

theorem accepts_given (s : Schedule) : ∀ g ∈ s.given, Accepts g.field.value g.json g.finite := by
  simp only [given, List.forall_mem_cons]
  exact ⟨accepts_unsigned32 _, accepts_list fun e _ ↦ e.accepts, accepts_unsigned64 _, nofun⟩

/-- A schedule is read as it was written, and empty coverage where none was written. -/
theorem reads_toJson (s : Schedule) :
    Reads reader (utf8 s.text ++ [0x0A]) (readBack s.isFinite s.readForm) [0x0A] := by
  have hnames : ["layout_version", "events", "lost", "coverage"].Nodup := by decide
  by_cases hempty : s.coverage = []
  · have hjson : s.toJson = .object (s.given.map Given.member) := by
      rw [toJson, hempty]
      rfl
    have hform : s.readForm = .object (s.given.map Given.member ++ [("coverage", .array [])]) := by
      rw [readForm, hempty]
      rfl
    have hfinite : s.given.all Given.finite = s.isFinite := by simp [given]
    have hextra : filled [coverageField] (List.replicate [coverageField].length none) =
        .ok [("coverage", .array [])] := rfl
    have hdistinct : ((s.given.map Given.field ++ [coverageField]).map (·.name)).Nodup := hnames
    have hread := @reads_record "struct Schedule" _ _ _ hdistinct s.accepts_given hextra 0 []
      blank_nil [0x0A]
    rwa [List.nil_append, hfinite, ← hform, ← hjson] at hread
  · have hjson : s.toJson = s.readForm := by
      rw [toJson, List.isEmpty_eq_false_iff.2 hempty]
      rfl
    have hall : s.coverage.all (fun _ ↦ true) = true := List.all_eq_true.2 fun _ _ ↦ rfl
    have hcoverage : Accepts (list Coverage.reader) (.array (s.coverage.map Coverage.toJson))
        (s.coverage.all fun _ ↦ true) := accepts_list fun c _ ↦ c.accepts
    rw [hall] at hcoverage
    have h : Accepts reader s.readForm s.isFinite := by
      refine accepts_record (s.given ++ [⟨coverageField, _, true⟩]) rfl hnames ?_ rfl
        (by simp [given])
      intro g hg
      rcases List.mem_append.1 hg with hg | hg
      · exact s.accepts_given g hg
      · rw [List.mem_singleton.1 hg]
        exact hcoverage
    have hread := h.reads 0 [] [0x0A] rfl ⟨[], .inr rfl⟩
    rw [List.nil_append] at hread
    rw [text, hjson, Json.pretty]
    exact hread

/-- The schedule that is made of what was read. -/
def rebuilt (s : Schedule) : Schedule := { s with coverage := s.coverage.map Coverage.rebuilt }

theorem ofJson?_readForm (s : Schedule) : ofJson? s.readForm = some s.rebuilt := by
  have hevents : (s.events.map Event.toJson).mapM Event.ofJson? = some s.events :=
    mapM_map_eq_self fun e _ ↦ e.ofJson?_toJson
  have hcoverage : (s.coverage.map Coverage.toJson).mapM Coverage.ofJson? =
      some (s.coverage.map Coverage.rebuilt) := mapM_map_eq_some fun c _ ↦ c.ofJson?_toJson
  simp only [readForm, ofJson?, hevents, hcoverage]
  simp [rebuilt]

theorem rebuilt_beq (s : Schedule) : (s.rebuilt == s) = true := by
  have hcoverage (cs : List Coverage) : (cs.map Coverage.rebuilt == cs) = true := by
    induction cs with
    | nil => rfl
    | cons c cs ih =>
      have hc : (c.rebuilt == c) = true := by
        change (c.rebuilt.toList == c.toList) = true
        rw [c.toList_rebuilt, beq_self_eq_true]
      rw [List.map_cons, List.cons_beq_cons, hc, ih]
      rfl
  change (s.layoutVersion == s.layoutVersion && s.events == s.events && s.lost == s.lost &&
    s.coverage.map Coverage.rebuilt == s.coverage) = true
  rw [hcoverage, beq_self_eq_true, beq_self_eq_true, beq_self_eq_true]
  rfl

/-- The reader of a schedule as such. -/
def scheduleReader : Json.Reader Schedule := do
  match ofJson? (← reader) with
  | some s => pure s
  | none => Json.Reader.fail (.breach .valueExpected)

theorem ofDocument_eq (bytes : List UInt8) :
    ofDocument bytes = match Json.Reader.document scheduleReader bytes with
      | .error f => .error (.fault f)
      | .ok s => if s.isCurrent then .ok s else .error (.version s) := rfl

theorem reads_document (s : Schedule) :
    Reads scheduleReader s.document (readBack s.isFinite s.rebuilt) [0x0A] := by
  have hbytes : s.document = utf8 s.text ++ [0x0A] := utf8_append s.text "\n"
  rw [hbytes]
  refine s.reads_toJson.map_readBack ?_
  rw [s.ofJson?_readForm]

/-- A schedule without other doubles than finite ones is read from its document, unless it is of
another layout. -/
theorem ofDocument_of_isFinite {s : Schedule} (h : s.isFinite) :
    ofDocument s.document =
      if s.layoutVersion = Limits.layoutVersion then .ok s.rebuilt
      else .error (.version s.rebuilt) := by
  have hread := s.reads_document
  rw [h] at hread
  have hdocument : Json.Reader.document scheduleReader s.document = .ok s.rebuilt :=
    document_of_reads hread
  rw [ofDocument_eq, hdocument]
  simp only [isCurrent, decide_eq_true_eq]
  rfl

/-- A schedule with a double that is not finite cannot be read from its document. -/
theorem ofDocument_of_not_isFinite {s : Schedule} (h : ¬s.isFinite) :
    ∃ looked,
      ofDocument s.document = .error (.fault ⟨.mismatch (.wrongType .null "f64"), looked⟩) := by
  have hread := s.reads_document
  rw [Bool.eq_false_iff.2 h] at hread
  obtain ⟨looked, hdocument⟩ := document_of_reads_error hread
  refine ⟨looked, ?_⟩
  rw [ofDocument_eq, hdocument]

/-- A schedule without other doubles than finite ones comes back from its document, an equal one, if
it is of the present layout, and is refused for its layout otherwise. -/
theorem document_roundTrip (s : Schedule) (h : s.isFinite) :
    ∃ t, (t == s) = true ∧ ofDocument s.document =
      if s.layoutVersion = Limits.layoutVersion then .ok t else .error (.version t) :=
  ⟨s.rebuilt, s.rebuilt_beq, ofDocument_of_isFinite h⟩

/-- A schedule with a tenth, a text that is written with escapes, and coverage. -/
def sample (layoutVersion : UInt32) : Schedule where
  layoutVersion := layoutVersion
  events := [{
    slot := 0
    task := .spawned 1 0x100 0 "main.main"
    epoch := 0
    stamp := 7
    payload := .call ⟨0, [.float ⟨0x3FB999999999999A⟩, .text .string "\"\n\u0001é"], []⟩ }]
  lost := 1
  coverage := [⟨(∅ : Std.TreeMap String UInt64).insert "loop" 3⟩]

theorem document_roundTrip_sample :
    (∀ version, (sample version).isFinite) ∧
      (∃ t, (t == sample Limits.layoutVersion) = true ∧
        ofDocument (sample Limits.layoutVersion).document = .ok t) ∧
      ∃ t, (t == sample 0) = true ∧ ofDocument (sample 0).document = .error (.version t) := by
  have hfinite : ∀ version, (sample version).isFinite := fun _ ↦ rfl
  obtain ⟨t, ht, hpresent⟩ := document_roundTrip (sample Limits.layoutVersion) (hfinite _)
  obtain ⟨u, hu, hother⟩ := document_roundTrip (sample 0) (hfinite _)
  rw [if_pos (by decide)] at hpresent
  rw [if_neg (by decide)] at hother
  exact ⟨hfinite, ⟨t, ht, hpresent⟩, u, hu, hother⟩

end Schedule

end Turnstile
