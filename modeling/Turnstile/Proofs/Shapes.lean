import Turnstile.Proofs.Numerals

/-!
# Shapes that are read as they were written

A reader `Accepts` a value if it reads the value back from its text, at whatever depth the text is
indented and whatever stands after it on the line. Integers within their bounds, doubles, truth
values and texts are accepted by the readers made for them; lists, maps, records and choices are
accepted if their parts are (`accepts_list`, `accepts_map`, `accepts_record`, `accepts_choice`).

A double that is not finite is written as `null`, where no double is read (`accepts_double`). Every
value comes with a flag that tells whether all of its doubles are finite; if not, reading ends in
that failure at the first of them (`readBack`), and the flag of a whole is the conjunction of the
flags of its parts.

The loops over items and members are bounded by the bytes that are left, of which every item takes
at least one (`length_le_length_prettyItems`, `length_le_length_prettyMembers`). The members of a
record fill one slot after another, so no field comes twice (`reads_fieldsFrom`), and fields that
were left out at the end get their defaults (`reads_record`).
-/

set_option autoImplicit false
set_option relaxedAutoImplicit false

namespace Turnstile

namespace Json

namespace Reader

/-! ### Values and what stands after them -/

/-- What stands after a value on a line of its own: a comma or a line break. -/
def AfterValue (rest : List UInt8) : Prop := ∃ more, rest = 0x2C :: more ∨ rest = 0x0A :: more

theorem AfterValue.numberEnd {rest : List UInt8} (h : AfterValue rest) : NumberEnd rest := by
  obtain ⟨more, rfl | rfl⟩ := h
  · refine ⟨⟨?_, by simp⟩, rfl⟩
    rintro b ⟨⟩
    decide
  · refine ⟨⟨?_, by simp⟩, rfl⟩
    rintro b ⟨⟩
    decide

/-- The outcome of reading what was written: the same again if every double in it is finite. A
double that is not finite is written as `null`, and no double is read there. -/
def readBack {α : Type} (finite : Bool) (a : α) : Except Cause α :=
  if finite then .ok a else .error (.mismatch (.wrongType .null "f64"))

section

variable {α β : Type} {r : Reader α} {f : α → Reader β} {p q : Bool} {a : α} {b : β}
  {bytes middle rest : List UInt8}

theorem Reads.bind_readBack (hr : Reads r bytes (readBack p a) middle)
    (hf : Reads (f a) middle (readBack q b) rest) :
    Reads (r >>= f) bytes (readBack (p && q) b) rest := by
  cases p with
  | true => exact Reads.bind hr hf
  | false => exact Reads.bind_error hr

theorem Reads.thenAlways_readBack {second : Reader Unit} (hr : Reads r bytes (readBack p a) middle)
    (hsecond : Reads second middle (.ok ()) rest) :
    Reads (Reader.thenAlways r second) bytes (readBack p a) rest := by
  cases p with
  | true => exact Reads.thenAlways hr hsecond
  | false => exact Reads.thenAlways_error hr

/-- What was read is handed on in another form. -/
theorem Reads.map_readBack (hr : Reads r bytes (readBack p a) rest)
    (hf : f a = Pure.pure b) : Reads (r >>= f) bytes (readBack p b) rest := by
  have h := hr.bind_readBack (q := true) (hf ▸ Reads.pure b rest)
  rwa [Bool.and_true] at h

end

/-- A text begins neither with a blank nor as the end of a list. -/
def Starts (bytes : List UInt8) : Prop :=
  ∃ b more, bytes = b :: more ∧ isBlank b = false ∧ b ≠ 0x5D

/-- At every depth, a reader accepts the text of a value. -/
structure Accepts (r : Reader Json) (j : Json) (finite : Bool) : Prop where
  starts : ∀ depth, Starts (utf8 (j.prettyAt depth))
  reads : ∀ depth blanks rest, Blank blanks → AfterValue rest →
    Reads r (blanks ++ (utf8 (j.prettyAt depth) ++ rest)) (readBack finite j) rest

theorem utf8_lineBreak (depth : Nat) :
    utf8 (lineBreak depth) = 0x0A :: List.replicate (2 * depth) 0x20 := by
  have hblanks (n : Nat) : (List.replicate n ' ').flatMap String.utf8EncodeChar =
      List.replicate n 0x20 := by
    induction n with
    | zero => rfl
    | succ n ih => rw [List.replicate_succ, List.flatMap_cons, ih]; rfl
  rw [lineBreak, utf8_append, utf8_ofList (List.replicate _ ' '), hblanks]
  rfl

theorem blank_lineBreak (depth : Nat) : Blank (utf8 (lineBreak depth)) := by
  rw [utf8_lineBreak, Blank, List.all_eq_true]
  intro b hb
  rcases List.mem_cons.1 hb with rfl | hb
  · decide
  · rw [List.eq_of_mem_replicate hb]
    decide

theorem afterValue_lineBreak (depth : Nat) (rest : List UInt8) :
    AfterValue (utf8 (lineBreak depth) ++ rest) := by
  rw [utf8_lineBreak]
  exact ⟨_, .inr rfl⟩

/-! ### Scalars -/

theorem starts_of_numeralText {text : String} {negative : Bool} {body : List UInt8} {n : Numeral}
    (h : NumeralText text negative body n) : Starts (utf8 text) := by
  obtain ⟨b, more, hbody, hb⟩ := h.first
  rw [h.text]
  cases negative with
  | true => exact ⟨0x2D, body, rfl, by decide, by decide⟩
  | false => exact ⟨b, more, hbody, isBlank_of_isDigit hb, ne_of_isDigit hb (by decide)⟩

/-- An integer between bounds of 64 bits is read as it was written. -/
theorem accepts_integer {expected : String} {low high n : Int} (hlow : low ≤ n) (hhigh : n ≤ high)
    (hfirst : -(UInt64.size / 2 : Int) ≤ low) (hlast : high < UInt64.size) :
    Accepts (integer expected low high) (.int n) true := by
  have htext := numeralText_toString ⟨hfirst.trans hlow, hhigh.trans_lt hlast⟩
  refine ⟨fun depth ↦ starts_of_numeralText htext, fun depth blanks rest hblanks hrest ↦ ?_⟩
  refine reads_numeral htext hblanks hrest.numberEnd ?_
  simp only [hlow, hhigh, and_self, if_true]
  exact Reads.pure _ rest

/-- A value of which the text is known, byte by byte. -/
theorem accepts_of_text {r : Reader Json} {j : Json} {finite : Bool} {b : UInt8}
    {more : List UInt8} (htext : ∀ depth, utf8 (j.prettyAt depth) = b :: more)
    (hb : isBlank b = false) (hbracket : b ≠ 0x5D)
    (hread : ∀ blanks rest, Blank blanks →
      Reads r (blanks ++ b :: (more ++ rest)) (readBack finite j) rest) :
    Accepts r j finite := by
  refine ⟨fun depth ↦ ⟨b, more, htext depth, hb, hbracket⟩, fun depth blanks rest hblanks _ ↦ ?_⟩
  rw [htext]
  exact hread blanks rest hblanks

theorem utf8_null : utf8 "null" = [0x6E, 0x75, 0x6C, 0x6C] := rfl

theorem reads_whatStands_null (rest : List UInt8) :
    Reads whatStands (0x6E :: ([0x75, 0x6C, 0x6C] ++ rest)) (.ok .null) rest :=
  (reads_peek _).bind ((reads_discard _ _).bind
    ((reads_word [0x75, 0x6C, 0x6C] rest).bind (Reads.pure _ rest)))

theorem accepts_double (x : Binary64) : Accepts double (.float x) x.isFinite := by
  by_cases hx : x.isFinite
  · obtain ⟨body, htext⟩ := numeralText_jsonNumber hx
    have hpretty (depth : Nat) : (Json.float x).prettyAt depth = x.jsonNumber := if_pos hx
    refine ⟨fun depth ↦ ?_, fun depth blanks rest hblanks hrest ↦ ?_⟩
    · rw [hpretty]
      exact starts_of_numeralText htext
    · rw [hpretty, hx]
      exact reads_numeral htext hblanks hrest.numberEnd (Reads.pure _ rest)
  · have hpretty (depth : Nat) : utf8 ((Json.float x).prettyAt depth) = [0x6E, 0x75, 0x6C, 0x6C] :=
      (congrArg utf8 (if_neg hx)).trans utf8_null
    rw [Bool.eq_false_iff.2 hx]
    refine accepts_of_text hpretty (by decide) (by decide) fun blanks rest hblanks ↦ ?_
    refine (reads_startOfValue hblanks (by decide)).bind (Reads.settle (Reads.settle ?_))
    exact (reads_whatStands_null rest).bind (Reads.reject _ rest rest)

theorem accepts_boolean (b : Bool) : Accepts boolean (.bool b) true := by
  cases b with
  | true =>
    have hword : utf8 "true" = [0x74, 0x72, 0x75, 0x65] := rfl
    refine accepts_of_text (fun _ ↦ hword) (by decide) (by decide) fun blanks rest hblanks ↦ ?_
    refine (reads_startOfValue hblanks (by decide)).bind ((reads_discard _ _).bind ?_)
    exact (reads_word [0x72, 0x75, 0x65] rest).bind (Reads.pure _ rest)
  | false =>
    have hword : utf8 "false" = [0x66, 0x61, 0x6C, 0x73, 0x65] := rfl
    refine accepts_of_text (fun _ ↦ hword) (by decide) (by decide) fun blanks rest hblanks ↦ ?_
    refine (reads_startOfValue hblanks (by decide)).bind ((reads_discard _ _).bind ?_)
    exact (reads_word [0x61, 0x6C, 0x73, 0x65] rest).bind (Reads.pure _ rest)

theorem accepts_text (s : String) : Accepts text (.string s) true := by
  refine accepts_of_text (fun _ ↦ utf8_stringText s) (by decide) (by decide)
    fun blanks rest hblanks ↦ ?_
  have hread : Reads (stringFor "a string") (blanks ++ 0x22 :: (quoted s ++ rest)) (.ok s) rest :=
    (reads_startOfValue hblanks (by decide)).bind
      ((reads_discard _ _).bind (reads_stringBody s rest))
  exact hread.bind (Reads.pure _ rest)

theorem accepts_optional_null (r : Reader Json) : Accepts (optional r) .null true := by
  refine accepts_of_text (fun _ ↦ utf8_null) (by decide) (by decide) fun blanks rest hblanks ↦ ?_
  refine (reads_skipBlanks_cons hblanks (by decide)).bind ((reads_discard _ _).bind ?_)
  exact (reads_word [0x75, 0x6C, 0x6C] rest).bind (Reads.pure _ rest)

/-! ### Lists -/

/-- What stands before the bracket that ends a list or an object: a line break, unless it is
empty. -/
def closing (depth : Nat) (isEmpty : Bool) : List UInt8 :=
  if isEmpty then [] else utf8 (lineBreak depth)

theorem blank_closing (depth : Nat) (isEmpty : Bool) : Blank (closing depth isEmpty) := by
  cases isEmpty with
  | true => rfl
  | false => exact blank_lineBreak depth

theorem afterValue_closing (depth : Nat) (rest : List UInt8) :
    AfterValue (closing depth false ++ rest) := afterValue_lineBreak depth rest

theorem reads_hasItem_end (first : Bool) {blanks : List UInt8} (hblanks : Blank blanks)
    (rest : List UInt8) :
    Reads (hasItem first) (blanks ++ 0x5D :: rest) (.ok false) (0x5D :: rest) :=
  (reads_skipBlanks_cons hblanks (by decide)).bind (Reads.pure _ _)

/-- A comma stands before every item but the first. -/
theorem reads_hasItem (first : Bool) {blanks text : List UInt8} (hblanks : Blank blanks)
    (htext : Starts text) (rest : List UInt8) :
    Reads (hasItem first) ((0x2C :: (blanks ++ (text ++ rest))).drop first.toNat) (.ok true)
      (text ++ rest) := by
  obtain ⟨b, more, rfl, hb, hbracket⟩ := htext
  cases first with
  | true =>
    refine (reads_skipBlanks_cons hblanks hb).bind ?_
    simp only [List.cons_append, if_neg hbracket, if_true]
    exact Reads.pure _ _
  | false =>
    refine (reads_skipBlanks_cons blank_nil (by decide)).bind ?_
    refine (reads_discard _ _).bind ?_
    refine (reads_skipBlanks_cons hblanks hb).bind ?_
    simp only [List.cons_append]
    exact Reads.pure _ _

theorem reads_endOfList {blanks : List UInt8} (hblanks : Blank blanks) (rest : List UInt8) :
    Reads endOfList (blanks ++ 0x5D :: rest) (.ok ()) rest :=
  (reads_skipBlanks_cons hblanks (by decide)).bind (reads_discard _ _)

theorem utf8_prettyItems_cons (depth : Nat) (j : Json) (js : List Json) :
    utf8 (prettyItems depth (j :: js)) = 0x2C :: (utf8 (lineBreak depth) ++
      (utf8 (j.prettyAt depth) ++ utf8 (prettyItems depth js))) := by
  rw [prettyItems, utf8_append, utf8_append, utf8_append, List.append_assoc, List.append_assoc]
  rfl

theorem afterValue_prettyItems (depth : Nat) (js : List Json) {rest : List UInt8}
    (hrest : AfterValue rest) : AfterValue (utf8 (prettyItems depth js) ++ rest) := by
  cases js with
  | nil => exact hrest
  | cons j js =>
    rw [utf8_prettyItems_cons]
    exact ⟨_, .inl rfl⟩

/-- Every item takes a byte. -/
theorem length_le_length_prettyItems (depth : Nat) (js : List Json) :
    js.length ≤ (utf8 (prettyItems depth js)).length := by
  induction js with
  | nil => exact Nat.zero_le _
  | cons j js ih =>
    rw [utf8_prettyItems_cons, List.length_cons, List.length_cons, List.length_append,
      List.length_append]
    omega

/-- The text of a list. -/
theorem utf8_prettyAt_array (depth : Nat) (js : List Json) :
    utf8 ((Json.array js).prettyAt depth) =
      0x5B :: ((utf8 (prettyItems (depth + 1) js)).drop 1 ++
        (closing depth js.isEmpty ++ [0x5D])) := by
  cases js with
  | nil =>
    have hbrackets : utf8 "[]" = [0x5B, 0x5D] := rfl
    exact hbrackets
  | cons j js =>
    rw [prettyAt, utf8_prettyItems_cons, List.drop_succ_cons, List.drop_zero]
    simp only [utf8_append, List.append_assoc]
    rfl

/-- The items of a list are read as they were written, up to the first one that is not finite. -/
theorem reads_itemsFrom {α : Type} {r : Reader Json} {toJson : α → Json} {finite : α → Bool}
    {xs : List α} (h : ∀ x ∈ xs, Accepts r (toJson x) (finite x)) (depth : Nat) (first : Bool)
    (rounds : List UInt8) (hrounds : xs.length < rounds.length) (items : List Json)
    {blanks rest : List UInt8} (hblanks : Blank blanks)
    (hafter : xs ≠ [] → AfterValue (blanks ++ 0x5D :: rest)) :
    Reads (itemsFrom r rounds first items)
      ((utf8 (prettyItems depth (xs.map toJson))).drop first.toNat ++ (blanks ++ 0x5D :: rest))
      (readBack (xs.all finite) ((xs.map toJson).reverse ++ items)) (0x5D :: rest) := by
  induction xs generalizing first rounds items with
  | nil =>
    obtain ⟨round, rounds, rfl⟩ := List.exists_cons_of_length_pos hrounds
    have hnothing : (utf8 (prettyItems depth ([].map toJson))).drop first.toNat = [] :=
      List.drop_nil
    rw [hnothing]
    exact (reads_hasItem_end first hblanks rest).bind (Reads.pure _ _)
  | cons x xs ih =>
    obtain ⟨round, rounds, rfl⟩ := List.exists_cons_of_length_pos (Nat.zero_lt_of_lt hrounds)
    have hx := h x List.mem_cons_self
    have hclose := hafter (List.cons_ne_nil x xs)
    have hxs := ih (fun y hy ↦ h y (List.mem_cons_of_mem _ hy)) false rounds
      (Nat.lt_of_succ_lt_succ hrounds) (toJson x :: items) fun _ ↦ hclose
    have hread := hx.reads depth [] _ rfl (afterValue_prettyItems depth (xs.map toJson) hclose)
    have hgoes := reads_hasItem first (blank_lineBreak depth) (hx.starts depth)
      (utf8 (prettyItems depth (xs.map toJson)) ++ (blanks ++ 0x5D :: rest))
    have htext : (utf8 (prettyItems depth ((x :: xs).map toJson))).drop first.toNat ++
        (blanks ++ 0x5D :: rest) = (0x2C :: (utf8 (lineBreak depth) ++
          (utf8 ((toJson x).prettyAt depth) ++ (utf8 (prettyItems depth (xs.map toJson)) ++
            (blanks ++ 0x5D :: rest))))).drop first.toNat := by
      rw [List.map_cons, utf8_prettyItems_cons]
      cases first <;> simp [List.append_assoc]
    rw [htext]
    refine hgoes.bind ?_
    rw [if_pos rfl, List.map_cons, List.all_cons, List.reverse_cons, List.append_assoc,
      List.singleton_append]
    exact hread.bind_readBack hxs

/-- A list is read as it was written. -/
theorem accepts_list {α : Type} {r : Reader Json} {toJson : α → Json} {finite : α → Bool}
    {xs : List α} (h : ∀ x ∈ xs, Accepts r (toJson x) (finite x)) :
    Accepts (list r) (.array (xs.map toJson)) (xs.all finite) := by
  refine ⟨fun depth ↦ ⟨0x5B, _, utf8_prettyAt_array depth _, by decide, by decide⟩,
    fun depth blanks rest hblanks _ ↦ ?_⟩
  rw [utf8_prettyAt_array, List.cons_append, List.append_assoc, List.append_assoc,
    List.singleton_append]
  refine (reads_startOfValue hblanks (by decide)).bind (Reads.settle ?_)
  rw [if_pos rfl]
  refine Reads.get_bind fun taken ahead ↦ (reads_discard _ _).bind ?_
  have hclose : xs ≠ [] → AfterValue (closing depth (xs.map toJson).isEmpty ++ 0x5D :: rest) := by
    intro hne
    have hsome : (xs.map toJson).isEmpty = false := by simpa using hne
    rw [hsome]
    exact afterValue_closing depth _
  have hrounds : xs.length < (0x5B :: ((utf8 (prettyItems (depth + 1) (xs.map toJson))).drop 1 ++
      (closing depth (xs.map toJson).isEmpty ++ 0x5D :: rest))).length := by
    have hcount := length_le_length_prettyItems (depth + 1) (xs.map toJson)
    simp only [List.length_cons, List.length_append, List.length_drop, List.length_map] at hcount ⊢
    omega
  have hitems := reads_itemsFrom h (depth + 1) true _ hrounds [] (blank_closing depth _) hclose
  rw [List.append_nil] at hitems
  refine (hitems.thenAlways_readBack (reads_endOfList blank_nil rest)).map_readBack ?_
  rw [List.reverse_reverse]

/-! ### Members of objects -/

theorem reads_hasMember_end (first : Bool) {blanks : List UInt8} (hblanks : Blank blanks)
    (rest : List UInt8) :
    Reads (hasMember first) (blanks ++ 0x7D :: rest) (.ok false) (0x7D :: rest) :=
  (reads_skipBlanks_cons hblanks (by decide)).bind (Reads.pure _ _)

/-- A comma stands before every member but the first. -/
theorem reads_hasMember (first : Bool) {blanks : List UInt8} (hblanks : Blank blanks)
    (rest : List UInt8) :
    Reads (hasMember first) ((0x2C :: (blanks ++ 0x22 :: rest)).drop first.toNat) (.ok true)
      (0x22 :: rest) := by
  cases first with
  | true => exact (reads_skipBlanks_cons hblanks (by decide)).bind (Reads.pure _ _)
  | false =>
    refine (reads_skipBlanks_cons blank_nil (by decide)).bind ?_
    refine (reads_discard _ _).bind ?_
    exact (reads_skipBlanks_cons hblanks (by decide)).bind (Reads.pure _ _)

theorem reads_endOfObject {blanks : List UInt8} (hblanks : Blank blanks) (rest : List UInt8) :
    Reads endOfObject (blanks ++ 0x7D :: rest) (.ok ()) rest :=
  (reads_skipBlanks_cons hblanks (by decide)).bind (reads_discard _ _)

theorem reads_colon (rest : List UInt8) : Reads colon (0x3A :: rest) (.ok ()) rest :=
  (reads_skipBlanks_cons blank_nil (by decide)).bind (reads_discard _ _)

theorem reads_key (name : String) (rest : List UInt8) :
    Reads key (0x22 :: (quoted name ++ rest)) (.ok name) rest :=
  (reads_discard _ _).bind (reads_stringBody name rest)

/-- The value of a member stands a blank after the colon. -/
theorem Accepts.reads_member {r : Reader Json} {j : Json} {finite : Bool} (h : Accepts r j finite)
    (depth : Nat) {rest : List UInt8} (hrest : AfterValue rest) :
    Reads r (0x20 :: (utf8 (j.prettyAt depth) ++ rest)) (readBack finite j) rest :=
  h.reads depth [0x20] rest rfl hrest

theorem utf8_prettyMembers_cons (depth : Nat) (name : String) (j : Json)
    (members : List (String × Json)) (rest : List UInt8) :
    utf8 (prettyMembers depth ((name, j) :: members)) ++ rest = 0x2C :: (utf8 (lineBreak depth) ++
      0x22 :: (quoted name ++ 0x3A :: 0x20 :: (utf8 (j.prettyAt depth) ++
        (utf8 (prettyMembers depth members) ++ rest)))) := by
  rw [prettyMembers]
  simp only [utf8_append, utf8_stringText, List.append_assoc, List.cons_append]
  rfl

theorem drop_prettyMembers_cons (depth : Nat) (name : String) (j : Json)
    (members : List (String × Json)) (first : Bool) (rest : List UInt8) :
    (utf8 (prettyMembers depth ((name, j) :: members))).drop first.toNat ++ rest =
      (0x2C :: (utf8 (lineBreak depth) ++ 0x22 :: (quoted name ++ 0x3A :: 0x20 ::
        (utf8 (j.prettyAt depth) ++ (utf8 (prettyMembers depth members) ++ rest))))).drop
          first.toNat := by
  have hcons := utf8_prettyMembers_cons depth name j members []
  rw [← utf8_prettyMembers_cons, List.drop_append_of_le_length]
  rw [List.append_nil] at hcons
  rw [hcons]
  cases first <;> simp

theorem afterValue_prettyMembers (depth : Nat) (members : List (String × Json)) {rest : List UInt8}
    (hrest : AfterValue rest) : AfterValue (utf8 (prettyMembers depth members) ++ rest) := by
  cases members with
  | nil => exact hrest
  | cons member members =>
    rw [utf8_prettyMembers_cons]
    exact ⟨_, .inl rfl⟩

/-- Every member takes a byte. -/
theorem length_le_length_prettyMembers (depth : Nat) (members : List (String × Json)) :
    members.length ≤ (utf8 (prettyMembers depth members)).length := by
  induction members with
  | nil => exact Nat.zero_le _
  | cons member members ih =>
    have hcons := utf8_prettyMembers_cons depth member.1 member.2 members []
    rw [List.append_nil] at hcons
    rw [hcons]
    simp only [List.length_cons, List.length_append]
    omega

/-- The text of an object. -/
theorem utf8_prettyAt_object (depth : Nat) (members : List (String × Json)) :
    utf8 ((Json.object members).prettyAt depth) =
      0x7B :: ((utf8 (prettyMembers (depth + 1) members)).drop 1 ++
        (closing depth members.isEmpty ++ [0x7D])) := by
  cases members with
  | nil =>
    have hbrackets : utf8 "\x7b\x7d" = [0x7B, 0x7D] := rfl
    exact hbrackets
  | cons member members =>
    have hdrop := drop_prettyMembers_cons (depth + 1) member.1 member.2 members true
      (closing depth false ++ [0x7D])
    rw [Bool.toNat_true] at hdrop
    rw [List.isEmpty_cons, hdrop, prettyAt, List.drop_succ_cons, List.drop_zero]
    simp only [utf8_append, utf8_stringText, List.append_assoc, List.cons_append]
    rfl

theorem starts_object (members : List (String × Json)) (depth : Nat) :
    Starts (utf8 ((Json.object members).prettyAt depth)) :=
  ⟨0x7B, _, utf8_prettyAt_object depth members, by decide, by decide⟩

/-- There are more bytes in the text of an object than members. -/
theorem length_lt_length_object (depth : Nat) (members : List (String × Json))
    (rest : List UInt8) :
    members.length < (0x7B :: ((utf8 (prettyMembers (depth + 1) members)).drop 1 ++
      (closing depth members.isEmpty ++ 0x7D :: rest))).length := by
  have hcount := length_le_length_prettyMembers (depth + 1) members
  simp only [List.length_cons, List.length_append, List.length_drop]
  omega

theorem afterValue_closing_object {members : List (String × Json)} (depth : Nat)
    (rest : List UInt8) (h : members ≠ []) :
    AfterValue (closing depth members.isEmpty ++ 0x7D :: rest) := by
  rw [List.isEmpty_eq_false_iff.2 h]
  exact afterValue_closing depth _

/-- Where an object may be absent, it is read as it was written. -/
theorem accepts_optional {r : Reader Json} {members : List (String × Json)} {finite : Bool}
    (h : Accepts r (.object members) finite) : Accepts (optional r) (.object members) finite where
  starts := h.starts
  reads depth blanks rest hblanks hrest := by
    have hread := h.reads depth [] rest rfl hrest
    rw [utf8_prettyAt_object] at hread ⊢
    exact (reads_skipBlanks_cons hblanks (by decide)).bind hread

/-! ### Objects with free keys -/

/-- The members of an object with free keys are read as they were written. -/
theorem reads_membersFrom {r : Reader Json} {members : List (String × Json)}
    (h : ∀ m ∈ members, Accepts r m.2 true) (depth : Nat) (first : Bool) (rounds : List UInt8)
    (hrounds : members.length < rounds.length) (before : List (String × Json))
    {blanks rest : List UInt8} (hblanks : Blank blanks)
    (hafter : members ≠ [] → AfterValue (blanks ++ 0x7D :: rest)) :
    Reads (membersFrom r rounds first before)
      ((utf8 (prettyMembers depth members)).drop first.toNat ++ (blanks ++ 0x7D :: rest))
      (.ok (members.reverse ++ before)) (0x7D :: rest) := by
  induction members generalizing first rounds before with
  | nil =>
    obtain ⟨round, rounds, rfl⟩ := List.exists_cons_of_length_pos hrounds
    have hnothing : (utf8 (prettyMembers depth [])).drop first.toNat = [] := List.drop_nil
    rw [hnothing]
    exact (reads_hasMember_end first hblanks rest).bind (Reads.pure _ _)
  | cons member members ih =>
    obtain ⟨name, j⟩ := member
    obtain ⟨round, rounds, rfl⟩ := List.exists_cons_of_length_pos (Nat.zero_lt_of_lt hrounds)
    have hclose := hafter (List.cons_ne_nil _ _)
    have hothers := ih (fun m hm ↦ h m (List.mem_cons_of_mem _ hm)) false rounds
      (Nat.lt_of_succ_lt_succ hrounds) ((name, j) :: before) fun _ ↦ hclose
    have hread := (h (name, j) List.mem_cons_self).reads_member depth
      (afterValue_prettyMembers depth members hclose)
    rw [drop_prettyMembers_cons]
    refine (reads_hasMember first (blank_lineBreak depth) _).bind ?_
    rw [if_pos rfl, List.reverse_cons, List.append_assoc, List.singleton_append]
    exact (reads_key name _).bind ((reads_colon _).bind (Reads.bind hread hothers))

/-- An object with free keys is read as it was written. -/
theorem accepts_map {r : Reader Json} {members : List (String × Json)}
    (h : ∀ m ∈ members, Accepts r m.2 true) : Accepts (map r) (.object members) true := by
  refine ⟨starts_object members, fun depth blanks rest hblanks _ ↦ ?_⟩
  rw [utf8_prettyAt_object, List.cons_append, List.append_assoc, List.append_assoc,
    List.singleton_append]
  refine (reads_startOfValue hblanks (by decide)).bind (Reads.settle ?_)
  rw [if_pos rfl]
  refine Reads.get_bind fun taken ahead ↦ (reads_discard _ _).bind ?_
  have hrounds := length_lt_length_object depth members rest
  have hmembers := reads_membersFrom h (depth + 1) true _ hrounds [] (blank_closing depth _)
    (afterValue_closing_object depth rest)
  rw [List.append_nil] at hmembers
  refine (hmembers.thenAlways (reads_endOfObject blank_nil rest)).bind ?_
  rw [List.reverse_reverse]
  exact Reads.pure _ rest

/-! ### Records -/

/-- A field of a record with the value that was written for it. -/
structure Given where
  field : Field
  json : Json
  finite : Bool

namespace Given

def member (g : Given) : String × Json := (g.field.name, g.json)

/-- The slots after some fields were read, with so many to go. -/
def slots (done : List Given) (count : Nat) : Slots :=
  done.map (fun g ↦ some g.json) ++ List.replicate count none

variable {done more : List Given} {g : Given} {extra : List Field}

theorem findIdx?_name
    (hnames : (((done ++ g :: more).map field ++ extra).map (·.name)).Nodup) :
    ((done ++ g :: more).map field ++ extra).findIdx? (·.name = g.field.name) =
      some done.length := by
  have hbefore : (done.map field).findIdx? (·.name = g.field.name) = none := by
    rw [List.findIdx?_eq_none_iff]
    intro f hf
    simp only [List.map_append, List.map_cons, List.append_assoc] at hnames
    have hne := (List.nodup_append.1 hnames).2.2 f.name (List.mem_map_of_mem hf) g.field.name
      List.mem_cons_self
    exact decide_eq_false hne
  rw [List.map_append, List.append_assoc, List.findIdx?_append, hbefore, List.map_cons,
    List.cons_append, List.findIdx?_cons]
  simp

theorem getElem?_field :
    ((done ++ g :: more).map field ++ extra)[done.length]? = some g.field := by
  simp

theorem getElem?_slots (count : Nat) : ((slots done (count + 1))[done.length]?).bind id = none := by
  simp [slots]

theorem set_slots (count : Nat) :
    (slots done (count + 1)).set done.length (some g.json) = slots (done ++ [g]) count := by
  simp [slots, List.replicate_succ]

theorem filled_slots (given : List Given) (extra : List Field) :
    filled (given.map field ++ extra) (slots given extra.length) =
      (filled extra (List.replicate extra.length none)).map (given.map member ++ ·) := by
  induction given with
  | nil => cases h : filled extra (List.replicate extra.length none) <;> simp [slots, h, Except.map]
  | cons g given ih =>
    have htail : (slots (g :: given) extra.length).tail = slots given extra.length := rfl
    have hhead : (slots (g :: given) extra.length).head?.bind id = some g.json := rfl
    rw [List.map_cons, List.cons_append, filled, htail, hhead, ih]
    cases filled extra (List.replicate extra.length none) <;> rfl

end Given

/-- The members of a record are read into the slots of their fields, up to the first one that is
not finite. -/
theorem reads_fieldsFrom (done more : List Given) {extra : List Field}
    (hnames : (((done ++ more).map Given.field ++ extra).map (·.name)).Nodup)
    (h : ∀ g ∈ more, Accepts g.field.value g.json g.finite) (depth : Nat) (first : Bool)
    (rounds : List UInt8) (hrounds : more.length < rounds.length) {blanks rest : List UInt8}
    (hblanks : Blank blanks) (hafter : more ≠ [] → AfterValue (blanks ++ 0x7D :: rest)) :
    Reads (fieldsFrom ((done ++ more).map Given.field ++ extra) rounds first
        (Given.slots done (more.length + extra.length)))
      ((utf8 (prettyMembers depth (more.map Given.member))).drop first.toNat ++
        (blanks ++ 0x7D :: rest))
      (readBack (more.all Given.finite) (Given.slots (done ++ more) extra.length))
      (0x7D :: rest) := by
  induction more generalizing done first rounds with
  | nil =>
    obtain ⟨round, rounds, rfl⟩ := List.exists_cons_of_length_pos hrounds
    have hnothing : (utf8 (prettyMembers depth ([].map Given.member))).drop first.toNat = [] :=
      List.drop_nil
    rw [hnothing, List.append_nil, List.length_nil, Nat.zero_add]
    exact (reads_hasMember_end first hblanks rest).bind (Reads.pure _ _)
  | cons g more ih =>
    obtain ⟨round, rounds, rfl⟩ := List.exists_cons_of_length_pos (Nat.zero_lt_of_lt hrounds)
    have hclose := hafter (List.cons_ne_nil _ _)
    have hsplit : done ++ g :: more = (done ++ [g]) ++ more := List.append_cons _ _ _
    have hothers := ih (done ++ [g]) (hsplit ▸ hnames) (fun m hm ↦ h m (List.mem_cons_of_mem _ hm))
      false rounds (Nat.lt_of_succ_lt_succ hrounds) fun _ ↦ hclose
    rw [← hsplit, ← Given.set_slots] at hothers
    have hread := (h g List.mem_cons_self).reads_member depth
      (afterValue_prettyMembers depth (more.map Given.member) hclose)
    rw [List.map_cons, Given.member, drop_prettyMembers_cons]
    refine (reads_hasMember first (blank_lineBreak depth) _).bind ?_
    rw [if_pos rfl]
    refine (reads_key g.field.name _).bind ?_
    rw [Given.findIdx?_name hnames]
    simp only [Given.getElem?_field, List.length_cons, Nat.add_right_comm, Given.getElem?_slots,
      Option.isSome_none, Bool.false_eq_true, if_false, Option.map_some, Option.getD_some,
      List.all_cons]
    exact (reads_colon _).bind (hread.bind_readBack hothers)

/-- A record is read as it was written, with the fields that were left out filled in. -/
theorem reads_record {name : String} {given : List Given} {extra : List Field}
    {defaults : List (String × Json)}
    (hnames : ((given.map Given.field ++ extra).map (·.name)).Nodup)
    (h : ∀ g ∈ given, Accepts g.field.value g.json g.finite)
    (hfilled : filled extra (List.replicate extra.length none) = .ok defaults) (depth : Nat)
    {blanks : List UInt8} (hblanks : Blank blanks) (rest : List UInt8) :
    Reads (record name (given.map Given.field ++ extra))
      (blanks ++ (utf8 ((Json.object (given.map Given.member)).prettyAt depth) ++ rest))
      (readBack (given.all Given.finite) (.object (given.map Given.member ++ defaults))) rest := by
  rw [utf8_prettyAt_object, List.cons_append, List.append_assoc, List.append_assoc,
    List.singleton_append]
  refine (reads_startOfValue hblanks (by decide)).bind (Reads.settle ?_)
  rw [if_pos rfl]
  refine Reads.get_bind fun taken ahead ↦ (reads_discard _ _).bind ?_
  have hrounds := length_lt_length_object depth (given.map Given.member) rest
  rw [List.length_map] at hrounds
  have hafter : given ≠ [] →
      AfterValue (closing depth (given.map Given.member).isEmpty ++ 0x7D :: rest) :=
    fun hne ↦ afterValue_closing_object depth rest (by simpa using hne)
  have hslots := reads_fieldsFrom [] given hnames h (depth + 1) true _ hrounds
    (blank_closing depth _) hafter
  have hnone : (given.map Given.field ++ extra).map (fun _ ↦ (none : Option Json)) =
      Given.slots [] (given.length + extra.length) := by
    rw [List.map_const', List.length_append, List.length_map]
    rfl
  have hmembers : filled (given.map Given.field ++ extra) (Given.slots given extra.length) =
      .ok (given.map Given.member ++ defaults) := by
    rw [Given.filled_slots, hfilled]
    rfl
  rw [List.nil_append] at hslots
  simp only [hnone]
  refine ((hslots.map_readBack ?_).thenAlways_readBack
    (reads_endOfObject blank_nil rest)).map_readBack rfl
  rw [hmembers]

/-- A record is read as it was written. -/
theorem accepts_record {name : String} {fields : List Field} {members : List (String × Json)}
    {finite : Bool} (given : List Given) (hfields : fields = given.map Given.field)
    (hnames : (fields.map (·.name)).Nodup)
    (h : ∀ g ∈ given, Accepts g.field.value g.json g.finite)
    (hmembers : members = given.map Given.member) (hfinite : finite = given.all Given.finite) :
    Accepts (record name fields) (.object members) finite := by
  subst hfields hmembers hfinite
  refine ⟨starts_object _, fun depth blanks rest hblanks _ ↦ ?_⟩
  have hfilled : filled [] (List.replicate ([] : List Field).length none) = .ok [] := rfl
  have hread := @reads_record name _ _ _ (by simpa using hnames) h hfilled depth _ hblanks rest
  simpa using hread

/-! ### Choices -/

theorem reads_variant {variants : List Variant} {v : Variant}
    (hv : variants.find? (·.name = v.name) = some v) (rest : List UInt8) :
    Reads (variant variants) (0x22 :: (quoted v.name ++ rest)) (.ok v) rest := by
  refine Reads.settle ((reads_key v.name rest).bind ?_)
  rw [hv]
  exact Reads.pure v rest

/-- A variant without contents is read from its name. -/
theorem accepts_choice_bare {variants : List Variant} {name : String}
    (hv : variants.find? (·.name = name) = some ⟨name, none⟩) :
    Accepts (choice variants) (.string name) true := by
  refine accepts_of_text (fun _ ↦ utf8_stringText name) (by decide) (by decide)
    fun blanks rest hblanks ↦ ?_
  refine (reads_skipBlanks_cons hblanks (by decide)).bind ?_
  exact (reads_variant (v := ⟨name, none⟩) hv rest).bind (Reads.pure _ rest)

/-- A variant with contents is read from an object with its name as the only key. -/
theorem accepts_choice {variants : List Variant} {name : String} {r : Reader Json} {j : Json}
    {finite : Bool} (hv : variants.find? (·.name = name) = some ⟨name, some r⟩)
    (h : Accepts r j finite) : Accepts (choice variants) (.object [(name, j)]) finite := by
  refine ⟨starts_object _, fun depth blanks rest hblanks _ ↦ ?_⟩
  have hclose := afterValue_closing depth (0x7D :: rest)
  have hread := h.reads_member (depth + 1) hclose
  have hdrop := drop_prettyMembers_cons (depth + 1) name j [] true
    (closing depth false ++ 0x7D :: rest)
  rw [Bool.toNat_true] at hdrop
  rw [utf8_prettyAt_object, List.cons_append, List.append_assoc, List.append_assoc,
    List.singleton_append, List.isEmpty_cons, hdrop, List.drop_succ_cons, List.drop_zero]
  refine (reads_skipBlanks_cons hblanks (by decide)).bind ((reads_discard _ _).bind ?_)
  refine (reads_skipBlanks_cons (blank_lineBreak (depth + 1)) (by decide)).bind ?_
  refine (reads_variant (v := ⟨name, some r⟩) hv _).bind ((reads_colon _).bind ?_)
  cases finite with
  | false => exact Reads.bind_error hread
  | true =>
    refine Reads.bind hread ((Reads.pure _ _).bind ?_)
    refine (reads_skipBlanks_cons (blank_closing depth false) (by decide)).bind ?_
    exact (reads_discard _ _).bind (Reads.pure _ rest)

end Reader

end Json

end Turnstile
