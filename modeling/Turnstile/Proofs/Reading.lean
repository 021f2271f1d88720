import Mathlib.Tactic.IntervalCases
import Turnstile.Json.Reader
import Turnstile.Proofs.Text

/-!
# What readers make of texts

Most of what a cursor holds is there to tell where a fault was found. For a document that was
written, `Reads r bytes outcome rest` says what is left: wherever a document goes on with `bytes`,
the reader has that outcome and leaves `rest`. An outcome may be a cause of failure, the place of
which is not told. `Reads` is closed under the ways in which readers are put together
(`Reads.bind`, `Reads.settle`, `Reads.thenAlways`), so what a reader makes of a text is shown along
its program, one lemma for each step.

A string is read as it was written, whatever its characters are (`reads_stringBody`). Its scanner
takes what is written for a character to the bytes of the character (`scanString_stringChar`): the
escapes one by one, and the characters that stand for themselves together, since none of their bytes
is a quote, a backslash or a control (`plain_of_mem_utf8EncodeChar`).
-/

set_option autoImplicit false
set_option relaxedAutoImplicit false

namespace Turnstile

/-! ### Texts as bytes -/

@[simp] theorem utf8_append (s t : String) : utf8 (s ++ t) = utf8 s ++ utf8 t := by
  rw [utf8, String.toList_append, List.flatMap_append]
  rfl

theorem utf8_ofList (cs : List Char) :
    utf8 (String.ofList cs) = cs.flatMap String.utf8EncodeChar := by
  rw [utf8, String.toList_ofList]

theorem utf8_join (parts : List String) : utf8 (String.join parts) = parts.flatMap utf8 := by
  rw [utf8, String.toList_join, List.flatMap_assoc]
  rfl

namespace Json

namespace Reader

variable {α β : Type}

/-! ### Outcomes of readers -/

theorem runAt_bind (r : Reader α) (f : α → Reader β) (c : Cursor) :
    (r >>= f).runAt c = match r.runAt c with
      | (.ok a, c) => (f a).runAt c
      | (.error e, c) => (.error e, c) := by
  change (ExceptT.bind r f) c = _
  simp only [ExceptT.bind, ExceptT.mk, bind, StateT.bind, runAt, ExceptT.bindCont]
  rcases r c with ⟨e | a, c'⟩ <;> rfl

/-- A run of a reader has this outcome and leaves `rest`. After a fault nothing is said about what
is left. -/
def Yields (run : Except Fault α × Cursor) (outcome : Except Cause α) (rest : List UInt8) : Prop :=
  match outcome with
  | .ok a => ∃ taken ahead, run = (.ok a, ⟨rest, taken, ahead⟩)
  | .error cause => ∃ looked c, run = (.error ⟨cause, looked⟩, c)

/-- On a document that goes on with `bytes`, wherever that is, a reader has this outcome and leaves
`rest`. -/
def Reads (r : Reader α) (bytes : List UInt8) (outcome : Except Cause α) (rest : List UInt8) :
    Prop :=
  ∀ taken ahead, Yields (r.runAt ⟨bytes, taken, ahead⟩) outcome rest

namespace Reads

variable {r : Reader α} {f : α → Reader β} {bytes middle rest : List UInt8} {a : α} {cause : Cause}

theorem pure (a : α) (bytes : List UInt8) : Reads (Pure.pure a) bytes (.ok a) bytes :=
  fun taken ahead ↦ ⟨taken, ahead, rfl⟩

theorem bind {outcome : Except Cause β} (hr : Reads r bytes (.ok a) middle)
    (hf : Reads (f a) middle outcome rest) : Reads (r >>= f) bytes outcome rest := by
  intro taken ahead
  obtain ⟨taken', ahead', hrun⟩ := hr taken ahead
  rw [runAt_bind, hrun]
  exact hf taken' ahead'

theorem bind_error (hr : Reads r bytes (.error cause) middle) :
    Reads (r >>= f) bytes (.error cause) rest := by
  intro taken ahead
  obtain ⟨looked, c, hrun⟩ := hr taken ahead
  exact ⟨looked, c, by rw [runAt_bind, hrun]⟩

/-- The cursor is looked at for the bytes left only. -/
theorem get_bind {f : Cursor → Reader β} {outcome : Except Cause β}
    (hf : ∀ taken ahead, Reads (f ⟨bytes, taken, ahead⟩) bytes outcome rest) :
    Reads (get >>= f) bytes outcome rest :=
  fun taken ahead ↦ hf taken ahead taken ahead

theorem reject (m : Mismatch) (bytes rest : List UInt8) :
    Reads (Reader.reject m : Reader α) bytes (.error (.mismatch m)) rest :=
  fun taken ahead ↦ ⟨none, ⟨bytes, taken, ahead⟩, rfl⟩

theorem settle {outcome : Except Cause α} (hr : Reads r bytes outcome rest) :
    Reads (Reader.settle r) bytes outcome rest := by
  intro taken ahead
  have h := hr taken ahead
  cases outcome with
  | ok a =>
    obtain ⟨taken', ahead', hrun⟩ := h
    refine ⟨taken', ahead', ?_⟩
    simp only [Reader.settle, ofRun, runAt] at hrun ⊢
    rw [hrun]
  | error cause =>
    obtain ⟨looked, c, hrun⟩ := h
    refine ⟨looked <|> some c.looked, c, ?_⟩
    simp only [Reader.settle, ofRun, runAt] at hrun ⊢
    rw [hrun]

theorem thenAlways {second : Reader Unit} (hr : Reads r bytes (.ok a) middle)
    (hsecond : Reads second middle (.ok ()) rest) :
    Reads (Reader.thenAlways r second) bytes (.ok a) rest := by
  intro taken ahead
  obtain ⟨taken', ahead', hrun⟩ := hr taken ahead
  obtain ⟨taken'', ahead'', hthen⟩ := hsecond taken' ahead'
  refine ⟨taken'', ahead'', ?_⟩
  simp only [Reader.thenAlways, ofRun, runAt] at hrun hthen ⊢
  simp only [hrun, hthen]

theorem thenAlways_error {second : Reader Unit} (hr : Reads r bytes (.error cause) middle) :
    Reads (Reader.thenAlways r second) bytes (.error cause) rest := by
  intro taken ahead
  obtain ⟨looked, c, hrun⟩ := hr taken ahead
  refine ⟨looked, (second.runAt c).2, ?_⟩
  simp only [Reader.thenAlways, ofRun, runAt] at hrun ⊢
  simp only [hrun]

end Reads

/-! ### Single bytes -/

theorem reads_peek (bytes : List UInt8) : Reads peek bytes (.ok bytes.head?) bytes :=
  fun taken _ ↦ ⟨taken, !bytes.isEmpty, rfl⟩

theorem reads_next (b : UInt8) (bytes : List UInt8) :
    Reads next (b :: bytes) (.ok (some b)) bytes :=
  fun taken _ ↦ ⟨taken + 1, false, rfl⟩

theorem reads_discard (b : UInt8) (bytes : List UInt8) :
    Reads discard (b :: bytes) (.ok ()) bytes :=
  fun taken _ ↦ ⟨taken + 1, false, rfl⟩

theorem reads_takeWhile (p : UInt8 → Bool) (bytes : List UInt8) :
    Reads (takeWhile p) bytes (.ok (bytes.takeWhile p)) (bytes.dropWhile p) :=
  fun taken _ ↦ ⟨taken + (bytes.takeWhile p).length, !(bytes.dropWhile p).isEmpty, rfl⟩

/-- A run of bytes with a property, and something else after it. -/
theorem takeWhile_run {p : UInt8 → Bool} {run rest : List UInt8} (hrun : run.all p)
    (hrest : ∀ b ∈ rest.head?, p b = false) : (run ++ rest).takeWhile p = run := by
  rw [List.takeWhile_append_of_pos (by simpa using hrun)]
  cases rest with
  | nil => simp
  | cons b rest => simp [hrest b rfl]

theorem dropWhile_run {p : UInt8 → Bool} {run rest : List UInt8} (hrun : run.all p)
    (hrest : ∀ b ∈ rest.head?, p b = false) : (run ++ rest).dropWhile p = rest := by
  rw [List.dropWhile_append_of_pos (by simpa using hrun)]
  cases rest with
  | nil => rfl
  | cons b rest => simp [hrest b rfl]

theorem reads_takeWhile_append {p : UInt8 → Bool} {run rest : List UInt8} (hrun : run.all p)
    (hrest : ∀ b ∈ rest.head?, p b = false) :
    Reads (takeWhile p) (run ++ rest) (.ok run) rest := by
  have h := reads_takeWhile p (run ++ rest)
  rwa [takeWhile_run hrun hrest, dropWhile_run hrun hrest] at h

/-- The bytes that may stand before a value. -/
def Blank (bytes : List UInt8) : Prop := bytes.all isBlank

theorem blank_nil : Blank [] := List.all_nil

theorem reads_skipBlanks {blanks rest : List UInt8} (hblanks : Blank blanks)
    (hrest : ∀ b ∈ rest.head?, isBlank b = false) :
    Reads skipBlanks (blanks ++ rest) (.ok rest.head?) rest :=
  (reads_takeWhile_append hblanks hrest).bind (reads_peek rest)

theorem reads_skipBlanks_cons {blanks rest : List UInt8} {b : UInt8} (hblanks : Blank blanks)
    (hb : isBlank b = false) :
    Reads skipBlanks (blanks ++ b :: rest) (.ok (some b)) (b :: rest) :=
  reads_skipBlanks hblanks (by simpa using hb)

theorem reads_startOfValue {blanks rest : List UInt8} {b : UInt8} (hblanks : Blank blanks)
    (hb : isBlank b = false) :
    Reads startOfValue (blanks ++ b :: rest) (.ok b) (b :: rest) :=
  (reads_skipBlanks_cons hblanks hb).bind (Reads.pure b _)

theorem reads_word (expected rest : List UInt8) :
    Reads (word expected) (expected ++ rest) (.ok ()) rest := by
  induction expected with
  | nil => exact Reads.pure () rest
  | cons b expected ih =>
    refine (reads_next b _).bind ?_
    simp only [if_true]
    exact ih

/-! ### Strings -/

/-- Bytes that stand for themselves inside a string. -/
theorem scanString_self {bytes : List UInt8}
    (h : ∀ b ∈ bytes, b ≠ 0x22 ∧ b ≠ 0x5C ∧ ¬b < 0x20) (checked : Bool) (acc rest : List UInt8)
    (taken : Nat) :
    scanString checked .plain acc (bytes ++ rest) taken =
      scanString checked .plain (bytes.reverse ++ acc) rest (taken + bytes.length) := by
  induction bytes generalizing acc taken with
  | nil => rfl
  | cons b bytes ih =>
    obtain ⟨hquote, hescape, hcontrol⟩ := h b List.mem_cons_self
    have hstep : stringStep checked .plain b = .goes .plain [b] := by
      rw [stringStep, if_neg hquote, if_neg hescape, if_neg hcontrol]
    rw [List.cons_append, scanString, hstep]
    simp only [List.reverse_cons, List.reverse_nil, List.nil_append, List.singleton_append]
    rw [ih (fun b hb ↦ h b (List.mem_cons_of_mem _ hb)), List.append_assoc, List.singleton_append,
      List.length_cons, Nat.add_right_comm, Nat.add_assoc]

/-- Four digits spell a control character. -/
theorem scanString_control {n : Nat} (h : n < 32) (acc rest : List UInt8) (taken : Nat) :
    scanString true .plain acc
        (utf8 (String.ofList ['\\', 'u', '0', '0', hexDigit (n / 16), hexDigit (n % 16)]) ++ rest)
        taken =
      scanString true .plain ((String.utf8EncodeChar (Char.ofNat n)).reverse ++ acc) rest
        (taken + 6) := by
  have hbytes : utf8 (String.ofList ['\\', 'u', '0', '0', hexDigit (n / 16), hexDigit (n % 16)]) =
      [0x5C, 0x75, 0x30, 0x30] ++ String.utf8EncodeChar (hexDigit (n / 16)) ++
        String.utf8EncodeChar (hexDigit (n % 16)) := by
    rw [utf8_ofList]
    simp only [List.flatMap_cons, List.flatMap_nil, List.append_nil]
    rfl
  rw [hbytes]
  interval_cases n <;> rfl

/-- The bytes of a character that is neither a quote nor a backslash nor a control. -/
theorem plain_of_mem_utf8EncodeChar {c : Char} (hquote : c ≠ '"') (hescape : c ≠ '\\')
    (hcontrol : ¬c.toNat < 32) {b : UInt8} (hb : b ∈ String.utf8EncodeChar c) :
    b ≠ 0x22 ∧ b ≠ 0x5C ∧ ¬b < 0x20 := by
  have hne {d : Char} (h : c ≠ d) : c.val.toNat ≠ d.val.toNat :=
    fun heq ↦ h (Char.ext (UInt32.toNat_inj.1 heq))
  have hquote' : c.val.toNat ≠ 34 := hne hquote
  have hescape' : c.val.toNat ≠ 92 := hne hescape
  have hcontrol' : ¬c.val.toNat < 32 := hcontrol
  have hbyte (n : Nat) (h : n < 256) (h34 : n ≠ 34) (h92 : n ≠ 92) (h32 : ¬n < 32) :
      UInt8.ofNat n ≠ 0x22 ∧ UInt8.ofNat n ≠ 0x5C ∧ ¬UInt8.ofNat n < 0x20 := by
    simp only [ne_eq, ← UInt8.toNat_inj, UInt8.lt_iff_toNat_lt, UInt8.toNat_ofNat',
      UInt8.reduceToNat]
    omega
  simp only [String.utf8EncodeChar] at hb
  split at hb
  · rw [List.mem_singleton.1 hb]
    exact hbyte _ (by omega) hquote' hescape' hcontrol'
  split at hb
  · simp only [List.mem_cons, List.not_mem_nil, or_false] at hb
    rcases hb with rfl | rfl <;>
      exact hbyte _ (by omega) (by omega) (by omega) (by omega)
  split at hb
  · simp only [List.mem_cons, List.not_mem_nil, or_false] at hb
    rcases hb with rfl | rfl | rfl <;>
      exact hbyte _ (by omega) (by omega) (by omega) (by omega)
  · simp only [List.mem_cons, List.not_mem_nil, or_false] at hb
    rcases hb with rfl | rfl | rfl | rfl <;>
      exact hbyte _ (by omega) (by omega) (by omega) (by omega)

/-- A character inside a string is scanned as its own bytes. -/
theorem scanString_stringChar (c : Char) (acc rest : List UInt8) (taken : Nat) :
    ∃ taken', scanString true .plain acc (utf8 (stringChar c) ++ rest) taken =
      scanString true .plain ((String.utf8EncodeChar c).reverse ++ acc) rest taken' := by
  unfold stringChar
  split
  · exact ⟨taken + 2, rfl⟩
  · exact ⟨taken + 2, rfl⟩
  · exact ⟨taken + 2, rfl⟩
  · exact ⟨taken + 2, rfl⟩
  · exact ⟨taken + 2, rfl⟩
  · exact ⟨taken + 2, rfl⟩
  · exact ⟨taken + 2, rfl⟩
  · rename_i hquote hescape _ _ _ _ _
    split_ifs with hcontrol
    · refine ⟨taken + 6, ?_⟩
      rw [scanString_control hcontrol, Char.ofNat_toNat]
    · have hself : utf8 (String.singleton c) = String.utf8EncodeChar c := by
        rw [String.singleton_eq_ofList, utf8_ofList, List.flatMap_singleton]
      exact ⟨_, by rw [hself, scanString_self
        fun b ↦ plain_of_mem_utf8EncodeChar hquote hescape hcontrol]⟩

theorem scanString_stringChars (cs : List Char) (acc rest : List UInt8) (taken : Nat) :
    ∃ taken', scanString true .plain acc (cs.flatMap (fun c ↦ utf8 (stringChar c)) ++ rest) taken =
      scanString true .plain ((cs.flatMap String.utf8EncodeChar).reverse ++ acc) rest taken' := by
  induction cs generalizing acc taken with
  | nil => exact ⟨taken, rfl⟩
  | cons c cs ih =>
    obtain ⟨middle, hfirst⟩ :=
      scanString_stringChar c acc (cs.flatMap (fun c ↦ utf8 (stringChar c)) ++ rest) taken
    obtain ⟨taken', hothers⟩ := ih ((String.utf8EncodeChar c).reverse ++ acc) middle
    refine ⟨taken', ?_⟩
    rw [List.flatMap_cons, List.append_assoc, hfirst, hothers, List.flatMap_cons,
      List.reverse_append, List.append_assoc]

/-- The bytes of a string after its opening quote, the closing one included. -/
def quoted (s : String) : List UInt8 := s.toList.flatMap (fun c ↦ utf8 (stringChar c)) ++ [0x22]

theorem utf8_stringText (s : String) : utf8 (stringText s) = 0x22 :: quoted s := by
  rw [stringText, utf8_append, utf8_append, utf8_join, List.flatMap_map]
  rfl

/-- A string is read as it was written, whatever its characters are. -/
theorem reads_stringBody (s : String) (rest : List UInt8) :
    Reads stringBody (quoted s ++ rest) (.ok s) rest := by
  intro taken ahead
  obtain ⟨taken', hscan⟩ := scanString_stringChars s.toList [] (0x22 :: rest) taken
  have hends : scanString true .plain [] (quoted s ++ rest) taken =
      (.ok (utf8 s).reverse, ⟨rest, taken' + 1, false⟩) := by
    rw [quoted, List.append_assoc, List.singleton_append, hscan, List.append_nil]
    rfl
  refine ⟨taken' + 1, false, ?_⟩
  have hbody : stringBody.runAt ⟨quoted s ++ rest, taken, ahead⟩ = _ := runAt_bind _ _ _
  rw [hbody]
  simp only [ofRun, runAt, hends, List.reverse_reverse, textOfUtf8?_utf8]
  rfl

end Reader

end Json

end Turnstile
