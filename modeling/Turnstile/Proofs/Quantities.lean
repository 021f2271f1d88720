import Turnstile.Proofs.NormalForm
import Turnstile.Value.Host

/-!
# Numbers are recorded exactly or not at all

Numbers of many types come to one signed word. `HostValue.quantity?` is the number that a value of a
program stands for, without regard to any width, and `HostValue.word?` what the words themselves
become: narrow ones are widened, with their sign if they have one, unsigned ones of full width are
taken over bit by bit below a bound, and nanoseconds are counted without a bound before they are
made a word. `HostValue.outcome` goes through the types once: either there is a word, it is worth
the number, and it is recorded, or the number is above the signed range or a time before the epoch,
and nothing is recorded.

Counts go the other way. They have the whole unsigned range, which the signed field of a record
holds by its bits (`toInt_toInt64`), so that a record gives each of them back. `quantities_exact`
states all this, for values and for what is read again from the bytes of their records.
-/

set_option autoImplicit false
set_option relaxedAutoImplicit false

namespace Turnstile

/-! ### Words and what they are worth -/

/-- The bits of an unsigned word as a signed one: worth the same in the lower half of the range, and
as much less as there are words in the upper half. -/
theorem toInt_toInt64 (n : UInt64) :
    n.toInt64.toInt = if n.toNat < 2 ^ 63 then (n.toNat : Int) else n.toNat - 2 ^ 64 := by
  change n.toBitVec.toInt = _
  rw [BitVec.toInt_eq_toNat_cond, UInt64.toNat_toBitVec]
  have hhalf : 2 * n.toNat < 2 ^ 64 ↔ n.toNat < 2 ^ 63 := by omega
  simp only [hhalf]
  rfl

theorem toInt_toInt64_of_lt {n : UInt64} (h : n.toNat < 2 ^ 63) : n.toInt64.toInt = n.toNat := by
  rw [toInt_toInt64, if_pos h]

namespace HostValue

/-- The number that a value of a program stands for, if it stands for one, and the kind of it: a
whole number, the nanoseconds of a duration or since the epoch, or a process id. -/
def quantity? : HostValue → Option (NumberKind × Int)
  | .int8 n => some (.integer, n.toInt)
  | .int16 n => some (.integer, n.toInt)
  | .int32 n => some (.integer, n.toInt)
  | .int64 n => some (.integer64, n.toInt)
  | .signedWord n => some (.integer, n.toInt)
  | .uint8 n => some (.integer, n.toNat)
  | .uint16 n => some (.integer, n.toNat)
  | .uint32 n => some (.integer, n.toNat)
  | .uint64 n => some (.integer64, n.toNat)
  | .word n => some (.integer, n.toNat)
  | .duration nanoseconds => some (.time, nanoseconds)
  | .time nanoseconds => some (.time, nanoseconds)
  | .process id => some (.process, id.toInt)
  | _ => none

/-- A time before the epoch. -/
def IsBeforeEpoch : HostValue → Prop
  | .time nanoseconds => nanoseconds < 0
  | _ => False

instance : DecidablePred IsBeforeEpoch := fun h ↦ by
  cases h <;> unfold IsBeforeEpoch <;> infer_instance

/-- The bits of an unsigned word, if they are worth the same as a signed one. -/
def checkedWord? (n : UInt64) : Option Int64 :=
  if n ≤ Int64.maxValue.toUInt64 then some n.toInt64 else none

/-- A count of nanoseconds as a word, if it is not too long for one. -/
def checkedNanoseconds? (nanoseconds : Nat) : Option Int64 :=
  if nanoseconds ≤ Int64.maxValue.toUInt64.toNat then some (Int64.ofNat nanoseconds) else none

/-- The signed word that is made of a number of a program. -/
def word? : HostValue → Option Int64
  | .int8 n => some n.toInt64
  | .int16 n => some n.toInt64
  | .int32 n => some n.toInt64
  | .int64 n => some n
  | .signedWord n => some n
  | .uint8 n => some n.toUInt64.toInt64
  | .uint16 n => some n.toUInt64.toInt64
  | .uint32 n => some n.toUInt64.toInt64
  | .uint64 n => checkedWord? n
  | .word n => checkedWord? n
  | .duration nanoseconds => checkedNanoseconds? nanoseconds
  | .time nanoseconds => if nanoseconds < 0 then none else checkedNanoseconds? nanoseconds.toNat
  | .process id => some id.toInt64
  | _ => none

end HostValue

namespace Value

/-- A number that a word is worth is recorded as this word. -/
theorem ofInt_eq_number {kind : NumberKind} {q : Int} {n : Int64} (h : n.toInt = q) :
    ofInt kind q = .number kind n := by
  subst h
  rw [ofInt, if_pos ⟨n.minValue_le_toInt, n.toInt_le⟩, Int64.ofInt_toInt]

/-- A number above the range is not recorded. -/
theorem ofInt_eq_unsupported {kind : NumberKind} {q : Int} (h : Int64.maxValue.toInt < q) :
    ofInt kind q = .unsupported := by
  rw [ofInt, if_neg fun hrange ↦ absurd hrange.2 (Int.not_le.2 h)]

/-- What is read from the bytes of the record of a value. -/
def reread (v : Value) : Value := (Packed.unpack (Packed.pack v.record) : ValueRecord).value

theorem reread_eq_normal (v : Value) : v.reread = v.normal := by
  have hread := LawfulPacked.unpack_pack v.record []
  rw [List.append_nil] at hread
  rw [reread, hread, value_record]

end Value

namespace HostValue

/-- What becomes of the number `q` that `h` stands for: a word worth `q` is made of it and recorded
under its kind, or it cannot be recorded, and is not. -/
inductive Outcome (h : HostValue) (kind : NumberKind) (q : Int) : Prop
  | exact (n : Int64) (word : h.word? = some n) (worth : n.toInt = q)
    (recorded : Value.ofHost h = .number kind n)
    (inRange : ¬ (Int64.maxValue.toInt < q ∨ h.IsBeforeEpoch))
  | lost (word : h.word? = none) (recorded : Value.ofHost h = .unsupported)
    (outside : Int64.maxValue.toInt < q ∨ h.IsBeforeEpoch)

/-- A word that is worth the number is always recorded. -/
theorem Outcome.of_worth {h : HostValue} {kind : NumberKind} {q : Int} {n : Int64}
    (word : h.word? = some n) (worth : n.toInt = q) (value : Value.ofHost h = Value.ofInt kind q)
    (epoch : ¬ h.IsBeforeEpoch) : h.Outcome kind q := by
  refine .exact n word worth (value.trans (Value.ofInt_eq_number worth)) ?_
  rintro (above | before)
  · exact absurd (worth ▸ n.toInt_le) (Int.not_le.2 above)
  · exact epoch before

/-- A number above the range has no word and is not recorded. -/
theorem Outcome.of_above {h : HostValue} {kind : NumberKind} {q : Int} (word : h.word? = none)
    (above : Int64.maxValue.toInt < q) (value : Value.ofHost h = Value.ofInt kind q) :
    h.Outcome kind q :=
  .lost word (value.trans (Value.ofInt_eq_unsupported above)) (.inl above)

/-- An unsigned word of full width: the bits are checked against the greatest signed word. -/
theorem Outcome.of_checkedWord {h : HostValue} {kind : NumberKind} {n : UInt64}
    (word : h.word? = checkedWord? n) (value : Value.ofHost h = Value.ofInt kind n.toNat)
    (epoch : ¬ h.IsBeforeEpoch) : h.Outcome kind n.toNat := by
  by_cases hle : n ≤ Int64.maxValue.toUInt64
  · have hbound : n.toNat ≤ 2 ^ 63 - 1 := UInt64.le_iff_toNat_le.1 hle
    exact .of_worth (word.trans (if_pos hle)) (toInt_toInt64_of_lt (by omega)) value epoch
  · have habove : 2 ^ 63 - 1 < n.toNat := UInt64.not_le.1 hle
    exact .of_above (word.trans (if_neg hle)) (Int.ofNat_lt.2 habove) value

/-- Nanoseconds: their number is checked before a word is made of it. -/
theorem Outcome.of_checkedNanoseconds {h : HostValue} {kind : NumberKind} {nanoseconds : Nat}
    (word : h.word? = checkedNanoseconds? nanoseconds)
    (value : Value.ofHost h = Value.ofInt kind nanoseconds) (epoch : ¬ h.IsBeforeEpoch) :
    h.Outcome kind nanoseconds := by
  by_cases hle : nanoseconds ≤ Int64.maxValue.toUInt64.toNat
  · have hbound : nanoseconds ≤ 2 ^ 63 - 1 := hle
    have worth : (Int64.ofNat nanoseconds).toInt = nanoseconds :=
      Int64.toInt_ofNat_of_lt (by omega)
    exact .of_worth (word.trans (if_pos hle)) worth value epoch
  · exact .of_above (word.trans (if_neg hle)) (Int.ofNat_lt.2 (Nat.not_le.1 hle)) value

theorem outcome {h : HostValue} {kind : NumberKind} {q : Int}
    (hq : h.quantity? = some (kind, q)) : h.Outcome kind q := by
  cases h with
  | int8 n => obtain ⟨rfl, rfl⟩ := hq; exact .of_worth rfl n.toInt_toInt64 rfl not_false
  | int16 n => obtain ⟨rfl, rfl⟩ := hq; exact .of_worth rfl n.toInt_toInt64 rfl not_false
  | int32 n => obtain ⟨rfl, rfl⟩ := hq; exact .of_worth rfl n.toInt_toInt64 rfl not_false
  | int64 n | signedWord n => obtain ⟨rfl, rfl⟩ := hq; exact .of_worth rfl rfl rfl not_false
  | uint8 n =>
    obtain ⟨rfl, rfl⟩ := hq
    have hsmall : n.toUInt64.toNat < 2 ^ 63 := lt_trans n.toNat_lt (by decide)
    exact .of_worth rfl (toInt_toInt64_of_lt hsmall) rfl not_false
  | uint16 n =>
    obtain ⟨rfl, rfl⟩ := hq
    have hsmall : n.toUInt64.toNat < 2 ^ 63 := lt_trans n.toNat_lt (by decide)
    exact .of_worth rfl (toInt_toInt64_of_lt hsmall) rfl not_false
  | uint32 n =>
    obtain ⟨rfl, rfl⟩ := hq
    have hsmall : n.toUInt64.toNat < 2 ^ 63 := lt_trans n.toNat_lt (by decide)
    exact .of_worth rfl (toInt_toInt64_of_lt hsmall) rfl not_false
  | uint64 n | word n => obtain ⟨rfl, rfl⟩ := hq; exact .of_checkedWord rfl rfl not_false
  | duration nanoseconds => obtain ⟨rfl, rfl⟩ := hq; exact .of_checkedNanoseconds rfl rfl not_false
  | time _ =>
    obtain ⟨rfl, rfl⟩ := hq
    by_cases hbefore : q < 0
    · exact .lost (if_pos hbefore) (if_neg (Int.not_le.2 hbefore)) (.inr hbefore)
    · obtain ⟨count, rfl⟩ := Int.eq_ofNat_of_zero_le (Int.not_lt.1 hbefore)
      have hword : (time count).word? = checkedNanoseconds? count := by
        rw [word?, if_neg hbefore]
        rfl
      have hvalue : Value.ofHost (time count) = Value.ofInt .time count := by
        rw [Value.ofHost, if_pos (Int.not_lt.1 hbefore)]
      exact .of_checkedNanoseconds hword hvalue hbefore
  | process id => obtain ⟨rfl, rfl⟩ := hq; exact .of_worth rfl id.toInt_toInt64 rfl not_false
  | _ => cases hq

/-- What is no number is not recorded as one. -/
theorem ofHost_ne_number {h : HostValue} (hq : h.quantity? = none) (kind : NumberKind) (n : Int64) :
    Value.ofHost h ≠ .number kind n := by
  cases h with
  | bool | double | single | string | path | socketAddress | signal => exact nofun
  | errorNumber | osError | failure | other => exact nofun
  | _ => cases hq

end HostValue

/-- A number of a program, and what is read from the bytes of its record, is the number itself under
its kind or unsupported, the latter exactly if it is above the signed 64-bit range or a time before
the epoch; the word that is made of it is worth it. Nothing else becomes a number. Counts come back
from their records over the whole unsigned range, although they lie there in the signed field. -/
theorem quantities_exact :
    (∀ (h : HostValue) (kind : NumberKind) (q : Int), h.quantity? = some (kind, q) →
      ∀ v, v = Value.ofHost h ∨ v = (Value.ofHost h).reread →
        (v = .unsupported ∨ ∃ n, h.word? = some n ∧ v = .number kind n ∧ n.toInt = q) ∧
        (v = .unsupported ↔ Int64.maxValue.toInt < q ∨ h.IsBeforeEpoch)) ∧
    (∀ h : HostValue, h.quantity? = none → ∀ kind n, Value.ofHost h ≠ .number kind n) ∧
    ∀ (kind : CountKind) (n : UInt64),
      (Value.count kind n).reread = .count kind n ∧
        (Value.count kind n).record.integer.toInt =
          if n.toNat < 2 ^ 63 then (n.toNat : Int) else n.toNat - 2 ^ 64 := by
  refine ⟨?_, fun h hq ↦ HostValue.ofHost_ne_number hq, fun kind n ↦ ⟨?_, toInt_toInt64 n⟩⟩
  · intro h kind q hq v hv
    rw [Value.reread_eq_normal] at hv
    cases HostValue.outcome hq with
    | exact n word worth recorded inRange =>
      have hnumber : v = .number kind n := by
        rcases hv with rfl | rfl <;> rw [recorded]
        rfl
      exact ⟨.inr ⟨n, word, hnumber, worth⟩, iff_of_false (by simp [hnumber]) inRange⟩
    | lost word recorded outside =>
      have hlost : v = .unsupported := by
        rcases hv with rfl | rfl <;> rw [recorded]
        rfl
      exact ⟨.inl hlost, iff_of_true hlost outside⟩
  · rw [Value.reread_eq_normal]
    rfl

/-- The greatest signed number as an unsigned word is recorded, the next one is not, and neither is
the last nanosecond before the epoch. -/
theorem quantities_exact_atBounds :
    (Value.ofHost (.uint64 0x7FFFFFFFFFFFFFFF)).reread = .number .integer64 Int64.maxValue ∧
      Value.ofHost (.uint64 0x8000000000000000) = .unsupported ∧
      (Value.ofHost (.time (-1))).reread = .unsupported := by
  have h := quantities_exact.1
  refine ⟨?_, ?_, ?_⟩
  · rcases (h (.uint64 0x7FFFFFFFFFFFFFFF) _ _ rfl _ (.inr rfl)).1 with hlost | ⟨n, _, hv, hn⟩
    · have hout := (h (.uint64 0x7FFFFFFFFFFFFFFF) _ _ rfl _ (.inr rfl)).2.1 hlost
      revert hout
      decide
    · have hmax : n = Int64.maxValue := Int64.toInt_inj.1 (hn.trans (by decide))
      rw [hv, hmax]
  · exact (h (.uint64 0x8000000000000000) _ _ rfl _ (.inl rfl)).2.2 (by decide)
  · exact (h (.time (-1)) _ _ rfl _ (.inr rfl)).2.2 (by decide)

end Turnstile
