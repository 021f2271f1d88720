/-!
# Tables of fixed size

A list is stored in a table of fixed size: what fits of it comes first, and zero entries fill the
rest. A count beside the table tells how many entries are meant; `take_tableOf` says that they are
the entries that were stored.
-/

set_option autoImplicit false
set_option relaxedAutoImplicit false

namespace Turnstile

variable {α : Type}

/-- The first `n` of `entries`, filled up with `zero`. -/
def tableOf (n : Nat) (zero : α) (entries : List α) : Vector α n :=
  ⟨(entries.take n ++ List.replicate (n - entries.length) zero).toArray, by simp; omega⟩

theorem toList_tableOf (n : Nat) (zero : α) (entries : List α) :
    (tableOf n zero entries).toList =
      entries.take n ++ List.replicate (n - entries.length) zero := rfl

/-- As many entries as were stored, counted up to the size of the table. -/
theorem take_tableOf (n : Nat) (zero : α) (entries : List α) :
    (tableOf n zero entries).toList.take (min entries.length n) = entries.take n := by
  have hlength : (entries.take n).length = min entries.length n := by
    rw [List.length_take, Nat.min_comm]
  rw [toList_tableOf, ← hlength, List.take_left]

end Turnstile
