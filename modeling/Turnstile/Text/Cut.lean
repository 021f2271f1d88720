import Turnstile.Text.Utf8

/-!
# Cutting a text to a budget of bytes

Fixed buffers hold so many bytes, and a text is cut at the last character that still fits.
`fitting` keeps zero characters, `beforeZero` stops at the first one, and `padded` does both, as a
buffer needs whose unused bytes are zero.
-/

set_option autoImplicit false
set_option relaxedAutoImplicit false

namespace Turnstile

/-- The longest run of leading characters that takes at most `budget` bytes. -/
def fittingChars : Nat → List Char → List Char
  | _, [] => []
  | budget, c :: cs =>
    if c.utf8Size ≤ budget then c :: fittingChars (budget - c.utf8Size) cs else []

/-- The longest prefix of `s` that ends after a character and has at most `budget` bytes. -/
def fitting (budget : Nat) (s : String) : String := String.ofList (fittingChars budget s.toList)

/-- The characters before the first zero character. -/
def beforeZero (s : String) : String := String.ofList (s.toList.takeWhile (· ≠ '\x00'))

/-- What a zero-padded buffer of `budget` bytes keeps of `s`. -/
def padded (budget : Nat) (s : String) : String := fitting budget (beforeZero s)

theorem fittingChars_isPrefix (budget : Nat) (cs : List Char) :
    fittingChars budget cs <+: cs := by
  induction cs generalizing budget with
  | nil => exact List.prefix_rfl
  | cons c cs ih =>
    rw [fittingChars]
    split
    · exact List.cons_prefix_cons.2 ⟨rfl, ih _⟩
    · exact List.nil_prefix

theorem length_utf8_fittingChars (budget : Nat) (cs : List Char) :
    ((fittingChars budget cs).flatMap String.utf8EncodeChar).length ≤ budget := by
  induction cs generalizing budget with
  | nil => simp [fittingChars]
  | cons c cs ih =>
    rw [fittingChars]
    split
    · rename_i h
      have := ih (budget - c.utf8Size)
      rw [List.flatMap_cons, List.length_append, String.length_utf8EncodeChar]
      omega
    · simp

end Turnstile
