import Turnstile.Text.Letters
import Turnstile.Text.NumberChars

/-!
# Characters of words

Words are made of the letters and the numbers of all scripts.
-/

set_option autoImplicit false
set_option relaxedAutoImplicit false

namespace Turnstile

/-- Whether words can hold a character. -/
def isWordChar (c : Char) : Bool := isLetter c || isNumberChar c

end Turnstile
