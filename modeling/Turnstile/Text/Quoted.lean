import Turnstile.Bytes.Hex
import Turnstile.Text.Unshown

/-!
# Quoted text

A text between double quotes, as messages show it. Quotes and backslashes are escaped, the common
controls have names, and every other character that would not be seen is written with its code
point.
-/

set_option autoImplicit false
set_option relaxedAutoImplicit false

namespace Turnstile

/-- The text of one character between quotes. -/
def quotedChar (c : Char) : String :=
  match c with
  | '\x00' => "\\0"
  | '\t' => "\\t"
  | '\r' => "\\r"
  | '\n' => "\\n"
  | '"' => "\\\""
  | '\\' => "\\\\"
  | c => if isUnshown c then "\\u\x7b" ++ hexText c.toNat ++ "\x7d" else String.singleton c

/-- `s` between double quotes. -/
def quoted (s : String) : String :=
  "\"" ++ String.join (s.toList.map quotedChar) ++ "\""

end Turnstile
