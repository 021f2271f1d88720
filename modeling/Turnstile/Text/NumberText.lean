/-!
# Texts of numbers

Texts that spell a number: digits around a point, with a sign in front and a power of ten behind if
need be, or the name of what is no finite number, in letters of either case.
-/

set_option autoImplicit false
set_option relaxedAutoImplicit false

namespace Turnstile

namespace NumberText

/-- The characters behind a sign, if there is one. -/
def unsigned : List Char → List Char
  | '+' :: cs | '-' :: cs => cs
  | cs => cs

/-- Whether characters spell a power of ten, none at all included. -/
def isPower : List Char → Bool
  | [] => true
  | c :: cs => c.toLower = 'e' && !(unsigned cs).isEmpty && (unsigned cs).all Char.isDigit

/-- Whether characters spell a number without a sign. At least one side of the point has digits. -/
def isMagnitude (cs : List Char) : Bool :=
  let whole := cs.takeWhile Char.isDigit
  match cs.dropWhile Char.isDigit with
  | '.' :: rest =>
    !(whole.isEmpty && (rest.takeWhile Char.isDigit).isEmpty) &&
      isPower (rest.dropWhile Char.isDigit)
  | rest => !whole.isEmpty && isPower rest

end NumberText

/-- Whether a text spells a number. -/
def isNumberText (cs : List Char) : Bool :=
  let body := NumberText.unsigned cs
  ["inf", "infinity", "nan"].contains (String.ofList (body.map Char.toLower)) ||
    NumberText.isMagnitude body

end Turnstile
