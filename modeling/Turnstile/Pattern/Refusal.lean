import Turnstile.Pattern.Reader

/-!
# Patterns that cannot be used

Patterns are matched by automata that know no tables of characters. Classes by a letter and letters
of either case would need them, so both are for bytes only, where the tables are those of the first
128 characters. Bytes in turn must not make what is no character, so no set of them can be negated.
The edge of a word among the characters of all scripts is more than an automaton can see.
-/

set_option autoImplicit false
set_option relaxedAutoImplicit false

namespace Turnstile

namespace Pattern

/-- How deep a pattern may be nested. -/
def depthBound : Nat := 250

namespace Literal

/-- Whether a character is one of the first 128. -/
def isAscii (l : Literal) : Bool := l.char.toNat < 128

/-- Whether a character can stand between brackets. -/
def isUsableInSet (m : Modes) (l : Literal) : Bool :=
  if m.isUnicode then !m.isCaseless else l.isAscii

/-- Whether a character can stand outside of brackets. -/
def isUsable (m : Modes) (l : Literal) : Bool :=
  if m.isUnicode then !m.isCaseless else l.isAscii || !(l.isByte || m.isCaseless)

end Literal

namespace CharSet

/-- Whether something can be negated. -/
def canNegate (m : Modes) (isNegated : Bool) : Bool := m.isUnicode || !isNegated

mutual

/-- Whether a set can be used. -/
def isUsable (m : Modes) : CharSet → Bool
  | .empty => true
  | .literal l => l.isUsableInSet m
  | .range first last => first.isUsableInSet m && last.isUsableInSet m
  | .named isNegated => if m.isUnicode then !m.isCaseless else !isNegated
  | .shorthand isNegated => !m.isUnicode && !isNegated
  | .bracketed isNegated s => canNegate m isNegated && s.isUsable m
  | .union items => areUsable m items
  | .operation left right => left.isUsable m && right.isUsable m

/-- Whether some sets can be used. -/
def areUsable (m : Modes) : List CharSet → Bool
  | [] => true
  | s :: items => s.isUsable m && areUsable m items

end

end CharSet

namespace Leaf

/-- Whether a leaf can be used. -/
def isUsable (m : Modes) : Leaf → Bool
  | .literal l => l.isUsable m
  | .any => m.isUnicode
  | .edge _ => true
  | .shorthand isNegated => !m.isUnicode && !isNegated
  | .set isNegated s => CharSet.canNegate m isNegated && s.isUsable m

/-- Whether a leaf is the edge of a word among the characters of all scripts. -/
def isUnicodeEdge (m : Modes) : Leaf → Bool
  | .edge isWord => isWord && m.isUnicode
  | _ => false

end Leaf

/-- Why a pattern cannot be used. -/
inductive Refusal
  /-- It is no pattern, nested too deep, or needs tables. -/
  | unbuildable
  | unicodeEdge
deriving DecidableEq, Repr

def Refusal.message : Refusal → String
  | .unbuildable => "error building NFA"
  | .unicodeEdge =>
    "unsupported regex feature for DFAs: cannot build DFAs for regexes with Unicode word " ++
      "boundaries; switch to ASCII word boundaries, or heuristically enable Unicode word " ++
      "boundaries or use a different regex engine"

/-- Why the pattern that characters spell cannot be used, if it cannot. -/
def refusal? (cs : List Char) : Option Refusal :=
  match read? cs with
  | none => some .unbuildable
  | some p =>
    if depthBound < p.depth || !p.leaves.all (fun (m, l) ↦ l.isUsable m) then some .unbuildable
    else if p.leaves.any (fun (m, l) ↦ l.isUnicodeEdge m) then some .unicodeEdge
    else none

end Pattern

end Turnstile
