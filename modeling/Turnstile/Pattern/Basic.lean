/-!
# Patterns

Regular expressions as trees. A tree keeps what decides whether a pattern can be used: the
characters, classes and edges in it, the flags that are in force at each of them, and how deep they
are nested.
-/

set_option autoImplicit false
set_option relaxedAutoImplicit false

namespace Turnstile

namespace Pattern

/-- What can be switched on and off inside a pattern. -/
inductive Flag
  /-- Letters stand for either case. -/
  | caseless
  /-- Lines have edges of their own. -/
  | multiline
  /-- Any character may end a line. -/
  | dotAll
  /-- Repetitions stop as soon as they can. -/
  | lazy
  /-- Characters are those of all scripts, not bytes. -/
  | unicode
  /-- A line may end with two characters. -/
  | carriage
  /-- Space and comments in the pattern are passed over. -/
  | verbose
deriving DecidableEq, Repr

/-- Flags with what becomes of them. None is there twice. -/
abbrev Flags := List (Flag × Bool)

/-- A character that stands for itself. -/
structure Literal where
  char : Char
  /-- Whether it is written as the number of a byte. -/
  isByte : Bool
deriving DecidableEq, Repr

/-- What stands between brackets. -/
inductive CharSet
  | empty
  | literal (l : Literal)
  | range (first last : Literal)
  /-- A class that is named between colons. -/
  | named (isNegated : Bool)
  /-- A class that is named by a letter behind a backslash. -/
  | shorthand (isNegated : Bool)
  | bracketed (isNegated : Bool) (s : CharSet)
  | union (items : List CharSet)
  /-- What two sets have in common, or what they have not. -/
  | operation (left right : CharSet)

namespace CharSet

/-- The set of some items. -/
def ofItems : List CharSet → CharSet
  | [] => .empty
  | [s] => s
  | items => .union items

mutual

/-- How deep a set is nested. -/
def depth : CharSet → Nat
  | .bracketed _ s => s.depth + 1
  | .union items => greatestDepth 0 items + 1
  | .operation left right => max left.depth right.depth + 1
  | _ => 0

/-- The greatest depth of some sets, if it is above `d`. -/
def greatestDepth (d : Nat) : List CharSet → Nat
  | [] => d
  | s :: items => greatestDepth (max d s.depth) items

end

end CharSet

/-- What a pattern is made of. -/
inductive Leaf
  | literal (l : Literal)
  /-- Any character. -/
  | any
  /-- A place between characters: the edge of a word, or of a line or of the text. -/
  | edge (isWord : Bool)
  | shorthand (isNegated : Bool)
  | set (isNegated : Bool) (s : CharSet)

end Pattern

/-- A regular expression. -/
inductive Pattern
  | empty
  | flags (fs : Pattern.Flags)
  | leaf (l : Pattern.Leaf)
  | repeated (p : Pattern)
  | group (fs : Pattern.Flags) (p : Pattern)
  | sequence (ps : List Pattern)
  | choice (ps : List Pattern)

namespace Pattern

/-- The pattern of some items in a row. -/
def ofItems : List Pattern → Pattern
  | [] => .empty
  | [p] => p
  | ps => .sequence ps

/-- Whether a pattern stands for nothing that could be repeated. -/
def isBare : Pattern → Bool
  | .empty | .flags _ => true
  | _ => false

mutual

/-- How deep a pattern is nested. -/
def depth : Pattern → Nat
  | .leaf (.set _ s) => s.depth + 1
  | .repeated p => p.depth + 1
  | .group _ p => p.depth + 1
  | .sequence ps => greatestDepth 0 ps + 1
  | .choice ps => greatestDepth 0 ps + 1
  | _ => 0

/-- The greatest depth of some patterns, if it is above `d`. -/
def greatestDepth (d : Nat) : List Pattern → Nat
  | [] => d
  | p :: ps => greatestDepth (max d p.depth) ps

end

/-- How characters are taken. -/
structure Modes where
  isCaseless : Bool
  isUnicode : Bool
deriving DecidableEq, Repr

/-- How characters are taken at the start of a pattern. -/
def Modes.initial : Modes := ⟨false, true⟩

/-- The modes after flags. -/
def Modes.switch (m : Modes) (fs : Flags) : Modes :=
  ⟨(fs.lookup .caseless).getD m.isCaseless, (fs.lookup .unicode).getD m.isUnicode⟩

/-- Leaves with the modes at each of them, the last one first, and the modes after them. -/
structure Leaves where
  modes : Modes
  found : List (Modes × Leaf)

mutual

/-- Leaves, and after them those of a pattern. Flags hold to the end of the group that they are in,
through all that it offers to choose from. -/
def addLeaves (x : Leaves) : Pattern → Leaves
  | .empty => x
  | .flags fs => { x with modes := x.modes.switch fs }
  | .leaf l => { x with found := (x.modes, l) :: x.found }
  | .repeated p => addLeaves x p
  | .group fs p => { addLeaves { x with modes := x.modes.switch fs } p with modes := x.modes }
  | .sequence ps => addLeavesOfAll x ps
  | .choice ps => addLeavesOfAll x ps

/-- Leaves, and after them those of some patterns. -/
def addLeavesOfAll (x : Leaves) : List Pattern → Leaves
  | [] => x
  | p :: ps => addLeavesOfAll (addLeaves x p) ps

end

/-- The leaves of a pattern with the modes at each of them. -/
def leaves (p : Pattern) : List (Modes × Leaf) := (addLeaves ⟨.initial, []⟩ p).found.reverse

end Pattern

end Turnstile
