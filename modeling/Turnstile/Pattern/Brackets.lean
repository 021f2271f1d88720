import Turnstile.Pattern.Escape

/-!
# Brackets in patterns

A set of characters between brackets: characters, ranges, classes and further sets, which are united
where nothing else is said. Of the sets that are open at a place, the innermost one comes first. A
bracket that closes a set stands for itself where the set would have nothing in it, and so do the
dashes at the start of a set.
-/

set_option autoImplicit false
set_option relaxedAutoImplicit false

namespace Turnstile

namespace Pattern

/-- A set whose closing bracket has not been read. -/
structure OpenSet where
  isNegated : Bool
  /-- Whether there were only dashes so far. -/
  isFresh : Bool
  /-- What is in front of the last operator. -/
  left : Option CharSet
  /-- What is behind it, the last item first. -/
  items : List CharSet

namespace OpenSet

/-- What has been read of a set. -/
def contents (s : OpenSet) : CharSet :=
  let right := CharSet.ofItems s.items.reverse
  match s.left with
  | some left => .operation left right
  | none => right

def add (s : OpenSet) (item : CharSet) : OpenSet :=
  { s with isFresh := false, items := item :: s.items }

/-- Whether a character stands for itself although it means something further on. -/
def takesAtStart (s : OpenSet) (c : Char) : Bool :=
  s.isFresh && (c = '-' || (c = ']' && s.items.isEmpty))

def addAtStart (s : OpenSet) (c : Char) : OpenSet :=
  { s with isFresh := c = '-', items := .literal ⟨c, false⟩ :: s.items }

/-- The set with an operator behind what has been read of it. -/
def operate (s : OpenSet) : OpenSet := { s with left := some s.contents, items := [] }

/-- Read how a set begins, behind its bracket. -/
def start (isVerbose : Bool) (cs : List Char) : OpenSet × List Char :=
  match skip isVerbose cs with
  | '^' :: rest => (⟨true, true, none, []⟩, skip isVerbose rest)
  | rest => (⟨false, true, none, []⟩, rest)

end OpenSet

/-- The classes that are named between colons. -/
def classNames : List String :=
  ["alnum", "alpha", "ascii", "blank", "cntrl", "digit", "graph", "lower", "print", "punct",
    "space", "upper", "word", "xdigit"]

/-- Read a named class behind its first bracket, if there is one: whether it is negated, and what
follows it. -/
def readNamed? : List Char → Option (Bool × List Char)
  | ':' :: cs =>
    let isNegated := cs.head? = some '^'
    let cs := if isNegated then cs.drop 1 else cs
    match cs.dropWhile (· ≠ ':') with
    | ':' :: ']' :: rest =>
      if classNames.contains (String.ofList (cs.takeWhile (· ≠ ':'))) then some (isNegated, rest)
      else none
    | _ => none
  | _ => none

/-- The character that decides whether a dash in front of it makes a range. Where space is passed
over, so is the mark of a comment with the space behind it, but not the comment. -/
def decidingChar? (isVerbose : Bool) (cs : List Char) : Option Char :=
  if isVerbose then
    let rest := match cs.dropWhile isSpace with
      | '#' :: rest => rest.dropWhile isSpace
      | rest => rest
    if rest.isEmpty then cs.head? else rest.head?
  else cs.head?

/-- Read one item of a set. -/
def readItem (isVerbose : Bool) : List Char → Option (Escape × List Char)
  | [] => none
  | '\\' :: cs => readEscape isVerbose cs
  | c :: cs => some (.literal ⟨c, false⟩, cs)

/-- The item that is an escape. No place between characters is one. -/
def itemOfEscape? : Escape → Option CharSet
  | .literal l => some (.literal l)
  | .shorthand isNegated => some (.shorthand isNegated)
  | .edge _ => none

/-- The range between two escapes, which must be characters in order. -/
def rangeOfEscapes? : Escape → Escape → Option CharSet
  | .literal first, .literal last =>
    if first.char ≤ last.char then some (.range first last) else none
  | _, _ => none

/-- Read a range, or an item that is none. -/
def readRange (isVerbose : Bool) (cs : List Char) : Option (CharSet × List Char) := do
  let (first, rest) ← readItem isVerbose cs
  match skip isVerbose rest with
  | '-' :: rest =>
    if [some ']', some '-'].contains (decidingChar? isVerbose rest) then
      return (← itemOfEscape? first, '-' :: rest)
    let (last, rest) ← readItem isVerbose (skip isVerbose rest)
    return (← rangeOfEscapes? first last, rest)
  | rest => return (← itemOfEscape? first, rest)

/-- What a step of reading a set comes to. -/
inductive BracketStep
  | onward (sets : List OpenSet) (rest : List Char)
  /-- The outermost set is closed. -/
  | closed (isNegated : Bool) (s : CharSet) (rest : List Char)

/-- Close a set inside some others. -/
def closeSet (s : OpenSet) (rest : List Char) : List OpenSet → BracketStep
  | [] => .closed s.isNegated s.contents rest
  | outer :: sets => .onward (outer.add (.bracketed s.isNegated s.contents) :: sets) rest

/-- Read on in a set inside some others. -/
def stepInSet (isVerbose : Bool) (s : OpenSet) (sets : List OpenSet) :
    List Char → Option BracketStep
  | [] => none
  | c :: cs =>
    if s.takesAtStart c then some (.onward (s.addAtStart c :: sets) cs)
    else if c = ']' then some (closeSet s cs sets)
    else if c = '[' then
      match readNamed? cs with
      | some (isNegated, rest) => some (.onward (s.add (.named isNegated) :: sets) rest)
      | none =>
        let (inner, rest) := OpenSet.start isVerbose cs
        some (.onward (inner :: { s with isFresh := false } :: sets) rest)
    else if ['&', '-', '~'].contains c && cs.head? = some c then
      some (.onward ({ s.operate with isFresh := false } :: sets) (cs.drop 1))
    else do
      let (item, rest) ← readRange isVerbose (c :: cs)
      return .onward (s.add item :: sets) rest

/-- Read on in the sets that are open. Every step takes a character, so that their number bounds the
steps. -/
def readSets (isVerbose : Bool) :
    Nat → List OpenSet → List Char → Option (Bool × CharSet × List Char)
  | 0, _, _ | _, [], _ => none
  | steps + 1, s :: sets, cs =>
    match stepInSet isVerbose s sets (skip isVerbose cs) with
    | none => none
    | some (.closed isNegated s rest) => some (isNegated, s, rest)
    | some (.onward sets rest) => readSets isVerbose steps sets rest

/-- Read a set behind its first bracket: whether it is negated, what is in it, and what follows. -/
def readSet (isVerbose : Bool) (cs : List Char) : Option (Bool × CharSet × List Char) :=
  let (s, rest) := OpenSet.start isVerbose cs
  readSets isVerbose (cs.length + 1) [s] rest

end Pattern

end Turnstile
