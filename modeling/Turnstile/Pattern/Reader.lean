import Turnstile.Pattern.Brackets
import Turnstile.Text.WordChars

/-!
# Reading patterns

A pattern is read from its start to its end. What has been read is kept as items in a row, as the
branches of the choice that the row belongs to, and as the groups that are open around it.
-/

set_option autoImplicit false
set_option relaxedAutoImplicit false

namespace Turnstile

namespace Pattern

/-- The flag with a letter. -/
def Flag.ofLetter? : Char → Option Flag
  | 'i' => some .caseless
  | 'm' => some .multiline
  | 's' => some .dotAll
  | 'U' => some .lazy
  | 'u' => some .unicode
  | 'R' => some .carriage
  | 'x' => some .verbose
  | _ => none

/-- Read flags after `known` ones, up to what ends them. Those behind the dash are switched off;
there is one dash at most, and not at the end. -/
def readFlags (known : Flags) (isOff isDangling : Bool) :
    List Char → Option (Flags × Char × List Char)
  | [] => none
  | c :: cs =>
    if c = ':' ∨ c = ')' then if isDangling then none else some (known, c, cs)
    else if c = '-' then if isOff then none else readFlags known true true cs
    else
      match Flag.ofLetter? c with
      | none => none
      | some f =>
        if known.any (·.1 = f) then none else readFlags (known ++ [(f, !isOff)]) isOff false cs

/-- Whether characters make the name of a group. -/
def isGroupName : List Char → Bool
  | [] => false
  | c :: cs =>
    (c = '_' || isLetter c) && cs.all fun c ↦ ['_', '.', '[', ']'].contains c || isWordChar c

/-- A group whose closing parenthesis has not been read, with what is in front of it. -/
structure OpenGroup where
  flags : Flags
  items : List Pattern
  branches : List Pattern
  isVerbose : Bool

/-- What has been read of a pattern. The last of everything is the first in its list. -/
structure Draft where
  items : List Pattern
  branches : List Pattern
  groups : List OpenGroup
  names : List (List Char)
  /-- Whether space and comments are passed over. -/
  isVerbose : Bool

namespace Draft

def blank : Draft := ⟨[], [], [], [], false⟩

/-- The items in a row. -/
def row (d : Draft) : Pattern := ofItems d.items.reverse

/-- What has been read inside the innermost group. -/
def body (d : Draft) : Pattern :=
  if d.branches.isEmpty then d.row else .choice (d.row :: d.branches).reverse

def add (d : Draft) (p : Pattern) : Draft := { d with items := p :: d.items }

def addLeaf (d : Draft) (l : Leaf) : Draft := d.add (.leaf l)

/-- Whether space is passed over after flags. -/
def verboseAfter (d : Draft) (fs : Flags) : Bool := (fs.lookup .verbose).getD d.isVerbose

def openGroup (d : Draft) (fs : Flags) : Draft :=
  { d with
    items := []
    branches := []
    groups := ⟨fs, d.items, d.branches, d.isVerbose⟩ :: d.groups
    isVerbose := d.verboseAfter fs }

/-- Close the innermost group. -/
def closeGroup? (d : Draft) : Option Draft :=
  match d.groups with
  | [] => none
  | g :: groups => some { d with
      items := .group g.flags d.body :: g.items
      branches := g.branches
      groups := groups
      isVerbose := g.isVerbose }

def addBranch (d : Draft) : Draft := { d with items := [], branches := d.row :: d.branches }

/-- Repeat the last item. -/
def repeatLast? (d : Draft) : Option Draft :=
  match d.items with
  | p :: items => if p.isBare then none else some { d with items := .repeated p :: items }
  | [] => none

/-- The pattern, if no group is open. -/
def finish? (d : Draft) : Option Pattern := if d.groups.isEmpty then some d.body else none

/-- Read a named group behind the bracket in front of its name. -/
def readNamedGroup (d : Draft) (cs : List Char) : Option (Draft × List Char) :=
  let name := cs.takeWhile (· ≠ '>')
  match cs.dropWhile (· ≠ '>') with
  | [] => none
  | _ :: rest =>
    if isGroupName name && !d.names.contains name then
      some ({ d with names := name :: d.names }.openGroup [], rest)
    else none

/-- Read how a group begins, or flags that stand alone, behind the opening parenthesis. -/
def readGroup (d : Draft) (cs : List Char) : Option (Draft × List Char) :=
  match skip d.isVerbose cs with
  | '?' :: 'P' :: '<' :: rest => d.readNamedGroup rest
  | '?' :: '<' :: rest => d.readNamedGroup rest
  | '?' :: rest => do
    let (fs, stop, rest) ← readFlags [] false false rest
    if stop = ':' then return (d.openGroup fs, rest)
    if fs.isEmpty then none
    return ({ d with isVerbose := d.verboseAfter fs }.add (.flags fs), rest)
  | rest => some (d.openGroup [], rest)

/-- Read on at a character. Repetitions by numbers need a closing brace and are never complete. -/
def step (d : Draft) (c : Char) (cs : List Char) : Option (Draft × List Char) :=
  match c with
  | '(' => d.readGroup cs
  | ')' => d.closeGroup?.map (·, cs)
  | '|' => some (d.addBranch, cs)
  | '[' => do
    let (isNegated, s, rest) ← readSet d.isVerbose cs
    return (d.addLeaf (.set isNegated s), rest)
  | '?' | '*' | '+' =>
    d.repeatLast?.map (·, if cs.head? = some '?' then cs.drop 1 else cs)
  | '\x7b' => none
  | '\\' => do
    let (e, rest) ← readEscape d.isVerbose cs
    return (d.addLeaf (match e with
      | .literal l => .literal l
      | .shorthand isNegated => .shorthand isNegated
      | .edge isWord => .edge isWord), rest)
  | '.' => some (d.addLeaf .any, cs)
  | '^' | '$' => some (d.addLeaf (.edge false), cs)
  | c => some (d.addLeaf (.literal ⟨c, false⟩), cs)

/-- Read on to the end. Every step takes a character, so that their number bounds the steps. -/
def read (d : Draft) : Nat → List Char → Option Pattern
  | 0, _ => none
  | steps + 1, cs =>
    match skip d.isVerbose cs with
    | [] => d.finish?
    | c :: cs =>
      match d.step c cs with
      | none => none
      | some (d, rest) => d.read steps rest

end Draft

/-- The pattern that characters spell. -/
def read? (cs : List Char) : Option Pattern := Draft.blank.read (cs.length + 1) cs

end Pattern

end Turnstile
