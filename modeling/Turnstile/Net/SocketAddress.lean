import Turnstile.Bytes.Hex

/-!
# Socket addresses

An address of either family with a port, read from its text and written in the canonical form:
lower-case groups without leading zeros, the longest run of at least two zero groups (the first of
equals) left out, and an address that maps one of the older family shown with its dotted part.
-/

set_option autoImplicit false
set_option relaxedAutoImplicit false

namespace Turnstile

/-- An address of four bytes. -/
structure Address4 where
  bytes : List Nat
deriving DecidableEq, Repr

/-- An address of eight groups of sixteen bits. -/
structure Address6 where
  groups : List Nat
deriving DecidableEq, Repr

/-- An address and a port, with the scope of an address of the newer family. -/
inductive SocketAddress
  | v4 (address : Address4) (port : Nat)
  | v6 (address : Address6) (scope : Nat) (port : Nat)
deriving DecidableEq, Repr

namespace SocketAddress

/-! ### Text -/

def dotted (bytes : List Nat) : String := ".".intercalate (bytes.map toString)

def colons (groups : List Nat) : String := ":".intercalate (groups.map hexText)

/-- The length of the run of zeros at the start. -/
def zeroRun (groups : List Nat) : Nat := (groups.takeWhile (· = 0)).length

/-- Start and length of the longest run of zero groups, the first of equals, looking from `index`
on. -/
def longestZeros (index : Nat) (best : Nat × Nat) : List Nat → Nat × Nat
  | [] => best
  | g :: gs =>
    let run := zeroRun (g :: gs)
    longestZeros (index + 1) (if best.2 < run then (index, run) else best) gs

/-- The canonical text of eight groups. -/
def groupsText (groups : List Nat) : String :=
  match groups with
  | [0, 0, 0, 0, 0, 0xFFFF, a, b] =>
    "::ffff:" ++ dotted [a / 256, a % 256, b / 256, b % 256]
  | groups =>
    let (start, length) := longestZeros 0 (0, 0) groups
    if length < 2 then colons groups
    else colons (groups.take start) ++ "::" ++ colons (groups.drop (start + length))

/-- The canonical text of an address with its port. -/
def text : SocketAddress → String
  | .v4 a port => dotted a.bytes ++ ":" ++ toString port
  | .v6 a scope port =>
    let inside := groupsText a.groups ++ if scope = 0 then "" else "%" ++ toString scope
    "[" ++ inside ++ "]:" ++ toString port

/-! ### Reading -/

/-- A reading of the start of a text, with the rest. -/
abbrev Scan (α : Type) := List Char → Option (α × List Char)

/-- The value of a digit in a base. -/
def digitValue? (base : Nat) (c : Char) : Option Nat :=
  match hexValue? c with
  | some v => if v < base then some v else none
  | none => none

/-- The digits of a base at the start of a text. -/
def leadingDigits (base : Nat) (cs : List Char) : List Nat :=
  (cs.takeWhile fun c ↦ (digitValue? base c).isSome).filterMap (digitValue? base)

/-- A number below `bound` with at most `width` digits (`none`: any number of them), with or without
leading zeros. -/
def scanNumber (base : Nat) (width : Option Nat) (leadingZeros : Bool) (bound : Nat) : Scan Nat :=
  fun cs ↦
    let digits := leadingDigits base cs
    let n := digits.foldl (fun n d ↦ base * n + d) 0
    let fits := match width with
      | some w => digits.length ≤ w
      | none => true
    if digits.isEmpty ∨ !fits ∨ bound ≤ n then none
    else if !leadingZeros ∧ digits.head? = some 0 ∧ 1 < digits.length then none
    else some (n, cs.drop digits.length)

/-- A given character. -/
def scanChar (c : Char) : Scan Unit
  | [] => none
  | d :: ds => if c = d then some ((), ds) else none

/-- One reading after another. -/
def scanThen {α β : Type} (first : Scan α) (second : α → Scan β) : Scan β := fun cs ↦
  match first cs with
  | some (a, rest) => second a rest
  | none => none

/-- A reading after a separator, except at the start of a sequence. -/
def scanAfter {α : Type} (separator : Char) (first : Bool) (scan : Scan α) : Scan α :=
  if first then scan else scanThen (scanChar separator) fun _ ↦ scan

/-- The bytes of a dotted address that are still to come. -/
def scanDotted : Nat → Bool → Scan (List Nat)
  | 0, _ => fun cs ↦ some ([], cs)
  | n + 1, first =>
    scanThen (scanAfter '.' first (scanNumber 10 (some 3) false 256)) fun b ↦
      scanThen (scanDotted n false) fun bs cs ↦ some (b :: bs, cs)

/-- The two groups that four bytes make. -/
def groupsOfBytes : List Nat → List Nat
  | [a, b, c, d] => [256 * a + b, 256 * c + d]
  | _ => []

/-- Up to `limit` groups, and whether they end with a dotted address, which takes two of them. -/
def scanGroups : Nat → Bool → List Char → List Nat × Bool × List Char
  | 0, _, cs => ([], false, cs)
  | limit + 1, first, cs =>
    let dotted :=
      if 1 ≤ limit then scanAfter ':' first (scanDotted 4 true) cs else none
    match dotted with
    | some (bytes, rest) => (groupsOfBytes bytes, true, rest)
    | none =>
      match scanAfter ':' first (scanNumber 16 (some 4) true 65536) cs with
      | none => ([], false, cs)
      | some (g, rest) =>
        let (gs, endsDotted, rest) := scanGroups limit false rest
        (g :: gs, endsDotted, rest)

/-- Eight groups, of which a run may be left out between two colons. -/
def scanAddress6 : Scan Address6 := fun cs ↦
  let (head, endsDotted, rest) := scanGroups 8 true cs
  if head.length = 8 then some (⟨head⟩, rest)
  else if endsDotted then none
  else
    match rest with
    | ':' :: ':' :: rest =>
      let (tail, _, rest) := scanGroups (7 - head.length) true rest
      some (⟨head ++ List.replicate (8 - head.length - tail.length) 0 ++ tail⟩, rest)
    | _ => none

/-- A port after its colon. -/
def scanPort : Scan Nat := scanThen (scanChar ':') fun _ ↦ scanNumber 10 none true 65536

/-- The scope of an address, which may be absent. -/
def scanScope : Scan Nat := fun cs ↦
  match scanThen (scanChar '%') (fun _ ↦ scanNumber 10 none true UInt32.size) cs with
  | some found => some found
  | none => some (0, cs)

def scanV4 : Scan SocketAddress :=
  scanThen (scanDotted 4 true) fun bytes ↦
    scanThen scanPort fun port cs ↦ some (.v4 ⟨bytes⟩ port, cs)

def scanV6 : Scan SocketAddress :=
  scanThen (scanChar '[') fun _ ↦ scanThen scanAddress6 fun address ↦
    scanThen scanScope fun scope ↦ scanThen (scanChar ']') fun _ ↦
      scanThen scanPort fun port cs ↦ some (.v6 address scope port, cs)

/-- The address that a whole text spells. -/
def ofText? (s : String) : Option SocketAddress :=
  let cs := s.toList
  match (scanV4 cs).or (scanV6 cs) with
  | some (a, []) => some a
  | _ => none

end SocketAddress

end Turnstile
