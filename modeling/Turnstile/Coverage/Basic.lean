import Std.Data.TreeMap
import Turnstile.Json.Reader

/-!
# Coverage of basic blocks

How often each block of a program was reported, in the order of the ids. Counts have 64 bits, and
adding to one may overflow: `add?` and `total?` then have no result, and the folds over several
counts stop at the first that does not fit and hand over what was counted before it.
-/

set_option autoImplicit false
set_option relaxedAutoImplicit false

namespace Turnstile

/-- Hits per block id. -/
structure Coverage where
  hitsOf : Std.TreeMap String UInt64

namespace Coverage

/-- No block at all. -/
def empty : Coverage := ⟨∅⟩

instance : Inhabited Coverage := ⟨empty⟩

/-- The hits of a block, zero if it was never reported. -/
def hits (c : Coverage) (id : String) : UInt64 := (c.hitsOf[id]?).getD 0

/-- Ids with their hits, in the order of the ids. -/
def toList (c : Coverage) : List (String × UInt64) := c.hitsOf.toList

/-- The number of blocks. -/
def blocks (c : Coverage) : Nat := c.hitsOf.size

def isEmpty (c : Coverage) : Bool := c.hitsOf.isEmpty

instance : BEq Coverage := ⟨fun a b ↦ a.toList == b.toList⟩

/-- The sum of two counts, if it has 64 bits. -/
def sum? (a b : UInt64) : Option UInt64 :=
  if a.toNat + b.toNat < UInt64.size then some (a + b) else none

/-- The coverage with more hits of a block, unless its count overflows. -/
def add? (c : Coverage) (id : String) (hits : UInt64) : Option Coverage :=
  match sum? (c.hits id) hits with
  | some n => some ⟨c.hitsOf.insert id n⟩
  | none => none

/-- Counts folded in one after another: the coverage reached, and whether every count fitted. -/
def addAll (c : Coverage) : List (String × UInt64) → Coverage × Bool
  | [] => (c, true)
  | (id, hits) :: rest =>
    match c.add? id hits with
    | some c => addAll c rest
    | none => (c, false)

/-- The counts of `other` folded in, in the order of its ids. -/
def merge (c other : Coverage) : Coverage × Bool := c.addAll other.toList

/-- The coverage of a list of counts, unless one overflows. -/
def ofList? (counts : List (String × UInt64)) : Option Coverage :=
  match empty.addAll counts with
  | (c, true) => some c
  | (_, false) => none

/-- All coverages folded together, unless a count overflows. -/
def mergeAll? (cs : List Coverage) : Option Coverage :=
  cs.foldlM (fun total c ↦
    match total.merge c with
    | (total, true) => some total
    | (_, false) => none) empty

/-- The sum of all counts, if it has 64 bits. -/
def total? (c : Coverage) : Option UInt64 :=
  c.toList.foldlM (fun n count ↦ sum? n count.2) 0

/-- Blocks and hits in words, if the hits can be summed. -/
def display? (c : Coverage) : Option String :=
  match c.total? with
  | some n => some (toString c.blocks ++ " blocks, " ++ toString n.toNat ++ " hits")
  | none => none

def toJson (c : Coverage) : Json :=
  .object (c.toList.map fun (id, hits) ↦ (id, .int hits.toNat))

def reader : Json.Reader Json := Json.Reader.map Json.Reader.unsigned64

/-- One entry of a document; the last entry for an id counts. -/
def enter? (c : Coverage) : String × Json → Option Coverage
  | (id, .int hits) => some ⟨c.hitsOf.insert id (UInt64.ofNat hits.toNat)⟩
  | _ => none

def ofJson? : Json → Option Coverage
  | .object members => members.foldlM enter? empty
  | _ => none

end Coverage

end Turnstile
