/-!
# A queue that is read ahead

A replay takes recorded items in order, but may look at any of them and take one from further ahead.
The queue counts what it has handed out. Looking changes nothing, and neither does taking at a place
past the end.
-/

set_option autoImplicit false
set_option relaxedAutoImplicit false

namespace Turnstile

/-- Items still to be taken, and the number of those taken. -/
structure ReplayCursor (α : Type) where
  items : List α
  consumed : Nat
deriving DecidableEq, Repr

namespace ReplayCursor

variable {α : Type}

/-- The queue of a list, nothing taken. -/
def ofList (items : List α) : ReplayCursor α := ⟨items, 0⟩

/-- The item `index` places ahead. -/
def peekNth? (c : ReplayCursor α) (index : Nat) : Option α := c.items[index]?

/-- The next item. -/
def peek? (c : ReplayCursor α) : Option α := c.peekNth? 0

/-- The place of the first remaining item with a property. -/
def position? (c : ReplayCursor α) (p : α → Bool) : Option Nat := c.items.findIdx? p

/-- Take the item `index` places ahead. -/
def takeNth (c : ReplayCursor α) (index : Nat) : ReplayCursor α × Option α :=
  match c.items[index]? with
  | some item => (⟨c.items.eraseIdx index, c.consumed + 1⟩, some item)
  | none => (c, none)

/-- Take the next item. -/
def next (c : ReplayCursor α) : ReplayCursor α × Option α := c.takeNth 0

/-- Take `skipped` items and then the next one. Past the end everything is taken. -/
def nth (c : ReplayCursor α) : Nat → ReplayCursor α × Option α
  | 0 => c.next
  | skipped + 1 =>
    match c.next with
    | (c, some _) => c.nth skipped
    | (c, none) => (c, none)

/-- Take everything that is left. -/
def drain (c : ReplayCursor α) : ReplayCursor α × List α :=
  (⟨[], c.consumed + c.items.length⟩, c.items)

def remaining (c : ReplayCursor α) : Nat := c.items.length

def isExhausted (c : ReplayCursor α) : Bool := c.items.isEmpty

end ReplayCursor

end Turnstile
