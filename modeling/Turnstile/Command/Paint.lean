/-!
# Painted text

A terminal shows text in a colour or a weight after an escape sequence that lists the codes of the
paint, up to the sequence that ends all paint. Text that ends paint within itself is painted on
after every such place.
-/

set_option autoImplicit false
set_option relaxedAutoImplicit false

namespace Turnstile

/-- The codes of a colour or a weight, weights first. -/
structure Paint where
  codes : List Nat
deriving DecidableEq, Repr

namespace Paint

def bold : Paint := ⟨[1]⟩

def dimmed : Paint := ⟨[2]⟩

def dimmedBold : Paint := ⟨[1, 2]⟩

def red : Paint := ⟨[31]⟩

def redBold : Paint := ⟨[1, 31]⟩

def green : Paint := ⟨[32]⟩

def greenBold : Paint := ⟨[1, 32]⟩

def yellow : Paint := ⟨[33]⟩

def yellowBold : Paint := ⟨[1, 33]⟩

def cyan : Paint := ⟨[36]⟩

/-- The sequence that begins a paint. -/
def opening (p : Paint) : String := "\x1b[" ++ ";".intercalate (p.codes.map toString) ++ "m"

/-- The sequence that ends all paint. -/
def closing : String := "\x1b[0m"

/-- A text in a paint. -/
def apply (p : Paint) (s : String) : String :=
  p.opening ++ (closing ++ p.opening).intercalate (s.splitOn closing) ++ closing

/-- A text in a paint where paint is wanted, and as it is elsewhere. -/
def applyIf (p : Paint) (colored : Bool) (s : String) : String :=
  if colored then p.apply s else s

end Paint

end Turnstile
