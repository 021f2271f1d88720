import Turnstile.Posix.ErrorNumber

/-!
# Refused paths

Why a path leads to no file that could be used: the system says so, or it cannot even be asked,
since a zero byte ends the paths that it is given.
-/

set_option autoImplicit false
set_option relaxedAutoImplicit false

namespace Turnstile

/-- Why nothing can be done with a path. -/
inductive PathRefusal
  | system (e : ErrorNumber)
  /-- There is a zero byte in the path. -/
  | zeroByte
deriving DecidableEq, Repr

def PathRefusal.message : PathRefusal → String
  | .system e => e.message
  | .zeroByte => "file name contained an unexpected NUL byte"

end Turnstile
