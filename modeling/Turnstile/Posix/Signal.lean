/-!
# Signals

The signals of Linux on 64-bit Intel machines, by number.
-/

set_option autoImplicit false
set_option relaxedAutoImplicit false

namespace Turnstile

/-- The names of the signals from number one on. -/
def signalNames : List String :=
  ["SIGHUP", "SIGINT", "SIGQUIT", "SIGILL", "SIGTRAP", "SIGABRT", "SIGBUS", "SIGFPE", "SIGKILL",
    "SIGUSR1", "SIGSEGV", "SIGUSR2", "SIGPIPE", "SIGALRM", "SIGTERM", "SIGSTKFLT", "SIGCHLD",
    "SIGCONT", "SIGSTOP", "SIGTSTP", "SIGTTIN", "SIGTTOU", "SIGURG", "SIGXCPU", "SIGXFSZ",
    "SIGVTALRM", "SIGPROF", "SIGWINCH", "SIGIO", "SIGPWR", "SIGSYS"]

/-- A signal, by its place among the names. -/
structure Signal where
  index : Fin signalNames.length
deriving DecidableEq, Repr

namespace Signal

/-- The signal with a number. -/
def ofNumber? (n : Int) : Option Signal :=
  if h : (n - 1).toNat < signalNames.length then
    if 1 ≤ n then some ⟨⟨(n - 1).toNat, h⟩⟩ else none
  else none

def name (s : Signal) : String := signalNames[s.index]

end Signal

end Turnstile
