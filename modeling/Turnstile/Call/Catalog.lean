/-!
# The catalog of reported calls

Calls are library operations of the monitored program, numbered by the catalog and not by the
kernel. A number outside it is recorded as it is.
-/

set_option autoImplicit false
set_option relaxedAutoImplicit false

namespace Turnstile

/-- An entry of the catalog: the number of an operation, its name in documents and its name in
traces. -/
structure Operation where
  number : Int32
  documentName : String
  traceName : String
deriving DecidableEq, Repr

namespace Operation

/-- The operations in the order of their numbers. -/
def catalog : List Operation := [
  ⟨0, "Open", "OPEN"⟩,
  ⟨1, "Close", "CLOSE"⟩,
  ⟨2, "Read", "READ"⟩,
  ⟨3, "ReadAt", "READAT"⟩,
  ⟨4, "Write", "WRITE"⟩,
  ⟨5, "WriteAt", "WRITEAT"⟩,
  ⟨6, "Seek", "SEEK"⟩,
  ⟨7, "Fstat", "FSTAT"⟩,
  ⟨8, "Stat", "STAT"⟩,
  ⟨9, "Lstat", "LSTAT"⟩,
  ⟨10, "Chmod", "CHMOD"⟩,
  ⟨11, "Fchmod", "FCHMOD"⟩,
  ⟨12, "Chown", "CHOWN"⟩,
  ⟨13, "Fchown", "FCHOWN"⟩,
  ⟨14, "Lchown", "LCHOWN"⟩,
  ⟨15, "Ftruncate", "FTRUNCATE"⟩,
  ⟨16, "Fsync", "FSYNC"⟩,
  ⟨17, "Utimes", "UTIMES"⟩,
  ⟨18, "Fchdir", "FCHDIR"⟩,
  ⟨19, "Readlink", "READLINK"⟩,
  ⟨20, "ReadDir", "READDIR"⟩,
  ⟨21, "ReadDirNames", "READDIRNAMES"⟩,
  ⟨22, "Mkdir", "MKDIR"⟩,
  ⟨23, "Remove", "REMOVE"⟩,
  ⟨24, "Rename", "RENAME"⟩,
  ⟨25, "Link", "LINK"⟩,
  ⟨26, "Symlink", "SYMLINK"⟩,
  ⟨30, "Exit", "EXIT"⟩,
  ⟨31, "Kill", "KILL"⟩,
  ⟨32, "Wait4", "WAIT4"⟩,
  ⟨33, "Executable", "EXECUTABLE"⟩,
  ⟨34, "Getuid", "GETUID"⟩,
  ⟨35, "Geteuid", "GETEUID"⟩,
  ⟨36, "Getgid", "GETGID"⟩,
  ⟨37, "Getegid", "GETEGID"⟩,
  ⟨38, "Getgroups", "GETGROUPS"⟩,
  ⟨40, "Getenv", "GETENV"⟩,
  ⟨41, "Setenv", "SETENV"⟩,
  ⟨42, "Unsetenv", "UNSETENV"⟩,
  ⟨43, "Clearenv", "CLEARENV"⟩,
  ⟨44, "Environ", "ENVIRON"⟩,
  ⟨50, "Sleep", "SLEEP"⟩,
  ⟨60, "Listen", "LISTEN"⟩,
  ⟨61, "Dial", "DIAL"⟩,
  ⟨62, "Accept", "ACCEPT"⟩,
  ⟨63, "SetDeadline", "SETDEADLINE"⟩,
  ⟨64, "SetReadDeadline", "SETREADDEADLINE"⟩,
  ⟨65, "SetWriteDeadline", "SETWRITEDEADLINE"⟩]

/-- The entry with a number. -/
def ofNumber? (n : Int32) : Option Operation := catalog.find? (·.number = n)

end Operation

/-- The name of a call in a trace; a number outside the catalog is shown as such. -/
def callName (n : Int32) : String :=
  match Operation.ofNumber? n with
  | some o => o.traceName
  | none => "SYSCALL#" ++ toString n.toInt

end Turnstile
