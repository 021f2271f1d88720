import Std.Data.TreeMap
import Turnstile.Disk.Device
import Turnstile.Disk.File

/-!
# Files by name

A disk holds files under names, which are paths without idle parts. A path is resolved from the
working directory, the empty name, component by component. The refusals are those of the system:
a missing directory, a file where a directory is needed, a directory where a file is needed, and a
path or component that is too long. Devices and the directories of the system are there on every
disk.
-/

set_option autoImplicit false
set_option relaxedAutoImplicit false

namespace Turnstile

/-- Files by name, and the names of the directories. -/
structure Disk where
  files : Std.TreeMap String File
  directories : List String

namespace Disk

/-- The directories of the system, as far as anybody can count on them. -/
def systemDirectories : List String :=
  ["/", "/bin", "/boot", "/dev", "/etc", "/home", "/lib", "/media", "/mnt", "/opt", "/proc",
    "/root", "/run", "/sbin", "/srv", "/sys", "/tmp", "/usr", "/var"]

/-- A disk with nothing of its own but the working directory. -/
def empty : Disk := ⟨∅, "" :: systemDirectories⟩

/-- The name of an entry of a directory. -/
def join (directory entry : String) : String :=
  if directory = "" ∨ directory = "/" then directory ++ entry else directory ++ "/" ++ entry

/-- The name of the directory that holds another one. The one of the system that holds all others
holds itself, and above the working directory only the way up has a name. -/
def parent (directory : String) : String :=
  let components := directory.splitOn "/"
  if directory = "/" then directory
  else if directory = "" ∨ components.all (· = "..") then join directory ".."
  else if components.length = 2 ∧ directory.startsWith "/" then "/"
  else "/".intercalate components.dropLast

/-- What a path leads to. -/
inductive Target
  | directory
  /-- A name that no directory has. -/
  | entry (name : String)
  /-- Such a name, with a slash after it. -/
  | slashed (name : String)
  /-- A name too long for any file, with a slash after it. -/
  | overlong
deriving DecidableEq, Repr

/-- Whether a name is the one of a device. -/
def isDevice (name : String) : Bool := (Device.ofName? name).isSome

/-- Whether there is a file or a device under a name. -/
def holds (d : Disk) (name : String) : Bool := d.files.contains name || isDevice name

/-- Whether a component of a path leads nowhere else. -/
def isIdle (component : String) : Bool := component = "" || component = "."

/-- Whether a name is longer than a directory can hold. -/
def isOverlong (component : String) : Bool := 255 < component.utf8ByteSize

/-- Go down a path from a directory. Slashes at the end are not looked at before the name in front
of them has been found to be no directory. -/
def walk (d : Disk) (directory : String) : List String → Except ErrorNumber Target
  | [] => .ok .directory
  | c :: rest =>
    if isIdle c then d.walk directory rest
    else if c = ".." then d.walk (parent directory) rest
    else
      let isSlashed := !rest.isEmpty && rest.all (· = "")
      let name := join directory c
      if isOverlong c then if isSlashed then .ok .overlong else .error .nameTooLong
      else if d.directories.contains name then d.walk name rest
      else if rest.isEmpty then .ok (.entry name)
      else if isSlashed then .ok (.slashed name)
      else if d.holds name then .error .notDirectory
      else .error .noEntry

/-- Where a path starts. -/
def origin (path : String) : String := if path.startsWith "/" then "/" else ""

/-- The number of bytes that a path must stay below. -/
def pathBound : Nat := 4096

/-- What a path leads to. -/
def target (d : Disk) (path : String) : Except PathRefusal Target :=
  if path.toList.contains '\x00' then .error .zeroByte
  else if path = "" then .error (.system .noEntry)
  else if pathBound ≤ path.utf8ByteSize then .error (.system .nameTooLong)
  else (d.walk (origin path) (path.splitOn "/")).mapError .system

/-- The names that a path leads through from a directory, the last one included, if every component
is a directory. -/
def names (directory : String) : List String → List String
  | [] => []
  | c :: rest =>
    if isIdle c then names directory rest
    else if c = ".." then parent directory :: names (parent directory) rest
    else join directory c :: names (join directory c) rest

/-- The names that a path leads through. -/
def namesOn (path : String) : List String := origin path :: names (origin path) (path.splitOn "/")

/-- The name of the file or device at a path. -/
def find (d : Disk) (path : String) : Except PathRefusal String := do
  match ← d.target path with
  | .directory => throw (.system .isDirectory)
  | .entry name => if d.holds name then return name else throw (.system .noEntry)
  | .slashed name =>
    throw (.system (if d.holds name then .notDirectory else .noEntry))
  | .overlong => throw (.system .nameTooLong)

/-- The name under which a file can be created at a path. A slash at the end asks for a directory,
whatever is there. -/
def place (d : Disk) (path : String) : Except PathRefusal String := do
  match ← d.target path with
  | .entry name => return name
  | _ => throw (.system .isDirectory)

/-- The file under a name. -/
def file (d : Disk) (name : String) : File := (d.files[name]?).getD .empty

/-- Put a file under a name. A device stays what it is. -/
def put (d : Disk) (name : String) (f : File) : Disk :=
  if isDevice name then d else { d with files := d.files.insert name f }

/-- The bytes with which what is under a name begins, as far as a reader of a document looks. -/
def leading (d : Disk) (name : String) : List UInt8 :=
  match Device.ofName? name with
  | some device => device.leading
  | none => (d.file name).leading

/-- Put bytes into what is under a name, from an offset on. -/
def store (d : Disk) (name : String) (offset : Nat) (bytes : List UInt8) :
    Except PathRefusal Disk :=
  if (Device.ofName? name).all (·.takes bytes) then
    .ok (d.put name ((d.file name).write offset bytes))
  else .error (.system .noSpace)

/-- Write a file, whether it is there or not; the result has its name. -/
def write (d : Disk) (path : String) (bytes : List UInt8) : Except PathRefusal (Disk × String) := do
  let name ← d.place path
  return (← (d.put name .empty).store name 0 bytes, name)

/-- Write bytes into a file that is there; the result has its name. -/
def patch (d : Disk) (path : String) (offset : Nat) (bytes : List UInt8) :
    Except PathRefusal (Disk × String) := do
  let name ← d.find path
  return (← d.store name offset bytes, name)

/-- Set the length of a file, whether it is there or not. A device has none. -/
def resize (d : Disk) (path : String) (length : Nat) : Except PathRefusal Disk := do
  let name ← d.place path
  if isDevice name then throw (.system .invalidArgument)
  return d.put name ((d.file name).resize length)

/-- Write the file of a fresh region; the result has its name. -/
def createRegion (d : Disk) (path : String) : Except Error (Disk × String) :=
  match d.place path with
  | .ok name =>
    if isDevice name then .error (.path (.system .invalidArgument))
    else .ok (d.put name (.ofRegion .fresh), name)
  | .error r => .error (.path r)

/-- The name of a file that holds a region. -/
def openRegion (d : Disk) (path : String) : Except Error String := do
  match d.find path with
  | .error r => throw (.path r)
  | .ok name =>
    let _ ← (d.file name).region
    return name

end Disk

end Turnstile
