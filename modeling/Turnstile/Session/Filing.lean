import Turnstile.Command.Run
import Turnstile.Session.Scheduling

/-!
# Files in a session

The acts of a session that has a disk: creating and opening regions, writing and reading files, and
running commands. Locks that are held in a region stay held when it is closed or another one is
opened.
-/

set_option autoImplicit false
set_option relaxedAutoImplicit false

namespace Turnstile

namespace Session

namespace Act

/-- A result of the disk. -/
def filed {α : Type} : Except PathRefusal α → Act α
  | .ok a => pure a
  | .error r => throw (.file r)

/-- Make the region at a place the open one. -/
def setOpened (place : Option Place) : Act Unit := modify fun w ↦ { w with opened := place }

/-- Create a region and open it. -/
def createRegion (path : String) : Act Unit := do
  let (d, name) ← controlled ((← disk).createRegion (pathWithin path))
  setDisk d
  setOpened (some (.file name))

/-- Open a region. -/
def openFile (path : String) : Act Unit := do
  let name ← controlled ((← disk).openRegion (pathWithin path))
  setOpened (some (.file name))

def closeRegion : Act Unit := do
  let _ ← disk
  setOpened none

/-- Keep the disk after a file of it was written; the result is the length of the file. -/
def keepFile (written : Disk × String) : Act Nat := do
  setDisk written.1
  return (written.1.file written.2).length

/-- Write a text to a file; the result is its length. -/
def putFile (path : String) (bytes : List UInt8) : Act Nat := do
  keepFile (← filed ((← disk).write (pathWithin path) bytes))

/-- Set the length of a file, which is created if it is missing. -/
def resizeFile (path : String) (length : Nat) : Act Nat := do
  setDisk (← filed ((← disk).resize (pathWithin path) length))
  return length

/-- Write bytes into a file; the result is its length afterwards. -/
def patchFile (path : String) (offset : Nat) (bytes : List UInt8) : Act Nat := do
  keepFile (← filed ((← disk).patch (pathWithin path) offset bytes))

/-- The text in a file. -/
def fileText (path : String) : Act String := do
  let d ← disk
  let name ← filed (d.find (pathWithin path))
  match textOfUtf8? (d.file name).bytes with
  | some text => return text
  | none => throw .noText

/-- Run a command on the disk of the session. Its output is not a terminal. -/
def command (env : Options.Environment) (args : List String) : Act Outcome := do
  let words := args ++ env.flatMap fun (name, value) ↦ [name, value]
  if words.any (·.toList.contains '\x00') then throw .zeroByte
  let outcome := Command.run env false args (← disk)
  if outcome.code.isNone then throw .locked
  setDisk outcome.disk
  return outcome

end Act

end Session

end Turnstile
