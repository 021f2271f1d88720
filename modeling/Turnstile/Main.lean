import Turnstile.Command.Run

/-!
# The program

The files that a command line names are read, the command is run on them, and the files that it may
have changed are written back. A command that waits for a lock is run again on the files as they are
then.
-/

set_option autoImplicit false
set_option relaxedAutoImplicit false

namespace Turnstile

namespace Program

/-- The variables that a command line looks at. -/
def environment : IO Options.Environment :=
  ["DARA_LOG", "DARA_LOG_FILE", "DARA_REGION", "RUST_LOG", "CLICOLOR_FORCE", "NO_COLOR",
    "CLICOLOR"].filterMapM fun name ↦ do
      return (← IO.getEnv name).map fun value ↦ (name, value)

/-- The number of bytes that are read or written at once. -/
def pageSize : Nat := 4096

/-- Read on in a file. Pages of zeros are passed over, since regions have many. -/
partial def readPages (h : IO.FS.Handle) (f : File) (offset : Nat) : IO File := do
  let page ← h.read (USize.ofNat pageSize)
  if page.isEmpty then return f.resize offset
  let isBlank := page.foldl (fun blank b ↦ blank && b == 0) true
  readPages h (if isBlank then f else f.write offset page.toList) (offset + page.size)

def writeBytes (h : IO.FS.Handle) (bytes : List UInt8) : IO Unit :=
  h.write (ByteArray.mk bytes.toArray)

/-- A page of zeros as long as the longest part of a slot. -/
def blankPage : ByteArray := ByteArray.mk (Array.replicate (Packed.size EventRecord) 0)

/-- Write a region part by part. -/
def writeRegion (h : IO.FS.Handle) (r : Region) : IO Unit := do
  for s in r.slots.toList do
    for part in Slot.Part.all do
      if part.isBlank s then h.write (blankPage.extract 0 part.size)
      else writeBytes h (part.bytes s)
  writeBytes h r.padding.toList

/-- Write a file that is no region page by page. -/
partial def writePages (h : IO.FS.Handle) (f : File) (offset : Nat) : IO Unit := do
  let page := f.image.bytesAt offset (min pageSize (f.length - offset))
  unless page.isEmpty do
    writeBytes h page
    writePages h f (offset + page.length)

/-- Add what is under a name to a disk, if there is something. Devices are on every disk. -/
def addName (d : Disk) (name : String) : IO Disk := do
  if Disk.isDevice name then return d
  try
    let _ ← IO.FS.Handle.mk (name ++ "/.") .read
    return { d with directories := name :: d.directories }
  catch _ =>
    try return d.put name (← readPages (← IO.FS.Handle.mk name .read) .empty 0)
    catch _ => return d

/-- The disk as far as some paths lead. -/
def loadDisk (paths : List String) : IO Disk :=
  (paths.flatMap Disk.namesOn).eraseDups.foldlM addName .empty

/-- Write the file at a path, if there is one. A device has no file. -/
def save (d : Disk) (path : String) : IO Unit := do
  if let .ok name := d.find path then
    if Disk.isDevice name then return
    let h ← IO.FS.Handle.mk name .write
    let f := d.file name
    if f.region.isOk then writeRegion h f.image else writePages h f 0

/-- Write what an invocation may have changed. A file that is no region is not one that a command
has changed. -/
def saveDisk (i : Invocation) (o : Outcome) : IO Unit := do
  i.logFile.toList.forM (save o.disk)
  if i.command.changesRegion && (o.disk.openRegion i.command.region).isOk then
    save o.disk i.command.region
  if i.command.writesSchedule && o.code = some 0 then
    i.command.schedule?.toList.forM (save o.disk)

/-- Run a command line on the files that it names. -/
partial def runOnFiles (env : Options.Environment) (args : List String) : IO UInt32 := do
  let invocation := (Invocation.read env args).toOption
  let paths := match invocation with
    | some i => i.command.region :: (i.command.schedule?.toList ++ i.logFile.toList)
    | none => []
  let stdout ← IO.getStdout
  let o := Command.run env (← stdout.isTty) args (← loadDisk paths)
  match o.code with
  | some code =>
    invocation.toList.forM (saveDisk · o)
    stdout.putStr o.out
    (← IO.getStderr).putStr o.err
    return UInt32.ofNat code
  | none =>
    IO.sleep 100
    runOnFiles env args

end Program

end Turnstile

def main (args : List String) : IO UInt32 := do
  Turnstile.Program.runOnFiles (← Turnstile.Program.environment) args
