import Runnel.Console.Run
import Runnel.Host.Listing
import Runnel.Host.Program

/-!
# Runnel.Main

The program on a real host. It works on a copy of the working directory; what it has changed there
is stored at the end, and while it watches files it looks at them again and again.
-/

namespace Runnel.Host

/-- The variables that the program and its commands look at. -/
def variableNames : List String :=
  ["CMDFLOW_ENV", "HOME", "IFS", "LANG", "LC_ALL", "OLDPWD", "PATH", "PWD", "SHELL", "TERM",
    "TMPDIR", "USER"]

/-- The variables of the host. -/
def environment : IO Environment :=
  variableNames.filterMapM fun name => do
    return (← IO.getEnv name).map (name, ·)

/-- The bits of a file with these bytes: a script can be run. -/
def modeOf (bytes : Bytes) : Nat :=
  if bytes.take 2 == [35, 33] then Installed.programMode else Disk.fileMode

/-- Copies an entry of a directory with all that is below it. -/
partial def copyEntry (d : Disk) (e : IO.FS.DirEntry) : IO Disk := do
  let path := e.path.toString
  match (← e.path.symlinkMetadata).type with
  | .dir => (← e.path.readDir).foldlM copyEntry (d.makeDirectories path).2
  | .file =>
    let bytes := (← IO.FS.readBinFile e.path).toList
    return ((d.writeFile path bytes).2.setMode path (modeOf bytes)).2
  | _ => return d

/-- Copies the working directory. -/
def copyDirectory : IO Disk := do
  let dir ← IO.currentDir
  (← dir.readDir).foldlM copyEntry (Installed.disk.makeDirectories dir.toString).2

/-- Stores what has changed in a directory. -/
def storeChanges (dir : String) (old new : Disk) : IO Unit := do
  for entry in new.listing dir do
    let path := dir ++ "/" ++ entry.path
    match entry.kind with
    | .directory => IO.FS.createDirAll path
    | .file bytes =>
      if (old.readFile path).toOption != some bytes then IO.FS.writeBinFile path bytes.toByteArray
    | .link _ => pure ()
  for entry in (old.listing dir).reverse do
    let path := dir ++ "/" ++ entry.path
    unless new.pathExists path do
      match entry.kind with
      | .directory => IO.FS.removeDir path
      | _ => IO.FS.removeFile path

/-- Shows what has been written beyond so many bytes of both outputs. -/
def showFrom (stdoutDone stderrDone : Nat) (stdout stderr : Bytes) : IO Unit := do
  (← IO.getStderr).write (stderr.drop stderrDone).toByteArray
  (← IO.getStdout).write (stdout.drop stdoutDone).toByteArray
  (← IO.getStdout).flush

/-- Goes on for ever: looks at the files, lets time pass, and shows what is new. -/
partial def follow (w : Console.Watch) (stdoutDone stderrDone : Nat) : IO Unit := do
  let shown := w.system.terminal.reverse
  let stdout := Chunk.gather .stdout shown
  let stderr := Chunk.gather .stderr shown
  showFrom stdoutDone stderrDone stdout stderr
  IO.sleep (UInt32.ofNat w.interval)
  let disk ← copyDirectory
  follow ((w.change fun _ => (.ok (), disk)).1.advance w.interval) stdout.length stderr.length

/-- Reads the input to its end. -/
partial def readInput (input : IO.FS.Stream) (pieces : List Bytes) : IO Bytes := do
  let piece ← input.read 65536
  if piece.isEmpty then return pieces.reverse.flatten
  readInput input (piece.toList :: pieces)

/-- The program reads its input. -/
def readsInput (args : List String) : Bool :=
  Console.readArguments args matches .ok .lines

end Runnel.Host

/-- Calls the program. -/
def main (args : List String) : IO UInt32 := do
  let disk ← Runnel.Host.copyDirectory
  let dir := (← IO.currentDir).toString
  let input ← IO.getStdin
  let stdin ← if Runnel.Host.readsInput args then Runnel.Host.readInput input [] else pure []
  match Runnel.Console.call ⟨disk, ← Runnel.Host.environment, dir⟩ args stdin with
  | .watching w =>
    Runnel.Host.follow w 0 0
    return 0
  | .ended e =>
    Runnel.Host.showFrom 0 0 e.stdout e.stderr
    Runnel.Host.storeChanges dir disk e.disk
    return UInt32.ofNat e.code
