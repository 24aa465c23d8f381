import Runnel.Config.Load
import Runnel.Console.Arguments
import Runnel.Runner.Schedule
import Runnel.Utility.Standard

/-!
# Runnel.Console.Session

What the program works on: the system, and its own messages among those of the commands that it
runs.
-/

namespace Runnel.Console

/-- Where the program is called. -/
structure Place where
  /-- The files. -/
  disk : Disk
  /-- The variables. -/
  env : Environment
  /-- The working directory. -/
  cwd : String

/-- How the program has ended. -/
structure Ending where
  /-- The exit code. -/
  code : Nat
  /-- The output. -/
  stdout : Bytes
  /-- The messages. -/
  stderr : Bytes
  /-- The files. -/
  disk : Disk

/-- The text of an error with its causes. There is a number before each of several. -/
def errorText (summary : String) (causes : List String) : String :=
  let listed := match causes with
    | [] => ""
    | [one] => "\n\nCaused by:\n    " ++ one
    | more =>
      let lines := (List.range more.length).zip more |>.map fun (n, cause) =>
        "\n    " ++ Text.digits n ++ ": " ++ cause
      "\n\nCaused by:" ++ String.join lines
  "Error: " ++ summary ++ listed ++ "\n"

/-- The exit code that is shown to others. -/
def shownCode (code : Int) : Nat :=
  (code % 256).toNat

/-- A system for the configuration of the working directory. -/
def open? (p : Place) : Except ConfigError System :=
  (Config.load p.disk p.env p.cwd).map fun config =>
    let machine := Machine.ofDisk p.disk (Registry.empty.registerAll 0 standardHandlers)
    .ofShell machine (.ofConfig p.disk p.env p.cwd config)

/-- A message of the program. -/
def say (s : System) (message : String) : System :=
  { s with terminal := ⟨.stderr, Text.encode message⟩ :: s.terminal }

/-- The message about an exit code that is no success. -/
def codeNotice (code : Int) : String :=
  "[exit " ++ Text.signedDigits code ++ "]\n"

/-- The options of all commands: they show what they write, and read nothing. -/
def options (capture : Bool) : RunOptions :=
  { RunOptions.standard with reject := false, capture, stdin := .ignore }

/-- The program has ended. -/
def finish (s : System) (code : Nat) : Ending :=
  let shown := s.terminal.reverse
  ⟨code, Chunk.gather .stdout shown, Chunk.gather .stderr shown, s.machine.disk⟩

/-- The program has ended before it could do anything. -/
def refuse (disk : Disk) (code : Nat) (message : String) : Ending :=
  ⟨code, [], Text.encode message, disk⟩

end Runnel.Console
