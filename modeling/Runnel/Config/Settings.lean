import Runnel.Host.Disk
import Runnel.Text.Blank

/-!
# Runnel.Config.Settings

The switches of a shell and their names, and the real shell, to which command lines go that are not
run here.
-/

namespace Runnel

/-- Switches that change how command lines run. -/
structure Settings where
  /-- A failing command ends its sequence. -/
  errexit : Bool
  /-- Each line is printed before it runs. -/
  verbose : Bool
  /-- Each command is printed before it runs. -/
  xtrace : Bool
  /-- A reference to an unset variable is an error. -/
  nounset : Bool
  /-- A pipeline fails when any of its stages does. -/
  pipefail : Bool
  deriving Repr, DecidableEq

namespace Settings

/-- All switches are off. -/
def off : Settings :=
  ⟨false, false, false, false, false⟩

/-- Turns a switch on or off, by its letter or its long name, before which any number of dashes may
stand; `none` if there is no such switch. -/
def set? (s : Settings) (name : String) (value : Bool) : Option Settings :=
  match String.ofList (name.toList.dropWhile (· == '-')) with
  | "e" | "errexit" => some { s with errexit := value }
  | "v" | "verbose" => some { s with verbose := value }
  | "x" | "xtrace" => some { s with xtrace := value }
  | "u" | "nounset" => some { s with nounset := value }
  | "pipefail" | "o pipefail" => some { s with pipefail := value }
  | _ => none

end Settings

/-- A program and the arguments that stand before the text of a command line. -/
structure ShellProgram where
  /-- The program. -/
  path : String
  /-- The arguments. -/
  args : List String
  deriving Repr, DecidableEq

namespace ShellProgram

/-- The program of a path. The command interpreter called `cmd`, in any case, has a flag of its
own. -/
def ofPath (path : String) : ShellProgram :=
  let isInterpreter := match Path.fileStem? path with
    | some stem => Text.eqIgnoringCase stem "cmd"
    | none => false
  ⟨path, [if isInterpreter then "/C" else "-c"]⟩

/-- Where a shell is looked for if none is configured. -/
def usualPaths : List String :=
  ["/bin/sh", "/usr/bin/sh", "/bin/bash"]

/-- The shell that is configured, else the first of the usual ones that is there. -/
def detect (d : Disk) (configured : Option String) : ShellProgram :=
  match configured.filter fun s => Text.trim s != "" with
  | some shell => ofPath (Text.trim shell)
  | none => ofPath ((usualPaths.find? d.pathExists).getD "sh")

end ShellProgram
end Runnel
