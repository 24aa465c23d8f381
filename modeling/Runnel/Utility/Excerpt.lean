import Runnel.Text.Lines
import Runnel.Utility.Flags
import Runnel.Utility.Handler

/-!
# Runnel.Utility.Excerpt

The commands that show the first and the last lines of a file or of their input. The first of them
needs no more of its input than the lines that it shows.
-/

namespace Runnel.Excerpt

/-- How many lines are shown unless told otherwise. -/
def defaultLines : Nat := 10

/-- The operands name the input. -/
def readsInput (operands : List String) : Bool :=
  operands == [] || operands == ["-"]

/-- The text that the operands name. -/
def source (i : Invocation) (d : Disk) (operands : List String) : Except String String :=
  if readsInput operands then .ok i.stdin
  else
    match operands with
    | [file] =>
      match d.readFile (i.resolve file) with
      | .ok bytes => .ok (Text.decodeLossy bytes)
      | .error e => .error ("cannot open '" ++ file ++ "' for reading: " ++ e.message)
    | _ => .error "only one file is supported"

/-- A command that shows an excerpt. -/
def run (excerpt : String → Nat → String) (i : Invocation) (d : Disk) : Outcome :=
  match lineCount defaultLines i.args with
  | .error e => .failed e.message
  | .ok (n, operands) =>
    match source i d operands with
    | .error reason => .failed reason
    | .ok text => .done (.ofText (excerpt text n))

/-- How much of its input the command for the first lines reads. -/
def headDemand (args : List String) : Demand :=
  match lineCount defaultLines args with
  | .error _ => .everything
  | .ok (n, operands) => if readsInput operands then .lines n else .everything

/-- The command for the first lines. -/
def headHandler : Handler :=
  .call ⟨headDemand, fun i d => (run Text.head i d, d)⟩

/-- The command for the last lines. -/
def tailHandler : Handler :=
  .reading (run Text.tail)

end Runnel.Excerpt
