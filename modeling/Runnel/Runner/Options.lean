import Runnel.Flow.Context
import Runnel.Text.Escaped

/-!
# Runnel.Runner.Options

How a command is to be run.
-/

namespace Runnel

/-- Where the input of a command comes from. -/
inductive InputOption where
  /-- From the input of this process. -/
  | inherit
  /-- From nowhere. -/
  | ignore
  /-- From bytes. -/
  | bytes (data : Bytes)
  /-- From text. -/
  | text (text : String)
  /-- From a reader, which hands out these bytes. -/
  | stream (data : Bytes)
  /-- From somebody who writes while the command runs. -/
  | pipe
  deriving Repr, DecidableEq

/-- A description for people. -/
def InputOption.describe : InputOption → String
  | inherit => "Inherit"
  | ignore => "Ignore"
  | bytes data => "Bytes(" ++ Text.digits data.length ++ " bytes)"
  | text t => "Text(" ++ Text.escaped t ++ ")"
  | stream _ => "Stream"
  | pipe => "Pipe"

/-- How a command is to be run. -/
structure RunOptions where
  /-- Output also goes to the output of this process. -/
  display : Bool
  /-- Output is kept for the result and for readers that come late. -/
  capture : Bool
  /-- Where input comes from. -/
  stdin : InputOption
  /-- The working directory, if not the one of the shell. -/
  cwd : Option String
  /-- Variables beyond those of the shell. -/
  env : Environment
  /-- Setting this token ends the command. -/
  signal : Option TokenId
  /-- A failure is an error. -/
  reject : Bool
  /-- Operators mean something here, and not only to the real shell. -/
  operators : Bool
  deriving Repr, DecidableEq

namespace RunOptions

/-- Everything is on. -/
def standard : RunOptions :=
  ⟨true, true, .inherit, none, [], none, true, true⟩

/-- For those who look at results themselves. -/
def quiet : RunOptions :=
  { standard with display := false, reject := false }

end RunOptions
end Runnel
