import Runnel.Flow.Chunk
import Runnel.Text.Ascii
import Runnel.Text.Blank

/-!
# Runnel.Runner.Result

How a run ends: the result of a command, or the error of a request that could not be met.
-/

namespace Runnel

/-- What a command leaves behind. -/
structure RunResult where
  /-- The exit code. -/
  code : Int
  /-- All captured output. -/
  stdout : Bytes
  /-- All captured messages. -/
  stderr : Bytes
  deriving Repr, DecidableEq

namespace RunResult

/-- A result without output. -/
def ofCode (code : Int) : RunResult :=
  ⟨code, [], []⟩

/-- The result of a command that wrote these chunks. -/
def ofChunks (code : Int) (chunks : List Chunk) : RunResult :=
  ⟨code, Chunk.gather .stdout chunks, Chunk.gather .stderr chunks⟩

/-- The command succeeded. -/
def success (r : RunResult) : Bool :=
  r.code == 0

end RunResult

/-- Why a request could not be met. -/
inductive RunError where
  /-- The command failed, and failures count as errors. -/
  | commandFailed (result : RunResult)
  /-- The streams of a command failed. -/
  | stream (reason : String)
  /-- The command has been started already. -/
  | alreadyStarted
  /-- A command cannot read its own output. -/
  | selfPipe
  /-- Waiting here would keep the command itself from running. -/
  | blocking
  /-- Something else went wrong. -/
  | broken (reason : String)
  deriving Repr, DecidableEq

namespace RunError

/-- What is said of an error. -/
def message : RunError → String
  | commandFailed r =>
    "command failed with exit code " ++ Text.signedDigits r.code ++ ": " ++
      Text.trimEnd (Text.decodeLossy r.stderr)
  | stream reason => "io error: " ++ reason
  | alreadyStarted => "runner already started"
  | selfPipe => "cannot pipe a command into itself"
  | blocking => "cannot block on a runner from inside a current-thread runtime"
  | broken reason => "internal error: " ++ reason

/-- The name of the kind of an error. -/
def kind : RunError → String
  | commandFailed _ => "CommandFailed"
  | stream _ => "Io"
  | alreadyStarted => "AlreadyStarted"
  | selfPipe => "SelfPipe"
  | blocking => "BlockingInAsync"
  | broken _ => "Internal"

/-- The exit code of a command that failed. -/
def code? : RunError → Option Int
  | commandFailed r => some r.code
  | _ => none

end RunError
end Runnel
