import Runnel.Config.Document
import Runnel.Host.Disk
import Runnel.Number.Duration

/-!
# Runnel.Utility.Handler

What stands behind the name of a built-in command.

* `Invocation`: all that a command gets to see.
* `Call`: a command that reads its input, works, and hands back all of its output at once.
* `Generator`: a command that sends its output piece by piece and may go on for ever.
* `Handler`: one of both.
-/

namespace Runnel

/-- All that a command gets to see. -/
structure Invocation where
  /-- The name under which it was called. -/
  name : String
  /-- The arguments after the name. -/
  args : List String
  /-- The text of its input. -/
  stdin : String
  /-- The working directory. -/
  cwd : String
  /-- The variables. -/
  env : Environment
  /-- The exit code of the command before it. -/
  status : Int
  deriving Repr, DecidableEq

/-- A path of an invocation, as an absolute one. -/
def Invocation.resolve (i : Invocation) (path : String) : String :=
  Path.join i.cwd path

/-- What a command hands back. -/
structure Output where
  /-- Its output. -/
  stdout : Bytes
  /-- Its messages. -/
  stderr : Bytes
  /-- Its exit code. -/
  code : Int
  /-- The working directory from now on, if it changes. -/
  chdir : Option String
  deriving Repr, DecidableEq

namespace Output

/-- Nothing but an exit code. -/
def ofCode (code : Int) : Output :=
  ⟨[], [], code, none⟩

/-- Output of a command that succeeds. -/
def ofBytes (stdout : Bytes) : Output :=
  ⟨stdout, [], 0, none⟩

/-- Text of a command that succeeds. -/
def ofText (stdout : String) : Output :=
  ofBytes (Text.encode stdout)

/-- A message of a command that fails with this code. -/
def ofMessage (stderr : String) (code : Int) : Output :=
  ⟨[], Text.encode stderr, code, none⟩

end Output

/-- How a call ends. -/
inductive Outcome where
  /-- With output. -/
  | done (output : Output)
  /-- With an error; the text holds its causes as well. -/
  | failed (reason : String)
  /-- By breaking down, perhaps with a message. -/
  | crashed (message : Option String)
  /-- After a pause; the codes are those of a pause that is over and of one that is cut short. -/
  | pause (length : Number.Duration) (complete cutShort : Int)
  deriving Repr, DecidableEq

/-- How much of its input a command reads. -/
inductive Demand where
  /-- All of it. -/
  | everything
  /-- No more than is needed for this many lines. -/
  | lines (n : Nat)
  /-- The question breaks the command down. -/
  | crash
  deriving Repr, DecidableEq

/-- A command that hands back all of its output at once. -/
structure Call where
  /-- How much of its input it reads, given its arguments. -/
  demand : List String → Demand
  /-- What it does. -/
  run : Invocation → Disk → Outcome × Disk

/-- What a generator does next. -/
inductive GeneratorStep where
  /-- It sends output. -/
  | send (data : Bytes)
  /-- It sends a message. -/
  | sendError (data : Bytes)
  /-- It lets others go first. -/
  | pause
  /-- It waits until it is cancelled. -/
  | awaitCancel
  /-- It ends with a code. -/
  | finish (code : Int)
  /-- It ends with an error. -/
  | fail (reason : String)
  /-- It breaks down, perhaps with a message. -/
  | crash (message : Option String)
  deriving Repr, DecidableEq

/-- A command that sends its output piece by piece: what it does after so many steps, and whether
the last piece that it sent found no reader. -/
structure Generator where
  /-- The next step. -/
  next : Invocation → Nat → Bool → GeneratorStep

/-- What stands behind the name of a built-in command. -/
inductive Handler where
  /-- A call. -/
  | call (c : Call)
  /-- A generator. -/
  | generator (g : Generator)

namespace Handler

/-- The handler is a generator. -/
def isGenerator : Handler → Bool
  | .call _ => false
  | .generator _ => true

/-- A description for people. -/
def describe : Handler → String
  | .call _ => "Handler::Call"
  | .generator _ => "Handler::Generate"

/-- A call that leaves the disk alone and reads all of its input. -/
def pure (run : Invocation → Outcome) : Handler :=
  .call ⟨fun _ => .everything, fun i d => (run i, d)⟩

/-- A call that looks at the disk and leaves it alone. -/
def reading (run : Invocation → Disk → Outcome) : Handler :=
  .call ⟨fun _ => .everything, fun i d => (run i d, d)⟩

/-- A call that may change the disk. -/
def changing (run : Invocation → Disk → Outcome × Disk) : Handler :=
  .call ⟨fun _ => .everything, run⟩

end Handler
end Runnel
