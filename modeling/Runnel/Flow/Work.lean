import Runnel.Child.Descriptor
import Runnel.Flow.Context
import Runnel.Utility.Handler

/-!
# Runnel.Flow.Work

What is left to do of a command line, as a tree of requests. Each request but the last holds what
follows once it is answered. The tree says nothing about when a request is answered: that is up to
whoever runs it, so that several of them can run side by side in any order.

* `Work`: the tree. Requests that take several steps hold how far they are.
* `Work.release`, `Work.complain`: requests that occur together.
-/

namespace Runnel

/-- How a generator ended. -/
inductive GeneratorEnd where
  /-- With a code. -/
  | code (n : Int)
  /-- With an error. -/
  | failed (reason : String)
  /-- By breaking down. -/
  | crashed (message : Option String)
  deriving Repr, DecidableEq

/-- Where a generator stands. -/
structure GeneratorProgress where
  /-- How many steps are complete. -/
  steps : Nat
  /-- The last piece that it sent found no reader. -/
  refused : Bool
  /-- The step that comes next has begun. -/
  started : Bool
  deriving Repr, DecidableEq

/-- A child process that is to be started. -/
structure Launch where
  /-- What messages call it. -/
  name : String
  /-- The file of the program. -/
  path : String
  /-- The arguments. -/
  args : List String
  /-- The working directory. -/
  cwd : String
  /-- The variables. -/
  env : Environment
  /-- Its input. -/
  stdin : Source
  deriving Repr, DecidableEq

/-- One output of a child process, and how far its delivery is. -/
structure Outlet where
  /-- The pipe that the process writes to. -/
  pipe : PipeId
  /-- It is still read. -/
  isOpen : Bool
  /-- What was read and still has to be delivered, with the ticket for it. -/
  held : Option (Option Ticket × Bytes)
  deriving Repr, DecidableEq

/-- How far the supervision of a child process is. -/
structure Attendance where
  /-- The process. -/
  process : ProcessId
  /-- Its output. -/
  stdout : Outlet
  /-- Its messages. -/
  stderr : Outlet
  /-- It was told to end. -/
  terminated : Bool
  deriving Repr, DecidableEq

/-- What is left to do. -/
inductive Work where
  /-- Nothing; these are the exit code and the state at the end. -/
  | done (code : Int) (ctx : Context)
  /-- Everything breaks down. -/
  | crash
  /-- Others may go first while the system works. -/
  | rest (begun : Bool) (next : Work)
  /-- Asks whether a token is set. -/
  | ask (token : TokenId) (next : Bool → Work)
  /-- Writes bytes; the answer says whether somebody reads them. -/
  | write (ticket : Option Ticket) (sink : Sink) (data : Bytes) (next : Bool → Work)
  /-- Reads input to its end or, with a number, up to so many newlines, and lets go of it. -/
  | read (source : Source) (lines : Option Nat) (gathered : Bytes) (next : Bytes → Work)
  /-- Reads a file. -/
  | load (path : String) (next : Except SystemError Bytes → Work)
  /-- Opens a file for writing. -/
  | openFile (path : String) (mode : Disk.OutputMode)
      (next : Except SystemError HandleId → Work)
  /-- Looks up the name of a built-in command. -/
  | lookUp (name : String) (next : Option Handler → Work)
  /-- Calls a command. -/
  | call (c : Call) (i : Invocation) (next : Outcome → Work)
  /-- Pauses until a moment, which is set when the pause begins; the answer says whether the token
  cut it short. -/
  | pause (length : Number.Duration) (until? : Option Nat) (token : TokenId) (next : Bool → Work)
  /-- Runs a generator. -/
  | generate (g : Generator) (i : Invocation) (stdout stderr : Sink) (token : TokenId)
      (progress : GeneratorProgress) (ticket : Option Ticket) (next : GeneratorEnd → Work)
  /-- Somebody else writes to a sink as well. -/
  | retain (sink : Sink) (next : Work)
  /-- Nothing more is written to a sink. -/
  | release (sink : Sink) (next : Work)
  /-- Nothing more is read from a source. -/
  | abandon (source : Source) (next : Work)
  /-- Makes a channel with one writer. -/
  | connect (next : ChannelId → Work)
  /-- Does several things side by side. -/
  | together (branches : List Work) (next : List Int → Work)
  /-- Looks for the program of a name. -/
  | seek (searchPath : Option String) (cwd name : String) (next : Option String → Work)
  /-- Starts a child process. -/
  | launch (l : Launch) (group : GroupId) (next : Except SystemError Attendance → Work)
  /-- Delivers what a child process writes until it has ended; the answer is its exit code. -/
  | attend (stdout stderr : Sink) (group : GroupId) (token : TokenId) (a : Attendance)
      (next : Int → Work)

namespace Work

/-- Nothing more is read from or written to any of the streams. -/
def releaseAll (io : Streams) (next : Work) : Work :=
  .abandon io.stdin (.release io.stdout (.release io.stderr next))

/-- Writes text, whether somebody reads it or not. -/
def say (sink : Sink) (text : String) (next : Work) : Work :=
  .write none sink (Text.encode text) fun _ => next

end Work
end Runnel
