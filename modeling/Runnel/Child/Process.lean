import Runnel.Flow.Chunk
import Runnel.Host.Disk
import Runnel.Script.Interpreter

/-!
# Runnel.Child.Process

Child processes: their descriptors, their program, and how they end.

* `Tool`: a program other than a shell.
* `Process`: a child process, which stays known after its end.
* `Feed`: somebody other than a child process who writes to one.
-/

namespace Runnel

/-- How a process has ended. -/
inductive Ending where
  /-- With a code. -/
  | code (n : Int)
  /-- By a signal. -/
  | signal (n : Nat)
  deriving Repr, DecidableEq

/-- The exit code that stands for an ending. -/
def Ending.exitCode : Ending → Int
  | .code n => n
  | .signal n => 128 + n

/-- What a program does in the end: it writes and ends with a code. -/
structure Report where
  /-- What it writes to which descriptors. -/
  pieces : List (Nat × Bytes)
  /-- Its exit code. -/
  code : Int
  deriving Repr, DecidableEq

/-- What a tool reads one after the other. -/
inductive Input where
  /-- Its own input. -/
  | own
  /-- Bytes. -/
  | bytes (data : Bytes)
  /-- Nothing; this is said instead. -/
  | missing (message : String)
  deriving Repr, DecidableEq

/-- A program other than a shell. -/
inductive Tool where
  /-- It writes and ends. -/
  | report (r : Report)
  /-- It sleeps until a moment. -/
  | idle (moment : Nat)
  /-- It writes the same again and again. -/
  | again (data held : Bytes)
  /-- It changes its inputs piece by piece; the last piece still has to be written. -/
  | convert (change : Bytes → Bytes) (inputs : List Input) (held : List (Nat × Bytes)) (code : Int)
  /-- It reads its input, or so many lines of it, and reports. -/
  | gather (lines : Option Nat) (gathered : Bytes) (report : Bytes → Disk → Report × Disk)
  /-- It becomes another program. -/
  | become (name : String) (args : List String) (env : Environment)

/-- What a process runs. -/
inductive Program where
  /-- A shell. -/
  | shell (i : Script.Interpreter)
  /-- A tool. -/
  | tool (t : Tool)
  /-- Nothing any more. -/
  | ended (how : Ending)

/-- A child process. -/
structure Process where
  /-- The working directory. -/
  cwd : String
  /-- The descriptors. -/
  descriptors : Descriptors
  /-- The signals that it takes no notice of. -/
  ignored : List Nat
  /-- What it runs. -/
  program : Program

namespace Process

/-- How the process has ended, if it has. -/
def ending? (p : Process) : Option Ending :=
  match p.program with
  | .ended how => some how
  | _ => none

/-- The process has not ended. -/
def isAlive (p : Process) : Bool :=
  p.ending?.isNone

/-- What a shell has put aside. -/
def savedHolds (o : Opened) : Script.Frame → Bool
  | .restore saved => saved.any fun s => s.2 == some o
  | _ => false

/-- Some descriptor of the process stands for this. -/
def holds (p : Process) (o : Opened) : Bool :=
  p.descriptors.holds o ||
    match p.program with
    | .shell i =>
      i.frames.any (savedHolds o) ||
        match i.control with
        | .collect _ pipe _ _ _ => o == .reader pipe
        | _ => false
    | _ => false

/-- The process has ended like this. -/
def finish (p : Process) (how : Ending) : Process :=
  { p with descriptors := [], program := .ended how }

end Process

/-- Somebody who writes to a child process. -/
structure Feed where
  /-- The pipe. -/
  pipe : PipeId
  /-- What is to be written. -/
  source : Source
  /-- What was taken out of the source. -/
  held : Bytes
  /-- All has been written, or nobody reads it. -/
  ended : Bool
  deriving Repr, DecidableEq

end Runnel
