import Runnel.Flow.Context

/-!
# Runnel.Child.Descriptor

What the descriptors of child processes stand for.

* `Pipe`: bytes on their way from those who write to those who read.
* `Opened`: what a descriptor stands for.
-/

namespace Runnel

/-- The number of a child process. -/
abbrev ProcessId : Type := Nat

/-- The number of a pipe. -/
abbrev PipeId : Type := Nat

/-- Bytes on their way. Who holds which end is known from the descriptors of the processes; only
that somebody else reads along is noted here. -/
structure Pipe where
  /-- The bytes that nobody has read. -/
  bytes : Bytes
  /-- Somebody other than a child process reads. -/
  watched : Bool
  deriving Repr, DecidableEq

namespace Pipe

/-- How many bytes a pipe holds at most. -/
def capacity : Nat := 65536

/-- No more bytes than these are written in one piece. -/
def pieceLimit : Nat := 4096

/-- How many bytes there is room for. -/
def room (p : Pipe) : Nat :=
  capacity - p.bytes.length

/-- How many of so many bytes can be written now. Short texts are not torn apart. -/
def acceptable (p : Pipe) (length : Nat) : Nat :=
  if length ≤ p.room then length
  else if length ≤ pieceLimit then 0
  else p.room

end Pipe

/-- What a descriptor stands for. -/
inductive Opened where
  /-- Nothing comes out of it, and all that is written is lost. -/
  | null
  /-- The end of a pipe from which bytes are read. -/
  | reader (pipe : PipeId)
  /-- The end of a pipe into which bytes are written. -/
  | writer (pipe : PipeId)
  /-- An open file. -/
  | file (handle : HandleId)
  deriving Repr, DecidableEq

/-- Descriptors by number. -/
abbrev Descriptors : Type := List (Nat × Opened)

namespace Descriptors

/-- What a descriptor stands for. -/
def get? (ds : Descriptors) (n : Nat) : Option Opened :=
  ds.lookup n

/-- Lets a descriptor stand for something else, or for nothing. -/
def put (ds : Descriptors) (n : Nat) (opened : Option Opened) : Descriptors :=
  let others := ds.filter fun d => d.1 != n
  match opened with
  | some o => (n, o) :: others
  | none => others

/-- Some descriptor stands for this. -/
def holds (ds : Descriptors) (o : Opened) : Bool :=
  ds.any fun d => d.2 == o

end Descriptors
end Runnel
