import Runnel.Stream.Operator

/-!
# Runnel.Stream.Batch

Chunks in batches of a size. With a timeout a batch is handed out at the latest so long after its
first chunk.

* `BatchState.hear`: what becomes of a batch that is being filled.
* `batches`: the operator that fills one batch after the other.
* `batched`: all batches of a source whose chunks come at certain moments, if there is room for them.
-/

namespace Runnel

/-- A batch that has been handed out. -/
structure Batch where
  /-- Its chunks. -/
  data : List Chunk
  /-- How many there are. -/
  size : Nat
  deriving Repr, DecidableEq

namespace Batch

/-- A batch of these chunks. -/
def ofData (data : List Chunk) : Batch :=
  ⟨data, data.length⟩

/-- The texts of its chunks, one after the other. -/
def text (b : Batch) : String :=
  String.join (b.data.map Chunk.text)

end Batch

/-- A batch that is being filled. -/
structure BatchState where
  /-- Its chunks. -/
  data : List Chunk
  /-- When it is handed out at the latest. -/
  deadline : Option Nat
  /-- The source has ended. -/
  isOver : Bool
  deriving Repr, DecidableEq

namespace BatchState

/-- An empty batch. -/
def empty : BatchState := ⟨[], none, false⟩

/-- Hands out what there is. -/
def flush (s : BatchState) : List (List Chunk) :=
  if s.data.isEmpty then [] else [s.data]

/-- What happens to a batch. -/
def hear (size : Nat) (timeout : Option Nat) (s : BatchState) :
    Heard Chunk → BatchState × List (List Chunk)
  | .item c now =>
    let deadline := if s.data.isEmpty then timeout.map (now + ·) else s.deadline
    let data := s.data ++ [c]
    if size ≤ data.length then (empty, [data]) else ({ s with data, deadline }, [])
  | .late => (empty, s.flush)
  | .ended => ({ empty with isOver := true }, s.flush)

end BatchState

/-- Makes batches of a size; size zero counts as one. -/
@[reducible] def batches (size : Nat) (timeout : Option Nat) : Operator Chunk (List Chunk) where
  State := BatchState
  start := .empty
  wants s := !s.isOver
  deadline := BatchState.deadline
  hear := BatchState.hear (max size 1) timeout

/-- All batches of a source with these items that ends so long after the last one. Before the first
chunk it asks for room for a whole batch. -/
def batched (size : Nat) (timeout : Option Nat) (items : List (Timed Chunk)) (rest : Nat) :
    Except String (List Batch) := do
  Chunk.reserve (max size 1)
  return ((batches size timeout).run items rest).map Batch.ofData

end Runnel
