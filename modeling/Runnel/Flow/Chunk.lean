import Runnel.Text.Utf8

/-!
# Runnel.Flow.Chunk

Pieces of output, in the order in which they were produced.
-/

namespace Runnel

/-- Which of its two outputs a command used. -/
inductive ChunkKind where
  /-- The output proper. -/
  | stdout
  /-- Messages. -/
  | stderr
  deriving Repr, DecidableEq

/-- The name of an output. -/
def ChunkKind.name : ChunkKind → String
  | .stdout => "stdout"
  | .stderr => "stderr"

/-- A piece of output. -/
structure Chunk where
  /-- Which output it belongs to. -/
  kind : ChunkKind
  /-- What was written. -/
  data : Bytes
  deriving Repr, DecidableEq

namespace Chunk

/-- The text of a piece. -/
def text (c : Chunk) : String :=
  Text.decodeLossy c.data

/-- The piece belongs to the output proper. -/
def isStdout (c : Chunk) : Bool :=
  c.kind == .stdout

/-- For so many chunks there can be room in one piece: a chunk takes 40 bytes, and a piece has at most
`2 ^ 63 - 1`. -/
def mostRoom : Nat :=
  0x7fffffffffffffff / 40

/-- Asks for room for some chunks in one piece. -/
def reserve (n : Nat) : Except String Unit :=
  if n ≤ mostRoom then .ok () else .error "capacity overflow"

/-- All bytes of one output. -/
def gather (kind : ChunkKind) (chunks : List Chunk) : Bytes :=
  (chunks.filter fun c => c.kind == kind).flatMap Chunk.data

end Chunk
end Runnel
