import Runnel.Stream.Operator

/-!
# Runnel.Stream.Stage

Stages that change chunks or leave some out, and folds over all of them. The functions of a stage
may remember how often they were called; calls are counted from one.
-/

namespace Runnel

/-- A stage between a source and its reader. -/
inductive Stage where
  /-- Changes the text of each chunk. -/
  | map (f : Nat → String → String)
  /-- Leaves out the chunks whose text fails the test. -/
  | filter (keeps : Nat → String → Bool)

namespace Stage

/-- Changes the text of each chunk from this call on. -/
def mapFrom (f : Nat → String → String) : Nat → List (Timed Chunk) → List (Timed Chunk)
  | _, [] => []
  | call, t :: ts =>
    ⟨t.delay, { t.item with data := Text.encode (f call t.item.text) }⟩ :: mapFrom f (call + 1) ts

/-- Leaves chunks out from this call on. The delay of a chunk that is left out goes to what follows;
the last number is the delay of the end. -/
def filterFrom (keeps : Nat → String → Bool) :
    Nat → Nat → List (Timed Chunk) → List (Timed Chunk) × Nat
  | _, owed, [] => ([], owed)
  | call, owed, t :: ts =>
    if keeps call t.item.text then
      let (kept, rest) := filterFrom keeps (call + 1) 0 ts
      (⟨owed + t.delay, t.item⟩ :: kept, rest)
    else filterFrom keeps (call + 1) (owed + t.delay) ts

/-- The chunks behind a stage, and the delay of the end. -/
def apply (stage : Stage) (chunks : List (Timed Chunk)) (rest : Nat) : List (Timed Chunk) × Nat :=
  match stage with
  | .map f => (mapFrom f 1 chunks, rest)
  | .filter keeps =>
    let (kept, owed) := filterFrom keeps 1 0 chunks
    (kept, owed + rest)

/-- The chunks behind several stages. -/
def applyAll (stages : List Stage) (chunks : List (Timed Chunk)) : List (Timed Chunk) × Nat :=
  stages.foldl (fun (chunks, rest) stage => stage.apply chunks rest) (chunks, 0)

end Stage

namespace Chunk

/-- Folds the texts of all chunks into one value. -/
def reduceText {α : Type} (f : α → String → α) (seed : α) (chunks : List Chunk) : α :=
  chunks.foldl (fun acc c => f acc c.text) seed

/-- The texts of all chunks of output, one after the other. -/
def collectText (chunks : List Chunk) : String :=
  String.join ((chunks.filter isStdout).map text)

end Chunk
end Runnel
