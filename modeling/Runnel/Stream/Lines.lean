import Runnel.Stream.Operator

/-!
# Runnel.Stream.Lines

The lines of the output in a stream, wherever its chunks begin and end. A line loses its newline and
the carriage returns before it; what follows the last newline is handed out as it is.
-/

namespace Runnel

/-- A line that is being gathered. -/
structure LineState where
  /-- What there is of it. -/
  pending : List Char
  /-- The source has ended. -/
  isOver : Bool
  deriving Repr, DecidableEq

namespace LineState

/-- Splits text after each newline, with what precedes it; the characters of the line that is being
gathered come in reverse order. -/
def splitFrom (line : List Char) : List Char → List String × List Char
  | [] => ([], line)
  | c :: rest =>
    if c = '\n' then
      let (lines, last) := splitFrom [] rest
      (String.ofList (line.dropWhile (· == '\r')).reverse :: lines, last)
    else splitFrom (c :: line) rest

/-- What happens to a line. The characters of `pending` are in reverse order. -/
def hear (s : LineState) : Heard Chunk → LineState × List String
  | .item c _ =>
    if c.isStdout then
      let (lines, pending) := splitFrom s.pending c.text.toList
      ({ s with pending }, lines)
    else (s, [])
  | .late => (s, [])
  | .ended =>
    (⟨[], true⟩, if s.pending.isEmpty then [] else [String.ofList s.pending.reverse])

end LineState

/-- Makes lines. -/
@[reducible] def lineOperator : Operator Chunk String where
  State := LineState
  start := ⟨[], false⟩
  wants s := !s.isOver
  deadline _ := none
  hear := LineState.hear

end Runnel
