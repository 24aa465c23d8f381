import Runnel.Stream.Operator

/-!
# Runnel.Stream.Window

Overlapping windows of the last chunks. A stream that is shorter than one window has a single window
with all of its chunks.

* `WindowState.hear`: what becomes of the window.
* `slidingWindows`: the operator that hands them out.
* `windowed`: all windows of a source, if there is room for one.
-/

namespace Runnel

/-- The window that slides over the chunks. -/
structure WindowState where
  /-- The last chunks. -/
  window : List Chunk
  /-- A window has been handed out. -/
  emitted : Bool
  /-- Nothing more will be handed out. -/
  isOver : Bool
  deriving Repr, DecidableEq

namespace WindowState

/-- An empty window. -/
def empty : WindowState := ⟨[], false, false⟩

/-- The last `n` chunks of a window with one chunk more. -/
def slide (n : Nat) (window : List Chunk) (c : Chunk) : List Chunk :=
  let longer := window ++ [c]
  if n < longer.length then longer.drop 1 else longer

/-- What happens to a window. -/
def hear (n : Nat) (s : WindowState) : Heard Chunk → WindowState × List (List Chunk)
  | .item c _ =>
    let window := slide n s.window c
    if window.length = n then ({ s with window, emitted := true }, [window])
    else ({ s with window }, [])
  | .late => (s, [])
  | .ended =>
    if !s.emitted && !s.window.isEmpty then
      ({ s with window := [], emitted := true }, [s.window])
    else ({ s with isOver := true }, [])

end WindowState

/-- Makes windows of `n` chunks; zero counts as one. -/
@[reducible] def slidingWindows (n : Nat) : Operator Chunk (List Chunk) where
  State := WindowState
  start := .empty
  wants s := !s.isOver
  deadline _ := none
  hear := WindowState.hear (max n 1)

/-- All windows of a source with these items that ends so long after the last one. It begins by asking
for room for a window. -/
def windowed (n : Nat) (items : List (Timed Chunk)) (rest : Nat) :
    Except String (List (List Chunk)) := do
  Chunk.reserve (max n 1)
  return (slidingWindows n).run items rest

end Runnel
