import Runnel.Flow.Chunk

/-!
# Runnel.Stream.Operator

Operators on streams. An operator asks its source for one item after the other, perhaps only up to a
moment; what it hears makes it hand out results.

* `Operator`: what it wants, and what it does when it hears something.
* `Operator.run`: all results over a source whose items come at certain moments.
* `Operator.asked`: the state after so many answers of an arbitrary source.
-/

namespace Runnel

/-- What an operator hears from its source. -/
inductive Heard (α : Type) where
  /-- An item, at this moment. -/
  | item (a : α) (now : Nat)
  /-- Nothing came before the deadline. -/
  | late
  /-- There are no more items. -/
  | ended
  deriving Repr, DecidableEq

/-- An operator that makes results out of items. -/
structure Operator (α β : Type) where
  /-- What it remembers. -/
  State : Type
  /-- What it remembers at the start. -/
  start : State
  /-- It asks its source for more. -/
  wants : State → Bool
  /-- It waits no longer than until this moment. -/
  deadline : State → Option Nat
  /-- What it does when it hears something. -/
  hear : State → Heard α → State × List β

/-- An item that comes some time after the one before it was taken. -/
structure Timed (α : Type) where
  /-- This long after. -/
  delay : Nat
  /-- The item. -/
  item : α
  deriving Repr, DecidableEq

namespace Operator

variable {α β : Type} (o : Operator α β)

/-- How often an operator may ask a source that has ended. -/
def endings : Nat := 2

/-- The results after the source has ended; it goes on to say so when asked again. -/
def runEnd : Nat → o.State → List β
  | 0, _ => []
  | n + 1, s =>
    if o.wants s then
      let (s, out) := o.hear s .ended
      out ++ runEnd n s
    else []

/-- Lets time pass until a moment: the deadline may come first. -/
def pass (s : o.State) (moment : Nat) : o.State × List β :=
  match o.deadline s with
  | some d => if d < moment then o.hear s .late else (s, [])
  | none => (s, [])

/-- The results over a source that has these items left and ends so long after the last one. -/
def runFrom (rest : Nat) : Nat → o.State → List (Timed α) → List β
  | now, s, [] =>
    if o.wants s then
      let (s, out) := o.pass s (now + rest)
      out ++ o.runEnd endings s
    else []
  | now, s, t :: ts =>
    if o.wants s then
      let now := now + t.delay
      let (s, late) := o.pass s now
      if o.wants s then
        let (s, out) := o.hear s (.item t.item now)
        late ++ out ++ runFrom rest now s ts
      else late
    else []

/-- All results over a source with these items that ends so long after the last one. -/
def run (items : List (Timed α)) (rest : Nat) : List β :=
  o.runFrom rest 0 o.start items

/-- The state after so many answers of a source that answers without delay. `none` says that there
are no more items. -/
def asked (answers : Nat → Option α) : Nat → o.State × List β
  | 0 => (o.start, [])
  | n + 1 =>
    let (s, out) := asked answers n
    if o.wants s then
      let (s, more) := match answers n with
        | some a => o.hear s (.item a 0)
        | none => o.hear s .ended
      (s, out ++ more)
    else (s, out)

end Operator
end Runnel
