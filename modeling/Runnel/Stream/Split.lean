import Runnel.Flow.Chunk

/-!
# Runnel.Stream.Split

A router that sends each chunk to one of two halves. It begins when one of them is first asked for a
chunk, it learns that a half is gone when it sends something there, and it stops once it knows that
both are gone.

* `Router.step`: the router takes a chunk.
* `Router.read`, `Router.drop`: what the readers of the halves do.
* `Split`: the halves and the router, which waits to be started; `Split.poll`, `Split.turn` and
  `Split.drop` are all that can happen to it.
* `splitChunks`: both halves of a finite stream.
-/

namespace Runnel

/-- One of the two halves. -/
inductive Side where
  /-- The chunks for which the test holds. -/
  | matched
  /-- The other chunks. -/
  | unmatched
  deriving Repr, DecidableEq

/-- A half. -/
structure Half where
  /-- What its reader has not taken yet. -/
  queue : List Chunk
  /-- Its reader is still there. -/
  held : Bool
  /-- The router sends to it. -/
  routed : Bool
  deriving Repr, DecidableEq

/-- A router with its halves. -/
structure Router where
  /-- The chunks for which the test holds. -/
  matched : Half
  /-- The other chunks. -/
  unmatched : Half
  /-- How often the test was made. -/
  calls : Nat
  /-- The source has ended. -/
  ended : Bool
  deriving Repr, DecidableEq

namespace Half

/-- The router sends a chunk, if it does not know better. -/
def send (h : Half) (c : Chunk) : Half :=
  if h.routed then
    if h.held then { h with queue := h.queue ++ [c] } else { h with routed := false }
  else h

/-- The reader leaves. -/
def drop (h : Half) : Half :=
  { h with held := false, queue := [] }

end Half

namespace Router

/-- Nothing has been routed yet. -/
def start : Router :=
  ⟨⟨[], true, true⟩, ⟨[], true, true⟩, 0, false⟩

/-- The half of a side. -/
def half (r : Router) : Side → Half
  | .matched => r.matched
  | .unmatched => r.unmatched

/-- Changes the half of a side. -/
def update (r : Router) (side : Side) (change : Half → Half) : Router :=
  match side with
  | .matched => { r with matched := change r.matched }
  | .unmatched => { r with unmatched := change r.unmatched }

/-- The router takes another chunk. -/
def wants (r : Router) : Bool :=
  !r.ended && (r.matched.routed || r.unmatched.routed)

/-- Where the test sends a chunk. Its calls are counted from one. -/
def side (test : Nat → Chunk → Bool) (call : Nat) (c : Chunk) : Side :=
  if test call c then .matched else .unmatched

/-- The router hears from its source; `none` says that there are no more chunks. -/
def step (test : Nat → Chunk → Bool) (r : Router) : Option Chunk → Router
  | none => { r with ended := true }
  | some c =>
    if r.wants then
      { r with calls := r.calls + 1 }.update (side test (r.calls + 1) c) fun h => h.send c
    else r

/-- A reader takes the oldest chunk of its half. -/
def read (r : Router) (s : Side) : Option Chunk × Router :=
  match (r.half s).queue with
  | [] => (none, r)
  | c :: queue => (some c, r.update s fun h => { h with queue })

/-- A reader leaves. -/
def drop (r : Router) (s : Side) : Router :=
  r.update s Half.drop

end Router

/-- What a reader hears that asks its half for a chunk. -/
inductive Polled where
  /-- The oldest chunk. -/
  | item (c : Chunk)
  /-- There is none yet. -/
  | pending
  /-- There will be no more. -/
  | ended
  deriving Repr, DecidableEq

/-- Both halves of a source with their router. -/
structure Split where
  /-- The router with its halves. -/
  router : Router
  /-- The router has begun. -/
  started : Bool
  deriving Repr, DecidableEq

namespace Split

/-- Nobody has asked for a chunk yet. -/
def start : Split :=
  ⟨.start, false⟩

/-- The source has not been let go. A router that has not begun is held by the halves. -/
def holdsSource (s : Split) : Bool :=
  if s.started then s.router.wants else s.router.matched.held || s.router.unmatched.held

/-- A reader asks its half for a chunk. Whoever comes first starts the router. -/
def poll (s : Split) (side : Side) : Polled × Split :=
  match s.router.read side with
  | (some c, router) => (.item c, ⟨router, true⟩)
  | (none, router) => (if router.wants then .pending else .ended, ⟨router, true⟩)

/-- The router hears the next answer of its source, if it has begun and wants one. The source is
the list of its answers: `none` says that there are no more chunks. -/
def turn (test : Nat → Chunk → Bool) (answers : Nat → Option Chunk) (s : Split) : Split :=
  if s.started && s.router.wants then
    { s with router := s.router.step test (answers s.router.calls) }
  else s

/-- A reader leaves. -/
def drop (s : Split) (side : Side) : Split :=
  { s with router := s.router.drop side }

end Split

/-- Both halves of a finite stream, each of which is there only if it is read. -/
def splitChunks (test : Nat → Chunk → Bool) (dropped : Option Side) (chunks : List Chunk) :
    Option (List Chunk) × Option (List Chunk) :=
  let start := match dropped with
    | some s => Router.start.drop s
    | none => .start
  let r := chunks.foldl (fun r c => r.step test (some c)) start
  let queue := fun s => if dropped = some s then none else some (r.half s).queue
  (queue .matched, queue .unmatched)

end Runnel
