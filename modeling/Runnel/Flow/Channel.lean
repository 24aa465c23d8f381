import Runnel.Flow.Chunk

/-!
# Runnel.Flow.Channel

First-in first-out queues with room for a bounded number of chunks, any number of writers and one
reader.

A writer that finds no room draws a ticket and waits. Each chunk that is taken out gives its place
to the ticket that has waited longest; a writer with such a place is never refused, even if the
reader leaves in between, when its chunk is lost.

* `Channel.offer`: a writer hands over a chunk, with its ticket if it has one.
* `Channel.take`: the reader takes the oldest chunk.
* `Channel.hangUp`: the reader leaves.
-/

namespace Runnel

/-- The number of a channel. -/
abbrev ChannelId : Type := Nat

/-- The number of a writer that waits. -/
abbrev Ticket : Type := Nat

/-- A queue between writers and a reader. -/
structure Channel where
  /-- Places that nobody has. -/
  room : Nat
  /-- The chunks, oldest first. -/
  queue : List Chunk
  /-- Tickets that wait for a place, oldest first. -/
  waiting : List Ticket
  /-- Tickets that were given a place. -/
  granted : List Ticket
  /-- How many writers there are. -/
  writers : Nat
  /-- The reader is still there. -/
  hasReader : Bool
  deriving Repr, DecidableEq

/-- What becomes of a chunk that is handed over. -/
inductive Offer where
  /-- It is in the queue, or lost behind the reader's back. -/
  | accepted
  /-- Nobody reads any more. -/
  | refused
  /-- There is no room. -/
  | full
  deriving Repr, DecidableEq

namespace Channel

/-- An empty channel with so many places and one writer. -/
def ofCapacity (capacity : Nat) : Channel :=
  ⟨capacity, [], [], [], 1, true⟩

/-- Puts a chunk into the queue, if there is somebody to read it. -/
def push (c : Channel) (chunk : Chunk) : Channel :=
  if c.hasReader then { c with queue := c.queue ++ [chunk] } else c

/-- A writer hands over a chunk. If there is no room, its ticket waits. -/
def offer (c : Channel) (ticket : Ticket) (chunk : Chunk) : Offer × Channel :=
  if c.granted.contains ticket then
    (.accepted, { c with granted := c.granted.erase ticket }.push chunk)
  else if !c.hasReader then (.refused, { c with waiting := c.waiting.erase ticket })
  else if c.waiting.contains ticket then (.full, c)
  else
    match c.room with
    | room + 1 => (.accepted, { c with room }.push chunk)
    | 0 => (.full, { c with waiting := c.waiting ++ [ticket] })

/-- A writer no longer waits; a place that it was given goes to the next one. -/
def withdraw (c : Channel) (ticket : Ticket) : Channel :=
  if c.granted.contains ticket then
    let c := { c with granted := c.granted.erase ticket }
    match c.waiting with
    | next :: rest => { c with waiting := rest, granted := c.granted ++ [next] }
    | [] => { c with room := c.room + 1 }
  else { c with waiting := c.waiting.erase ticket }

/-- The reader takes the oldest chunk, whose place goes to the ticket that has waited longest. -/
def take (c : Channel) : Option Chunk × Channel :=
  match c.queue with
  | [] => (none, c)
  | chunk :: queue =>
    match c.waiting with
    | next :: rest =>
      (some chunk, { c with queue, waiting := rest, granted := c.granted ++ [next] })
    | [] => (some chunk, { c with queue, room := c.room + 1 })

/-- Nothing will ever come out again. -/
def isEnded (c : Channel) : Bool :=
  c.queue.isEmpty && c.granted.isEmpty && c.writers == 0

/-- One writer more. -/
def addWriter (c : Channel) : Channel :=
  { c with writers := c.writers + 1 }

/-- One writer less. -/
def dropWriter (c : Channel) : Channel :=
  { c with writers := c.writers - 1 }

/-- The reader leaves, and with it all that is in the queue. -/
def hangUp (c : Channel) : Channel :=
  { c with hasReader := false, queue := [], waiting := [] }

end Channel
end Runnel
