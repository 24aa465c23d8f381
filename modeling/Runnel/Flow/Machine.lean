import Runnel.Child.Process
import Runnel.Flow.Work
import Runnel.Registry

/-!
# Runnel.Flow.Machine

What all that runs shares: the disk, the names of built-in commands, channels, open files,
cancellation tokens, child processes and the clock.

Whoever runs may use channels only so many times in a row, then others get their turn. This bound
also makes every turn finite.

* `Machine.write`, `Machine.gather`: output and input as far as they get in one turn.
* `Machine.produce`: a generator as far as it gets in one turn.
-/

namespace Runnel

/-- An open file. -/
structure OpenFile where
  /-- The file. -/
  node : NodeId
  /-- Where the next byte is; `none` stands for its end, wherever that is. -/
  position : Option Nat
  deriving Repr, DecidableEq

/-- What all that runs shares. -/
structure Machine where
  /-- The files. -/
  disk : Disk
  /-- The built-in commands. -/
  registry : Registry
  /-- The number of the next registration. -/
  serial : Nat
  /-- The channels. -/
  channels : Array Channel
  /-- The files that were opened. -/
  files : Array OpenFile
  /-- The tokens; those that are set are true. -/
  tokens : Array Bool
  /-- The child processes of each group that are alive. -/
  groups : Array (List ProcessId)
  /-- The pipes of child processes. -/
  pipes : Array Pipe
  /-- The child processes. -/
  processes : Array Process
  /-- Those who write to child processes. -/
  feeds : Array Feed
  /-- The milliseconds that have passed. -/
  clock : Nat
  /-- The next ticket. -/
  ticket : Ticket
  /-- How often whoever has the turn may still use channels. -/
  budget : Nat

namespace Machine

/-- A machine in which nothing runs yet. -/
def ofDisk (disk : Disk) (registry : Registry) : Machine :=
  ⟨disk, registry, registry.entries.length, #[], #[], #[], #[], #[], #[], #[], 0, 0, 0⟩

/-- How often channels may be used in one turn. -/
def turnBudget : Nat := 128

/-- Begins a turn. -/
def beginTurn (m : Machine) : Machine :=
  { m with budget := turnBudget }

/-! ## Tokens -/

/-- A new token. -/
def newToken (m : Machine) : TokenId × Machine :=
  (m.tokens.size, { m with tokens := m.tokens.push false })

/-- The token is set. -/
def isSet (m : Machine) (token : TokenId) : Bool :=
  m.tokens.getD token false

/-- Sets a token. -/
def setToken (m : Machine) (token : TokenId) : Machine :=
  { m with tokens := m.tokens.setIfInBounds token true }

/-! ## Groups -/

/-- A new group without members. -/
def newGroup (m : Machine) : GroupId × Machine :=
  (m.groups.size, { m with groups := m.groups.push [] })

/-- The living child processes of a group. -/
def members (m : Machine) (group : GroupId) : List ProcessId :=
  m.groups.getD group []

/-! ## Channels -/

/-- A new channel with one writer. -/
def newChannel (m : Machine) (capacity : Nat) : ChannelId × Machine :=
  (m.channels.size, { m with channels := m.channels.push (.ofCapacity capacity) })

/-- The channel of a number. -/
def channel (m : Machine) (id : ChannelId) : Channel :=
  m.channels.getD id ⟨0, [], [], [], 0, false⟩

/-- Changes a channel. -/
def updateChannel (m : Machine) (id : ChannelId) (change : Channel → Channel) : Machine :=
  { m with channels := m.channels.modify id change }

/-- Uses a channel once. -/
def spend (m : Machine) : Machine :=
  { m with budget := m.budget - 1 }

/-- How far a writer got. -/
inductive Written where
  /-- The bytes are gone; the answer says whether somebody reads them. -/
  | delivered (read : Bool)
  /-- There is no room; this is the writer's ticket from now on. -/
  | held (ticket : Option Ticket)
  deriving Repr, DecidableEq

/-- A writer hands over a chunk, with its ticket if it has one. -/
def offer (m : Machine) (id : ChannelId) (ticket : Option Ticket) (chunk : Chunk) :
    Machine × Written :=
  if m.budget = 0 then (m, .held ticket)
  else
    let (t, m) := match ticket with
      | some t => (t, m)
      | none => (m.ticket, { m with ticket := m.ticket + 1 })
    let (offered, c) := (m.channel id).offer t chunk
    let m := m.updateChannel id fun _ => c
    match offered with
    | .accepted => (m.spend, .delivered true)
    | .refused => (m.spend, .delivered false)
    | .full => (m, .held (some t))

/-- What a reader found. -/
inductive Taken where
  /-- A chunk. -/
  | chunk (c : Chunk)
  /-- Nothing, and nothing will come any more. -/
  | ended
  /-- Nothing yet. -/
  | nothing
  deriving Repr, DecidableEq

/-- The reader of a channel takes a chunk. -/
def take (m : Machine) (id : ChannelId) : Machine × Taken :=
  if m.budget = 0 then (m, .nothing)
  else
    let c := m.channel id
    match c.take with
    | (some chunk, c) => ((m.updateChannel id fun _ => c).spend, .chunk chunk)
    | (none, _) => if c.isEnded then (m.spend, .ended) else (m, .nothing)

/-! ## Files -/

/-- Opens a file for writing. -/
def openFile (m : Machine) (path : String) (mode : Disk.OutputMode) :
    Except SystemError HandleId × Machine :=
  match m.disk.openOutput path mode Disk.fileMode with
  | (.error e, disk) => (.error e, { m with disk })
  | (.ok node, disk) =>
    let position := match mode with
      | .overwrite => some 0
      | .append => none
    (.ok m.files.size, { m with disk, files := m.files.push ⟨node, position⟩ })

/-- Writes into an open file. -/
def writeFile (m : Machine) (handle : HandleId) (data : Bytes) : Machine :=
  match m.files[handle]? with
  | none => m
  | some ⟨node, none⟩ => { m with disk := m.disk.appendBytes node data }
  | some ⟨node, some position⟩ =>
    { m with
      disk := m.disk.writeAt node position data
      files := m.files.setIfInBounds handle ⟨node, some (position + data.length)⟩ }

/-! ## Sinks and sources -/

/-- Writes bytes, with a ticket if the writer has one. No bytes are no chunk. -/
def write (m : Machine) (sink : Sink) (ticket : Option Ticket) (data : Bytes) : Machine × Written :=
  if data.isEmpty then (m, .delivered true)
  else
    match sink with
    | .channel id kind => m.offer id ticket ⟨kind, data⟩
    | .file handle => (m.writeFile handle data, .delivered true)
    | .discard => (m, .delivered true)

/-- The writer no longer waits for room. -/
def withdraw (m : Machine) (sink : Sink) (ticket : Option Ticket) : Machine :=
  match sink, ticket with
  | .channel id _, some t => m.updateChannel id fun c => c.withdraw t
  | _, _ => m

/-- Nobody reads what is written there. -/
def isClosed (m : Machine) : Sink → Bool
  | .channel id _ => !(m.channel id).hasReader
  | _ => false

/-- Somebody else writes to a sink as well. -/
def retain (m : Machine) : Sink → Machine
  | .channel id _ => m.updateChannel id Channel.addWriter
  | _ => m

/-- A writer leaves a sink. -/
def release (m : Machine) : Sink → Machine
  | .channel id _ => m.updateChannel id Channel.dropWriter
  | _ => m

/-- The reader leaves a source. -/
def abandon (m : Machine) : Source → Machine
  | .channel id => m.updateChannel id Channel.hangUp
  | _ => m

/-- Enough has been gathered: the input has ended, or there are so many newlines. -/
def isEnough (lines : Option Nat) (gathered : Bytes) : Bool :=
  match lines with
  | none => false
  | some n => n ≤ gathered.count 10

/-- Takes chunks until there is enough; the pieces are in reverse order. -/
def gatherChunks (id : ChannelId) (lines : Option Nat) :
    Nat → Machine → List Bytes → Nat → Machine × List Bytes × Bool
  | 0, m, pieces, _ => (m, pieces, false)
  | n + 1, m, pieces, seen =>
    if lines.any (· ≤ seen) then (m, pieces, true)
    else
      match m.take id with
      | (m, .chunk c) => gatherChunks id lines n m (c.data :: pieces) (seen + c.data.count 10)
      | (m, .ended) => (m, pieces, true)
      | (m, .nothing) => (m, pieces, false)

/-- Reads on, with what has been gathered so far. The answer says whether that is enough, and
whoever has enough has left the source. -/
def gather (m : Machine) (source : Source) (lines : Option Nat) (gathered : Bytes) :
    Machine × Bytes × Bool :=
  match source with
  | .empty | .inherited => (m, [], true)
  | .bytes data => (m, data, true)
  | .channel id =>
    let (m, pieces, enough) :=
      gatherChunks id lines (turnBudget + 1) m [] (gathered.count 10)
    let gathered := gathered ++ pieces.reverse.flatten
    (if enough then m.abandon source else m, gathered, enough)

/-! ## Generators -/

/-- How far a generator got in one turn. -/
inductive Produced where
  /-- To its end. -/
  | ended (how : GeneratorEnd)
  /-- It will go on from here, with this ticket if it waits for room. -/
  | unfinished (progress : GeneratorProgress) (ticket : Option Ticket)
  deriving Repr, DecidableEq

/-- Sends a piece of output, unless the token is set. -/
def send (m : Machine) (token : TokenId) (sink : Sink) (ticket : Option Ticket) (data : Bytes) :
    Machine × Written :=
  if m.isSet token then (m.withdraw sink ticket, .delivered false) else m.write sink ticket data

/-- Runs a generator for at most so many steps. -/
def produceWithin (g : Generator) (i : Invocation) (stdout stderr : Sink) (token : TokenId) :
    Nat → Machine → GeneratorProgress → Option Ticket → Machine × Produced
  | 0, m, p, ticket => (m, .unfinished p ticket)
  | n + 1, m, p, ticket =>
    let sent := fun sink data =>
      match m.send token sink ticket data with
      | (m, .delivered read) =>
        produceWithin g i stdout stderr token n m ⟨p.steps + 1, !read, false⟩ none
      | (m, .held ticket) => (m, .unfinished p ticket)
    match g.next i p.steps p.refused with
    | .send data => sent stdout data
    | .sendError data => sent stderr data
    | .pause =>
      if p.started then
        produceWithin g i stdout stderr token n m ⟨p.steps + 1, p.refused, false⟩ none
      else (m, .unfinished { p with started := true } none)
    | .awaitCancel =>
      if m.isSet token then
        produceWithin g i stdout stderr token n m ⟨p.steps + 1, p.refused, false⟩ none
      else (m, .unfinished p none)
    | .finish code => (m, .ended (.code code))
    | .fail reason => (m, .ended (.failed reason))
    | .crash message => (m, .ended (.crashed message))

/-- Runs a generator for one turn. -/
def produce (m : Machine) (g : Generator) (i : Invocation) (stdout stderr : Sink) (token : TokenId)
    (p : GeneratorProgress) (ticket : Option Ticket) : Machine × Produced :=
  produceWithin g i stdout stderr token (2 * turnBudget) m p ticket

end Machine
end Runnel
