import Runnel.Runner.Schedule

/-!
# Runnel.Runner.Request

What those who stand outside ask of runners and streams: to write live input, to read streams to
their end, and to run a command line to its end at once.
-/

namespace Runnel

/-- Where somebody stands who wants to wait for a result at once. -/
inductive Standpoint where
  /-- Outside of everything that runs. -/
  | outside
  /-- On a thread that others can stand in for. -/
  | spareThread
  /-- On the only thread. -/
  | onlyThread
  deriving Repr, DecidableEq

namespace System

/-- Nobody reads what a writer writes any more, or it has been closed. -/
def isInputClosed (s : System) (writer : WriterId) : Bool :=
  let w := s.writer writer
  !w.isOpen || !(s.machine.channel w.channel).hasReader

/-- Writes live input; without an answer there will never be room, and nothing is written. -/
def writeInput (s : System) (writer : WriterId) (data : Bytes) :
    System × Option (Except RunError Unit) :=
  let w := s.writer writer
  if !w.isOpen then (s, some (.error inputClosed))
  else
    let ticket := s.machine.ticket
    let s := s.updateMachine fun m => { m with ticket := ticket + 1 }
    let request := fun (s : System) =>
      match s.machine.offer w.channel (some ticket) ⟨.stdout, data⟩ with
      | (machine, .delivered true) => ({ s with machine }, some (Except.ok ()))
      | (machine, .delivered false) => ({ s with machine }, some (.error inputUnread))
      | (machine, .held _) => ({ s with machine }, none)
    match s.ask request with
    | (s, some answer) => (s, some answer)
    | (s, none) => (s.updateChannel w.channel fun c => c.withdraw ticket, none)

/-- What comes next out of a stream; without an answer nothing will ever come. -/
def nextChunk (s : System) (id : StreamId) : System × Option (Option Chunk) :=
  s.ask fun s =>
    match s.readStream id with
    | (s, .chunk c) => (s, some (some c))
    | (s, .ended) => (s, some none)
    | (s, .nothing) => (s, none)

/-- Reads a stream to its end, or so many chunks of it; those that were read before come in reverse
order. Without an answer it would wait for ever. -/
def readChunks (id : StreamId) : Nat → System → List Chunk → System × Option (List Chunk)
  | 0, s, read => (s, some read.reverse)
  | n + 1, s, read =>
    match s.nextChunk id with
    | (s, some (some c)) => readChunks id n s (c :: read)
    | (s, some none) => (s, some read.reverse)
    | (s, none) => (s, none)

/-- Reads a stream to its end, or at most so many chunks of it, and drops it. -/
def collect (s : System) (id : StreamId) (limit : Option Nat) : System × Option (List Chunk) :=
  let (s, chunks) := readChunks id (limit.getD patience) s []
  (s.dropStream id, chunks)

/-- Reads a chunk of the first of several streams that has one; the answer is the stream's place and
what came out of it. Streams that have ended are passed over. -/
def readAny : List StreamId → Nat → System → System × Option (Nat × Chunk)
  | [], _, s => (s, none)
  | id :: rest, place, s =>
    match s.readStream id with
    | (s, .chunk c) => (s, some (place, c))
    | (s, _) => readAny rest (place + 1) s

/-- All of several streams have ended. -/
def allEnded (s : System) (ids : List StreamId) : Bool :=
  ids.all fun id => (s.stream id).ended

/-- Reads several streams side by side, up to so many chunks; what was read of each comes in reverse
order. Without an answer they would wait for ever. -/
def readTogether (ids : List StreamId) :
    Nat → System → List (List Chunk) → System × Option (List (List Chunk))
  | 0, s, _ => (s, none)
  | n + 1, s, read =>
    let request := fun (s : System) =>
      match readAny ids 0 s with
      | (s, some found) => (s, some (some found))
      | (s, none) => (s, if s.allEnded ids then some none else none)
    match s.ask request with
    | (s, some (some (place, c))) => readTogether ids n s (read.modify place (c :: ·))
    | (s, some none) => (s, some (read.map List.reverse))
    | (s, none) => (s, none)

/-- Reads several streams to their ends, side by side, and drops them. -/
def collectAll (ids : List StreamId) (s : System) : System × Option (List (List Chunk)) :=
  let (s, chunks) := readTogether ids patience s (ids.map fun _ => [])
  (ids.foldl (fun s id => s.dropStream id) s, chunks)

/-- Opens a stream on each of several runners. -/
def openStreams (s : System) : List RunnerId → List StreamId × System
  | [] => ([], s)
  | r :: rest =>
    let (id, s) := s.openStream r
    let (ids, s) := openStreams s rest
    (id :: ids, s)

/-- Runs a runner to its end at once, which cannot be done from the only thread. -/
def runNow (s : System) (r : RunnerId) (place : Standpoint) :
    System × Option (Except RunError RunResult) :=
  match place with
  | .onlyThread => (s, some (.error .blocking))
  | _ => s.await r

end System
end Runnel
