import Runnel.Runner.Finish

/-!
# Runnel.Runner.Start

The begin of a run, and streams over its output.

* `System.start`: begins a run. Later calls do nothing.
* `System.openStream`, `System.readStream`, `System.dropStream`: reading along.
* `System.pipe`: connects two runners.
-/

namespace Runnel.System

/-- How many pieces of input wait at most. -/
def inputCapacity : Nat := 16

/-- How many chunks of output wait at most. -/
def outputCapacity : Nat := 64

/-- How many bytes a reader hands out at once. -/
def pieceSize : Nat := 8192

/-- Cuts bytes into pieces of a size; the number bounds how many there are. -/
def piecesWithin (size : Nat) : Nat → Bytes → List Bytes
  | 0, _ => []
  | n + 1, data =>
    if data.isEmpty then [] else data.take size :: piecesWithin size n (data.drop size)

/-- Cuts bytes into pieces as a reader hands them out. -/
def pieces (data : Bytes) : List Bytes :=
  piecesWithin pieceSize (data.length / pieceSize + 1) data

/-- A new channel. -/
def newChannel (s : System) (capacity : Nat) : ChannelId × System :=
  let (id, machine) := s.machine.newChannel capacity
  (id, { s with machine })

/-- Makes the source that an option stands for. -/
def prepareInput (s : System) (r : RunnerId) : InputOption → Source × System
  | .inherit => (.inherited, s)
  | .ignore => (.empty, s)
  | .bytes data => (.bytes data, s)
  | .text text => (.bytes (Text.encode text), s)
  | .stream data =>
    let (channel, s) := s.newChannel inputCapacity
    (.channel channel, (s.spawn (.forward (pieces data) channel none)).2)
  | .pipe =>
    let (channel, s) := s.newChannel inputCapacity
    let writer := s.writers.size
    let s := { s with writers := s.writers.push ⟨channel, true⟩ }
    (.channel channel, s.updateRunner r fun x => { x with stdin := some writer })

/-- The state in which the command line of a runner starts. -/
def contextOf (s : System) (r : RunnerId) : Context :=
  let runner := s.runner r
  let ctx := s.shell.context runner.token runner.group
  { ctx with
    settings := runner.settings
    cwd := (runner.options.cwd.map s.shell.resolve).getD ctx.cwd
    env := ctx.env.extend runner.options.env }

/-- Makes the routine that runs a job. -/
def prepare (s : System) (r : RunnerId) : Routine × System :=
  let runner := s.runner r
  match runner.job with
  | .pipe _ _ => (.beginPipe r, s)
  | .line text =>
    let ctx := s.contextOf r
    let s := s.updateRunner r fun x => { x with options := { x.options with stdin := .inherit } }
    let (stdin, s) := s.prepareInput r runner.options.stdin
    (.beginLine r ⟨text, ctx, stdin, runner.options.operators, runner.options.cwd.isNone⟩, s)

/-- Begins a run, unless it has begun. -/
def start (s : System) (r : RunnerId) : Except RunError Unit × System :=
  if !s.scheduled then (.error (.broken "starting a command needs a tokio runtime"), s)
  else if (s.runner r).phase != .pending then (.ok (), s)
  else
    let (isNew, supervisor) := s.supervisor.register r
    let s := { s with supervisor }.updateRunner r fun x =>
      { x with phase := .running, settings := s.shell.settings, registered := isNew }
    let (routine, s) := s.prepare r
    let (_, s) := s.spawn routine
    match (s.runner r).options.signal with
    | some token => (.ok (), (s.spawn (.watch r token)).2)
    | none => (.ok (), s)

/-- Begins a run; one that cannot begin is finished with an error. -/
def ensureStarted (s : System) (r : RunnerId) : System :=
  match s.start r with
  | (.ok (), s) => s
  | (.error e, s) => (s.emit r (.error e)).finish r 1

/-- Changes the options of a run that has not begun. -/
def configure (s : System) (r : RunnerId) (change : RunOptions → RunOptions) :
    Except RunError Unit × System :=
  if (s.runner r).phase != .pending then (.error .alreadyStarted, s)
  else (.ok (), s.updateRunner r fun x => { x with options := change x.options })

/-- Adds a listener, unless the run is finished. -/
def listen (s : System) (r : RunnerId) (l : Listener) : System :=
  if (s.runner r).isFinished then s
  else s.updateRunner r fun x => { x with listeners := x.listeners ++ [l] }

/-! ## Streams -/

/-- Begins to read along; what was captured so far is read first. -/
def openStream (s : System) (r : RunnerId) : StreamId × System :=
  let (channel, s) := s.newChannel outputCapacity
  let runner := s.runner r
  let s :=
    if runner.isFinished then s.updateChannel channel Channel.dropWriter
    else s.updateRunner r fun x => { x with subscribers := x.subscribers ++ [channel] }
  let replay := if runner.options.capture then runner.chunks.toList else []
  let id := s.streams.size
  (id, { s with streams := s.streams.push ⟨replay, channel, r, false, true⟩ }.ensureStarted r)

/-- Reads the next chunk of a stream. -/
def readStream (s : System) (id : StreamId) : System × Machine.Taken :=
  let stream := s.stream id
  if stream.ended then (s, .ended)
  else
    match stream.replay with
    | chunk :: replay => (s.updateStream id fun x => { x with replay }, .chunk chunk)
    | [] =>
      let (machine, taken) := s.machine.take stream.channel
      let s := { s with machine }
      match taken with
      | .ended => (s.updateStream id fun x => { x with ended := true }, .ended)
      | taken => (s, taken)

/-- Stops reading along. A runner whose output has not ended is killed. -/
def dropStream (s : System) (id : StreamId) : System :=
  let stream := s.stream id
  if !stream.held then s
  else
    let s := s.updateStream id fun x => { x with held := false }
    let s :=
      if stream.ended || (s.runner stream.runner).isFinished then s
      else s.kill .term stream.runner
    s.updateChannel stream.channel Channel.hangUp

/-- A description of a stream for people; the number of its runner is left out. -/
def describeStream (s : System) (id : StreamId) : String :=
  "ChunkStream \x7b runner: Some(#), ended: " ++
    (if (s.stream id).ended then "true" else "false") ++ " \x7d"

/-! ## Pipes -/

/-- Connects the output of a runner to the input of another one, which must not have begun. The pipe
has the options of the latter for what becomes of output. -/
def pipe (s : System) (source dest : RunnerId) : Except RunError RunnerId × System :=
  if source = dest then (.error .selfPipe, s)
  else
    let options := (s.runner dest).options
    match s.configure dest fun o => { o with stdin := .pipe, display := false } with
    | (.error e, s) => (.error e, s)
    | (.ok (), s) =>
      let (_, s) := s.configure source fun o => { o with display := false }
      let (r, s) := s.newRunner (.pipe source dest)
        { RunOptions.standard with
          display := options.display
          capture := options.capture
          reject := options.reject }
      (.ok r, s)

end Runnel.System
