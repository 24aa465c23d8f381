import Runnel.Flow.Activity
import Runnel.Flow.Turn
import Runnel.Runner.Start

/-!
# Runnel.Runner.Turn

What a task does in one turn, and what it waits for afterwards.

* `System.takeTurn`: the turn of a task.
* `Hold`, `System.isOver`, `System.holds`: what keeps a task from going on.
-/

namespace Runnel
namespace System

/-! ## Deliveries -/

/-- A chunk is there: it is captured, copied, told to listeners, and on its way to those who read
along. A runner that is finished has no use for it. -/
def beginDelivery (s : System) (r : RunnerId) (chunk : Chunk) : System × Option Delivery :=
  let runner := s.runner r
  if runner.isFinished then (s, none)
  else
    let s := if runner.options.capture then
      s.updateRunner r fun x => { x with chunks := x.chunks.push chunk } else s
    let s := if runner.options.display then { s with terminal := chunk :: s.terminal } else s
    let s := runner.subscribers.foldl (fun s id => s.updateChannel id Channel.addWriter) s
    let s := s.emitAll r (Event.ofChunk chunk)
    (s, some ⟨chunk, runner.subscribers, runner.subscribers, none⟩)

/-- The delivery is over, complete or not. -/
def endDelivery (s : System) (d : Delivery) : System :=
  let s := match d.remaining, d.ticket with
    | id :: _, some ticket => s.updateChannel id fun c => c.withdraw ticket
    | _, _ => s
  s.dropSubscribers d.subscribers

/-- Those who have stopped reading along are forgotten. -/
def forgetClosed (s : System) (r : RunnerId) : System :=
  let isOpen := fun id => (s.machine.channel id).hasReader
  let subscribers := (s.runner r).subscribers
  (s.dropSubscribers (subscribers.filter fun id => !isOpen id)).updateRunner r fun x =>
    { x with subscribers := subscribers.filter isOpen }

/-- Hands a chunk to one reader after the other, unless the runner is killed. -/
def deliverTo (r : RunnerId) (d : Delivery) :
    List ChannelId → Option Ticket → System → System × Option Delivery
  | [], _, s => (((s.endDelivery { d with remaining := [] }).forgetClosed r), none)
  | id :: rest, ticket, s =>
    if s.machine.isSet (s.runner r).token then
      (s.endDelivery { d with remaining := id :: rest, ticket }, none)
    else
      match s.machine.offer id ticket d.chunk with
      | (machine, .delivered _) => deliverTo r d rest none { s with machine }
      | (machine, .held ticket) =>
        ({ s with machine }, some { d with remaining := id :: rest, ticket })

/-- Goes on with a delivery. -/
def deliver (s : System) (r : RunnerId) (d : Delivery) : System × Option Delivery :=
  deliverTo r d d.remaining d.ticket s

/-! ## Command lines -/

/-- Begins to run a command line: the work is a task of its own. -/
def beginLine (s : System) (r : RunnerId) (start : LineStart) : System × Routine :=
  let (output, s) := s.newChannel outputCapacity
  let s := s.updateChannel output Channel.addWriter
  let io : Streams := ⟨start.stdin, .channel output .stdout, .channel output .stderr⟩
  let work := lineActivity start.text start.operators start.ctx io .done
  let (worker, s) := s.spawn (.work work io)
  (s, .runLine r ⟨worker, output, start.ctx.cwd, start.entersShell, none, false⟩)

/-- The work of a task that works. -/
def workOf (s : System) (task : TaskId) : Work :=
  match s.tasks[task]? with
  | some ⟨.work w _, _⟩ => w
  | _ => .crash

/-- What is said when the work has broken down. -/
def crashReason : String :=
  "command task failed: task panicked"

/-- The work is complete: its exit code is that of the runner. -/
def concludeLine (s : System) (r : RunnerId) (run : LineRun) : System × Routine :=
  match s.workOf run.worker with
  | .done code ctx =>
    let s := if run.entersShell && !Path.isSame ctx.cwd run.cwd then
      { s with shell := { s.shell with cwd := s.shell.resolve ctx.cwd } } else s
    (s.finish r code, .ended)
  | .crash => ((s.emit r (.error (.broken crashReason))).finish r 1, .ended)
  | _ => (s, .runLine r run)

/-- Goes on with a command line for at most so many steps. -/
def runLineWithin (r : RunnerId) : Nat → LineRun → System → System × Routine
  | 0, run, s => (s, .runLine r run)
  | n + 1, run, s =>
    match run.delivery with
    | some d =>
      match s.deliver r d with
      | (s, some d) => (s, .runLine r { run with delivery := some d })
      | (s, none) => runLineWithin r n { run with delivery := none } s
    | none =>
      if run.drained then s.concludeLine r run
      else if s.machine.isSet (s.runner r).token then
        (s.updateChannel run.output Channel.hangUp, .ended)
      else
        match s.machine.take run.output with
        | (machine, .chunk chunk) =>
          let (s, delivery) := { s with machine }.beginDelivery r chunk
          runLineWithin r n { run with delivery } s
        | (machine, .ended) => runLineWithin r n { run with drained := true } { s with machine }
        | (machine, .nothing) => ({ s with machine }, .runLine r run)

/-- The bound on the steps of a turn; each other step uses a channel. -/
def turnSteps : Nat := 4 * Machine.turnBudget

/-! ## Pipes -/

/-- Begins to run a pipe: the second runner starts first. -/
def beginPipe (s : System) (r : RunnerId) : System × Routine :=
  match (s.runner r).job with
  | .line _ => ((s.emit r (.error (.broken "malformed pipe"))).finish r 1, .ended)
  | .pipe source dest =>
    let (destOutput, s) := s.openStream dest
    let writer := (s.runner dest).stdin
    let (sourceOutput, s) := s.openStream source
    (s, .runPipe r ⟨sourceOutput, destOutput, writer, .reading, .reading, false⟩)

/-- Nothing more goes from the first runner to the second. -/
def endSource (s : System) (p : PipeRun) : System × SideProgress :=
  let s := match p.writer with
    | some writer => s.closeWriter writer
    | none => s
  (s.dropStream p.sourceOutput, .complete)

/-- Writes into the input of the second runner; the answer is `none` if it is gone. -/
def feed (s : System) (writer : WriterId) (ticket : Option Ticket) (data : Bytes) :
    System × Option Machine.Written :=
  let w := s.writer writer
  if ticket.isNone && !w.isOpen then (s, none)
  else
    match s.machine.offer w.channel ticket ⟨.stdout, data⟩ with
    | (machine, .delivered false) => ({ s with machine }, none)
    | (machine, written) => ({ s with machine }, some written)

/-- Moves output of the first runner, for at most so many steps. -/
def runSource (r : RunnerId) (p : PipeRun) : Nat → SideProgress → System → System × SideProgress
  | 0, side, s => (s, side)
  | n + 1, side, s =>
    match side with
    | .complete => (s, .complete)
    | .delivering d =>
      match s.deliver r d with
      | (s, some d) => (s, .delivering d)
      | (s, none) => runSource r p n .reading s
    | .feeding ticket data =>
      match p.writer with
      | none => runSource r p n .reading s
      | some writer =>
        match s.feed writer ticket data with
        | (s, none) => s.endSource p
        | (s, some (.held ticket)) => (s, .feeding ticket data)
        | (s, some (.delivered _)) => runSource r p n .reading s
    | .reading =>
      match s.readStream p.sourceOutput with
      | (s, .nothing) => (s, .reading)
      | (s, .ended) => s.endSource p
      | (s, .chunk chunk) =>
        match chunk.kind with
        | .stdout => runSource r p n (.feeding none chunk.data) s
        | .stderr =>
          match s.beginDelivery r chunk with
          | (s, some d) => runSource r p n (.delivering d) s
          | (s, none) => runSource r p n .reading s

/-- Moves output of the second runner, for at most so many steps. -/
def runDest (r : RunnerId) (p : PipeRun) : Nat → SideProgress → System → System × SideProgress
  | 0, side, s => (s, side)
  | n + 1, side, s =>
    match side with
    | .complete | .feeding _ _ => (s, side)
    | .delivering d =>
      match s.deliver r d with
      | (s, some d) => (s, .delivering d)
      | (s, none) => runDest r p n .reading s
    | .reading =>
      match s.readStream p.destOutput with
      | (s, .nothing) => (s, .reading)
      | (s, .ended) => (s, .complete)
      | (s, .chunk chunk) =>
        match s.beginDelivery r chunk with
        | (s, some d) => runDest r p n (.delivering d) s
        | (s, none) => runDest r p n .reading s

/-- The exit code of a pipe whose runners ended with these codes. -/
def pipeCode (pipefail : Bool) (source dest : Int) : Int :=
  if pipefail && dest == 0 then source else dest

/-- Both sides are complete: once both runners have results, the pipe has one. -/
def concludePipe (s : System) (r : RunnerId) (p : PipeRun) : System × Routine :=
  match (s.runner (s.stream p.sourceOutput).runner).result,
    (s.runner (s.stream p.destOutput).runner).result with
  | some source, some dest =>
    let code := pipeCode (s.runner r).settings.pipefail source.code dest.code
    ((s.finish r code).dropStream p.destOutput, .ended)
  | _, _ => (s, .runPipe r p)

/-- Whatever a side holds, it lets go of. -/
def abortSide (s : System) (p : PipeRun) : SideProgress → System
  | .delivering d => s.endDelivery d
  | .feeding (some ticket) _ =>
    match p.writer with
    | some writer => s.updateChannel (s.writer writer).channel fun c => c.withdraw ticket
    | none => s
  | _ => s

/-- The pipe has been killed. -/
def abortPipe (s : System) (p : PipeRun) : System :=
  (((s.abortSide p p.source).abortSide p p.dest).dropStream p.sourceOutput).dropStream p.destOutput

/-- Goes on with both sides, in the order of this turn. -/
def runSides (s : System) (r : RunnerId) (p : PipeRun) : System × PipeRun :=
  if p.swapped then
    let (s, dest) := runDest r p turnSteps p.dest s
    let (s, source) := runSource r p turnSteps p.source s
    (s, { p with source, dest, swapped := false })
  else
    let (s, source) := runSource r p turnSteps p.source s
    let (s, dest) := runDest r p turnSteps p.dest s
    (s, { p with source, dest, swapped := true })

/-- Goes on with a pipe. -/
def runPipe (s : System) (r : RunnerId) (p : PipeRun) : System × Routine :=
  if p.isComplete then s.concludePipe r p
  else if s.machine.isSet (s.runner r).token then (s.abortPipe p, .ended)
  else
    let (s, p) := s.runSides r p
    if p.isComplete then s.concludePipe r p
    else if s.machine.isSet (s.runner r).token then (s.abortPipe p, .ended)
    else (s, .runPipe r p)

/-! ## Other tasks -/

/-- Work that has broken down lets go of its streams. -/
def abandonWork (s : System) (io : Streams) : System :=
  let closed := fun (c : Channel) => { c with writers := 0 }
  let drop := fun (s : System) (sink : Sink) =>
    match sink with
    | .channel id _ => s.updateChannel id closed
    | _ => s
  (drop (drop s io.stdout) io.stderr).updateMachine fun m => m.abandon io.stdin

/-- Goes on with work. -/
def runWork (s : System) (w : Work) (io : Streams) : System × Routine :=
  if w.hasCrashed then (s, .work w io)
  else
    let (machine, w) := w.advance s.machine
    let s := { s with machine }
    (if w.hasCrashed then s.abandonWork io else s, .work w io)

/-- Kills a runner if the token is set. -/
def watch (s : System) (r : RunnerId) (token : TokenId) : System × Routine :=
  if s.machine.isSet token then (s.kill .term r, .ended)
  else if (s.runner r).isFinished then (s, .ended)
  else (s, .watch r token)

/-- Writes one piece after the other, until all are written or the reader leaves. -/
def forward (channel : ChannelId) : List Bytes → Option Ticket → System → System × Routine
  | [], _, s => (s.updateChannel channel Channel.dropWriter, .ended)
  | piece :: rest, ticket, s =>
    match s.machine.offer channel ticket ⟨.stdout, piece⟩ with
    | (machine, .delivered true) => forward channel rest none { s with machine }
    | (machine, .delivered false) =>
      ({ s with machine }.updateChannel channel Channel.dropWriter, .ended)
    | (machine, .held ticket) => ({ s with machine }, .forward (piece :: rest) channel ticket)

/-- What a routine does in one turn. -/
def runRoutine (s : System) : Routine → System × Routine
  | .ended => (s, .ended)
  | .work w io => s.runWork w io
  | .beginLine r start =>
    match s.beginLine r start with
    | (s, .runLine r run) => runLineWithin r turnSteps run s
    | (s, routine) => (s, routine)
  | .runLine r run => runLineWithin r turnSteps run s
  | .beginPipe r =>
    match s.beginPipe r with
    | (s, .runPipe r p) => s.runPipe r p
    | (s, routine) => (s, routine)
  | .runPipe r p => s.runPipe r p
  | .watch r token => s.watch r token
  | .forward pieces channel ticket => forward channel pieces ticket s
  | .await token => (s, if s.machine.isSet token then .ended else .await token)

/-- The turn of a task. -/
def takeTurn (s : System) (task : TaskId) : System :=
  match s.tasks[task]? with
  | none => s
  | some t =>
    let (s, routine) := (s.updateMachine Machine.beginTurn).runRoutine t.routine
    { s with tasks := s.tasks.setIfInBounds task ⟨routine, false⟩ }

end System

/-! ## Waiting -/

/-- What keeps a task from going on. -/
inductive Hold where
  /-- The machine. -/
  | wait (w : Wait)
  /-- A runner without a result. -/
  | runner (r : RunnerId)
  /-- Work that is not complete. -/
  | worker (task : TaskId)
  deriving Repr, DecidableEq

namespace System

/-- What a delivery waits for. -/
def holdsOfDelivery (d : Delivery) : List Hold :=
  match d.remaining with
  | id :: _ => [.wait (.room id d.ticket)]
  | [] => [.wait .turn]

/-- What a side of a pipe waits for. -/
def holdsOfSide (s : System) (p : PipeRun) (input : StreamId) : SideProgress → List Hold
  | .reading => [.wait (.chunk (s.stream input).channel)]
  | .delivering d => holdsOfDelivery d
  | .feeding ticket _ =>
    match p.writer with
    | some writer => [.wait (.room (s.writer writer).channel ticket)]
    | none => [.wait .turn]
  | .complete => []

/-- What a task waits for. -/
def holds (s : System) : Routine → List Hold
  | .ended => []
  | .work w _ => w.waits.map .wait
  | .beginLine _ _ | .beginPipe _ => [.wait .turn]
  | .runLine r run =>
    if run.drained then [.worker run.worker]
    else
      .wait (.token (s.runner r).token) ::
        match run.delivery with
        | some d => holdsOfDelivery d
        | none => [.wait (.chunk run.output)]
  | .runPipe r p =>
    if p.isComplete then
      ([(s.stream p.sourceOutput).runner, (s.stream p.destOutput).runner].filter fun stage =>
        !(s.runner stage).isFinished).map .runner
    else
      .wait (.token (s.runner r).token) ::
        (s.holdsOfSide p p.sourceOutput p.source ++ s.holdsOfSide p p.destOutput p.dest)
  | .watch r token => [.wait (.token token), .runner r]
  | .forward _ channel ticket => [.wait (.room channel ticket)]
  | .await token => [.wait (.token token)]

/-- A task can go on as far as this is concerned. -/
def isOver (s : System) : Hold → Bool
  | .wait w => s.machine.isOver w
  | .runner r => (s.runner r).isFinished
  | .worker task => (s.workOf task).isComplete


/-! ## Who is still there -/

/-- The routine cannot do without a runner. -/
def concerns (s : System) (r : RunnerId) : Routine → Bool
  | .beginLine x _ | .runLine x _ | .beginPipe x | .runPipe x _ | .watch x _ =>
    x == r || (s.runner x).job.stages.contains r
  | _ => false

/-- Somebody has a use for a runner: somebody outside, a task, a stream, or a pipe for which this is
true. The number bounds the nesting of pipes. -/
def isAliveWithin (s : System) : Nat → RunnerId → Bool
  | 0, _ => false
  | depth + 1, r =>
    (s.runner r).held || s.tasks.any (fun t => s.concerns r t.routine) ||
      s.streams.any (fun x => x.held && x.runner == r) ||
      (List.range s.runners.size).any fun pipe =>
        (s.runner pipe).job.stages.contains r && s.isAliveWithin depth pipe

/-- Somebody has a use for a runner. -/
def isAlive (s : System) (r : RunnerId) : Bool :=
  s.isAliveWithin (s.runners.size + 1) r

/-- An interrupt kills all runners that are under supervision and that somebody has a use for; the
answer is their number. -/
def interrupt (s : System) : Nat × System :=
  let reached := s.supervisor.active.filter s.isAlive
  (reached.length, reached.foldl (fun s r => s.kill .int r) s)

end System
end Runnel
