import Runnel.Flow.Machine
import Runnel.Runner.Listener
import Runnel.Runner.Options

/-!
# Runnel.Runner.System

Runners and what they share.

* `Runner`: one run of a command line or of two runners that are piped together.
* `Shell`: what all command lines start from.
* `Supervisor`: the runners that an interrupt reaches.
* `Task`: something that happens side by side with others.
* `System`: all of these and the machine below them.
-/

namespace Runnel

/-- The number of a runner. A pipe has a higher number than what it connects. -/
abbrev RunnerId : Type := Nat

/-- The number of a stream. -/
abbrev StreamId : Type := Nat

/-- The number of a writer of live input. -/
abbrev WriterId : Type := Nat

/-- The number of a task. -/
abbrev TaskId : Type := Nat

/-- What a runner runs. -/
inductive Job where
  /-- A command line. -/
  | line (text : String)
  /-- Two runners, the output of the first of which is the input of the second. -/
  | pipe (source dest : RunnerId)
  deriving Repr, DecidableEq

/-- The runners that a job runs. -/
def Job.stages : Job → List RunnerId
  | .line _ => []
  | .pipe source dest => [source, dest]

/-- How far a run is. -/
inductive Phase where
  /-- It has not begun. -/
  | pending
  /-- It has begun. -/
  | running
  /-- It has a result. -/
  | finished
  deriving Repr, DecidableEq

/-- The name of a phase. -/
def Phase.name : Phase → String
  | pending => "Pending"
  | running => "Running"
  | finished => "Finished"

/-- One run of a job. -/
structure Runner where
  /-- What it runs. -/
  job : Job
  /-- How far it is. -/
  phase : Phase
  /-- How it is to be run. -/
  options : RunOptions
  /-- The switches that were set when it began. -/
  settings : Settings
  /-- Captured output. -/
  chunks : Array Chunk
  /-- Channels to those who read along. -/
  subscribers : List ChannelId
  /-- The result, at the end. -/
  result : Option RunResult
  /-- The writer of its live input, while it runs. -/
  stdin : Option WriterId
  /-- It has to leave the supervisor at the end. -/
  registered : Bool
  /-- Those who are told what happens. -/
  listeners : List Listener
  /-- Set once it is killed. -/
  token : TokenId
  /-- Its child processes. -/
  group : GroupId
  /-- Somebody outside knows it. -/
  held : Bool
  deriving Repr, DecidableEq

namespace Runner

/-- A new runner. -/
def ofJob (job : Job) (options : RunOptions) (token : TokenId) (group : GroupId) : Runner :=
  ⟨job, .pending, options, .off, #[], [], none, none, false, [], token, group, true⟩

/-- The runner has a result. -/
def isFinished (r : Runner) : Bool :=
  r.phase == .finished

end Runner

/-- What all command lines start from. -/
structure Shell where
  /-- The switches. -/
  settings : Settings
  /-- The working directory. -/
  cwd : String
  /-- The variables. -/
  env : Environment
  /-- The real shell. -/
  program : ShellProgram
  /-- Names of built-in commands mean something. -/
  builtins : Bool
  /-- By default output also goes to the output of this process. -/
  display : Bool
  /-- By default output is kept. -/
  capture : Bool
  deriving Repr, DecidableEq

namespace Shell

/-- A shell with a configuration, in a process with these variables. -/
def ofConfig (disk : Disk) (process : Environment) (cwd : String) (config : Config) : Shell where
  settings := config.settings
  cwd := cwd
  env := process.extend config.env
  program := .detect disk config.run.shell
  builtins := true
  display := config.run.display.getD true
  capture := config.run.capture.getD true

/-- The options of those who ask for nothing else. -/
def defaultOptions (s : Shell) : RunOptions :=
  { RunOptions.standard with display := s.display, capture := s.capture }

/-- A path, as an absolute one. -/
def resolve (s : Shell) (path : String) : String :=
  Path.join s.cwd path

/-- The state in which a command line starts. -/
def context (s : Shell) (token : TokenId) (group : GroupId) : Context :=
  ⟨s.cwd, s.env, 0, s.settings, s.builtins, s.program, token, group⟩

end Shell

/-- The runners that an interrupt reaches. -/
structure Supervisor where
  /-- These runners. -/
  active : List RunnerId
  /-- The supervisor hears of interrupts. -/
  hooked : Bool
  /-- How often it began to. -/
  installs : Nat
  deriving Repr, DecidableEq

namespace Supervisor

/-- Nothing runs. -/
def idle : Supervisor := ⟨[], false, 0⟩

/-- Adds a runner and says whether it is new. -/
def register (s : Supervisor) (r : RunnerId) : Bool × Supervisor :=
  if s.active.contains r then (false, s)
  else
    (true, ⟨s.active ++ [r], true, if s.hooked then s.installs else s.installs + 1⟩)

/-- Removes a runner and says whether it was there. -/
def unregister (s : Supervisor) (r : RunnerId) : Bool × Supervisor :=
  if s.active.contains r then
    let active := s.active.erase r
    (true, { s with active, hooked := s.hooked && !active.isEmpty })
  else (false, s)

/-- How many hooks there are. -/
def hooks (s : Supervisor) : Nat :=
  if s.hooked then 1 else 0

/-- A description for people. -/
def describe (s : Supervisor) : String :=
  "Supervisor \x7b active: " ++ Text.digits s.active.length ++ ", handlers: " ++
    Text.digits s.hooks ++ " \x7d"

end Supervisor

/-- Live output of a runner. -/
structure ChunkStream where
  /-- What was written before. -/
  replay : List Chunk
  /-- Where the rest comes from. -/
  channel : ChannelId
  /-- The runner. -/
  runner : RunnerId
  /-- The end has been seen. -/
  ended : Bool
  /-- Somebody still reads it. -/
  held : Bool
  deriving Repr, DecidableEq

/-- The writer of the live input of a runner. -/
structure InputWriter where
  /-- Where it writes. -/
  channel : ChannelId
  /-- It has not been closed. -/
  isOpen : Bool
  deriving Repr, DecidableEq

/-- A chunk on its way to those who read along. -/
structure Delivery where
  /-- The chunk. -/
  chunk : Chunk
  /-- All readers. -/
  subscribers : List ChannelId
  /-- Those that still have to get it. -/
  remaining : List ChannelId
  /-- The ticket with which the first of them is waited for. -/
  ticket : Option Ticket
  deriving Repr, DecidableEq

/-- A command line that is to be run. -/
structure LineStart where
  /-- The text. -/
  text : String
  /-- The state at the start. -/
  ctx : Context
  /-- The input. -/
  stdin : Source
  /-- Operators mean something here. -/
  operators : Bool
  /-- The working directory at the end is that of the shell from then on. -/
  entersShell : Bool
  deriving Repr, DecidableEq

/-- A command line that runs. -/
structure LineRun where
  /-- The task that does the work. -/
  worker : TaskId
  /-- The output of the work. -/
  output : ChannelId
  /-- The working directory at the start. -/
  cwd : String
  /-- The working directory at the end is that of the shell from then on. -/
  entersShell : Bool
  /-- The chunk that is being delivered. -/
  delivery : Option Delivery
  /-- All output has been delivered. -/
  drained : Bool
  deriving Repr, DecidableEq

/-- What one side of a pipe is doing. -/
inductive SideProgress where
  /-- It reads the next chunk. -/
  | reading
  /-- It delivers a chunk to those who read along. -/
  | delivering (d : Delivery)
  /-- It writes into the input of the second runner. -/
  | feeding (ticket : Option Ticket) (data : Bytes)
  /-- It is complete. -/
  | complete
  deriving Repr, DecidableEq

/-- A pipe that runs. -/
structure PipeRun where
  /-- The output of the first runner. -/
  sourceOutput : StreamId
  /-- The output of the second runner. -/
  destOutput : StreamId
  /-- The input of the second runner. -/
  writer : Option WriterId
  /-- What is done with the output of the first runner. -/
  source : SideProgress
  /-- What is done with the output of the second runner. -/
  dest : SideProgress
  /-- The second side goes first in this turn. -/
  swapped : Bool
  deriving Repr, DecidableEq

/-- Both sides are complete. -/
def PipeRun.isComplete (p : PipeRun) : Bool :=
  match p.source, p.dest with
  | .complete, .complete => true
  | _, _ => false

/-- What a task does. -/
inductive Routine where
  /-- Nothing any more. -/
  | ended
  /-- It works, with these streams. -/
  | work (w : Work) (io : Streams)
  /-- It begins to run a command line. -/
  | beginLine (r : RunnerId) (start : LineStart)
  /-- It runs a command line. -/
  | runLine (r : RunnerId) (run : LineRun)
  /-- It begins to run a pipe. -/
  | beginPipe (r : RunnerId)
  /-- It runs a pipe. -/
  | runPipe (r : RunnerId) (run : PipeRun)
  /-- It kills a runner as soon as a token is set. -/
  | watch (r : RunnerId) (token : TokenId)
  /-- It writes pieces into a channel. -/
  | forward (pieces : List Bytes) (channel : ChannelId) (ticket : Option Ticket)
  /-- It waits for a token. -/
  | await (token : TokenId)

/-- Something that happens side by side with others. -/
structure Task where
  /-- What it does. -/
  routine : Routine
  /-- It waits for its turn. -/
  queued : Bool

/-- Runners and what they share. -/
structure System where
  /-- What all that runs shares. -/
  machine : Machine
  /-- What all command lines start from. -/
  shell : Shell
  /-- The runners that an interrupt reaches. -/
  supervisor : Supervisor
  /-- All runners. -/
  runners : Array Runner
  /-- All streams. -/
  streams : Array ChunkStream
  /-- All writers of live input. -/
  writers : Array InputWriter
  /-- All tasks. -/
  tasks : Array Task
  /-- The tasks that wait for their turn. -/
  ready : List TaskId
  /-- Tasks can run at all. -/
  scheduled : Bool
  /-- What listeners were told, last event first. -/
  journal : List (RunnerId × Event)
  /-- What went to the output of this process, last chunk first. -/
  terminal : List Chunk

namespace System

/-- A system in which nothing runs yet. -/
def ofShell (machine : Machine) (shell : Shell) : System :=
  ⟨machine, shell, .idle, #[], #[], #[], #[], [], true, [], []⟩

/-- What stands for a runner that does not exist. -/
def noRunner : Runner :=
  { Runner.ofJob (.line "") .quiet 0 0 with phase := .finished, held := false }

/-- The runner of a number. -/
def runner (s : System) (r : RunnerId) : Runner :=
  s.runners.getD r noRunner

/-- Changes a runner. -/
def updateRunner (s : System) (r : RunnerId) (change : Runner → Runner) : System :=
  { s with runners := s.runners.modify r change }

/-- The stream of a number. -/
def stream (s : System) (id : StreamId) : ChunkStream :=
  s.streams.getD id ⟨[], 0, 0, true, false⟩

/-- Changes a stream. -/
def updateStream (s : System) (id : StreamId) (change : ChunkStream → ChunkStream) : System :=
  { s with streams := s.streams.modify id change }

/-- The writer of a number. -/
def writer (s : System) (id : WriterId) : InputWriter :=
  s.writers.getD id ⟨0, false⟩

/-- Changes the machine. -/
def updateMachine (s : System) (change : Machine → Machine) : System :=
  { s with machine := change s.machine }

/-- Changes a channel. -/
def updateChannel (s : System) (id : ChannelId) (change : Channel → Channel) : System :=
  s.updateMachine fun m => m.updateChannel id change

/-- Adds a task, which waits for its turn. -/
def spawn (s : System) (routine : Routine) : TaskId × System :=
  (s.tasks.size,
    { s with tasks := s.tasks.push ⟨routine, true⟩, ready := s.ready ++ [s.tasks.size] })

/-- Adds a runner. -/
def newRunner (s : System) (job : Job) (options : RunOptions) : RunnerId × System :=
  let (token, machine) := s.machine.newToken
  let (group, machine) := machine.newGroup
  (s.runners.size,
    { s with machine, runners := s.runners.push (.ofJob job options token group) })

/-- The text of what a runner runs. The number bounds the nesting. -/
def jobText (s : System) : Nat → RunnerId → String
  | 0, _ => ""
  | n + 1, r =>
    match (s.runner r).job with
    | .line text => text
    | .pipe source dest => jobText s n source ++ " | " ++ jobText s n dest

/-- The text of what a runner runs. -/
def commandText (s : System) (r : RunnerId) : String :=
  s.jobText (r + 1) r

/-- A description of a runner for people; its number is left out. -/
def describeRunner (s : System) (r : RunnerId) : String :=
  "ProcessRunner \x7b id: #, command: " ++ Text.escaped (s.commandText r) ++ ", phase: " ++
    (s.runner r).phase.name ++ " \x7d"

/-- How many tasks have nothing to do any more. -/
def completed (s : System) : Nat :=
  s.tasks.toList.countP fun t =>
    match t.routine with
    | .ended => true
    | _ => false

end System
end Runnel
