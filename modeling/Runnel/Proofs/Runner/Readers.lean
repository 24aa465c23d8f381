import Mathlib.Data.List.Nodup
import Mathlib.Logic.Relation
import Runnel.Proofs.Flow.ConfinedTree
import Runnel.Proofs.Flow.Passing
import Runnel.Proofs.Runner.Replay
import Runnel.Proofs.Runner.Turning

/-!
# Runnel.Proofs.Runner.Readers

Those who read along, and what is on its way to them. While a turn lasts, the deliveries that are
under way are partly in the hands of the turn and partly in those of tasks; here they are a list
beside the system.

* `System.Aside`: a change that concerns neither those who read along nor what they read.
* `System.Act`: everything that a turn is made of, as far as it concerns them.
* `System.Sound`: what is true of a system and the deliveries in it at all times.
-/

namespace Runnel

/-- The runner that a routine runs. -/
def Routine.driven? : Routine → Option RunnerId
  | .beginLine r _ | .runLine r _ | .beginPipe r | .runPipe r _ => some r
  | _ => none

/-- The delivery that a side of a pipe is busy with. -/
def SideProgress.load (r : RunnerId) : SideProgress → List (RunnerId × Delivery)
  | .delivering d => [(r, d)]
  | _ => []

/-- The deliveries that a routine is busy with. -/
def Routine.load : Routine → List (RunnerId × Delivery)
  | .runLine r run => run.delivery.toList.map (r, ·)
  | .runPipe r p => p.source.load r ++ p.dest.load r
  | _ => []

/-- The streams that a routine reads. -/
def Routine.inputs : Routine → List StreamId
  | .runPipe _ p => [p.sourceOutput, p.destOutput]
  | _ => []

theorem Routine.driven?_of_mem_load {routine : Routine} {e : RunnerId × Delivery}
    (h : e ∈ routine.load) : routine.driven? = some e.1 := by
  cases routine with
  | runLine r run =>
    obtain ⟨d, -, rfl⟩ := List.mem_map.mp h
    rfl
  | runPipe r p =>
    rcases List.mem_append.mp h with h | h
    · cases hp : p.source with
      | delivering d =>
        rw [hp] at h
        rw [List.mem_singleton.mp h]
        rfl
      | reading | feeding _ _ | complete =>
        rw [hp] at h
        cases h
    · cases hp : p.dest with
      | delivering d =>
        rw [hp] at h
        rw [List.mem_singleton.mp h]
        rfl
      | reading | feeding _ _ | complete =>
        rw [hp] at h
        cases h
  | ended | work w io | beginLine r start | beginPipe r | watch r token | forward pieces c ticket
  | await token => cases h

namespace System

/-- The deliveries under way, each with the runner whose output it is. -/
abbrev Loads : Type := List (RunnerId × Delivery)

/-- The deliveries that tasks are busy with. -/
def loads (s : System) : Loads :=
  s.tasks.toList.flatMap fun t => t.routine.load

/-! ## Channels of streams -/

/-- A stream reads from the channel. -/
def IsTap (s : System) (c : ChannelId) : Prop :=
  ∃ id < s.streams.size, (s.stream id).channel = c

/-- The channel exists, and no stream reads from it. -/
structure Plain (s : System) (c : ChannelId) : Prop where
  lt : c < s.machine.channels.size
  noTap : ¬ s.IsTap c

/-- What may be the writer of the input of a runner: only a command line has one. -/
structure WriterOf (s : System) (w : WriterId) (r : RunnerId) : Prop where
  lt : w < s.writers.size
  owner : r < s.runners.size
  line : ∃ text, (s.runner r).job = .line text

/-- A routine uses no channel from which a stream reads, and what it holds belongs to the runner
that it runs. -/
def Proper (s : System) : Routine → Prop
  | .ended | .beginPipe _ | .watch _ _ | .await _ => True
  | .work w io => w.Within s.Plain ∧ io.Within s.Plain
  | .beginLine r start => start.stdin.Within s.Plain ∧ ∃ text, (s.runner r).job = .line text
  | .runLine r run => s.Plain run.output ∧ ∃ text, (s.runner r).job = .line text
  | .runPipe r p =>
    (s.runner r).job
      = .pipe (s.stream p.sourceOutput).runner (s.stream p.destOutput).runner ∧
    p.sourceOutput < s.streams.size ∧ p.destOutput < s.streams.size ∧
    (∀ w, p.writer = some w → s.WriterOf w (s.stream p.destOutput).runner) ∧
    ∀ e ∈ p.source.load r, e.2.chunk.kind = .stderr
  | .forward _ channel _ => s.Plain channel

/-- What never goes back. -/
structure Onwards (s s' : System) : Prop where
  plain : ∀ c, s.Plain c → s'.Plain c
  size : s.runners.size ≤ s'.runners.size
  jobs : ∀ r < s.runners.size, (s'.runner r).job = (s.runner r).job
  phases : ∀ r < s.runners.size, (s.runner r).phase.rank ≤ (s'.runner r).phase.rank
  streams : s.streams.size ≤ s'.streams.size
  stream : ∀ id < s.streams.size, (s'.stream id).channel = (s.stream id).channel ∧
    (s'.stream id).runner = (s.stream id).runner
  writers : s.writers.size ≤ s'.writers.size
  token : ∀ r < s.runners.size, (s'.runner r).token = (s.runner r).token
  tokens : s.machine.tokens.size ≤ s'.machine.tokens.size

theorem Onwards.refl (s : System) : Onwards s s :=
  ⟨fun _ => id, Nat.le_refl _, fun _ _ => rfl, fun _ _ => Nat.le_refl _, Nat.le_refl _,
    fun _ _ => ⟨rfl, rfl⟩, Nat.le_refl _, fun _ _ => rfl, Nat.le_refl _⟩

theorem Onwards.trans {s s' s'' : System} (h : Onwards s s') (h' : Onwards s' s'') :
    Onwards s s'' where
  plain := fun c hc => h'.plain c (h.plain c hc)
  size := Nat.le_trans h.size h'.size
  jobs := fun r hr => (h'.jobs r (Nat.lt_of_lt_of_le hr h.size)).trans (h.jobs r hr)
  phases := fun r hr =>
    Nat.le_trans (h.phases r hr) (h'.phases r (Nat.lt_of_lt_of_le hr h.size))
  streams := Nat.le_trans h.streams h'.streams
  stream := fun id hid =>
    have hnext := h'.stream id (Nat.lt_of_lt_of_le hid h.streams)
    ⟨hnext.1.trans (h.stream id hid).1, hnext.2.trans (h.stream id hid).2⟩
  writers := Nat.le_trans h.writers h'.writers
  token := fun r hr => (h'.token r (Nat.lt_of_lt_of_le hr h.size)).trans (h.token r hr)
  tokens := Nat.le_trans h.tokens h'.tokens

theorem Onwards.finished {s s' : System} (h : Onwards s s') {r : RunnerId}
    (hr : r < s.runners.size) (hf : (s.runner r).phase = .finished) :
    (s'.runner r).phase = .finished :=
  Phase.finished_of_rank (h.phases r hr) hf

theorem Onwards.begun {s s' : System} (h : Onwards s s') {r : RunnerId} (hb : s.Begun r) :
    s'.Begun r :=
  ⟨Nat.lt_of_lt_of_le hb.lt h.size, Phase.begun_of_rank (h.phases r hb.lt) hb.phase⟩

theorem WriterOf.onwards {s s' : System} {w : WriterId} {r : RunnerId} (h : s.WriterOf w r)
    (ho : Onwards s s') : s'.WriterOf w r := by
  obtain ⟨text, hjob⟩ := h.line
  exact ⟨Nat.lt_of_lt_of_le h.lt ho.writers, Nat.lt_of_lt_of_le h.owner ho.size,
    text, (ho.jobs r h.owner).trans hjob⟩

theorem Proper.onwards {s s' : System} {routine : Routine} (h : s.Proper routine)
    (hb : s.RoutineBegun routine) (ho : Onwards s s') : s'.Proper routine := by
  cases routine with
  | ended | beginPipe r | watch r token | await token => trivial
  | work w io => exact ⟨h.1.mono ho.plain, h.2.mono ho.plain⟩
  | beginLine r start =>
    obtain ⟨text, hjob⟩ := h.2
    exact ⟨h.1.mono ho.plain, text, (ho.jobs r hb.lt).trans hjob⟩
  | runLine r run =>
    obtain ⟨text, hjob⟩ := h.2
    exact ⟨ho.plain _ h.1, text, (ho.jobs r hb.lt).trans hjob⟩
  | runPipe r p =>
    obtain ⟨hjob, hsource, hdest, hwriter, hkind⟩ := h
    refine ⟨?_, Nat.lt_of_lt_of_le hsource ho.streams, Nat.lt_of_lt_of_le hdest ho.streams,
      fun w hw => ?_, hkind⟩
    · rw [(ho.stream _ hsource).2, (ho.stream _ hdest).2, ho.jobs r hb.lt]
      exact hjob
    · rw [(ho.stream _ hdest).2]
      exact (hwriter w hw).onwards ho
  | forward pieces channel ticket => exact ho.plain _ h

/-! ## Changes aside -/

/-- The same chunks are in two channels, with as many writers and with a reader or without. -/
structure SameFlow (c c' : Channel) : Prop where
  queue : c'.queue = c.queue
  writers : c'.writers = c.writers
  hasReader : c'.hasReader = c.hasReader

/-- Two states of a runner in which those who read along, and what they read, are the same. If the
run begins, these are the switches that are set. -/
structure Unmoved (switches : Settings) (x y : Runner) : Prop where
  job : y.job = x.job
  finished : y.phase = .finished ↔ x.phase = .finished
  pending : y.phase = .pending → x.phase = .pending
  chunks : y.chunks = x.chunks
  subscribers : y.subscribers = x.subscribers
  token : y.token = x.token
  /-- What becomes of output is settled when the run begins. -/
  capture : y.phase ≠ .pending → y.options.capture = x.options.capture
  result : y.result = x.result
  /-- So are the switches. -/
  settings : x.phase ≠ .pending → y.settings = x.settings
  begins : x.phase = .pending → y.phase ≠ .pending → y.settings = switches

theorem Unmoved.of_phase {switches : Settings} {x y : Runner} (job : y.job = x.job)
    (phase : y.phase = x.phase) (chunks : y.chunks = x.chunks)
    (subscribers : y.subscribers = x.subscribers) (token : y.token = x.token)
    (capture : y.phase ≠ .pending → y.options.capture = x.options.capture)
    (result : y.result = x.result) (settings : y.settings = x.settings) :
    Unmoved switches x y :=
  ⟨job, by rw [phase], by rw [phase]; exact id, chunks, subscribers, token, capture, result,
    fun _ => settings, fun hp hnot => absurd (phase.trans hp) hnot⟩

theorem Unmoved.refl (switches : Settings) (x : Runner) : Unmoved switches x x :=
  .of_phase rfl rfl rfl rfl rfl (fun _ => rfl) rfl rfl

/-- A change that concerns neither those who read along nor what they read. New writers of input and
those who newly feed child processes use channels from which no stream reads. -/
structure Aside (s s' : System) : Prop where
  inv : s.Inv → s'.Inv
  scheduled : s'.scheduled = s.scheduled
  streams : s'.streams = s.streams
  switches : s'.shell.settings = s.shell.settings
  runner : ∀ r, Unmoved s.shell.settings (s.runner r) (s'.runner r)
  channels : s.machine.channels.size ≤ s'.machine.channels.size
  taps : ∀ c, s.IsTap c → SameFlow (s.machine.channel c) (s'.machine.channel c)
  tokens : ∀ t, s.machine.isSet t = true → s'.machine.isSet t = true
  room : s.machine.tokens.size ≤ s'.machine.tokens.size
  size : s'.runners.size = s.runners.size
  tasks : s'.tasks.map Task.routine = s.tasks.map Task.routine
  inputs : s.writers.size ≤ s'.writers.size
  writers : ∀ w < s'.writers.size, (w < s.writers.size ∧ (s'.writer w).channel = (s.writer w).channel) ∨
    s'.Plain (s'.writer w).channel
  feeds : ∀ f ∈ s'.machine.feeds, f ∈ s.machine.feeds ∨ f.source.Within s'.Plain

/-! ## Acts -/

/-- Each of these channels gets a writer. -/
def addWriters (s : System) (channels : List ChannelId) : System :=
  channels.foldl (fun s id => s.updateChannel id Channel.addWriter) s

/-- A chunk of a runner has been captured and copied. -/
def noted (s : System) (r : RunnerId) (chunk : Chunk) : System :=
  let runner := s.runner r
  let s := if runner.options.capture then
    s.updateRunner r fun x => { x with chunks := x.chunks.push chunk } else s
  if runner.options.display then { s with terminal := chunk :: s.terminal } else s

/-- A chunk of a runner has been captured and copied, and is about to be handed to those who read
along. -/
def captured (s : System) (r : RunnerId) (chunk : Chunk) : System :=
  (s.noted r chunk).addWriters (s.runner r).subscribers

/-- A stream has been opened on a runner, which is not started for it yet. -/
def opened (s : System) (r : RunnerId) : System :=
  let (channel, s) := s.newChannel outputCapacity
  let runner := s.runner r
  let s :=
    if runner.isFinished then s.updateChannel channel Channel.dropWriter
    else s.updateRunner r fun x => { x with subscribers := x.subscribers ++ [channel] }
  let replay := if runner.options.capture then runner.chunks.toList else []
  { s with streams := s.streams.push ⟨replay, channel, r, false, true⟩ }

/-- A stream is not read any more. -/
def left (s : System) (id : StreamId) : System :=
  (s.updateStream id fun x => { x with held := false }).updateChannel (s.stream id).channel
    Channel.hangUp

/-- A runner that has begun may end with this code: if it is a pipe, the code is what comes of the
codes of its stages. -/
structure Concludes (s : System) (r : RunnerId) (code : Int) : Prop where
  begun : s.Begun r
  pipe : ∀ source dest, (s.runner r).job = .pipe source dest → ∃ x y,
    (s.runner source).result = some x ∧ (s.runner dest).result = some y ∧
      code = pipeCode (s.runner r).settings.pipefail x.code y.code

/-- All that a turn is made of, as far as it concerns those who read along; the streams that it
reads satisfy `R`. -/
inductive Act (R : StreamId → Prop) : Loads × System → Loads × System → Prop where
  /-- Something else happens. -/
  | aside {D : Loads} {s s' : System} (h : Aside s s') : Act R (D, s) (D, s')
  /-- The order of the deliveries does not matter. -/
  | permute {D D' : Loads} {s : System} (h : D.Perm D') : Act R (D, s) (D', s)
  /-- A result is recorded when that of all stages is. Either the runner has been killed, or all
  output has been delivered and the code is the right one. -/
  | record {D : Loads} {s : System} {r : RunnerId} (code : Int) (hr : r < s.runners.size)
      (hnot : (s.runner r).phase ≠ .finished)
      (hstages : ∀ stage ∈ (s.runner r).job.stages, (s.runner stage).phase = .finished)
      (hload : s.machine.isSet (s.runner r).token = true ∨ ∀ e ∈ D, e.1 ≠ r)
      (hcode : s.machine.isSet (s.runner r).token = true ∨ s.Concludes r code) :
      Act R (D, s) (D, s.record r code)
  /-- A chunk is there. The output of a command line comes chunk by chunk, and that of a pipe from
  two sides, of which only one has output that is not an error. -/
  | capture {D : Loads} {s : System} {r : RunnerId} (chunk : Chunk) (hr : r < s.runners.size)
      (hrun : (s.runner r).phase = .running)
      (hline : ∀ text, (s.runner r).job = .line text → ∀ e ∈ D, e.1 ≠ r)
      (hkind : chunk.kind = .stdout → ∀ e ∈ D, e.1 = r → e.2.chunk.kind = .stderr) :
      Act R (D, s)
        ((r, ⟨chunk, (s.runner r).subscribers, (s.runner r).subscribers, none⟩) :: D,
          s.captured r chunk)
  /-- A chunk is handed to the next one who reads along. -/
  | hand {D : Loads} {s : System} {r : RunnerId} {d : Delivery} {c : ChannelId}
      {rest : List ChannelId} {machine : Machine} {ok : Bool} (hrest : d.remaining = c :: rest)
      (hlive : s.machine.isSet (s.runner r).token = false)
      (hoffer : s.machine.offer c d.ticket d.chunk = (machine, .delivered ok)) :
      Act R ((r, d) :: D, s)
        ((r, { d with remaining := rest, ticket := none }) :: D, { s with machine })
  /-- A delivery waits for room. -/
  | stall {D : Loads} {s : System} {r : RunnerId} {d : Delivery} (ticket : Option Ticket) :
      Act R ((r, d) :: D, s) ((r, { d with ticket }) :: D, s)
  /-- A delivery is over: it is complete, or the runner has been killed. -/
  | settle {D : Loads} {s : System} {r : RunnerId} {d : Delivery}
      (h : d.remaining = [] ∨ s.machine.isSet (s.runner r).token = true) :
      Act R ((r, d) :: D, s) (D, s.endDelivery d)
  /-- Those who have stopped reading along are forgotten. -/
  | forget {D : Loads} {s : System} (r : RunnerId) : Act R (D, s) (D, s.forgetClosed r)
  /-- A stream is read. -/
  | read {D : Loads} {s : System} {id : StreamId} (h : R id) :
      Act R (D, s) (D, (s.readStream id).1)
  /-- A stream is opened, and so somebody joins those who read along. -/
  | join {D : Loads} {s : System} {r : RunnerId} (hr : r < s.runners.size) :
      Act R (D, s) (D, s.opened r)
  /-- A stream whose runner is finished is not read any more. -/
  | leave {D : Loads} {s : System} {id : StreamId} (hid : id < s.streams.size)
      (h : (s.runner (s.stream id).runner).phase = .finished) : Act R (D, s) (D, s.left id)
  /-- A runner is added. -/
  | newRunner {D : Loads} {s : System} {job : Job} (options : RunOptions)
      (h : ∀ stage ∈ job.stages, stage < s.runners.size) :
      Act R (D, s) (D, (s.newRunner job options).2)
  /-- A task is added that runs no runner. -/
  | spawn {D : Loads} {s : System} {routine : Routine} (h : s.Proper routine)
      (hnone : routine.driven? = none) : Act R (D, s) (D, (s.spawn routine).2)
  /-- A task is added that begins to run a runner. -/
  | drive {D : Loads} {s : System} {routine : Routine} {r : RunnerId} (h : s.Proper routine)
      (hb : s.RoutineBegun routine)
      (hbegins : routine = .beginPipe r ∨ ∃ start, routine = .beginLine r start)
      (hnew : ∀ t ∈ s.tasks, t.routine.driven? ≠ some r) : Act R (D, s) (D, (s.spawn routine).2)

/-- Some acts. -/
abbrev Acts (R : StreamId → Prop) : Loads × System → Loads × System → Prop :=
  Relation.ReflTransGen (Act R)

/-! ## What is true at all times -/

/-- A delivery of a runner is under way. -/
structure Underway (s : System) (r : RunnerId) (d : Delivery) : Prop where
  begun : s.Begun r
  readers : ∀ c ∈ d.subscribers, ∃ id < s.streams.size, (s.stream id).runner = r ∧
    (s.stream id).channel = c
  nodup : d.subscribers.Nodup
  remaining : d.remaining <:+ d.subscribers
  /-- A runner ends before all is delivered only if it is killed. -/
  killed : (s.runner r).phase = .finished → s.machine.isSet (s.runner r).token = true

/-- So many writers write to the channel of a stream: the runner while it is not finished, and each
delivery. -/
def writersOf (D : Loads) (s : System) (id : StreamId) : Nat :=
  (if (s.runner (s.stream id).runner).phase = .finished then 0 else 1) +
    D.countP fun e => (s.stream id).channel ∈ e.2.subscribers

/-- Those who read along. -/
structure Attended (D : Loads) (s : System) : Prop where
  /-- The channels of streams exist. -/
  lt : ∀ id < s.streams.size, (s.stream id).channel < s.machine.channels.size
  /-- No two streams read from one channel. -/
  injective : ∀ id < s.streams.size, ∀ id' < s.streams.size,
    (s.stream id).channel = (s.stream id').channel → id = id'
  /-- All streams are on runners that exist. -/
  owner : ∀ id < s.streams.size, (s.stream id).runner < s.runners.size
  /-- A runner that is not finished knows all its streams, and nothing else. -/
  subscribers : ∀ r < s.runners.size, (s.runner r).phase ≠ .finished → ∀ c,
    c ∈ (s.runner r).subscribers ↔
      ∃ id < s.streams.size, (s.stream id).runner = r ∧ (s.stream id).channel = c
  /-- It knows each of them once. -/
  nodup : ∀ r < s.runners.size, (s.runner r).subscribers.Nodup
  /-- All of them are read. -/
  readers : ∀ id < s.streams.size, (s.runner (s.stream id).runner).phase ≠ .finished →
    (s.machine.channel (s.stream id).channel).hasReader = true
  /-- Writers are counted. -/
  writers : ∀ id < s.streams.size,
    (s.machine.channel (s.stream id).channel).writers = writersOf D s id
  /-- Deliveries go to streams of their runner. -/
  underway : ∀ e ∈ D, s.Underway e.1 e.2

/-- How runs end. -/
structure Closed (s : System) : Prop where
  /-- A stream only ends when its runner is finished. -/
  ended : ∀ id < s.streams.size, (s.stream id).ended = true →
    (s.runner (s.stream id).runner).phase = .finished
  /-- So is the runner of a stream that has been dropped. -/
  dropped : ∀ id < s.streams.size, (s.stream id).held = false →
    (s.runner (s.stream id).runner).phase = .finished
  /-- The stages of a pipe are finished when it is. -/
  stages : ∀ r < s.runners.size, (s.runner r).phase = .finished →
    ∀ stage ∈ (s.runner r).job.stages, (s.runner stage).phase = .finished

/-- Nobody else uses the channels of streams, and no two tasks run the same runner. -/
structure Apart (s : System) : Prop where
  writers : ∀ w < s.writers.size, s.Plain (s.writer w).channel
  feeds : ∀ f ∈ s.machine.feeds, f.source.Within s.Plain
  routines : ∀ t ∈ s.tasks, s.Proper t.routine
  drivers : (s.tasks.toList.filterMap fun t => t.routine.driven?).Nodup

/-- What is true of a system and the deliveries in it at all times. -/
structure Sound (D : Loads) (s : System) : Prop where
  inv : s.Inv
  scheduled : s.scheduled = true
  attended : Attended D s
  closed : Closed s
  apart : Apart s
  /-- The tokens of runners exist. -/
  tokens : ∀ r < s.runners.size, (s.runner r).token < s.machine.tokens.size

end System
end Runnel
