import Runnel.Flow.Machine

/-!
# Runnel.Child.Table

What child processes ask of the machine: to read, to write, to have processes like themselves, and
to be ended by signals.

Nobody counts who holds the ends of a pipe: it is read off the descriptors of those who are alive.
-/

namespace Runnel.Machine

/-! ## Processes -/

/-- The process of a number. -/
def process (m : Machine) (id : ProcessId) : Process :=
  m.processes.getD id ⟨"/", [], [], .ended (.code 0)⟩

/-- Changes a process. -/
def updateProcess (m : Machine) (id : ProcessId) (change : Process → Process) : Machine :=
  { m with processes := m.processes.modify id change }

/-- Lets a process go on with a program. -/
def setProgram (m : Machine) (id : ProcessId) (program : Program) : Machine :=
  m.updateProcess id fun p => { p with program }

/-- A new process. -/
def addProcess (m : Machine) (p : Process) : ProcessId × Machine :=
  (m.processes.size, { m with processes := m.processes.push p })

/-- A process ends. -/
def endProcess (m : Machine) (id : ProcessId) (how : Ending) : Machine :=
  m.updateProcess id fun p => p.finish how

/-- The number that a process shows to others. -/
def shownNumber (id : ProcessId) : Nat := id + 1000

/-- The process that shows a number. -/
def ofShownNumber (m : Machine) (n : Nat) : Option ProcessId :=
  if 1000 ≤ n && n - 1000 < m.processes.size then some (n - 1000) else none

/-! ## Signals -/

/-- The signal that nobody can take no notice of. -/
def killSignal : Nat := 9

/-- The signal for those who write what nobody reads. -/
def pipeSignal : Nat := 13

/-- The signals that do no harm. -/
def harmlessSignals : List Nat := [0, 17, 18, 23, 28]

/-- A shell has something to do at a signal. -/
def trapped (p : Process) (signal : Nat) : Option Script.Interpreter :=
  match p.program with
  | .shell i => if i.traps.any (·.1 = signal) && signal != killSignal then some i else none
  | _ => none

/-- A process gets a signal. -/
def signal (m : Machine) (id : ProcessId) (signal : Nat) : Machine :=
  let p := m.process id
  if !p.isAlive || harmlessSignals.contains signal then m
  else if p.ignored.contains signal && signal != killSignal then m
  else
    match trapped p signal with
    | some i => m.setProgram id (.shell { i with caught := i.caught ++ [signal] })
    | none => m.endProcess id (.signal signal)

/-- All child processes of a group get a signal. -/
def signalGroup (m : Machine) (group : GroupId) (signal : Nat) : Machine :=
  (m.members group).foldl (fun m id => m.signal id signal) m

/-! ## Pipes -/

/-- A new pipe. -/
def newPipe (m : Machine) (bytes : Bytes) (watched : Bool) : PipeId × Machine :=
  (m.pipes.size, { m with pipes := m.pipes.push ⟨bytes, watched⟩ })

/-- The pipe of a number. -/
def pipe (m : Machine) (id : PipeId) : Pipe :=
  m.pipes.getD id ⟨[], false⟩

/-- Changes a pipe. -/
def updatePipe (m : Machine) (id : PipeId) (change : Pipe → Pipe) : Machine :=
  { m with pipes := m.pipes.modify id change }

/-- Somebody reads what is written into a pipe. -/
def hasReader (m : Machine) (id : PipeId) : Bool :=
  (m.pipe id).watched || m.processes.any fun p => p.holds (.reader id)

/-- Somebody may still write into a pipe. -/
def hasWriter (m : Machine) (id : PipeId) : Bool :=
  (m.feeds.any fun f => f.pipe = id && !f.ended) || m.processes.any fun p => p.holds (.writer id)

/-! ## Reading and writing -/

/-- What reading a descriptor gives. -/
inductive Received where
  /-- Some bytes. -/
  | bytes (data : Bytes)
  /-- Nothing, now and later. -/
  | ended
  /-- Nothing yet. -/
  | nothing
  deriving Repr, DecidableEq

/-- Takes the bytes of a pipe, of which `choose` picks a first part. -/
def receivePipe (m : Machine) (id : PipeId) (choose : Bytes → Nat) : Machine × Received :=
  let p := m.pipe id
  if p.bytes.isEmpty then (m, if m.hasWriter id then .nothing else .ended)
  else
    let n := choose p.bytes
    (m.updatePipe id fun p => { p with bytes := p.bytes.drop n }, .bytes (p.bytes.take n))

/-- Reads bytes, of which `choose` picks a first part. -/
def receive (m : Machine) (o : Opened) (choose : Bytes → Nat) : Machine × Received :=
  match o with
  | .null | .writer _ => (m, .ended)
  | .reader id => m.receivePipe id choose
  | .file handle =>
    match m.files[handle]? with
    | none => (m, .ended)
    | some f =>
      let position := f.position.getD 0
      let bytes := (m.disk.node f.node).bytes.drop position
      if bytes.isEmpty then (m, .ended)
      else
        let n := choose bytes
        ({ m with files := m.files.setIfInBounds handle ⟨f.node, some (position + n)⟩ },
          .bytes (bytes.take n))

/-- Reads from a descriptor of a process. -/
def receiveOf (m : Machine) (id : ProcessId) (n : Nat) (choose : Bytes → Nat) :
    Machine × Received :=
  match (m.process id).descriptors.get? n with
  | some o => m.receive o choose
  | none => (m, .ended)

/-- How many bytes are read at once. -/
def pieceSize : Nat := 8192

/-- As many bytes as are read at once. -/
def wholePiece (bytes : Bytes) : Nat :=
  min bytes.length pieceSize

/-- As many bytes as the first line has, its newline included. -/
def wholeLine (bytes : Bytes) : Nat :=
  min bytes.length ((bytes.takeWhile (· != 10)).length + 1)

/-- What came of writing. -/
inductive Sent where
  /-- These bytes are still to be written. -/
  | left (data : Bytes)
  /-- Nobody reads them. -/
  | refused
  deriving Repr, DecidableEq

/-- Writes bytes. -/
def transmit (m : Machine) (o : Opened) (data : Bytes) : Machine × Sent :=
  match o with
  | .null => (m, .left [])
  | .reader _ => (m, .refused)
  | .file handle => (m.writeFile handle data, .left [])
  | .writer id =>
    if !m.hasReader id then (m, .refused)
    else
      let n := (m.pipe id).acceptable data.length
      (m.updatePipe id fun p => { p with bytes := p.bytes ++ data.take n }, .left (data.drop n))

/-- What came of writing pieces. -/
inductive Progress where
  /-- All is written. -/
  | complete
  /-- These pieces are still to be written; there is some progress or none. -/
  | partly (pieces : List (Nat × Bytes)) (moved : Bool)
  /-- The process has got a signal. -/
  | broken

/-- A process writes pieces as far as there is room. -/
def transmitAll (m : Machine) (id : ProcessId) (moved : Bool) :
    List (Nat × Bytes) → Machine × Progress
  | [] => (m, .complete)
  | (n, data) :: rest =>
    match if data.isEmpty then none else (m.process id).descriptors.get? n with
    | none => transmitAll m id moved rest
    | some o =>
      match m.transmit o data with
      | (m, .left []) => transmitAll m id true rest
      | (m, .left more) => (m, .partly ((n, more) :: rest) (moved || more.length < data.length))
      | (m, .refused) =>
        if (m.process id).ignored.contains pipeSignal then transmitAll m id true rest
        else (m.signal id pipeSignal, .broken)

/-! ## Files -/

/-- Opens a file for reading. -/
def openInput (m : Machine) (path : String) : Except SystemError HandleId × Machine :=
  match m.disk.find? true path with
  | .error e => (.error e, m)
  | .ok node => (.ok m.files.size, { m with files := m.files.push ⟨node, some 0⟩ })

end Runnel.Machine
