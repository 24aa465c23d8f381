import Runnel.Child.Run

/-!
# Runnel.Flow.Attend

Child processes of a command line: how they are started, and how what they write is delivered until
they have ended.

* `Machine.launch`: starts a process, unless the system refuses.
* `Machine.attend`: one turn of the supervision.
-/

namespace Runnel.Machine

/-! ## Starting -/

/-- Where a new process reads, and who writes there. -/
def openFeed (m : Machine) (source : Source) : Opened × Machine :=
  match source with
  | .empty | .inherited => (.null, m)
  | source =>
    let (pipe, m) := m.newPipe [] false
    (.reader pipe, { m with feeds := m.feeds.push ⟨pipe, source, [], false⟩ })

/-- Starts a process in a group. It cannot be started in a directory that is not there. -/
def launch (m : Machine) (l : Launch) (group : GroupId) : Machine × Except SystemError Attendance :=
  match m.disk.stat l.cwd with
  | .error e => (m.abandon l.stdin, .error e)
  | .ok node =>
    if !node.isDirectory then (m.abandon l.stdin, .error .notDirectory)
    else
      let (stdout, started) := m.newPipe [] true
      let (stderr, started) := started.newPipe [] true
      let (stdin, started) := started.openFeed l.stdin
      let cwd := (m.disk.canonical? l.cwd).toOption.getD l.cwd
      let (id, started) := started.addProcess
        ⟨cwd, [(0, stdin), (1, .writer stdout), (2, .writer stderr)], [], .ended (.code 0)⟩
      match started.becomeNamed id l.path l.args l.env with
      | .error e => (m.abandon l.stdin, .error e)
      | .ok started =>
        let started :=
          { started with groups := started.groups.modify group fun members => members ++ [id] }
        (started, .ok ⟨id, ⟨stdout, true, none⟩, ⟨stderr, true, none⟩, false⟩)

/-! ## Delivery -/

/-- Nobody reads an output any more. -/
def closeOutlet (m : Machine) (sink : Sink) (o : Outlet) : Machine × Outlet :=
  let m := match o.held with
    | some (ticket, _) => m.withdraw sink ticket
    | none => m
  (m.updatePipe o.pipe fun p => { p with watched := false },
    { o with isOpen := false, held := none })

/-- Delivers what comes out of one output in at most so many steps, until there is nothing or nobody
reads it. -/
def deliverOutlet (sink : Sink) : Nat → Machine → Outlet → Machine × Outlet
  | 0, m, o => (m, o)
  | n + 1, m, o =>
    if !o.isOpen then (m, o)
    else
      match o.held with
      | some (ticket, data) =>
        match m.write sink ticket data with
        | (m, .delivered true) => deliverOutlet sink n m { o with held := none }
        | (m, .delivered false) => m.closeOutlet sink { o with held := none }
        | (m, .held ticket) => (m, { o with held := some (ticket, data) })
      | none =>
        match m.receivePipe o.pipe wholePiece with
        | (m, .bytes data) => deliverOutlet sink n m { o with held := some (none, data) }
        | (m, .ended) => m.closeOutlet sink o
        | (m, .nothing) => (m, o)

/-- How far the supervision got in one turn. -/
inductive Attended where
  /-- The process has ended with this exit code. -/
  | ended (code : Int)
  /-- It will go on from here. -/
  | unfinished (a : Attendance)
  deriving Repr, DecidableEq

/-- The signal that asks a process to end. -/
def endSignal : Nat := 15

/-- A process that has ended leaves its group. -/
def leaveGroup (m : Machine) (group : GroupId) (id : ProcessId) : Machine :=
  { m with groups := m.groups.modify group fun members => members.filter (· != id) }

/-- One turn of the supervision. Once the token is set nothing more is delivered, and the process is
asked to end. -/
def attend (m : Machine) (stdout stderr : Sink) (group : GroupId) (token : TokenId)
    (a : Attendance) : Machine × Attended :=
  let (m, a) :=
    if m.isSet token && !a.terminated then
      let (m, out) := m.closeOutlet stdout a.stdout
      let (m, err) := m.closeOutlet stderr a.stderr
      (m.signal a.process endSignal, { a with stdout := out, stderr := err, terminated := true })
    else
      let (m, out) := deliverOutlet stdout (2 * turnBudget) m a.stdout
      let (m, err) := deliverOutlet stderr (2 * turnBudget) m a.stderr
      (m, { a with stdout := out, stderr := err })
  if a.stdout.isOpen || a.stderr.isOpen then (m, .unfinished a)
  else
    match (m.process a.process).ending? with
    | some ending => (m.leaveGroup group a.process, .ended ending.exitCode)
    | none => (m, .unfinished a)

end Runnel.Machine
