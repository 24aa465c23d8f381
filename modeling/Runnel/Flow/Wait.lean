import Runnel.Child.Table

/-!
# Runnel.Flow.Wait

What holds up those who run.

* `Wait`, `Machine.isOver`: something that holds somebody up, and when it is over.
* `Machine.waitsOfSink` and the like: what a request waits for that could not be answered at once.
-/

namespace Runnel

/-- What holds somebody up. -/
inductive Wait where
  /-- A channel has no chunk and has not ended. -/
  | chunk (id : ChannelId)
  /-- A channel has no room. -/
  | room (id : ChannelId) (ticket : Option Ticket)
  /-- A child process has not written anything, and may still do so. -/
  | output (pipe : PipeId)
  /-- A child process has not ended. -/
  | ending (process : ProcessId)
  /-- A token is not set. -/
  | token (id : TokenId)
  /-- A moment has not come. -/
  | time (moment : Nat)
  /-- The system works. -/
  | rest
  /-- It is the turn of others. -/
  | turn
  deriving Repr, DecidableEq

namespace Machine

/-- A wait is over. What only a new turn can end is never over by itself. -/
def isOver (m : Machine) : Wait → Bool
  | .chunk id =>
    let c := m.channel id
    !c.queue.isEmpty || c.isEnded
  | .room id ticket =>
    let c := m.channel id
    !c.hasReader ||
      match ticket with
      | some t => c.granted.contains t || (c.room != 0 && !c.waiting.contains t)
      | none => c.room != 0
  | .output id => !(m.pipe id).bytes.isEmpty || !m.hasWriter id
  | .ending id => !(m.process id).isAlive
  | .token id => m.isSet id
  | .time moment => moment ≤ m.clock
  | .rest | .turn => false

/-- What a writer waits for. -/
def waitsOfSink : Sink → Option Ticket → List Wait
  | .channel id _, ticket => [.room id ticket]
  | _, _ => [.turn]

/-- What a reader waits for. -/
def waitsOfSource : Source → List Wait
  | .channel id => [.chunk id]
  | _ => [.turn]

/-- What a generator waits for. -/
def waitsOfGenerator (g : Generator) (i : Invocation) (stdout stderr : Sink) (token : TokenId)
    (p : GeneratorProgress) (ticket : Option Ticket) : List Wait :=
  match g.next i p.steps p.refused with
  | .send _ => .token token :: waitsOfSink stdout ticket
  | .sendError _ => .token token :: waitsOfSink stderr ticket
  | .awaitCancel => [.token token]
  | _ => [.turn]

/-- What the delivery of one output waits for. -/
def waitsOfOutlet (sink : Sink) (o : Outlet) : List Wait :=
  if !o.isOpen then []
  else
    match o.held with
    | some (ticket, _) => waitsOfSink sink ticket
    | none => [.output o.pipe]

/-- What the supervision of a child process waits for. -/
def waitsOfAttendance (stdout stderr : Sink) (token : TokenId) (a : Attendance) : List Wait :=
  (if a.terminated then [] else [.token token]) ++
    (if a.stdout.isOpen || a.stderr.isOpen then
      waitsOfOutlet stdout a.stdout ++ waitsOfOutlet stderr a.stderr
    else [.ending a.process])

end Machine
end Runnel
