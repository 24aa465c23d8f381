import Runnel.Child.Table
import Runnel.Runner.System

/-!
# Runnel.Runner.Finish

The end of a run.

* `System.tell`: listeners hear of an event and may react.
* `System.finish`: records the result. Only the first call does anything.
* `System.kill`: ends a runner with a signal, and all that it runs.
-/

namespace Runnel.System

/-- Tells those who want to hear about an event; `react` is what a reaction does. -/
def tell (react : Signal → System → System) (r : RunnerId) (listeners : List Listener)
    (s : System) (e : Event) : System :=
  (Listener.hearing listeners e).foldl
    (fun s l =>
      let s := { s with journal := (r, e) :: s.journal }
      match l.reaction with
      | some signal => react signal s
      | none => s)
    s

/-- What is said of input that has been closed. -/
def inputClosed : RunError := .stream "stdin is closed"

/-- What is said of input that nobody reads. -/
def inputUnread : RunError := .stream "stdin reader is gone"

/-- Closes a writer of live input. -/
def closeWriter (s : System) (id : WriterId) : System :=
  let w := s.writer id
  if w.isOpen then
    { s with writers := s.writers.setIfInBounds id { w with isOpen := false } }.updateChannel
      w.channel Channel.dropWriter
  else s

/-- Takes a runner out of the supervisor. -/
def unregister (s : System) (r : RunnerId) : System :=
  { s with supervisor := (s.supervisor.unregister r).2 }

/-- Nobody reads along any more. -/
def dropSubscribers (s : System) (channels : List ChannelId) : System :=
  channels.foldl (fun s id => s.updateChannel id Channel.dropWriter) s

/-- Records a result, unless there is one; `react` is what a reaction of a listener does. -/
def finishWith (react : Signal → System → System) (r : RunnerId) (code : Int) (s : System) :
    System :=
  let runner := s.runner r
  if runner.result.isSome then s
  else
    let result := RunResult.ofChunks code runner.chunks.toList
    let s := s.dropSubscribers runner.subscribers
    let s := match runner.stdin with
      | some writer => s.closeWriter writer
      | none => s
    let s := if runner.registered then s.unregister r else s
    let s := s.updateRunner r fun x =>
      { x with
        phase := .finished
        result := some result
        subscribers := []
        stdin := none
        registered := false
        listeners := [] }
    (Event.ofResult result).foldl (tell react r runner.listeners) s

/-- Sends a signal to the child processes of a runner. -/
def signalChildren (s : System) (r : RunnerId) (signal : Signal) : System :=
  s.updateMachine fun m => m.signalGroup (s.runner r).group signal.number

/-- Kills a runner and all that it runs, nested at most so deep. -/
def killWithin : Nat → Signal → RunnerId → System → System
  | 0, _, _, s => s
  | depth + 1, signal, r, s =>
    let reach := fun signal s =>
      (s.runner r).job.stages.foldl (fun s stage => killWithin depth signal stage s)
        (s.signalChildren r signal)
    let s := reach signal s
    if (s.runner r).isFinished then s
    else
      let s := s.updateMachine fun m => m.setToken (s.runner r).token
      finishWith reach r signal.exitCode s

/-- Kills a runner and all that it runs: the stages of a pipe first. A runner that is finished keeps
its result, but its child processes still get the signal. -/
def kill (s : System) (signal : Signal) (r : RunnerId) : System :=
  killWithin (r + 1) signal r s

/-- Records the result of a runner, unless there is one. -/
def finish (s : System) (r : RunnerId) (code : Int) : System :=
  finishWith (fun signal s => s.kill signal r) r code s

/-- Tells the listeners of a runner. -/
def emit (s : System) (r : RunnerId) (e : Event) : System :=
  tell (fun signal s => s.kill signal r) r (s.runner r).listeners s e

/-- Tells the listeners of a runner of several events. Who listens is settled before the first. -/
def emitAll (s : System) (r : RunnerId) (events : List Event) : System :=
  events.foldl (tell (fun signal s => s.kill signal r) r (s.runner r).listeners) s

/-- Sets a token and says whether it was not set before. -/
def cancel (s : System) (token : TokenId) : Bool × System :=
  (!s.machine.isSet token, s.updateMachine fun m => m.setToken token)

/-- Registers a built-in command. -/
def register (s : System) (name : String) (handler : Handler) : Registration × System :=
  let m := s.machine
  let (token, registry) := m.registry.register m.serial name handler
  (token, { s with machine := { m with registry, serial := m.serial + 1 } })

/-- Takes a built-in command away, if the registration still stands; says whether it did. -/
def unregisterCommand (s : System) (registration : Registration) : Bool × System :=
  match s.machine.registry.unregister? registration with
  | some registry => (true, { s with machine := { s.machine with registry } })
  | none => (false, s)

end Runnel.System
