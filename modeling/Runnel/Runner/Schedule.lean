import Runnel.Runner.Turn

/-!
# Runnel.Runner.Schedule

Who gets the next turn. Tasks that can go on wait in line; whoever stands outside the system and
asks for something gets the turn when the line is empty, and now and then in between.

When nobody is in line, those go on who let others go first; then those for whom the system worked;
then child processes go on; then the clock moves to the next moment that somebody waits for.

* `System.enqueue`: those who can go on join the line.
* `System.ask`: repeats a request until there is an answer or nothing can happen any more.
-/

namespace Runnel.System

/-- How many turns there are before whoever stands outside gets one. -/
def roundLength : Nat := 61

/-- Sends the tasks to the line that are not in it and for which the test holds. -/
def enqueueIf (s : System) (test : Routine → Bool) : System :=
  let woken := (List.range s.tasks.size).filter fun id =>
    match s.tasks[id]? with
    | some t => !t.queued && test t.routine
    | none => false
  woken.foldl
    (fun s id =>
      { s with
        tasks := s.tasks.modify id fun t => { t with queued := true }
        ready := s.ready ++ [id] })
    s

/-- Those who can go on join the line. -/
def enqueue (s : System) : System :=
  s.enqueueIf fun routine => (s.holds routine).any s.isOver

/-- Those who wait for exactly this join the line. -/
def enqueueWaiting (s : System) (w : Wait) : System :=
  s.enqueueIf fun routine => (s.holds routine).contains (.wait w)

/-- Somebody waits for exactly this. -/
def anyoneWaits (s : System) (w : Wait) : Bool :=
  s.tasks.any fun t => !t.queued && (s.holds t.routine).contains (.wait w)

/-- The next moment that somebody waits for. -/
def nextMoment? (s : System) : Option Nat :=
  let moments := s.tasks.toList.flatMap fun t => (s.holds t.routine).filterMap fun h =>
    match h with
    | .wait (.time moment) => some moment
    | _ => none
  (moments ++ s.machine.nextAwakening?.toList).min?

/-- The first in line takes its turn. -/
def serveFirst (s : System) : Option System :=
  match s.ready with
  | [] => none
  | task :: ready => some ({ s with ready }.takeTurn task).enqueue

/-- At most so many turns. -/
def serveRound : Nat → System → System
  | 0, s => s
  | n + 1, s =>
    match s.serveFirst with
    | some s => serveRound n s
    | none => s

/-- Nobody is in line: those go on who can be made to, not later than the deadline. -/
def stir (s : System) (deadline : Option Nat) : Option System :=
  if s.anyoneWaits .turn then some (s.enqueueWaiting .turn)
  else if s.anyoneWaits .rest then some (s.enqueueWaiting .rest)
  else
    let (machine, moved) := s.machine.runChildren
    if moved then some { s with machine }.enqueue
    else
      let moment := match s.nextMoment?, deadline with
        | some a, some b => some (min a b)
        | some a, none => some a
        | none, b => b
      moment.map fun moment =>
        (s.updateMachine fun m => { m with clock := max m.clock moment }).enqueue

/-- The deadline has passed. -/
def isLate (s : System) (deadline : Option Nat) : Bool :=
  deadline.any (· ≤ s.machine.clock)

/-- Repeats a request until there is an answer, the deadline has passed, or nothing can happen any
more; gives up after so many rounds. -/
def askWithin {α : Type} (request : System → System × Option α) (deadline : Option Nat) :
    Nat → System → System × Option α
  | 0, s => (s, none)
  | rounds + 1, s =>
    match request (s.updateMachine Machine.beginTurn) with
    | (s, some answer) => (s, some answer)
    | (s, none) =>
      if s.isLate deadline then (s, none)
      else
        let s := s.enqueue
        if s.ready.isEmpty then
          match s.stir deadline with
          | some s => askWithin request deadline rounds s
          | none => (s, none)
        else
          askWithin request deadline rounds (serveRound roundLength s)

/-- More rounds than any run needs that ends. -/
def patience : Nat := 10000000

/-- Repeats a request until there is an answer or nothing can happen any more. -/
def ask {α : Type} (s : System) (request : System → System × Option α) : System × Option α :=
  askWithin request none patience s

/-- Lets everything run that can, for so many milliseconds. -/
def settle (s : System) (milliseconds : Nat) : System :=
  (askWithin (fun s => (s, (none : Option Unit))) (some (s.machine.clock + milliseconds)) patience
    s).1

/-- The result of a runner, once there is one; it is started if need be. -/
def wait (s : System) (r : RunnerId) : System × Option RunResult :=
  (s.ensureStarted r).ask fun s => (s, (s.runner r).result)

/-- The result of a runner, or an error if it failed and failures count as errors. -/
def await (s : System) (r : RunnerId) : System × Option (Except RunError RunResult) :=
  let (s, result) := s.wait r
  (s, result.map fun result =>
    if result.code != 0 && (s.runner r).options.reject then .error (.commandFailed result)
    else .ok result)

end Runnel.System
