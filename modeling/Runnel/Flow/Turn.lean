import Runnel.Flow.Attend
import Runnel.Flow.Wait
import Runnel.Host.Program

/-!
# Runnel.Flow.Turn

One turn of work: requests are answered until one has to wait.

* `Work.advance`: the turn.
* `Work.waits`: what the work waits for after its turn.
* `Work.isComplete`: nothing is left to do.
-/

namespace Runnel.Work

/-- How many chunks there are between two stages of a pipeline at most. -/
def pipeCapacity : Nat := 16

/-- The exit codes of branches, once all are complete. -/
def codes? : List Work → Option (List Int)
  | [] => some []
  | .done code _ :: more => (codes? more).map (code :: ·)
  | _ :: _ => none

/-- The work has broken down. -/
def hasCrashed : Work → Bool
  | .crash => true
  | _ => false

/-- When a pause that begins now is over. -/
def pauseEnd (m : Machine) (length : Number.Duration) : Option Nat → Nat
  | some moment => moment
  | none => m.clock + length.millis

mutual

/-- Goes on with work until it is complete or has to wait. -/
def advance : Work → Machine → Machine × Work
  | .done code ctx, m => (m, .done code ctx)
  | .crash, m => (m, .crash)
  | .rest begun next, m => if begun then advance next m else (m, .rest true next)
  | .ask token next, m => advance (next (m.isSet token)) m
  | .write ticket sink data next, m =>
    match m.write sink ticket data with
    | (m, .delivered ok) => advance (next ok) m
    | (m, .held ticket) => (m, .write ticket sink data next)
  | .read source lines gathered next, m =>
    match m.gather source lines gathered with
    | (m, gathered, true) => advance (next gathered) m
    | (m, gathered, false) => (m, .read source lines gathered next)
  | .load path next, m => advance (next (m.disk.readFile path)) m
  | .openFile path mode next, m =>
    let (opened, m) := m.openFile path mode
    advance (next opened) m
  | .lookUp name next, m => advance (next (m.registry.get? name)) m
  | .call c i next, m =>
    let (outcome, disk) := c.run i m.disk
    advance (next outcome) { m with disk }
  | .pause length moment token next, m =>
    let moment := pauseEnd m length moment
    if moment ≤ m.clock then advance (next false) m
    else if m.isSet token then advance (next true) m
    else (m, .pause length (some moment) token next)
  | .generate g i stdout stderr token progress ticket next, m =>
    match m.produce g i stdout stderr token progress ticket with
    | (m, .ended how) => advance (next how) m
    | (m, .unfinished progress ticket) =>
      (m, .generate g i stdout stderr token progress ticket next)
  | .retain sink next, m => advance next (m.retain sink)
  | .release sink next, m => advance next (m.release sink)
  | .abandon source next, m => advance next (m.abandon source)
  | .connect next, m =>
    let (id, m) := m.newChannel pipeCapacity
    advance (next id) m
  | .together branches next, m =>
    let (m, branches) := advanceAll branches m
    match codes? branches with
    | some codes => advance (next codes) m
    | none => if branches.any hasCrashed then (m, .crash) else (m, .together branches next)
  | .seek searchPath cwd name next, m =>
    advance (next (Search.program? m.disk searchPath cwd name)) m
  | .launch l group next, m =>
    let (m, started) := m.launch l group
    advance (next started) m
  | .attend stdout stderr group token a next, m =>
    match m.attend stdout stderr group token a with
    | (m, .ended code) => advance (next code) m
    | (m, .unfinished a) => (m, .attend stdout stderr group token a next)

/-- Goes on with each branch in turn, up to one that breaks down. -/
def advanceAll : List Work → Machine → Machine × List Work
  | [], m => (m, [])
  | b :: more, m =>
    let (m, b) := advance b m
    if hasCrashed b then (m, b :: more)
    else
      let (m, more) := advanceAll more m
      (m, b :: more)

end

mutual

/-- What work waits for that has had its turn. -/
def waits : Work → List Wait
  | .done _ _ | .crash => []
  | .rest _ _ => [.rest]
  | .write ticket sink _ _ => Machine.waitsOfSink sink ticket
  | .read source _ _ _ => Machine.waitsOfSource source
  | .pause _ (some moment) token _ => [.time moment, .token token]
  | .generate g i stdout stderr token progress ticket _ =>
    Machine.waitsOfGenerator g i stdout stderr token progress ticket
  | .together branches _ => waitsOfAll branches
  | .attend stdout stderr _ token a _ => Machine.waitsOfAttendance stdout stderr token a
  | _ => [.turn]

/-- What any of several branches waits for. -/
def waitsOfAll : List Work → List Wait
  | [] => []
  | b :: more => waits b ++ waitsOfAll more

end

/-- The work is complete or has broken down. -/
def isComplete : Work → Bool
  | .done _ _ | .crash => true
  | _ => false

end Runnel.Work
