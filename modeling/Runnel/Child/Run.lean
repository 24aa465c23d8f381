import Runnel.Child.Interpret

/-!
# Runnel.Child.Run

How child processes and those who write to them go on.

* `Machine.stepProcess`, `Machine.stepFeed`: one step, if nothing holds them up.
* `Machine.runChildren`: a round in which everybody gets some steps.
* `Machine.nextAwakening?`: the next moment at which somebody has slept enough.
-/

namespace Runnel.Machine

/-! ## Tools -/

/-- A process goes on with a tool. -/
def keepTool (m : Machine) (id : ProcessId) (t : Tool) : Machine :=
  m.setProgram id (.tool t)

/-- Where programs are if no search path says so. -/
def defaultSearchPath : String := "/bin:/usr/bin"

/-- Where the program of a name may be, as the variables of a new process say. -/
def programPaths (env : Environment) (name : String) : List String :=
  if name.toList.contains '/' then [name]
  else (Search.directories ((env.get? "PATH").getD defaultSearchPath)).map fun dir =>
    (if dir.isEmpty then "." else dir) ++ "/" ++ name

/-- A process goes on with the first program that is there. A program that may not be run counts
only if there is no other. -/
def becomeFirst (m : Machine) (id : ProcessId) (name : String) (args : List String)
    (env : Environment) : SystemError → List String → Except SystemError Machine
  | e, [] => .error e
  | e, path :: rest =>
    match m.become id path name args env with
    | .ok m => .ok m
    | .error .noEntry | .error .notDirectory => becomeFirst m id name args env e rest
    | .error .denied => becomeFirst m id name args env .denied rest
    | .error e => .error e

/-- A process goes on with the program of a name. -/
def becomeNamed (m : Machine) (id : ProcessId) (name : String) (args : List String)
    (env : Environment) : Except SystemError Machine :=
  if name.isEmpty then .error .noEntry
  else m.becomeFirst id name args env .noEntry (programPaths env name)

/-- One step of a tool. -/
def stepTool (m : Machine) (id : ProcessId) (t : Tool) : Option Machine :=
  match t with
  | .report r =>
    match m.transmitAll id false r.pieces with
    | (m, .complete) => some (m.endProcess id (.code r.code))
    | (m, .partly rest moved) =>
      if moved then some (m.keepTool id (.report { r with pieces := rest })) else none
    | (m, .broken) => some m
  | .idle moment => if moment ≤ m.clock then some (m.endProcess id (.code 0)) else none
  | .again data held =>
    match m.transmitAll id false [(1, held)] with
    | (m, .complete) => some (m.keepTool id (.again data data))
    | (m, .partly rest moved) =>
      if moved then some (m.keepTool id (.again data (rest.flatMap Prod.snd))) else none
    | (m, .broken) => some m
  | .convert change inputs (piece :: held) code =>
    match m.transmitAll id false (piece :: held) with
    | (m, .complete) => some (m.keepTool id (.convert change inputs [] code))
    | (m, .partly rest moved) =>
      if moved then some (m.keepTool id (.convert change inputs rest code)) else none
    | (m, .broken) => some m
  | .convert _ [] [] code => some (m.endProcess id (.code code))
  | .convert change (.bytes data :: rest) [] code =>
    some (m.keepTool id (.convert change rest [(1, change data)] code))
  | .convert change (.missing message :: rest) [] _ =>
    some (m.keepTool id (.convert change rest [(2, Text.encode message)] 1))
  | .convert change (.own :: rest) [] code =>
    match m.receiveOf id 0 wholePiece with
    | (m, .bytes data) =>
      some (m.keepTool id (.convert change (.own :: rest) [(1, change data)] code))
    | (m, .ended) => some (m.keepTool id (.convert change rest [] code))
    | (_, .nothing) => none
  | .gather lines gathered report =>
    let conclude := fun (m : Machine) =>
      let (r, disk) := report gathered m.disk
      some ({ m with disk }.keepTool id (.report r))
    if isEnough lines gathered then conclude m
    else
      match m.receiveOf id 0 wholePiece with
      | (m, .bytes data) => some (m.keepTool id (.gather lines (gathered ++ data) report))
      | (m, .ended) => conclude m
      | (_, .nothing) => none
  | .become name args env =>
    match m.becomeNamed id name args env with
    | .ok m => some m
    | .error e =>
      some (m.dieWith id ("env: '" ++ name ++ "': " ++ e.reason ++ "\n") (refusedCode e))

/-! ## Feeds -/

/-- Somebody who writes to a child process is done. -/
def endFeed (m : Machine) (k : Nat) (f : Feed) : Machine :=
  { m.abandon f.source with feeds := m.feeds.setIfInBounds k { f with ended := true } }

/-- One step of somebody who writes to a child process. -/
def stepFeed (m : Machine) (k : Nat) (f : Feed) : Option Machine :=
  let keepFeed := fun (m : Machine) (f : Feed) =>
    some { m with feeds := m.feeds.setIfInBounds k f }
  if f.ended then none
  else if f.held.isEmpty then
    match f.source with
    | .empty | .inherited => some (m.endFeed k f)
    | .bytes data => keepFeed m { f with source := .empty, held := data }
    | .channel id =>
      match m.beginTurn.take id with
      | (m, .chunk c) => keepFeed m { f with held := c.data }
      | (m, .ended) => some (m.endFeed k f)
      | (_, .nothing) => none
  else
    match m.transmit (.writer f.pipe) f.held with
    | (m, .refused) => some (m.endFeed k f)
    | (m, .left data) =>
      if data.length < f.held.length then keepFeed m { f with held := data } else none

/-! ## Rounds -/

/-- One step of a process. -/
def stepProcess (m : Machine) (id : ProcessId) : Option Machine :=
  match (m.process id).program with
  | .ended _ => none
  | .shell i => m.stepShell id i
  | .tool t => m.stepTool id t

/-- At most so many steps of somebody; the answer says whether there were any. -/
def repeatStep (step : Machine → Option Machine) : Nat → Machine → Machine × Bool
  | 0, m => (m, false)
  | n + 1, m =>
    match step m with
    | none => (m, false)
    | some m => ((repeatStep step n m).1, true)

/-- How many steps somebody takes in one round. -/
def roundSteps : Nat := 64

/-- Everybody takes some steps; the answer says whether there were any. -/
def takeSteps (steps : List (Machine → Option Machine)) (m : Machine) : Machine × Bool :=
  steps.foldl
    (fun (m, moved) step =>
      let (m, here) := repeatStep step roundSteps m
      (m, moved || here))
    (m, false)

/-- The steps of those who are alive. -/
def liveSteps (m : Machine) : List (Machine → Option Machine) :=
  let feeds := (List.range m.feeds.size).map fun k => fun (m : Machine) =>
    (m.feeds[k]?).bind (m.stepFeed k)
  let living := (List.range m.processes.size).filter fun id => (m.process id).isAlive
  feeds ++ living.map fun id => fun m => m.stepProcess id

/-- A round in which everybody takes some steps; the answer says whether there were any. -/
def runChildren (m : Machine) : Machine × Bool :=
  takeSteps m.liveSteps m

/-- The next moment at which somebody has slept enough. -/
def nextAwakening? (m : Machine) : Option Nat :=
  (m.processes.toList.filterMap fun p =>
    match p.program with
    | .tool (.idle moment) => some moment
    | _ => none).min?

end Runnel.Machine
