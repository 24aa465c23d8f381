import Runnel.Child.Start
import Runnel.Script.Parse
import Runnel.Script.Prepare

/-!
# Runnel.Child.Interpret

One step of a shell in its process. A step depends on what the shell does at the moment; when it has
run a command, the frame on top of its stack says how it goes on.

* `Machine.forkShell`: a process like the shell's own that does one thing.
* `Machine.stepShell`: the step; there is none as long as the shell has to wait.
-/

namespace Runnel.Machine

open Script

/-- Keeps a shell in its process. -/
def keep (m : Machine) (id : ProcessId) (i : Interpreter) : Machine :=
  m.setProgram id (.shell i)

/-- A new process in which a copy of the shell does one thing. -/
def forkShell (m : Machine) (id : ProcessId) (i : Interpreter) (control : Control)
    (change : Process → Process) : ProcessId × Machine :=
  m.addProcess (change { m.process id with program := .shell (i.inner control) })

/-! ## Redirects -/

/-- Where nothing is. -/
def nullDevice : String := "/dev/null"

/-- Why a file cannot be opened. -/
def openMessage (creates : Bool) (path : String) (e : SystemError) : String :=
  "cannot " ++ (if creates then "create " else "open ") ++ path ++ ": " ++
    match e with
    | .noEntry | .notDirectory => if creates then "Directory nonexistent" else "No such file"
    | e => e.reason

/-- What a redirect lets its descriptor stand for; `none` closes it. -/
def openRedirect (m : Machine) (id : ProcessId) (r : ReadyRedirect) :
    Machine × Except String (Option Opened) :=
  let path := Path.join (m.process id).cwd r.target
  let output := fun mode =>
    if path == nullDevice then (m, .ok (some Opened.null))
    else
      match m.openFile path mode with
      | (.ok handle, m) => (m, .ok (some (.file handle)))
      | (.error e, m) => (m, .error (openMessage true r.target e))
  match r.kind with
  | .write => output .overwrite
  | .append => output .append
  | .read =>
    if path == nullDevice then (m, .ok (some .null))
    else
      match m.openInput path with
      | (.ok handle, m) => (m, .ok (some (.file handle)))
      | (.error e, m) => (m, .error (openMessage false r.target e))
  | .here =>
    let (pipe, m) := m.newPipe (Text.encode r.target) false
    (m, .ok (some (.reader pipe)))
  | .duplicate =>
    if r.target == "-" then (m, .ok none)
    else
      match Builtin.natural? r.target with
      | none => (m, .error "Syntax error: Bad fd number")
      | some n =>
        match (m.process id).descriptors.get? n with
        | some o => (m, .ok (some o))
        | none => (m, .error (r.target ++ ": Bad file descriptor"))

/-- Redirects descriptors of a process one after the other; the answer holds what they stood for,
last one first, and what went wrong. -/
def redirect (id : ProcessId) :
    List ReadyRedirect → Machine → List (Nat × Option Opened) →
      Machine × List (Nat × Option Opened) × Option String
  | [], m, saved => (m, saved, none)
  | r :: rest, m, saved =>
    match m.openRedirect id r with
    | (m, .error message) => (m, saved, some message)
    | (m, .ok opened) =>
      let old := (m.process id).descriptors.get? r.descriptor
      redirect id rest
        (m.updateProcess id fun p =>
          { p with descriptors := p.descriptors.put r.descriptor opened })
        ((r.descriptor, old) :: saved)

/-- Lets descriptors stand for what they stood for. -/
def restore (m : Machine) (id : ProcessId) (saved : List (Nat × Option Opened)) : Machine :=
  m.updateProcess id fun p =>
    { p with descriptors := saved.foldl (fun ds (n, o) => ds.put n o) p.descriptors }

/-! ## Commands -/

/-- The shell goes on with an effect of a command of its own. -/
def applyEffect (m : Machine) (id : ProcessId) : Effect → Machine
  | .go i => m.keep id i
  | .move i cwd => (m.keep id i).updateProcess id fun p => { p with cwd }
  | .send i numbers signal =>
    let targets := numbers.map m.ofShownNumber
    let m := m.keep id (if targets.all Option.isSome then i
      else i.complain "kill: No such process\n" 1)
    (targets.filterMap fun t => t).foldl (fun m t => m.signal t signal) m
  | .heed i signals heeded =>
    (m.keep id i).updateProcess id fun p =>
      { p with
        ignored :=
          let others := p.ignored.filter fun n => !signals.contains n
          if heeded then others else others ++ signals }

/-- Says what a name stands for. -/
def nameEffect (m : Machine) (id : ProcessId) (i : Interpreter) (short : Bool)
    (names : List String) : Effect :=
  let found := names.map fun name =>
    (name, describeName i m.disk (m.process id).cwd short name)
  let lines := found.map fun (name, text) =>
    match text with
    | some text => text ++ "\n"
    | none => if short then "" else name ++ ": not found\n"
  let status := if found.all fun f => f.2.isSome then 0 else 127
  .go (i.put (Text.encode (String.join lines)) [] status)

/-- What a command of the shell itself does, if the name is one. -/
def builtinEffect? (m : Machine) (id : ProcessId) (i : Interpreter) (name : String)
    (args : List String) : Option Effect :=
  match name, args with
  | "type", args => some (m.nameEffect id i false args)
  | "command", "-v" :: names => some (m.nameEffect id i true names)
  | "command", [] => some (.go (i.finish 0))
  | name, args =>
    (builtins.lookup name).map fun b => b i m.disk (m.process id).cwd args

/-- The command behind the word `command`, which passes over functions. -/
def direct : List String → Bool × List String
  | "command" :: name :: args =>
    if name == "-v" || name == "-V" then (false, "command" :: name :: args)
    else (true, (direct (name :: args)).2)
  | words => (false, words)

/-- Assigns variables. -/
def assignAll (s : Scope) (exported : Bool) (assignments : List (String × String)) : Scope :=
  assignments.foldl
    (fun s (name, value) =>
      let s := s.assign name value
      if exported then s.expose name else s)
    s

/-- Runs a function. -/
def callFunction (i : Interpreter) (body : Body) (args : List String) : Interpreter :=
  { i.enter (.call i.scope.args) (.body body) with scope := { i.scope with args } }

/-- Runs a command whose words are expanded. `last` is the exit code of the last command that
occurred in a word. -/
def perform (m : Machine) (id : ProcessId) (i : Interpreter) (c : ReadyCommand)
    (last : Option Int) : Machine :=
  let i := { i with control := .finished }
  let (passesFunctions, words) := direct c.words
  match words with
  | [] =>
    match redirect id c.redirects m [] with
    | (m, saved, none) =>
      let i := { i with scope := assignAll i.scope false c.assignments }
      (m.restore id saved).keep id (i.finish (last.getD 0))
    | (m, saved, some message) => (m.restore id saved).keep id (i.complain message 2)
  | "exec" :: words =>
    match redirect id c.redirects m [] with
    | (m, _, some message) => m.keep id (i.abort message 2)
    | (m, _, none) =>
      if words.isEmpty then m.keep id (i.finish 0)
      else m.keep id (i.goTo (.become "exec: " ⟨c.assignments, words, []⟩))
  | name :: args =>
    let function := if passesFunctions then none else i.functions.lookup name
    let isBuiltin := function.isNone && (m.builtinEffect? id i name args).isSome
    if function.isNone && !isBuiltin then
      let control := Control.become "" { c with words }
      if i.isLast then m.keep id (i.goTo control)
      else
        let (child, m) := m.forkShell id i control fun p => p
        m.keep id (i.goTo (.await [child] false true))
    else
      let isSpecial := isBuiltin && specialBuiltins.contains name
      match redirect id c.redirects m [] with
      | (m, saved, some message) =>
        let i := if isSpecial then i.abort message 2 else i.complain message 2
        (m.restore id saved).keep id i
      | (m, saved, none) =>
        let frames := if saved.isEmpty then i.frames else .restore saved :: i.frames
        let frames := if c.assignments.isEmpty || isSpecial then frames
          else .rebind (i.scope.saved (c.assignments.map Prod.fst)) :: frames
        let i := { i with frames, scope := assignAll i.scope false c.assignments }
        match function with
        | some body => m.keep id (callFunction i body args)
        | none =>
          match m.builtinEffect? id i name args with
          | some effect => m.applyEffect id effect
          | none => m.keep id i

/-- The shell becomes the program of a command, or ends with a message that begins with the
label. -/
def becomeCommand (m : Machine) (id : ProcessId) (i : Interpreter) (label : String)
    (c : ReadyCommand) : Machine :=
  match redirect id c.redirects m [] with
  | (m, _, some message) => m.dieWith id (i.messageStart ++ message ++ "\n") 2
  | (m, _, none) =>
    let scope := assignAll i.scope true c.assignments
    let name := c.words.headD ""
    let args := c.words.tail
    let cwd := (m.process id).cwd
    let refused := fun (e : SystemError) =>
      let reason := match e with
        | .noEntry | .notDirectory => "not found"
        | e => e.reason
      m.dieWith id (i.messageStart ++ label ++ name ++ ": " ++ reason ++ "\n") (refusedCode e)
    match Builtin.findProgram m.disk cwd scope name with
    | .error e => refused e
    | .ok path =>
      match m.become id path name args scope.environment with
      | .ok m => m
      | .error .execFormat =>
        let text := Text.decodeLossy ((m.disk.readFile (Path.join cwd path)).toOption.getD [])
        m.keep id (Interpreter.ofText { scope with name := path, args } text)
      | .error e => refused e

/-- Starts the stages of a pipeline; `input` is where the first one of them reads. -/
def startStages (id : ProcessId) (i : Interpreter) :
    Option PipeId → List Body → Machine → List ProcessId → Machine × List ProcessId
  | _, [], m, started => (m, started.reverse)
  | input, stage :: rest, m, started =>
    let (output, m) :=
      if rest.isEmpty then (none, m)
      else
        let (pipe, m) := m.newPipe [] false
        (some pipe, m)
    let connect := fun (p : Process) =>
      let ds := match input with
        | some pipe => p.descriptors.put 0 (some (.reader pipe))
        | none => p.descriptors
      { p with
        descriptors := match output with
          | some pipe => ds.put 1 (some (.writer pipe))
          | none => ds }
    let (child, m) := m.forkShell id i (.body stage) connect
    startStages id i output rest m (child :: started)

/-- The signals that commands in the background take no notice of. -/
def quietSignals : List Nat := [2, 3]

/-- Starts a command in the background, which reads nothing. -/
def startBackground (m : Machine) (id : ProcessId) (i : Interpreter) (b : Body) :
    Machine × Interpreter :=
  let (child, m) := m.forkShell id i (.body b) fun p =>
    { p with descriptors := p.descriptors.put 0 (some .null), ignored := p.ignored ++ quietSignals }
  let scope := { i.scope with status := 0, background := some (shownNumber child) }
  (m, { i with jobs := i.jobs ++ [child], scope })

/-- Begins a command. -/
def beginBody (m : Machine) (id : ProcessId) (i : Interpreter) (b : Body) : Machine :=
  match b with
  | .simple line _ _ _ => m.keep id ({ i with line }.goTo (.expand b [] none))
  | .function name body =>
    m.keep id { i.finish 0 with
      functions := (name, body) :: i.functions.filter fun f => f.1 != name }
  | .andOr first rest => m.keep id (i.enter (.andOr rest) (.body first))
  | .pipeline negated [stage] =>
    m.keep id (if negated then i.enter .negate (.body stage) else i.goTo (.body stage))
  | .pipeline negated stages =>
    let (m, started) := startStages id i none stages m []
    let control := Control.await started false true
    m.keep id (if negated then i.enter .negate control else i.goTo control)
  | b =>
    if !(Body.redirects b).isEmpty then m.keep id (i.goTo (.expand b [] none))
    else
      match b with
      | .subshell body _ =>
        let (child, m) := m.forkShell id i (.items body) fun p => p
        m.keep id (i.goTo (.await [child] false true))
      | .group body _ => m.keep id (i.goTo (.items body))
      | .ifElse condition yes no _ => m.keep id (i.enter (.choose yes no) (.items condition))
      | .loop isUntil condition body _ =>
        m.keep id (i.enter (.condition isUntil condition body 0) (.items condition))
      | b => m.keep id (i.goTo (.expand b [] none))

/-- Runs the commands that were chosen, if there are any. -/
def runChosen (i : Interpreter) (commands : List Item) : Interpreter :=
  if commands.isEmpty then i.finish 0 else i.goTo (.items commands)

/-- Goes on with a command whose words are expanded. -/
def beginPrepared (m : Machine) (id : ProcessId) (i : Interpreter) (p : Prepared)
    (last : Option Int) : Machine :=
  match p with
  | .command c =>
    let trace := if i.scope.hasFlag 'x' && !(c.words.isEmpty && c.assignments.isEmpty) then
        let assigned := c.assignments.map fun (name, value) => name ++ "=" ++ value
        Text.encode ("+ " ++ " ".intercalate (assigned ++ c.words) ++ "\n")
      else []
    let m := match (m.process id).descriptors.get? 2 with
      | some o => if trace.isEmpty then m else (m.transmit o trace).1
      | none => m
    m.perform id i c last
  | .redirected b redirects =>
    match redirect id redirects m [] with
    | (m, saved, some message) => (m.restore id saved).keep id (i.complain message 2)
    | (m, saved, none) => m.keep id (i.enter (.restore saved) (.body b))
  | .loop name values body =>
    if values.isEmpty then m.keep id (i.finish 0)
    else m.keep id (i.enter (.values name values body) .passed)
  | .chosen commands => m.keep id (runChosen i commands)

/-- Expands the words of a command, as far as the outputs of other commands are known. -/
def expandBody (m : Machine) (id : ProcessId) (i : Interpreter) (b : Body) (outputs : List String)
    (last : Option Int) : Machine :=
  match (Expander.prepare m.disk (m.process id).cwd b).run ⟨i.scope, outputs⟩ with
  | .ok (p, s) => m.beginPrepared id { i with scope := s.scope } p last
  | .error (.fault message) => m.keep id (i.abort message 2)
  | .error (.needs commands) =>
    let (pipe, m) := m.newPipe [] false
    let (child, m) := m.forkShell id i (.items commands) fun p =>
      { p with descriptors := p.descriptors.put 1 (some (.writer pipe)) }
    m.keep id (i.goTo (.collect child pipe [] b outputs))

/-! ## What comes afterwards -/

/-- Reads on in a text. -/
def readOn (i : Interpreter) (source : ScriptSource) : Interpreter :=
  match readLine source with
  | .error fault => { i with line := fault.line }.abort fault.message 2
  | .ok (none, _) => i
  | .ok (some items, rest) => i.enter (.text rest) (.items items)

/-- The shell has run a command and goes on as a frame says. -/
def continueWith (m : Machine) (id : ProcessId) (i : Interpreter) (f : Frame) : Machine :=
  let succeeded := i.scope.status == 0
  match f with
  | .items rest => m.keep id (i.goTo (.items rest))
  | .andOr [] => m.keep id i
  | .andOr ((needsSuccess, b) :: rest) =>
    m.keep id (i.enter (.andOr rest) (if needsSuccess == succeeded then .body b else .passed))
  | .negate => m.keep id ((i.withStatus (if succeeded then 1 else 0)).goTo .passed)
  | .choose yes no => m.keep id (runChosen i (if succeeded then yes else no))
  | .condition isUntil condition body last =>
    m.keep id (if succeeded != isUntil then i.enter (.round isUntil condition body) (.items body)
      else i.finish last)
  | .round isUntil condition body =>
    m.keep id (i.enter (.condition isUntil condition body i.scope.status) (.items condition))
  | .values _ [] _ => m.keep id i
  | .values name (v :: rest) body =>
    m.keep id { i.enter (.values name rest body) (.items body) with scope := i.scope.assign name v }
  | .restore saved => (m.restore id saved).keep id i
  | .rebind saved => m.keep id { i with scope := i.scope.rebind saved }
  | .call args => m.keep id { i with scope := { i.scope with args } }
  | .text source => m.keep id (readOn i source)
  | .resume control status => m.keep id ((i.withStatus status).goTo control)

/-- The shell goes on as the frame on top says, and ends without one. -/
def continueOn (m : Machine) (id : ProcessId) (i : Interpreter) : Machine :=
  match i.frames with
  | [] => m.keep id (i.goTo .quit)
  | f :: frames => m.continueWith id { i with frames, control := .finished } f

/-- Leaves loops: drops the frames on top of the loop. -/
def leaveLoop (m : Machine) (id : ProcessId) (i : Interpreter) (loops : Nat) (again : Bool) :
    Machine :=
  let isLast := loops ≤ 1
  match i.frames with
  | [] => m.keep id (i.goTo .finished)
  | f :: frames =>
    let i := { i with frames }
    let out := if isLast then i.goTo .finished else i.goTo (.leave (loops - 1) again)
    match f with
    | .round _ _ _ | .condition _ _ _ _ | .values _ _ _ =>
      if isLast && again then m.continueWith id (i.goTo .finished) f else m.keep id out
    | .call _ | .text _ => m.keep id { i with frames := f :: frames, control := .finished }
    | .restore saved => (m.restore id saved).keep id i
    | .rebind saved => m.keep id { i with scope := i.scope.rebind saved }
    | _ => m.keep id i

/-- Leaves a function: drops the frames on top of its call. Outside of one the text is left. -/
def leaveFunction (m : Machine) (id : ProcessId) (i : Interpreter) : Machine :=
  match i.frames with
  | [] => m.keep id (i.goTo .quit)
  | f :: frames =>
    let i := { i with frames }
    match f with
    | .call args => m.keep id ({ i with scope := { i.scope with args } }.goTo .finished)
    | .text _ => m.keep id (i.goTo .finished)
    | .restore saved => (m.restore id saved).keep id i
    | .rebind saved => m.keep id { i with scope := i.scope.rebind saved }
    | _ => m.keep id i

/-- The shell ends, but for what it does at the end. -/
def quit (m : Machine) (id : ProcessId) (i : Interpreter) : Machine :=
  match i.traps.lookup 0 with
  | some action =>
    let i := { i with traps := i.traps.filter fun t => t.1 != 0 }
    m.keep id { i with
      control := .finished
      frames := [.text ⟨action.toList, 1⟩, .resume .quit i.scope.status] }
  | none => m.endProcess id (.code i.scope.status)

/-! ## Waiting -/

/-- What the shell says of processes that signals have ended. -/
def notices (endings : List Ending) : Bytes :=
  Text.encode (String.join (endings.filterMap fun e =>
    match e with
    | .signal n => (signalNotice n).map (· ++ "\n")
    | .code _ => none))

/-- The shell waits for processes. -/
def awaitProcesses (m : Machine) (id : ProcessId) (i : Interpreter) (processes : List ProcessId)
    (announcing : Bool) : Option Machine :=
  match processes.mapM fun p => (m.process p).ending? with
  | none => none
  | some endings =>
    let status := (endings.getLast?.map Ending.exitCode).getD 0
    let i := { i with jobs := i.jobs.filter fun j => !processes.contains j }
    some (m.keep id (i.put [] (if announcing then notices endings else []) status))

/-- Text without the newlines at its end. -/
def withoutNewlines (text : String) : String :=
  String.ofList (text.toList.reverse.dropWhile (· == '\n')).reverse

/-- The shell collects the output of commands that occur in a word. -/
def collectOutput (m : Machine) (id : ProcessId) (i : Interpreter) (child : ProcessId)
    (pipe : PipeId) (gathered : Bytes) (b : Body) (outputs : List String) : Option Machine :=
  match m.receivePipe pipe List.length with
  | (m, .bytes data) => some (m.keep id (i.goTo (.collect child pipe (gathered ++ data) b outputs)))
  | (_, .nothing) => none
  | (m, .ended) =>
    (m.process child).ending?.map fun ending =>
      let text := withoutNewlines (Text.decodeLossy (gathered.filter (· != 0)))
      m.keep id (i.goTo (.expand b (outputs ++ [text]) (some ending.exitCode)))

/-- A line goes on in the next one. -/
def goesOn (raw : Bool) (line : Bytes) : Bool :=
  let body := line.reverse.drop 1
  !raw && line.getLast? == some 10 && (body.takeWhile (· == 92)).length % 2 = 1

/-- The shell reads a line into variables. -/
def readInto (m : Machine) (id : ProcessId) (i : Interpreter) (raw : Bool) (names : List String)
    (gathered : Bytes) : Option Machine :=
  let done := fun (m : Machine) (line : Bytes) (status : Int) =>
    let i := i.finish status
    m.keep id { i with scope := i.scope.readLine raw names (Text.decodeLossy line) }
  match m.receiveOf id 0 wholeLine with
  | (m, .bytes data) =>
    let line := gathered ++ data
    if goesOn raw line then some (m.keep id (i.goTo (.readLine raw names (line.dropLast.dropLast))))
    else if line.getLast? == some 10 then some (done m line.dropLast 0)
    else some (m.keep id (i.goTo (.readLine raw names line)))
  | (_, .nothing) => none
  | (m, .ended) => some (done m gathered 1)

/-- The shell reads its script from its input. -/
def readScript (m : Machine) (id : ProcessId) (i : Interpreter) (gathered : Bytes) :
    Option Machine :=
  match m.receiveOf id 0 List.length with
  | (m, .bytes data) => some (m.keep id (i.goTo (.readScript (gathered ++ data))))
  | (_, .nothing) => none
  | (m, .ended) =>
    let text := (Text.decodeLossy gathered).toList
    some (m.keep id { i.goTo .finished with frames := [.text ⟨text, 1⟩] })

/-- The shell writes. -/
def writePieces (m : Machine) (id : ProcessId) (i : Interpreter) (pieces : List (Nat × Bytes)) :
    Option Machine :=
  match m.transmitAll id false pieces with
  | (m, .complete) => some (m.keep id (i.goTo .finished))
  | (m, .partly rest moved) => if moved then some (m.keep id (i.goTo (.write rest))) else none
  | (m, .broken) => some m

/-! ## Steps -/

/-- A signal may be seen to between commands, and while the shell waits for others in the
background. -/
def isInterruptible (c : Control) : Bool :=
  match c with
  | .items _ | .body _ | .finished | .passed => true
  | .await _ interruptible _ => interruptible
  | _ => false

/-- The shell does what is to be done at a signal. -/
def handleSignal (i : Interpreter) (signal : Nat) (rest : List Nat) : Interpreter :=
  let text := (i.traps.lookup signal).getD ""
  let (control, status) := match i.control with
    | .await _ _ _ => (Control.finished, (128 + signal : Int))
    | c => (c, i.scope.status)
  { i with
    caught := rest
    control := .finished
    frames := .text ⟨text.toList, 1⟩ :: .resume control status :: i.frames }

/-- One step of a shell. -/
def stepShell (m : Machine) (id : ProcessId) (i : Interpreter) : Option Machine :=
  match i.caught, isInterruptible i.control with
  | signal :: rest, true => some (m.keep id (handleSignal i signal rest))
  | _, _ =>
    match i.control with
    | .items [] => some (m.keep id (i.goTo .finished))
    | .items (.mk b background :: rest) =>
      let frames := if rest.isEmpty then i.frames else .items rest :: i.frames
      let i := { i with frames }
      if background then
        let (m, i) := m.startBackground id i b
        some (m.keep id (i.goTo .finished))
      else some (m.keep id (i.goTo (.body b)))
    | .body b => some (m.beginBody id i b)
    | .expand b outputs last => some (m.expandBody id i b outputs last)
    | .collect child pipe gathered b outputs => m.collectOutput id i child pipe gathered b outputs
    | .become label c => some (m.becomeCommand id i label c)
    | .await processes _ announcing => m.awaitProcesses id i processes announcing
    | .write pieces => m.writePieces id i pieces
    | .readScript gathered => m.readScript id i gathered
    | .readLine raw names gathered => m.readInto id i raw names gathered
    | .leave loops again => some (m.leaveLoop id i loops again)
    | .giveBack => some (m.leaveFunction id i)
    | .quit => some (m.quit id i)
    | .passed => some (m.continueOn id i)
    | .finished =>
      if i.failsNow then some (m.keep id (i.goTo .quit)) else some (m.continueOn id i)

end Runnel.Machine
