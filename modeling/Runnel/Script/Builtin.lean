import Runnel.Host.Program
import Runnel.Script.Format
import Runnel.Script.Interpreter
import Runnel.Utility.Condition

/-!
# Runnel.Script.Builtin

The commands that a shell runs itself. Each is a function of what the shell keeps, of the disk and
of the working directory; what it does beyond the shell is its effect. How scripts call signals, and
what is said of a process that a signal has ended.
-/

namespace Runnel.Script

/-- The signals that scripts can name, and what is said of what they end. -/
def signalTable : List (String × Nat × String) :=
  [("EXIT", 0, ""), ("HUP", 1, "Hangup"), ("INT", 2, "Interrupt"), ("QUIT", 3, "Quit"),
    ("ILL", 4, "Illegal instruction"), ("TRAP", 5, "Trace/breakpoint trap"), ("ABRT", 6, "Aborted"),
    ("BUS", 7, "Bus error"), ("FPE", 8, "Floating point exception"), ("KILL", 9, "Killed"),
    ("USR1", 10, "User defined signal 1"), ("SEGV", 11, "Segmentation fault"),
    ("USR2", 12, "User defined signal 2"), ("PIPE", 13, "Broken pipe"), ("ALRM", 14, "Alarm clock"),
    ("TERM", 15, "Terminated"), ("CHLD", 17, "Child exited"), ("CONT", 18, "Continued"),
    ("STOP", 19, "Stopped (signal)"), ("URG", 23, "Urgent I/O condition"),
    ("WINCH", 28, "Window changed")]

/-- The number of a signal that is given by name or number. -/
def signalNumber? (text : String) : Option Nat :=
  match text.toList with
  | [] => none
  | cs =>
    if cs.all Char.isDigit then
      let n := cs.foldl (fun n c => n * 10 + (c.toNat - '0'.toNat)) 0
      if n ≤ 64 then some n else none
    else (signalTable.lookup (Text.upper text)).map Prod.fst

/-- The name of a signal. -/
def signalName (n : Nat) : String :=
  match signalTable.find? fun s => s.2.1 = n with
  | some (name, _) => name
  | none => Text.digits n

/-- What is said of a process that a signal has ended. Some signals are passed over in silence. -/
def signalNotice (n : Nat) : Option String :=
  if n = 2 || n = 13 then none
  else
    match signalTable.find? fun s => s.2.1 = n with
    | some (_, _, text) => some text
    | none => some ("Signal " ++ Text.digits n)

/-- What a command of the shell itself does. -/
inductive Effect where
  /-- The shell goes on. -/
  | go (i : Interpreter)
  /-- The shell goes on in a directory. -/
  | move (i : Interpreter) (cwd : String)
  /-- The shell goes on, and processes get a signal. -/
  | send (i : Interpreter) (numbers : List Nat) (signal : Nat)
  /-- The shell goes on and takes notice of signals, or does not. -/
  | heed (i : Interpreter) (signals : List Nat) (heeded : Bool)

/-- A command of the shell itself: what it does with arguments. -/
abbrev Builtin : Type := Interpreter → Disk → String → List String → Effect

namespace Builtin

/-- A number without a sign. -/
def natural? (text : String) : Option Nat :=
  if text.isEmpty || !text.toList.all Char.isDigit then none
  else some (Scope.number text.toList)

/-- Ends with a code. -/
def status (code : Int) : Builtin := fun i _ _ _ =>
  .go (i.finish code)

/-- Writes text. -/
def print (i : Interpreter) (text : String) : Effect :=
  .go (i.put (Text.encode text) [] 0)

/-- Ends with a message. -/
def refuse (i : Interpreter) (name message : String) (code : Int) : Effect :=
  .go (i.complain (name ++ ": " ++ message) code)

/-- Ends the shell with a message. -/
def breakOff (i : Interpreter) (name message : String) : Effect :=
  .go (i.abort (name ++ ": " ++ message) 2)

/-- Does something with a number, which may be missing. -/
def withNumber (name : String) (default : Interpreter → Int) (next : Interpreter → Int → Effect) :
    Builtin := fun i _ _ args =>
  match args with
  | [] => next i (default i)
  | text :: _ =>
    match natural? text with
    | some n => next i n
    | none => breakOff i name ("Illegal number: " ++ text)

/-! ## Output -/

/-- Prints its arguments. -/
def echo : Builtin := fun i _ _ args =>
  .go (i.put (echoBytes args) [] 0)

/-- Prints its arguments in a format. -/
def printf : Builtin := fun i _ _ args =>
  match args with
  | [] => refuse i "printf" "usage: printf format [arg ...]" 2
  | format :: args =>
    let (bytes, faults) := formatBytes format args
    let messages := faults.map fun f => i.messageStart ++ "printf: " ++ f ++ "\n"
    .go (i.put bytes (Text.encode (String.join messages)) (if faults.isEmpty then 0 else 1))

/-! ## Conditions -/

/-- Splits arguments at a word that is neither the first nor the last. -/
def splitAtWord (word : String) (args : List String) : Option (List String × List String) :=
  let before := args.takeWhile (· != word)
  let after := args.drop (before.length + 1)
  if before.isEmpty || after.isEmpty then none else some (before, after)

/-- Evaluates a condition without alternatives. Texts can also be compared by their order. -/
def evaluateOne (stat : String → Except SystemError Node) :
    List String → Except Condition.ConditionError Bool
  | [left, "<", right] => .ok (decide (left < right))
  | [left, ">", right] => .ok (decide (right < left))
  | args => Condition.evaluate stat args

/-- Evaluates a condition with alternatives; the number bounds how many there are. -/
def evaluate (stat : String → Except SystemError Node) :
    Nat → List String → Except Condition.ConditionError Bool
  | 0, args => evaluateOne stat args
  | n + 1, args =>
    if args.length ≤ 3 then evaluateOne stat args
    else
      match splitAtWord "-o" args, splitAtWord "-a" args with
      | some (l, r), _ => do return (← evaluate stat n l) || (← evaluate stat n r)
      | none, some (l, r) => do return (← evaluate stat n l) && (← evaluate stat n r)
      | none, none => evaluateOne stat args

/-- What is said of a condition that cannot be tested. -/
def conditionMessage : Condition.ConditionError → String
  | .unaryExpected op => op ++ ": unexpected operator"
  | .binaryExpected op => op ++ ": unexpected operator"
  | .integerExpected text => "Illegal number: " ++ text
  | .tooMany => "too many arguments"

/-- Tests a condition. -/
def test (name : String) : Builtin := fun i d cwd args =>
  match Condition.operands? name args with
  | none => refuse i "[" "missing ]" 2
  | some args =>
    match evaluate (fun path => d.stat (Path.join cwd path)) args.length args with
    | .ok holds => .go (i.finish (if holds then 0 else 1))
    | .error e => refuse i name (conditionMessage e) 2

/-! ## Directories -/

/-- A path without dots; two of them undo a step. -/
def withoutDots (path : String) : String :=
  let kept := (Path.steps path).foldl
    (fun kept step =>
      if step == "." then kept else if step == ".." then kept.tail else step :: kept)
    []
  "/" ++ "/".intercalate kept.reverse

/-- The directory that the shell says it is in. -/
def shownDirectory (i : Interpreter) (cwd : String) : String :=
  (i.scope.values.get? "PWD").getD cwd

/-- Goes to a directory. -/
def cd : Builtin := fun i d cwd args =>
  let args := args.filter fun a => a != "-L" && a != "-P" && a != "--"
  let target := match args with
    | [] => (i.scope.value? "HOME").getD ""
    | "-" :: _ => (i.scope.value? "OLDPWD").getD ""
    | target :: _ => target
  let old := shownDirectory i cwd
  let new := withoutDots (Path.join old target)
  if d.isDirectory new then
    let scope := ((i.scope.assign "OLDPWD" old).expose "OLDPWD").assign "PWD" new |>.expose "PWD"
    let i := { i with scope }
    let i := if args.head? == some "-" then i.put (Text.encode (new ++ "\n")) [] 0 else i.finish 0
    .move i new
  else refuse i "cd" ("can't cd to " ++ target) 2

/-- Prints the directory. -/
def pwd : Builtin := fun i d cwd args =>
  let shown := shownDirectory i cwd
  let dir := if args.contains "-P" then (d.canonical? shown).toOption.getD shown else shown
  print i (dir ++ "\n")

/-! ## Variables -/

/-- The name and the value of an assignment. -/
def assignmentOf (arg : String) : String × Option String :=
  let name := arg.toList.takeWhile (· != '=')
  if name.length < arg.length then
    (String.ofList name, some (String.ofList (arg.toList.drop (name.length + 1))))
  else (arg, none)

/-- A value in quotes. -/
def quotedValue (value : String) : String :=
  "'" ++ String.intercalate "'\"'\"'" (value.splitOn "'") ++ "'"

/-- Assigns variables, and does something with each of them. -/
def declare (name : String) (mark : Scope → String → Scope) : Builtin := fun i _ _ args =>
  let args := args.filter (· != "-p")
  if args.isEmpty then
    let lines := i.scope.environment.map fun (key, value) =>
      name ++ " " ++ key ++ "=" ++ quotedValue value ++ "\n"
    print i (String.join (lines.mergeSort (· ≤ ·)))
  else
    match args.find? fun a => !Text.isIdentifier (assignmentOf a).1.toList with
    | some arg => breakOff i name ((assignmentOf arg).1 ++ ": bad variable name")
    | none =>
      let scope := args.foldl
        (fun s arg =>
          let (key, value) := assignmentOf arg
          mark (match value with
            | some v => s.assign key v
            | none => s) key)
        i.scope
      .go { i.finish 0 with scope := { scope with status := 0 } }

/-- Assigns variables, which get back their values when the function that runs is left. -/
def localize : Builtin := fun i d cwd args =>
  let names := args.map fun a => (assignmentOf a).1
  match Interpreter.belowCall? (.rebind (i.scope.saved names)) i.frames with
  | none => breakOff i "local" "not in a function"
  | some frames => declare "local" (fun s _ => s) { i with frames } d cwd args

/-- Removes variables or functions. -/
def unset : Builtin := fun i _ _ args =>
  match args with
  | "-f" :: names =>
    .go { i.finish 0 with functions := i.functions.filter fun f => !names.contains f.1 }
  | args =>
    let names := args.filter (· != "-v")
    let i := i.finish 0
    .go { i with scope := names.foldl Scope.remove i.scope }

/-- Sets or clears options. -/
def option (flags : List Char) (isOn : Bool) (letters : List Char) : List Char :=
  let others := flags.filter fun c => !letters.contains c
  if isOn then others ++ letters.eraseDups else others

/-- Reads options and arguments. -/
def setOptions (s : Scope) : List String → Scope
  | [] => s
  | arg :: rest =>
    match arg.toList with
    | ['-', '-'] => { s with args := rest }
    | '-' :: c :: letters => setOptions { s with flags := option s.flags true (c :: letters) } rest
    | '+' :: c :: letters => setOptions { s with flags := option s.flags false (c :: letters) } rest
    | _ => { s with args := arg :: rest }

/-- Sets options and arguments, or lists the variables. -/
def set : Builtin := fun i _ _ args =>
  if args.isEmpty then
    let lines := i.scope.values.map fun (key, value) => key ++ "=" ++ quotedValue value ++ "\n"
    print i (String.join (lines.mergeSort (· ≤ ·)))
  else
    let i := i.finish 0
    .go { i with scope := setOptions i.scope args }

/-- Drops arguments. -/
def shift : Builtin :=
  withNumber "shift" (fun _ => 1) fun i n =>
    if n.toNat ≤ i.scope.args.length then
      let i := i.finish 0
      .go { i with scope := { i.scope with args := i.scope.args.drop n.toNat } }
    else breakOff i "shift" "can't shift that many"

/-- Reads a line. -/
def read : Builtin := fun i _ _ args =>
  let names := args.filter (· != "-r")
  match names.find? fun n => !Text.isIdentifier n.toList with
  | some name => refuse i "read" (name ++ ": bad variable name") 2
  | none =>
    if names.isEmpty then refuse i "read" "arg count" 2
    else .go (i.goTo (.readLine (args.contains "-r") names []))

/-! ## Order -/

/-- The permissions that new files do not get. -/
def maskText : String := "0022"

/-- Shows the permissions that new files do not get; they stay as they are. -/
def mask : Builtin := fun i _ _ args =>
  if args.isEmpty then print i (maskText ++ "\n") else .go (i.finish 0)

/-- Runs text. -/
def eval : Builtin := fun i _ _ args =>
  .go ((i.withStatus 0).enter (.text ⟨(" ".intercalate args).toList, 1⟩) .finished)

/-- Where a command is: a path as it is, another name in the search path. -/
def findProgram (d : Disk) (cwd : String) (s : Scope) (name : String) : Except SystemError String :=
  let judge := fun path =>
    match d.stat (Path.join cwd path) with
    | .error e => Except.error e
    | .ok n =>
      if n.isFile && n.hasMode Search.executeMask then .ok path else .error SystemError.denied
  if name.toList.contains '/' then judge name
  else
    let searchPath := (s.values.get? "PATH").getD
      "/usr/local/sbin:/usr/local/bin:/usr/sbin:/usr/bin:/sbin:/bin"
    let found := (Search.directories searchPath).map fun dir =>
      judge ((if dir.isEmpty then "." else dir) ++ "/" ++ name)
    match found.find? fun r => r.toOption.isSome with
    | some r => r
    | none =>
      if name.isEmpty || found.all fun r => r matches .error .noEntry then .error .noEntry
      else .error .denied

/-- Runs the text of a file. -/
def source : Builtin := fun i d cwd args =>
  match args with
  | [] => .go (i.finish 0)
  | name :: _ =>
    let path := if name.toList.contains '/' then name
      else (findProgram d cwd i.scope name).toOption.getD name
    match d.readFile (Path.join cwd path) with
    | .error _ =>
      breakOff i "." (if path == name && !name.toList.contains '/' then name ++ ": not found"
        else "cannot open " ++ name ++ ": No such file")
    | .ok bytes => .go (i.enter (.text ⟨(Text.decodeLossy bytes).toList, 1⟩) .finished)

/-- Ends the shell. -/
def exit : Builtin :=
  withNumber "exit" (fun i => i.scope.status) fun i n => .go ((i.withStatus (n % 256)).goTo .quit)

/-- Leaves a function. -/
def giveBack : Builtin :=
  withNumber "return" (fun i => i.scope.status) fun i n =>
    .go ((i.withStatus (n % 256)).goTo .giveBack)

/-- Leaves loops. -/
def leave (name : String) (again : Bool) : Builtin :=
  withNumber name (fun _ => 1) fun i n => .go ((i.withStatus 0).goTo (.leave n.toNat again))

/-- Sets what is done at signals, or lists it. -/
def trap : Builtin := fun i _ _ args =>
  let act := fun (action : Option String) (names : List String) =>
    let numbers := names.filterMap signalNumber?
    match names.find? fun n => (signalNumber? n).isNone with
    | some name => refuse i "trap" (name ++ ": bad trap") 1
    | none =>
      let others := i.traps.filter fun t => !numbers.contains t.1
      let i := i.finish 0
      match action with
      | none => .heed { i with traps := others } numbers true
      | some "" => .heed { i with traps := others } numbers false
      | some text =>
        .heed { i with traps := others ++ numbers.map fun n => (n, text) } numbers true
  match args.filter (· != "--") with
  | [] =>
    let lines := i.traps.map fun (n, text) =>
      "trap -- " ++ quotedValue text ++ " " ++ signalName n ++ "\n"
    print i (String.join lines)
  | "-" :: names => act none names
  | [name] => act none [name]
  | first :: names =>
    if (natural? first).isSome then act none (first :: names) else act (some first) names

/-- Sends a signal. -/
def kill : Builtin := fun i _ _ args =>
  let send := fun (signal : Nat) (targets : List String) =>
    if targets.isEmpty then
      refuse i "kill" "Usage: kill [-s sigspec | -signum | -sigspec] [pid | job]..." 2
    else
      let good := targets.takeWhile fun t => (natural? t).isSome
      let i := match targets[good.length]? with
        | some bad => i.complain ("kill: Illegal number: " ++ bad) 2
        | none => i.finish 0
      .send i (good.filterMap natural?) signal
  match args with
  | "-s" :: name :: targets =>
    match signalNumber? name with
    | some n => send n targets
    | none => refuse i "kill" ("invalid signal number or name: " ++ name) 2
  | ["-l", number] =>
    match natural? number with
    | some n => print i (signalName (if 128 < n then n - 128 else n) ++ "\n")
    | none => refuse i "kill" ("Illegal number: " ++ number) 2
  | "--" :: targets => send 15 targets
  | first :: targets =>
    match first.toList with
    | '-' :: cs =>
      match signalNumber? (String.ofList cs) with
      | some n => send n targets
      | none => refuse i "kill" ("Illegal option -" ++ String.ofList (cs.take 1)) 2
    | _ => send 15 (first :: targets)
  | [] => send 15 []

/-- Waits for commands in the background. The process of a number is its number less `base`. -/
def wait (base : Nat) : Builtin := fun i _ _ args =>
  match args with
  | [] => .go (i.enter (.resume .finished 0) (.await i.jobs true false))
  | args =>
    match args.mapM natural? with
    | none => refuse i "wait" ("Illegal number: " ++ args.headD "") 2
    | some numbers =>
      if numbers.all fun n => i.jobs.contains (n - base) then
        .go (i.goTo (.await (numbers.map (· - base)) true true))
      else .go (i.finish 127)

end Builtin

/-- The number of the first process. -/
def firstProcessNumber : Nat := 1000

/-- The commands of the shell itself by name. -/
def builtins : List (String × Builtin) := [
  (":", .status 0), ("true", .status 0), ("false", .status 1), ("hash", .status 0),
  ("echo", .echo), ("printf", .printf), ("test", .test "test"), ("[", .test "["),
  ("cd", .cd), ("pwd", .pwd),
  ("export", .declare "export" .expose), ("readonly", .declare "readonly" fun s _ => s),
  ("local", .localize), ("umask", .mask), ("unset", .unset), ("set", .set), ("shift", .shift),
  ("read", .read), ("eval", .eval), (".", .source), ("exit", .exit), ("return", .giveBack),
  ("break", .leave "break" false), ("continue", .leave "continue" true), ("trap", .trap),
  ("kill", .kill), ("wait", .wait firstProcessNumber)]

/-- Names of commands whose assignments stay in force. -/
def specialBuiltins : List String :=
  [":", ".", "break", "continue", "eval", "exec", "exit", "export", "readonly", "return", "set",
    "shift", "trap", "unset"]

/-- What a name stands for, for people. -/
def describeName (i : Interpreter) (d : Disk) (cwd : String) (short : Bool) (name : String) :
    Option String :=
  if (i.functions.lookup name).isSome then
    some (if short then name else name ++ " is a shell function")
  else if specialBuiltins.contains name then
    some (if short then name else name ++ " is a special shell builtin")
  else if (builtins.lookup name).isSome then
    some (if short then name else name ++ " is a shell builtin")
  else
    match Builtin.findProgram d cwd i.scope name with
    | .ok path => some (if short then path else name ++ " is " ++ path)
    | .error _ => none

end Runnel.Script
