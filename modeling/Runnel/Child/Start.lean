import Runnel.Child.Table
import Runnel.Child.Tool
import Runnel.Host.Program

/-!
# Runnel.Child.Start

How a file becomes the program of a process. A file is an installed program, or a script whose first
line names the program that runs it; anything else has no format that can be run.

* `Executable.find`: what a file stands for in the end.
* `shellOf`: a shell with its arguments.
* `Machine.become`: a process goes on with another program.
-/

namespace Runnel

/-- An installed program, and how it is called. -/
structure Executable where
  /-- The name of the installed program. -/
  program : String
  /-- The name under which it is called. -/
  name : String
  /-- The arguments. -/
  args : List String
  deriving Repr, DecidableEq

namespace Executable

/-- The program and the argument that the first line of a script names. -/
def interpreter? (bytes : Bytes) : Option (String × List String) :=
  match bytes with
  | 35 :: 33 :: rest =>
    let isBlank := fun c => c == ' ' || c == '\t'
    let line := (Text.decodeLossy (rest.takeWhile (· != 10))).toList.dropWhile isBlank
    let trimmed := (line.reverse.dropWhile isBlank).reverse
    let path := trimmed.takeWhile fun c => !isBlank c
    let arg := (trimmed.drop path.length).dropWhile isBlank
    if path.isEmpty then none
    else some (String.ofList path, if arg.isEmpty then [] else [String.ofList arg])
  | _ => none

/-- How many scripts may be run by scripts. -/
def depthLimit : Nat := 5

/-- What a file stands for in the end. -/
def findWithin (d : Disk) (cwd : String) :
    Nat → String → String → List String → Except SystemError Executable
  | 0, _, _, _ => .error .linkLoop
  | n + 1, path, name, args => do
    let node ← d.stat (Path.join cwd path)
    if !node.isFile || !node.hasMode Search.executeMask then throw .denied
    match Installed.name? node.bytes with
    | some program => return ⟨program, name, args⟩
    | none =>
      match interpreter? node.bytes with
      | some (runner, arg) => findWithin d cwd n runner runner (arg ++ path :: args)
      | none => throw .execFormat

/-- What a file stands for in the end. -/
def find (d : Disk) (cwd path name : String) (args : List String) : Except SystemError Executable :=
  findWithin d cwd depthLimit path name args

end Executable

/-! ## Shells -/

/-- The variables of a new shell. -/
def shellScope (d : Disk) (cwd : String) (env : Environment) (id : ProcessId) (name : String)
    (args : List String) (flags : List Char) : Script.Scope :=
  let known := env.filter fun v => Text.isIdentifier v.1.toList && v.1 != "IFS"
  let physical := (d.canonical? cwd).toOption.getD cwd
  let shown := match env.get? "PWD" with
    | some dir =>
      if Path.isAbsolute dir && (d.canonical? dir).toOption == some physical then dir else physical
    | none => physical
  let scope : Script.Scope :=
    ⟨name, args, known, known.map Prod.fst, 0, Machine.shownNumber id, none, flags⟩
  (scope.assign "PWD" shown).expose "PWD"

/-- Reads the options of a shell: their letters and the other arguments. -/
def shellOptions (flags : List Char) : List String → List Char × List String
  | [] => (flags, [])
  | arg :: rest =>
    match arg.toList with
    | ['-', '-'] => (flags, rest)
    | ['-'] => (flags, rest)
    | '-' :: letters => shellOptions (flags ++ letters) rest
    | _ => (flags, arg :: rest)

/-- A shell with its arguments. -/
def shellOf (d : Disk) (cwd : String) (env : Environment) (id : ProcessId) (e : Executable) :
    Script.Interpreter :=
  let (flags, operands) := shellOptions [] e.args
  let letters := flags.filter fun c => c != 'c' && c != 's'
  let scope := fun name args => shellScope d cwd env id name args letters
  if flags.contains 'c' then
    match operands with
    | [] =>
      (Script.Interpreter.ofText (scope e.name []) "").abort "-c requires an argument" 2
    | text :: more => Script.Interpreter.ofText (scope (more.headD e.name) more.tail) text
  else
    match operands with
    | file :: args =>
      if flags.contains 's' then
        (Script.Interpreter.ofText (scope e.name operands) "").goTo (.readScript [])
      else
        match d.readFile (Path.join cwd file) with
        | .ok bytes => Script.Interpreter.ofText (scope file args) (Text.decodeLossy bytes)
        | .error _ =>
          { Script.Interpreter.ofText (scope e.name []) "" with line := 0 }.abort
            ("cannot open " ++ file ++ ": No such file") 2
    | [] => (Script.Interpreter.ofText (scope e.name []) "").goTo (.readScript [])

namespace Machine

/-- A process goes on with another program. -/
def become (m : Machine) (id : ProcessId) (path name : String) (args : List String)
    (env : Environment) : Except SystemError Machine :=
  let cwd := (m.process id).cwd
  match Executable.find m.disk cwd path name args with
  | .error e => .error e
  | .ok e =>
    let program :=
      if e.program == "sh" then Program.shell (shellOf m.disk cwd env id e)
      else .tool (Tool.start ⟨e.program, e.args, env, cwd, m.disk, m.clock⟩)
    .ok (m.setProgram id program)

/-- A process ends with a message. -/
def dieWith (m : Machine) (id : ProcessId) (message : String) (code : Int) : Machine :=
  m.setProgram id (.tool (.report ⟨[(2, Text.encode message)], code⟩))

/-- The exit code of a program that cannot be started. -/
def refusedCode : SystemError → Int
  | .noEntry | .notDirectory => 127
  | _ => 126

end Machine
end Runnel
