import Runnel.Host.Program
import Runnel.Number.Integer
import Runnel.Utility.Handler

/-!
# Runnel.Utility.Surroundings

The commands about the working directory, the variables, the programs and the exit code.
-/

namespace Runnel.Surroundings

/-- The command that prints the working directory. -/
def pwdHandler : Handler :=
  .pure fun i => .done (.ofText (i.cwd ++ "\n"))

/-- The directory that arguments ask for. -/
def homeOr (i : Invocation) : Except String String :=
  match i.args with
  | [] =>
    match i.env.get? "HOME" with
    | some home => .ok home
    | none => .error "HOME not set"
  | [dir] => .ok dir
  | _ => .error "too many arguments"

/-- The command that changes the working directory. -/
def cdHandler : Handler :=
  .reading fun i d =>
    match homeOr i with
    | .error reason => .failed reason
    | .ok target =>
      let path := i.resolve target
      if !d.isDirectory path then .failed (target ++ ": No such file or directory")
      else
        match d.canonical? path with
        | .ok dir => .done { Output.ofCode 0 with chdir := some dir }
        | .error _ => .done { Output.ofCode 0 with chdir := some path }

/-- The command that prints the variables in the order of their names. -/
def envHandler : Handler :=
  .pure fun i =>
    if !i.args.isEmpty then .failed "running a command through env is not supported"
    else
      let sorted := i.env.mergeSort fun a b => !(decide (b.1 < a.1))
      .done (.ofText (String.join (sorted.map fun e => e.1 ++ "=" ++ e.2 ++ "\n")))

/-- The paths of programs, and messages for names that have none. -/
def programPaths (i : Invocation) (d : Disk) : List String → Output
  | [] => .ofCode 0
  | name :: rest =>
    let more := programPaths i d rest
    match Search.program? d (i.env.get? "PATH") i.cwd name with
    | some path => { more with stdout := Text.encode (path ++ "\n") ++ more.stdout }
    | none =>
      let message := "which: no " ++ name ++ " in PATH\n"
      { more with stderr := Text.encode message ++ more.stderr, code := 1 }

/-- The command that prints the paths of programs. -/
def whichHandler : Handler :=
  .reading fun i d =>
    if i.args.isEmpty then .failed "usage: which name..." else .done (programPaths i d i.args)

/-- How many exit codes there are. -/
def codeCount : Int := 256

/-- The command that ends with a code, or with that of the command before it. -/
def exitHandler : Handler :=
  .pure fun i =>
    match i.args with
    | [] => .done (.ofCode i.status)
    | arg :: _ =>
      match Number.readInt64? arg with
      | some n => .done (.ofCode (n % codeCount))
      | none => .done (.ofMessage ("exit: " ++ arg ++ ": numeric argument required\n") 2)

end Runnel.Surroundings
