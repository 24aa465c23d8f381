import Runnel.Host.Change
import Runnel.Host.Listing
import Runnel.Utility.Flags
import Runnel.Utility.Handler

/-!
# Runnel.Utility.Files

The commands that show, create, copy, move and remove files. Each of them stops at the first operand
that fails; only those that show files go on.
-/

namespace Runnel.Files

/-- An error together with what was being done. -/
def failing (doing : String) (e : SystemError) : Outcome :=
  .failed (doing ++ ": " ++ e.message)

/-- Works through operands up to the first that fails. -/
def eachOperand (work : Disk → String → Option Outcome × Disk) :
    Disk → List String → Outcome × Disk
  | d, [] => (.done (.ofCode 0), d)
  | d, operand :: rest =>
    match work d operand with
    | (some outcome, d) => (outcome, d)
    | (none, d) => eachOperand work d rest

/-- A request, and its error together with what was being done. -/
def attempt {α : Type} (doing : String) (request : Disk.Change α) : Option Outcome × Disk :=
  match request with
  | (.ok _, d) => (none, d)
  | (.error e, d) => (some (failing doing e), d)

/-! ## Showing -/

/-- The content of files one after the other; a dash stands for the input. -/
def concatenate (i : Invocation) (d : Disk) : List String → Output
  | [] => .ofCode 0
  | file :: rest =>
    let more := concatenate i d rest
    if file == "-" then { more with stdout := Text.encode i.stdin ++ more.stdout }
    else
      match d.readFile (i.resolve file) with
      | .ok bytes => { more with stdout := bytes ++ more.stdout }
      | .error e =>
        let message := "cat: " ++ file ++ ": " ++ e.message ++ "\n"
        { more with stderr := Text.encode message ++ more.stderr, code := 1 }

/-- The command that shows files. -/
def catHandler : Handler :=
  .reading fun i d =>
    if i.args.isEmpty then .done (.ofText i.stdin) else .done (concatenate i d i.args)

/-- The letter of a kind of node in a listing. -/
def kindLetter (n : Node) : Char :=
  if n.isDirectory then 'd' else if n.isLink then 'l' else '-'

/-- One line of a listing. -/
def entryLine (d : Disk) (path name : String) (long : Bool) : String :=
  if !long then name ++ "\n"
  else
    match d.statLink path with
    | .ok n =>
      (kindLetter n).toString ++ " " ++ Text.padLeft 10 (Text.digits n.size) ++ " " ++ name ++ "\n"
    | .error _ => "? " ++ Text.padLeft 10 "?" ++ " " ++ name ++ "\n"

/-- The lines of a directory; names with a dot in front are shown on request only. -/
def directoryLines (d : Disk) (path : String) (names : List String) (all long : Bool) : String :=
  let shown := names.filter fun name => all || name.toList.head? != some '.'
  String.join ((Disk.sortedNames shown).map fun name => entryLine d (Path.join path name) name long)

/-- What is shown for one operand, or `none` if nothing is there. `titled` says that the operand's
name stands above the lines of a directory, and `first` that nothing stands before that. -/
def listOperand (i : Invocation) (d : Disk) (all long titled first : Bool) (operand : String) :
    Option String :=
  let path := i.resolve operand
  match d.stat path with
  | .error _ => none
  | .ok n =>
    if n.isDirectory then
      let title := if titled then (if first then "" else "\n") ++ operand ++ ":\n" else ""
      some (title ++ directoryLines d path (n.entries.map Prod.fst) all long)
    else some (entryLine d path operand long)

/-- What is shown for operands. -/
def listOperands (i : Invocation) (d : Disk) (all long titled first : Bool) :
    List String → Output
  | [] => .ofCode 0
  | operand :: rest =>
    let more := listOperands i d all long titled false rest
    match listOperand i d all long titled first operand with
    | some text => { more with stdout := Text.encode text ++ more.stdout }
    | none =>
      let message := "ls: cannot access '" ++ operand ++ "': No such file or directory\n"
      { more with stderr := Text.encode message ++ more.stderr, code := 2 }

/-- The command that lists directories. -/
def lsHandler : Handler :=
  .reading fun i d =>
    match splitFlags ['a', 'l', '1'] i.args with
    | .error e => .failed e.message
    | .ok (flags, operands) =>
      let operands := if operands.isEmpty then ["."] else operands
      .done (listOperands i d (flags.contains 'a') (flags.contains 'l') (1 < operands.length) true
        operands)

/-! ## Creating -/

/-- The command that creates directories. -/
def mkdirHandler : Handler :=
  .changing fun i d =>
    match splitFlags ['p'] i.args with
    | .error e => (.failed e.message, d)
    | .ok (_, []) => (.failed "missing operand", d)
    | .ok (flags, operands) =>
      let make := if flags.contains 'p' then Disk.makeDirectories else Disk.makeDirectory
      eachOperand
        (fun d operand =>
          attempt ("cannot create directory '" ++ operand ++ "'") (make d (i.resolve operand)))
        d operands

/-- The command that creates empty files. -/
def touchHandler : Handler :=
  .changing fun i d =>
    if i.args.isEmpty then (.failed "missing file operand", d)
    else
      eachOperand
        (fun d operand =>
          attempt ("cannot touch '" ++ operand ++ "'")
            (d.openOutput (i.resolve operand) .append Disk.fileMode))
        d i.args

/-! ## Removing -/

/-- Removes one operand. -/
def removeOperand (i : Invocation) (recursive force : Bool) (d : Disk) (operand : String) :
    Option Outcome × Disk :=
  let path := i.resolve operand
  match d.statLink path with
  | .error _ =>
    if force then (none, d)
    else (some (.failed ("cannot remove '" ++ operand ++ "': No such file or directory")), d)
  | .ok n =>
    let doing := "cannot remove '" ++ operand ++ "'"
    if !n.isDirectory then attempt doing (d.removeFile path)
    else if recursive then attempt doing (d.removeTree path)
    else (some (.failed (doing ++ ": Is a directory")), d)

/-- The command that removes files. -/
def rmHandler : Handler :=
  .changing fun i d =>
    match splitFlags ['r', 'R', 'f'] i.args with
    | .error e => (.failed e.message, d)
    | .ok (flags, operands) =>
      let force := flags.contains 'f'
      if operands.isEmpty && !force then (.failed "missing operand", d)
      else
        eachOperand (removeOperand i (flags.contains 'r' || flags.contains 'R') force) d operands

/-! ## Copying and moving -/

/-- The operands of a command with sources and a target. -/
def splitTarget (operands : List String) : Except String (List String × String) :=
  match operands.reverse with
  | [] => .error "missing file operand"
  | [target] => .error ("missing destination file operand after '" ++ target ++ "'")
  | target :: sources => .ok (sources.reverse, target)

/-- Where a source goes: into the target if that is a directory, else in place of it. -/
def destination (i : Invocation) (target : String) (isDirectory : Bool) (source : String) :
    Except String String :=
  if isDirectory then
    match Path.fileName? (i.resolve source) with
    | some name => .ok (Path.join (i.resolve target) name)
    | none => .error ("invalid source name '" ++ source ++ "'")
  else .ok (i.resolve target)

/-- Works through sources with a target. -/
def eachSource (i : Invocation) (d : Disk) (operands : List String)
    (work : Disk → (source place : String) → Option Outcome × Disk) : Outcome × Disk :=
  match splitTarget operands with
  | .error reason => (.failed reason, d)
  | .ok (sources, target) =>
    let isDirectory := d.isDirectory (i.resolve target)
    if 1 < sources.length && !isDirectory then
      (.failed ("target '" ++ target ++ "' is not a directory"), d)
    else
      eachOperand
        (fun d source =>
          if !d.pathExists (i.resolve source) then
            (some (.failed ("cannot stat '" ++ source ++ "': No such file or directory")), d)
          else
            match destination i target isDirectory source with
            | .error reason => (some (.failed reason), d)
            | .ok place => work d source place)
        d sources

/-- Copies one source to its place. -/
def copySource (i : Invocation) (recursive : Bool) (d : Disk) (source place : String) :
    Option Outcome × Disk :=
  let path := i.resolve source
  if d.isDirectory path then
    if !recursive then
      (some (.failed ("-r not specified; omitting directory '" ++ source ++ "'")), d)
    else
      match d.copyTree path place with
      | (.ok (), d) => (none, d)
      | (.error e, d) => (some (.failed e.message), d)
  else attempt ("cannot copy '" ++ source ++ "' to '" ++ place ++ "'") (d.copyFile path place)

/-- The command that copies files. -/
def cpHandler : Handler :=
  .changing fun i d =>
    match splitFlags ['r', 'R'] i.args with
    | .error e => (.failed e.message, d)
    | .ok (flags, operands) => eachSource i d operands (copySource i !flags.isEmpty)

/-- The command that moves files. -/
def mvHandler : Handler :=
  .changing fun i d =>
    eachSource i d i.args fun d source place =>
      attempt ("cannot move '" ++ source ++ "' to '" ++ place ++ "'")
        (d.rename (i.resolve source) place)

end Runnel.Files
