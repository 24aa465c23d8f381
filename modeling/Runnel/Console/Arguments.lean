import Runnel.Number.Integer
import Runnel.Text.Ascii

/-!
# Runnel.Console.Arguments

What the arguments of the program ask for.

* `Request`: what can be asked for.
* `ArgumentFault`: why arguments ask for nothing, and the text that says so.
* `readArguments`: the one or the other.
-/

namespace Runnel.Console

/-- What the program is asked to do. -/
inductive Request where
  /-- To run the lines of its input one after the other. -/
  | lines
  /-- To run a command, again whenever one of these files has changed; they are looked at once in so
  many milliseconds. -/
  | watch (command : String) (files : List String) (interval : Nat)
  /-- To print a text. -/
  | print (text : String)
  deriving Repr, DecidableEq

/-- The commands of the program. -/
inductive Command where
  /-- None. -/
  | none
  /-- The one that runs lines. -/
  | repl
  /-- The one that watches files. -/
  | dev
  deriving Repr, DecidableEq

/-- An option with a value. -/
inductive ValueOption where
  /-- A file to watch. -/
  | watch
  /-- The interval. -/
  | interval
  deriving Repr, DecidableEq

/-- How an option is shown. -/
def ValueOption.text : ValueOption → String
  | .watch => "--watch <WATCH>"
  | .interval => "--interval <INTERVAL>"

/-- Why arguments ask for nothing. -/
inductive ArgumentFault where
  /-- There are none. -/
  | nothing
  /-- No command has this name. -/
  | unknownCommand (name : String)
  /-- An argument should not be there. -/
  | unexpected (arg : String) (command : Command)
  /-- The command line to run is missing; these options are there. -/
  | missingCommand (present : List ValueOption)
  /-- An option has no value. -/
  | missingValue (option : ValueOption)
  /-- A value is no number. -/
  | invalidNumber (value reason : String)
  /-- An option occurs twice. -/
  | repeated (option : ValueOption)
  deriving Repr, DecidableEq

/-! ## Texts -/

/-- What the program is. -/
def about : String := "cmdflow: shell command lines with virtual builtins"

/-- The version of the program. -/
def version : String := "cmdflow 0.1.0-preview.1\n"

/-- How a command is called. -/
def usage : Command → String
  | .none => "Usage: cmdflow <COMMAND>"
  | .repl => "Usage: cmdflow repl"
  | .dev => "Usage: cmdflow dev [OPTIONS] <COMMAND>"

/-- Text of several lines. -/
def paragraph (lines : List String) : String :=
  String.join (lines.map (· ++ "\n"))

/-- The help on the program. -/
def mainHelp : String :=
  paragraph [about, "", usage .none, "", "Commands:",
    "  repl  Read command lines from stdin and run them one by one",
    "  dev   Run a command and restart it whenever a watched file changes",
    "  help  Print this message or the help of the given subcommand(s)", "", "Options:",
    "  -h, --help     Print help", "  -V, --version  Print version"]

/-- The help on a command. -/
def help : Command → String
  | .none => mainHelp
  | .repl =>
    paragraph ["Read command lines from stdin and run them one by one", "", usage .repl, "",
      "Options:", "  -h, --help  Print help"]
  | .dev =>
    paragraph ["Run a command and restart it whenever a watched file changes", "", usage .dev, "",
      "Arguments:", "  <COMMAND>  Command line to run", "", "Options:",
      "  -w, --watch <WATCH>        File to watch (repeatable)",
      "  -i, --interval <INTERVAL>  Polling interval in milliseconds [default: 500]",
      "  -h, --help                 Print help"]

/-- The help on the command that prints help. -/
def helpOnHelp : String :=
  paragraph ["Print this message or the help of the given subcommand(s)", "",
    "Usage: cmdflow help [COMMAND]...", "", "Arguments:",
    "  [COMMAND]...  Print help for the subcommand(s)"]

/-! ## Similar names -/

/-- Marks which characters of a text occur in another one, each at most once and not far from its
place: the places in the other text, in the order of the first. -/
def matchedPlaces (window : Nat) (other : List Char) : Nat → List Char → List Nat → List Nat
  | _, [], _ => []
  | place, c :: rest, used =>
    let candidates := (List.range other.length).filter fun j =>
      j ≤ place + window && place ≤ j + window && !used.contains j && other[j]? == some c
    match candidates with
    | j :: _ => j :: matchedPlaces window other (place + 1) rest (j :: used)
    | [] => matchedPlaces window other (place + 1) rest used

/-- How similar two texts are, in thousandths: the share of characters that they have in common,
less those whose order differs. -/
def similarity (a b : List Char) : Nat :=
  if a.isEmpty && b.isEmpty then 1000
  else
    let window := max a.length b.length / 2 - 1
    let places := matchedPlaces window b 0 a []
    let m := places.length
    if m = 0 then 0
    else
      let common := places.filterMap (b[·]?)
      let ordered := (places.mergeSort (· ≤ ·)).filterMap (b[·]?)
      let moved := ((common.zip ordered).filter fun p => p.1 != p.2).length / 2
      1000 * (m * m * b.length + m * m * a.length + (m - moved) * a.length * b.length) /
        (3 * m * a.length * b.length)

/-- The names of commands that are similar to one that does not exist, the most similar one last. -/
def similarCommands (name : String) : List String :=
  let scored := ["repl", "dev", "help"].map fun c => (similarity name.toList c.toList, c)
  ((scored.filter fun s => 700 < s.1).mergeSort fun a b => a.1 ≤ b.1).map Prod.snd

/-- The hint at similar names. -/
def similarityHint (name : String) : String :=
  let quoted := fun (s : String) => "'" ++ s ++ "'"
  match similarCommands name with
  | [] => ""
  | [one] => "\n  tip: a similar subcommand exists: " ++ quoted one ++ "\n"
  | more =>
    "\n  tip: some similar subcommands exist: " ++ ", ".intercalate (more.map quoted) ++ "\n"

/-- An argument that is written like an option. -/
def isOptionLike (arg : String) : Bool :=
  1 < arg.length && arg.toList.head? == some '-'

/-- The text of a fault. -/
def ArgumentFault.message (f : ArgumentFault) : String :=
  let ending := "\n\nFor more information, try '--help'.\n"
  match f with
  | .nothing => mainHelp
  | .unknownCommand name =>
    "error: unrecognized subcommand '" ++ name ++ "'\n" ++ similarityHint name ++ "\n" ++
      usage .none ++ ending
  | .unexpected arg command =>
    let hint := if command = .dev && isOptionLike arg then
        "\n  tip: to pass '" ++ arg ++ "' as a value, use '-- " ++ arg ++ "'\n"
      else ""
    "error: unexpected argument '" ++ arg ++ "' found\n" ++ hint ++ "\n" ++ usage command ++ ending
  | .missingCommand present =>
    let options := String.join (present.map fun o => o.text ++ " ")
    "error: the following required arguments were not provided:\n  <COMMAND>\n\n" ++
      "Usage: cmdflow dev " ++ options ++ "<COMMAND>" ++ ending
  | .missingValue option =>
    "error: a value is required for '" ++ option.text ++ "' but none was supplied" ++ ending
  | .invalidNumber value reason =>
    "error: invalid value '" ++ value ++ "' for '" ++ ValueOption.interval.text ++ "': " ++
      reason ++ ending
  | .repeated option =>
    "error: the argument '" ++ option.text ++ "' cannot be used multiple times\n\n" ++ usage .dev ++
      ending

/-! ## Reading -/

/-- What was read of the arguments of the command that watches files. -/
structure WatchArguments where
  /-- The command line. -/
  command : Option String
  /-- The files. -/
  files : List String
  /-- The interval. -/
  interval : Option Nat
  /-- The options in the order in which they first occurred. -/
  present : List ValueOption
  deriving Repr, DecidableEq

/-- The number of milliseconds that a value stands for. -/
def readInterval (value : String) : Except ArgumentFault Nat :=
  match Number.readNat64? value with
  | some n => .ok n
  | none =>
    let digits := match value.toList with
      | '+' :: rest => rest
      | cs => cs
    .error (.invalidNumber value
      (if value.isEmpty then "cannot parse integer from empty string"
      else if !digits.isEmpty && digits.all Char.isDigit then
        "number too large to fit in target type"
      else "invalid digit found in string"))

/-- Takes a value of an option. -/
def WatchArguments.take (a : WatchArguments) (option : ValueOption) (value : String) :
    Except ArgumentFault WatchArguments :=
  let a := { a with
    present := if a.present.contains option then a.present else a.present ++ [option] }
  match option with
  | .watch =>
    if value.isEmpty then .error (.missingValue .watch)
    else .ok { a with files := a.files ++ [value] }
  | .interval =>
    if a.interval.isSome then .error (.repeated .interval)
    else (readInterval value).map fun n => { a with interval := some n }

/-- An argument that is written like an option with a value: the option and the value, if it is part
of the argument. -/
def valueOption? (arg : String) : Option (ValueOption × Option String) :=
  let long := fun (name : String) (option : ValueOption) =>
    if arg == name then some (option, none)
    else if (name ++ "=").toList.isPrefixOf arg.toList then
      some (option, some (String.ofList (arg.toList.drop (name.length + 1))))
    else none
  match arg.toList with
  | '-' :: '-' :: _ => (long "--watch" .watch).or (long "--interval" .interval)
  | '-' :: c :: rest =>
    let value := match rest with
      | [] => none
      | '=' :: value => some (String.ofList value)
      | value => some (String.ofList value)
    if c == 'w' then some (.watch, value)
    else if c == 'i' then some (.interval, value)
    else none
  | _ => none

/-- Takes an argument that is no option. -/
def WatchArguments.place (a : WatchArguments) (arg : String) :
    Except ArgumentFault WatchArguments :=
  if a.command.isSome then .error (.unexpected arg .dev) else .ok { a with command := some arg }

/-- Reads the arguments of the command that watches files; `none` asks for help. -/
def readWatch (a : WatchArguments) : List String → Except ArgumentFault (Option WatchArguments)
  | [] => .ok (some a)
  | "--" :: rest => do return some (← rest.foldlM WatchArguments.place a)
  | arg :: rest =>
    if arg == "--help" || "-h".toList.isPrefixOf arg.toList then .ok none
    else
      match valueOption? arg, rest with
      | some (option, some value), rest => do readWatch (← a.take option value) rest
      | some (option, none), value :: rest =>
        if isOptionLike value then .error (.missingValue option)
        else do readWatch (← a.take option value) rest
      | some (option, none), [] => .error (.missingValue option)
      | none, rest =>
        if isOptionLike arg then
          let shown := if "--".toList.isPrefixOf arg.toList then
              String.ofList (arg.toList.takeWhile (· != '='))
            else String.ofList (arg.toList.take 2)
          .error (.unexpected shown .dev)
        else do readWatch (← a.place arg) rest

/-- The interval if no argument says so. -/
def defaultInterval : Nat := 500

/-- What the arguments of the command that watches files ask for. -/
def watchRequest (args : List String) : Except ArgumentFault Request :=
  match readWatch ⟨none, [], none, []⟩ args with
  | .error e => .error e
  | .ok none => .ok (.print (help .dev))
  | .ok (some a) =>
    match a.command with
    | none => .error (.missingCommand a.present)
    | some command => .ok (.watch command a.files (a.interval.getD defaultInterval))

/-- What the arguments of the command that runs lines ask for. -/
def linesRequest : List String → Except ArgumentFault Request
  | [] => .ok .lines
  | ["--"] => .ok .lines
  | "--" :: arg :: _ => .error (.unexpected arg .repl)
  | arg :: _ =>
    if arg == "--help" || "-h".toList.isPrefixOf arg.toList then .ok (.print (help .repl))
    else
      let shown := if isOptionLike arg && !"--".toList.isPrefixOf arg.toList then
          String.ofList (arg.toList.take 2)
        else arg
      .error (.unexpected shown .repl)

/-- What the arguments of the program ask for. -/
def readArguments : List String → Except ArgumentFault Request
  | [] => .error .nothing
  | "repl" :: args => linesRequest args
  | "dev" :: args => watchRequest args
  | ["help"] => .ok (.print mainHelp)
  | "help" :: name :: _ =>
    match name with
    | "repl" => .ok (.print (help .repl))
    | "dev" => .ok (.print (help .dev))
    | "help" => .ok (.print helpOnHelp)
    | name => .error (.unknownCommand name)
  | arg :: _ =>
    if arg == "--help" || "-h".toList.isPrefixOf arg.toList then .ok (.print mainHelp)
    else if arg == "--version" || "-V".toList.isPrefixOf arg.toList then .ok (.print version)
    else if isOptionLike arg then .error (.unexpected arg .none)
    else .error (.unknownCommand arg)

end Runnel.Console
