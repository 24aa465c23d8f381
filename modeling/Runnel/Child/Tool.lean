import Runnel.Child.Process
import Runnel.Child.Substitution
import Runnel.Script.Builtin
import Runnel.Utility.Standard

/-!
# Runnel.Child.Tool

What the installed programs other than the shell do when they are started.
-/

namespace Runnel.Tool

/-- What a program gets to see when it is started. -/
structure Start where
  /-- Its name. -/
  name : String
  /-- Its arguments. -/
  args : List String
  /-- The variables. -/
  env : Environment
  /-- The working directory. -/
  cwd : String
  /-- The disk. -/
  disk : Disk
  /-- The moment. -/
  clock : Nat

/-- Writes text and ends. -/
def print (text : String) : Tool :=
  .report ⟨[(1, Text.encode text)], 0⟩

/-- Writes a message and ends with a code. -/
def refuse (s : Start) (message : String) (code : Int) : Tool :=
  .report ⟨[(2, Text.encode (s.name ++ ": " ++ message ++ "\n"))], code⟩

/-- The file of an argument as an input. -/
def inputOf (s : Start) (arg : String) : Input :=
  if arg == "-" then .own
  else
    match s.disk.readFile (Path.join s.cwd arg) with
    | .ok bytes => .bytes bytes
    | .error e => .missing (s.name ++ ": " ++ arg ++ ": " ++ e.reason ++ "\n")

/-- The arguments that are no flags. -/
def operands (args : List String) : List String :=
  args.filter fun a => a.length ≤ 1 || a.toList.head? != some '-'

/-- The letters of the flags. -/
def flags (args : List String) : List Char :=
  (args.filter fun a => 1 < a.length && a.toList.head? == some '-').flatMap fun a => a.toList.drop 1

/-- Copies files. -/
def cat (s : Start) : Tool :=
  let files := operands s.args
  .convert id ((if files.isEmpty then ["-"] else files).map (inputOf s)) [] 0

/-- Replaces bytes. -/
def tr (s : Start) : Tool :=
  match Substitution.ofArgs? s.args with
  | some t => .convert t.apply [.own] [] 0
  | none => refuse s "missing operand\nTry 'tr --help' for more information." 1

/-- All bytes of the files in the arguments, of which `own` is the program's own input, and what is
said of those that are missing. -/
def contents (s : Start) (own : Bytes) (files : List String) : Bytes × List String :=
  ((if files.isEmpty then ["-"] else files).map (inputOf s)).foldl
    (fun (bytes, messages) input =>
      match input with
      | .own => (bytes ++ own, messages)
      | .bytes data => (bytes ++ data, messages)
      | .missing message => (bytes, messages ++ [message]))
    ([], [])

/-- The program reads its own input. -/
def readsOwn (files : List String) : Bool :=
  files.isEmpty || files.contains "-"

/-- Reads the files of the arguments and reports. -/
def digest (s : Start) (code : Int) (result : Bytes → Bytes) : Tool :=
  let files := operands s.args
  let report := fun (own : Bytes) (d : Disk) =>
    let (bytes, messages) := contents s own files
    ((⟨[(1, result bytes), (2, Text.encode (String.join messages))],
      if messages.isEmpty then 0 else code⟩ : Report), d)
  .gather (if readsOwn files then none else some 0) [] report

/-- The lines of bytes, without their newlines. -/
def linesOf (bytes : Bytes) : List Bytes :=
  let go := bytes.foldr
    (fun b (lines : List Bytes) =>
      if b == 10 then [] :: lines
      else
        match lines with
        | [] => [[b]]
        | first :: rest => (b :: first) :: rest)
    [[]]
  if go.getLast? == some [] then go.dropLast else go

/-- The number at the front of a line, for sorting. -/
def leadingNumber (line : Bytes) : Int :=
  let cs := (Text.decodeLossy line).toList.dropWhile fun c => c == ' '
  match cs with
  | '-' :: rest => -Int.ofNat (Script.decimalValue (rest.takeWhile Char.isDigit))
  | cs => Int.ofNat (Script.decimalValue (cs.takeWhile Char.isDigit))

/-- Bytes come before others. -/
def bytesLe : Bytes → Bytes → Bool
  | [], _ => true
  | _ :: _, [] => false
  | a :: as, b :: bs => if a == b then bytesLe as bs else a < b

/-- Sorts lines. -/
def sort (s : Start) : Tool :=
  let letters := flags s.args
  let le := fun (a b : Bytes) =>
    if letters.contains 'n' then
      let (x, y) := (leadingNumber a, leadingNumber b)
      if x = y then bytesLe a b else x < y
    else bytesLe a b
  digest s 2 fun bytes =>
    let lines := linesOf bytes
    let sorted := lines.mergeSort fun a b => if letters.contains 'r' then le b a else le a b
    let kept := if letters.contains 'u' then sorted.eraseReps else sorted
    kept.flatMap fun line => line ++ [10]

/-- How many words there are. -/
def countWords (bytes : Bytes) : Nat :=
  (bytes.foldl
    (fun ((n, inWord) : Nat × Bool) b =>
      if b == 32 || (9 ≤ b && b ≤ 13) then (n, false) else (if inWord then n else n + 1, true))
    (0, false)).1

/-- Counts lines, words and bytes of each file, and of all of them if there are several. Counts are
as wide as the number of all bytes, but wider for its own input, and not padded if there is only
one. -/
def wc (s : Start) : Tool :=
  let letters := flags s.args
  let files := operands s.args
  let asked := fun (c : Char) => letters.isEmpty || letters.contains c
  let counts := fun (bytes : Bytes) =>
    (if asked 'l' then [bytes.count 10] else []) ++
      (if asked 'w' then [countWords bytes] else []) ++
      (if asked 'c' then [bytes.length] else [])
  .gather (if readsOwn files then none else some 0) [] fun own d =>
    let (all, messages) := contents s own files
    let width :=
      if files.length ≤ 1 && (counts []).length = 1 then 1
      else if readsOwn files then 7
      else (Text.digits all.length).length
    let row := fun (bytes : Bytes) (label : String) =>
      let shown := (counts bytes).map fun n => Text.padLeft width (Text.digits n)
      " ".intercalate shown ++ label ++ "\n"
    let rows := files.filterMap fun file =>
      match inputOf s file with
      | .own => some (row own (" " ++ file))
      | .bytes bytes => some (row bytes (" " ++ file))
      | .missing _ => none
    let shown := if files.isEmpty then [row own ""]
      else if files.length = 1 then rows
      else rows ++ [row all " total"]
    (⟨[(1, Text.encode (String.join shown)), (2, Text.encode (String.join messages))],
      if messages.isEmpty then 0 else 1⟩, d)

/-- Copies its input into files as well. -/
def tee (s : Start) : Tool :=
  .gather none [] fun own d =>
    let how := if (flags s.args).contains 'a' then Disk.OutputMode.append else .overwrite
    let d := (operands s.args).foldl
      (fun d file =>
        match d.openOutput (Path.join s.cwd file) how Disk.fileMode with
        | (.ok node, d) => d.appendBytes node own
        | (.error _, d) => d)
      d
    (⟨[(1, own)], 0⟩, d)

/-- Lists or changes the variables, and may become another program. -/
def envWith (s : Start) : Environment → List String → Tool
  | env, [] => print (String.join (env.map fun (key, value) => key ++ "=" ++ value ++ "\n"))
  | env, arg :: rest =>
    if arg == "-i" || arg == "-" then envWith s [] rest
    else
      match Script.Builtin.assignmentOf arg with
      | (key, some value) => envWith s (env.set key value) rest
      | (_, none) => .become arg rest env

/-- Prints the values of variables. -/
def printenv (s : Start) : Tool :=
  if s.args.isEmpty then envWith s s.env []
  else
    let values := s.args.filterMap s.env.get?
    .report ⟨[(1, Text.encode (String.join (values.map (· ++ "\n"))))],
      if values.length = s.args.length then 0 else 1⟩

/-- Sleeps. -/
def sleep (s : Start) : Tool :=
  let hint := "\nTry 'sleep --help' for more information."
  if s.args.isEmpty then refuse s ("missing operand" ++ hint) 1
  else
    match s.args.find? fun a => (Number.Duration.read? a).isNone with
    | some bad => refuse s ("invalid time interval '" ++ bad ++ "'" ++ hint) 1
    | none =>
      let spans := s.args.filterMap Number.Duration.read?
      .idle (s.clock + spans.foldl (fun n d => n + d.millis) 0)

/-- Writes a line again and again. -/
def yes (s : Start) : Tool :=
  let line := Text.encode ((if s.args.isEmpty then "y" else " ".intercalate s.args) ++ "\n")
  let data := (List.replicate (8192 / line.length + 1) line).flatten
  .again data data

/-- Prints its arguments in a format. -/
def printf (s : Start) : Tool :=
  match s.args with
  | [] => refuse s "missing operand\nTry 'printf --help' for more information." 1
  | format :: args =>
    let (bytes, faults) := Script.formatBytes format args
    let messages := String.join (faults.map fun f => s.name ++ ": " ++ f ++ "\n")
    .report ⟨[(1, bytes), (2, Text.encode messages)], if faults.isEmpty then 0 else 1⟩

/-- Tests a condition. -/
def test (s : Start) : Tool :=
  match Condition.operands? s.name s.args with
  | none => refuse s "missing ']'" 2
  | some args =>
    match Script.Builtin.evaluate (fun p => s.disk.stat (Path.join s.cwd p)) args.length args with
    | .ok holds => .report ⟨[], if holds then 0 else 1⟩
    | .error e => refuse s e.message 2

/-- A reason without the number of the system error at its end. -/
def withoutNumber (reason : String) : String :=
  (reason.splitOn " (os error ").headD reason

/-- What comes of the output of a call. -/
def reportOf (name : String) : Outcome → Report
  | .done o => ⟨[(1, o.stdout), (2, o.stderr)], o.code⟩
  | .failed reason => ⟨[(2, Text.encode (name ++ ": " ++ withoutNumber reason ++ "\n"))], 1⟩
  | _ => ⟨[], 1⟩

/-- The number of bytes that arguments ask for, and the other arguments. -/
def byteCount? : List String → Option (Nat × List String)
  | [] => none
  | ["-c"] => none
  | "-c" :: number :: rest => (Number.readNat64? number).map fun n => (n, rest)
  | arg :: rest =>
    match arg.toList with
    | '-' :: 'c' :: digits => (Number.readNat64? (String.ofList digits)).map fun n => (n, rest)
    | _ => (byteCount? rest).map fun (n, others) => (n, arg :: others)

/-- Shows the first or the last bytes of its input or of files. As many lines as bytes are asked for
are enough of its input for the first ones. -/
def excerptBytes (s : Start) (n : Nat) (files : List String) : Tool :=
  let isHead := s.name == "head"
  .gather (if !readsOwn files then some 0 else if isHead then some n else none) [] fun own d =>
    let (bytes, messages) := contents s own files
    (⟨[(1, if isHead then bytes.take n else bytes.drop (bytes.length - n)),
        (2, Text.encode (String.join messages))], if messages.isEmpty then 0 else 1⟩, d)

/-- The permission bits that a mode asks for, given those of a file. -/
def modeBits? (mode : String) (old : Nat) : Option Nat :=
  if !mode.isEmpty && mode.toList.all fun c => '0' ≤ c && c ≤ '7' then
    some (mode.toList.foldl (fun n c => n * 8 + (Text.hexValue? c).getD 0) 0)
  else if mode == "+x" || mode == "a+x" then some (Nat.lor old 0o111)
  else if mode == "u+x" then some (Nat.lor old 0o100)
  else if mode == "-x" || mode == "a-x" then some (Nat.land old 0o666)
  else none

/-- Changes the permission bits of files. -/
def chmod (s : Start) : Tool :=
  match s.args with
  | [] | [_] => refuse s "missing operand\nTry 'chmod --help' for more information." 1
  | mode :: files =>
    .gather (some 0) [] fun _ d =>
      let (d, messages) := files.foldl
        (fun (d, messages) file =>
          let path := Path.join s.cwd file
          let refused := fun reason => (d, messages ++ [s.name ++ ": " ++ reason ++ "\n"])
          match d.stat path with
          | .error e => refused ("cannot access '" ++ file ++ "': " ++ e.reason)
          | .ok n =>
            match modeBits? mode n.mode with
            | some bits => ((d.setMode path bits).2, messages)
            | none => refused ("invalid mode: '" ++ mode ++ "'"))
        (d, [])
      (⟨[(2, Text.encode (String.join messages))], if messages.isEmpty then 0 else 1⟩, d)

/-- The programs that read input and do what a built-in command does. -/
def readers : List String := ["head", "tail"]

/-- A program that does what a built-in command does. -/
def ofCall (s : Start) (c : Call) : Tool :=
  let lines := match readers.contains s.name, c.demand s.args with
    | false, _ => some 0
    | true, .lines n => some n
    | true, _ => none
  .gather lines [] fun own d =>
    let (outcome, d) := c.run ⟨s.name, s.args, Text.decodeLossy own, s.cwd, s.env, 0⟩ d
    (reportOf s.name outcome, d)

/-- A program that does what a built-in command does, if that is one that ends by itself. -/
def ofHandler (s : Start) : Option Handler → Tool
  | some (.call c) =>
    match if readers.contains s.name then byteCount? s.args else none with
    | some (n, files) => excerptBytes s n files
    | none => ofCall s c
  | _ => refuse s "not installed" 127

/-- The programs by name. -/
def table : List (String × (Start → Tool)) := [
  ("cat", cat), ("chmod", chmod), ("echo", fun s => print (Echo.text s.args)),
  ("env", fun s => envWith s s.env s.args),
  ("false", fun _ => .report ⟨[], 1⟩), ("printenv", printenv), ("printf", printf),
  ("pwd", fun s => print (((s.disk.canonical? s.cwd).toOption.getD s.cwd) ++ "\n")),
  ("sleep", sleep), ("sort", sort), ("tee", tee), ("test", test), ("[", test), ("tr", tr),
  ("true", fun _ => .report ⟨[], 0⟩), ("wc", wc), ("yes", yes)]

/-- How a program begins. -/
def start (s : Start) : Tool :=
  match table.lookup s.name with
  | some begins => begins s
  | none => ofHandler s (standardHandlers.lookup s.name)

end Runnel.Tool
