import Runnel.Console.Watch

/-!
# Runnel.Console.Run

The program as a whole: what it does with its arguments and its input. The lines of its input run one
after the other. Blank lines and comments are passed over; a line that sets switches is not run.
-/

namespace Runnel.Console

/-! ## Lines -/

/-- Reads the words behind `set`: switches by letter or by name. -/
def readSwitches : List String → Option (List (String × Bool))
  | [] => some []
  | word :: rest =>
    match word.toList with
    | [] => none
    | sign :: letters =>
      if sign != '-' && sign != '+' then none
      else
        let isOn := sign == '-'
        if letters == ['o'] then
          match rest with
          | [] => none
          | name :: more => (readSwitches more).map ((name, isOn) :: ·)
        else
          (readSwitches rest).map ((letters.map fun c => (String.singleton c, isOn)) ++ ·)

/-- The switches that a line sets, if it is such a line. -/
def switches? (line : String) : Option (List (String × Bool)) :=
  if "set ".toList.isPrefixOf line.toList then
    (readSwitches (Text.fields (String.ofList (line.toList.drop 4)))).filter fun s => !s.isEmpty
  else none

/-- Sets a switch, or says that there is none. -/
def setSwitch (s : System) (switch : String × Bool) : System :=
  match s.shell.settings.set? switch.1 switch.2 with
  | some settings => { s with shell := { s.shell with settings } }
  | none => say s ("⚠️ Unknown option: " ++ switch.1 ++ "\n")

/-- Runs one line; the code is that of the last line that was run. -/
def runLine (s : System) (last : Int) (line : String) : System × Int :=
  let line := Text.trim line
  if line.isEmpty || line.toList.head? == some '#' then (s, last)
  else
    match switches? line with
    | some switches => (switches.foldl setSwitch s, last)
    | none =>
      let (r, s) := s.newRunner (.line line) (options true)
      let (s, result) := s.wait r
      let code := (result.map RunResult.code).getD last
      (if code != 0 then say s (codeNotice code) else s, code)

/-- Splits bytes behind newlines. -/
def splitLines (bytes : Bytes) : List Bytes :=
  bytes.foldr
    (fun b lines =>
      if b == 10 then [b] :: lines
      else
        match lines with
        | [] => [[b]]
        | first :: rest => (b :: first) :: rest)
    []

/-- Runs lines one after the other. One that is no text ends the program. -/
def runLines (s : System) (last : Int) : List Bytes → System × Nat
  | [] => (s, shownCode last)
  | line :: rest =>
    match Text.fault? line with
    | some f => (say s (errorText "Failed to read stdin" [f.message]), 1)
    | none =>
      let (s, last) := runLine s last (Text.decodeLossy line)
      runLines s last rest

/-! ## The program -/

/-- How the program goes on when it is called. -/
inductive Course where
  /-- It has ended. -/
  | ended (e : Ending)
  /-- It watches files. -/
  | watching (w : Watch)

/-- What is said when there is nothing to watch. -/
def watchlessNotice : String :=
  "⚠️ Nothing to watch, running once\n"

/-- Runs a command once. -/
def runOnce (s : System) (command : String) : Ending :=
  let (r, s) := (say s watchlessNotice).newRunner (.line command) (options false)
  let (s, result) := s.wait r
  finish s (shownCode ((result.map RunResult.code).getD 0))

/-- Opens a system, or ends with the error of its configuration. -/
def withSystem (p : Place) (next : System → Course) : Course :=
  match open? p with
  | .error e => .ended (refuse p.disk 1 (errorText e.summary e.causes))
  | .ok s => next s

/-- Does what was asked for. -/
def carryOut (p : Place) (stdin : Bytes) : Request → Course
  | .print text => .ended ⟨0, Text.encode text, [], p.disk⟩
  | .lines => withSystem p fun s =>
    let (s, code) := runLines s 0 (splitLines stdin)
    .ended (finish s code)
  | .watch command files interval =>
    if (Text.trim command).isEmpty then .ended (refuse p.disk 1 (errorText "No command given" []))
    else withSystem p fun s =>
      if files.isEmpty then .ended (runOnce s command)
      else .watching (.begin s command files interval)

/-- Calls the program. -/
def call (p : Place) (args : List String) (stdin : Bytes) : Course :=
  match readArguments args with
  | .error f => .ended (refuse p.disk 1 f.message)
  | .ok request => carryOut p stdin request

namespace Course

/-- How the program has ended, or how it ends if it is interrupted now. -/
def ending : Course → Ending
  | .ended e => e
  | .watching w => w.interrupt

/-- Interrupts the program. -/
def interrupt (c : Course) : Course :=
  .ended c.ending

/-- Lets time pass. -/
def advance (milliseconds : Nat) : Course → Course
  | .ended e => .ended e
  | .watching w => .watching (w.advance milliseconds)

/-- Lets time pass until a text was shown so often; the answer says whether it was. -/
def await (text : String) (kind : ChunkKind) (count : Nat) : Course → Course × Bool
  | .ended e =>
    let shown := match kind with
      | .stdout => e.stdout
      | .stderr => e.stderr
    (.ended e, count ≤ Watch.occurrences text (Text.decodeLossy shown))
  | .watching w =>
    let (w, found) := w.await text kind count
    (.watching w, found)

/-- Changes the files; the answer says whether that was possible. -/
def change (edit : Disk → Except SystemError Unit × Disk) : Course → Course × Bool
  | .ended e =>
    let (done, disk) := edit e.disk
    (.ended { e with disk }, done.toOption.isSome)
  | .watching w =>
    let (w, done) := w.change edit
    (.watching w, done)

end Course

end Runnel.Console
