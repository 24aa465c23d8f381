import Runnel.Console.Session
import Runnel.Text.Blank

/-!
# Runnel.Console.Watch

Runs a command, and runs it again whenever a watched file has changed. The files are looked at in
regular intervals; what counts is what they hold, and not when they were written.

* `Watch.begin`: starts the command.
* `Watch.advance`: lets time pass.
* `Watch.interrupt`: ends the command and the program.
-/

namespace Runnel.Console

/-- A command that is run again and again. -/
structure Watch where
  /-- The system. -/
  system : System
  /-- The command line. -/
  command : String
  /-- The watched files. -/
  files : List String
  /-- How many milliseconds there are between two looks at the files. -/
  interval : Nat
  /-- What the files held at the last look; a file that cannot be read holds nothing. -/
  seen : List (Option Bytes)
  /-- The runner of the command. -/
  runner : RunnerId
  /-- Nothing has been said of the end of these runners. -/
  unreported : List RunnerId
  /-- The moment of the next look. -/
  due : Nat

namespace Watch

/-- What the files hold. -/
def look (s : System) (files : List String) : List (Option Bytes) :=
  files.map fun f => (s.machine.disk.readFile f).toOption

/-- What is said when the command is started. -/
def startNotice (command : String) : String :=
  "🚀 Running: " ++ command ++ "\n"

/-- What is said when a file has changed. -/
def changeNotice (command : String) : String :=
  "🔄 Change detected, restarting: " ++ command ++ "\n"

/-- Starts the command. -/
def launch (s : System) (command : String) : RunnerId × System :=
  let (r, s) := s.newRunner (.line command) (options false)
  (r, say (s.start r).2 (startNotice command))

/-- The least interval. -/
def leastInterval : Nat := 50

/-- Starts the command for the first time. -/
def begin (s : System) (command : String) (files : List String) (interval : Nat) : Watch :=
  let files := files.map (Path.join s.shell.cwd)
  let interval := max interval leastInterval
  let (r, started) := launch s command
  ⟨started, command, files, interval, look s files, r, [r], s.machine.clock + interval⟩

/-- Whether something is said about the end of a command: those that signals have ended are passed
over. -/
def isReported (code : Int) : Bool :=
  code != 0 && code < 128

/-- Says what has come of commands that have ended. -/
def report (w : Watch) : Watch :=
  let ended := w.unreported.filterMap fun r => (w.system.runner r).result
  let notices := (ended.filter fun e => isReported e.code).map fun e => codeNotice e.code
  { w with
    system := notices.foldl say w.system
    unreported := w.unreported.filter fun r => (w.system.runner r).result.isNone }

/-- How long a command may take to end when it is asked to, in steps and in milliseconds a step. -/
def grace : Nat × Nat := (40, 50)

/-- Waits for child processes to end, for so many steps at most. -/
def drain (r : RunnerId) : Nat → System → System × Bool
  | 0, s => (s, (s.machine.members (s.runner r).group).isEmpty)
  | n + 1, s =>
    if (s.machine.members (s.runner r).group).isEmpty then (s, true)
    else drain r n (s.settle grace.2)

/-- What is said when a command does not end. -/
def killNotice : String :=
  "⚠️ Still running after 2s, sending SIGKILL\n"

/-- Asks the command to end, and ends it if it does not. -/
def stop (w : Watch) : Watch :=
  let (s, drained) := drain w.runner grace.1 (w.system.kill .term w.runner)
  let s := if drained then s else (say s killNotice).kill .kill w.runner
  { w with system := s }

/-- Looks at the files and starts the command again if they have changed. -/
def check (w : Watch) : Watch :=
  let seen := look w.system w.files
  if seen == w.seen then { w with due := w.system.machine.clock + w.interval }
  else
    let w := { w with seen, system := say w.system (changeNotice w.command) }.stop.report
    let (runner, system) := launch w.system w.command
    { w with
      system
      runner
      unreported := w.unreported ++ [runner]
      due := system.machine.clock + w.interval }

/-- Lets time pass up to the next look or for so many milliseconds, whatever is shorter; the answer
is what is left of them. -/
def proceed (w : Watch) (milliseconds : Nat) : Watch × Nat :=
  let start := w.system.machine.clock
  let pause := min milliseconds (w.due - start)
  let w := { w with system := w.system.settle pause }.report
  if w.due ≤ w.system.machine.clock then (w.check, milliseconds - pause)
  else (w, milliseconds - pause)

/-- Lets time pass, in at most so many parts. -/
def advanceWithin : Nat → Watch → Nat → Watch
  | 0, w, _ => w
  | n + 1, w, milliseconds =>
    let (w, rest) := w.proceed milliseconds
    if rest = 0 then w else advanceWithin n w rest

/-- Lets time pass. -/
def advance (w : Watch) (milliseconds : Nat) : Watch :=
  advanceWithin (milliseconds + 1) w milliseconds

/-- What the program has shown so far. -/
def shown (w : Watch) (kind : ChunkKind) : String :=
  Text.decodeLossy (Chunk.gather kind w.system.terminal.reverse)

/-- How often a text occurs, one occurrence behind the other. -/
def occurrences (text shown : String) : Nat :=
  (shown.splitOn text).length - 1

/-- Lets time pass until a text was shown so often, in at most so many parts; the answer says
whether it was. -/
def awaitWithin (text : String) (kind : ChunkKind) (count : Nat) : Nat → Watch → Watch × Bool
  | 0, w => (w, false)
  | n + 1, w =>
    let w := (w.proceed 0).1
    if count ≤ occurrences text (w.shown kind) then (w, true)
    else awaitWithin text kind count n (w.proceed (max 1 (w.due - w.system.machine.clock))).1

/-- How many parts are waited for at most. -/
def patience : Nat := 200

/-- Lets time pass until a text was shown so often; the answer says whether it was. -/
def await (w : Watch) (text : String) (kind : ChunkKind) (count : Nat) : Watch × Bool :=
  awaitWithin text kind count patience w

/-- Changes the files. -/
def change (w : Watch) (edit : Disk → Except SystemError Unit × Disk) : Watch × Bool :=
  let (done, disk) := edit w.system.machine.disk
  ({ w with system := w.system.updateMachine fun m => { m with disk } }, done.toOption.isSome)

/-- The exit code after an interrupt. -/
def interruptedCode : Nat := 130

/-- Ends the command and the program. -/
def interrupt (w : Watch) : Ending :=
  finish w.stop.report.system interruptedCode

end Watch
end Runnel.Console
