import Runnel.Child.Descriptor
import Runnel.Script.Scope
import Runnel.Script.Syntax

/-!
# Runnel.Script.Interpreter

Where a shell stands in its script.

* `Control`: what the shell does at the moment.
* `Frame`: what it does afterwards; frames lie on a stack.
* `Interpreter`: all that a shell keeps.
-/

namespace Runnel.Script

/-- A redirect whose target is known. -/
structure ReadyRedirect where
  /-- The descriptor. -/
  descriptor : Nat
  /-- What the redirect does. -/
  kind : RedirectKind
  /-- The path, the descriptor or the text. -/
  target : String
  deriving Repr, DecidableEq

/-- A simple command whose words are expanded. -/
structure ReadyCommand where
  /-- The assignments. -/
  assignments : List (String × String)
  /-- The name and the arguments. -/
  words : List String
  /-- The redirects. -/
  redirects : List ReadyRedirect
  deriving Repr, DecidableEq

/-- What a shell does at the moment. -/
inductive Control where
  /-- It is about to run commands. -/
  | items (commands : List Item)
  /-- It is about to run a command. -/
  | body (b : Body)
  /-- It expands the words of a command; these are the outputs so far, and the exit code of the last
  of them. -/
  | expand (b : Body) (outputs : List String) (last : Option Int)
  /-- It waits for the output of commands that occur in a word. -/
  | collect (process : ProcessId) (pipe : PipeId) (gathered : Bytes) (b : Body)
      (outputs : List String)
  /-- It is about to become the program of a command; messages begin with the label. -/
  | become (label : String) (c : ReadyCommand)
  /-- It waits for processes, the last of which gives the exit code. A signal may interrupt it, and
  it may say what signals have ended the processes. -/
  | await (processes : List ProcessId) (interruptible announcing : Bool)
  /-- It writes to descriptors. -/
  | write (pieces : List (Nat × Bytes))
  /-- It reads its script from its input. -/
  | readScript (gathered : Bytes)
  /-- It reads a line into variables. -/
  | readLine (raw : Bool) (names : List String) (gathered : Bytes)
  /-- It has run a command. -/
  | finished
  /-- It has run a command whose failure has been seen to. -/
  | passed
  /-- It leaves loops; the last one may go on. -/
  | leave (loops : Nat) (again : Bool)
  /-- It leaves a function. -/
  | giveBack
  /-- It ends. -/
  | quit

/-- What a shell does afterwards. -/
inductive Frame where
  /-- It runs further commands. -/
  | items (rest : List Item)
  /-- It goes on as success or failure demand. -/
  | andOr (rest : List (Bool × Body))
  /-- It turns success into failure. -/
  | negate
  /-- It chooses. -/
  | choose (thenPart elsePart : List Item)
  /-- The condition of a loop is known; the number is the code of the last round. -/
  | condition (isUntil : Bool) (condition body : List Item) (last : Int)
  /-- A round of a loop is over. -/
  | round (isUntil : Bool) (condition body : List Item)
  /-- A round of a loop over values is over. -/
  | values (name : String) (values : List String) (body : List Item)
  /-- It takes redirects back. -/
  | restore (saved : List (Nat × Option Opened))
  /-- It takes assignments back. -/
  | rebind (saved : List (String × Option String))
  /-- It leaves a function and gets its own arguments back. -/
  | call (args : List String)
  /-- It reads on in a text. -/
  | text (source : ScriptSource)
  /-- It goes on after a trap. -/
  | resume (control : Control) (status : Int)

/-- All that a shell keeps. -/
structure Interpreter where
  /-- The parameters. -/
  scope : Scope
  /-- The functions. -/
  functions : List (String × Body)
  /-- What is done at a signal, or at the end for number zero. -/
  traps : List (Nat × String)
  /-- Signals for which something is still to be done. -/
  caught : List Nat
  /-- The commands in the background. -/
  jobs : List ProcessId
  /-- The line of the command that is run. -/
  line : Nat
  /-- What it does at the moment. -/
  control : Control
  /-- What it does afterwards. -/
  frames : List Frame

namespace Interpreter

/-- Goes on with something. -/
def goTo (i : Interpreter) (control : Control) : Interpreter :=
  { i with control }

/-- Goes on with something, and with something else afterwards. -/
def enter (i : Interpreter) (frame : Frame) (control : Control) : Interpreter :=
  { i with control, frames := frame :: i.frames }

/-- Sets the exit code. -/
def withStatus (i : Interpreter) (status : Int) : Interpreter :=
  { i with scope := { i.scope with status } }

/-- A command has ended. -/
def finish (i : Interpreter) (status : Int) : Interpreter :=
  { i.withStatus status with control := .finished }

/-- Writes and ends a command. -/
def put (i : Interpreter) (stdout stderr : Bytes) (status : Int) : Interpreter :=
  { i.withStatus status with control := .write [(1, stdout), (2, stderr)] }

/-- What messages begin with. -/
def messageStart (i : Interpreter) : String :=
  i.scope.name ++ ": " ++ Text.digits i.line ++ ": "

/-- Ends a command with a message. -/
def complain (i : Interpreter) (message : String) (status : Int) : Interpreter :=
  i.put [] (Text.encode (i.messageStart ++ message ++ "\n")) status

/-- Ends the shell with a message. -/
def abort (i : Interpreter) (message : String) (status : Int) : Interpreter :=
  { i.complain message status with frames := .resume .quit status :: i.frames }

/-- A stack of frames with one more below the call of the function that runs, if one runs. -/
def belowCall? (f : Frame) : List Frame → Option (List Frame)
  | [] => none
  | .call args :: rest => some (.call args :: f :: rest)
  | other :: rest => (belowCall? f rest).map (other :: ·)

/-- Something depends on the success of what is run. -/
def isTested (i : Interpreter) : Bool :=
  i.frames.any fun f =>
    match f with
    | .andOr (_ :: _) | .negate | .choose _ _ | .condition _ _ _ _ => true
    | _ => false

/-- The shell ends because a command has failed. -/
def failsNow (i : Interpreter) : Bool :=
  i.scope.hasFlag 'e' && i.scope.status != 0 && !i.isTested

/-- Nothing is left to do after the command that is run. -/
def isLast (i : Interpreter) : Bool :=
  i.frames.isEmpty && (i.traps.lookup 0).isNone

/-- A shell that runs text. -/
def ofText (scope : Scope) (text : String) : Interpreter :=
  ⟨scope, [], [], [], [], 1, .finished, [.text ⟨text.toList, 1⟩]⟩

/-- What becomes of a shell in a process of its own. -/
def inner (i : Interpreter) (control : Control) : Interpreter :=
  { i with
    traps := i.traps.filter fun t => t.2.isEmpty
    caught := []
    jobs := []
    control
    frames := [] }

end Interpreter
end Runnel.Script
