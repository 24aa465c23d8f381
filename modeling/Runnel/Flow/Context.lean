import Runnel.Command.Word
import Runnel.Config.Document
import Runnel.Flow.Channel
import Runnel.Host.Change

/-!
# Runnel.Flow.Context

What a command line runs in: the state that commands see and change, and the streams that they read
and write.
-/

namespace Runnel

/-- The number of a cancellation token. -/
abbrev TokenId : Type := Nat

/-- The number of an open file. -/
abbrev HandleId : Type := Nat

/-- The number of a group of child processes that are signalled together. -/
abbrev GroupId : Type := Nat

/-- The state of one invocation. Subshells and the stages of a pipeline work on copies. -/
structure Context where
  /-- The working directory. -/
  cwd : String
  /-- The variables. -/
  env : Environment
  /-- The exit code of the last command. -/
  status : Int
  /-- The switches. -/
  settings : Settings
  /-- Names of built-in commands mean something. -/
  builtins : Bool
  /-- The real shell. -/
  program : ShellProgram
  /-- Once this token is set, nothing more is to be started. -/
  token : TokenId
  /-- Where the child processes of the invocation belong. -/
  group : GroupId
  deriving Repr, DecidableEq

namespace Context

/-- The value of a variable; that of the question mark is the last exit code. -/
def get? (ctx : Context) (name : String) : Option String :=
  if name == "?" then some (Text.signedDigits ctx.status) else ctx.env.get? name

/-- A path, as an absolute one. -/
def resolve (ctx : Context) (path : String) : String :=
  Path.join ctx.cwd path

/-- The fields that a word stands for, or the name of an unset variable. -/
def expand (ctx : Context) (w : Word) : Except String (List String) :=
  w.expand ctx.get? ctx.settings.nounset

/-- The fields that words stand for, or the name of an unset variable. -/
def expandAll (ctx : Context) (ws : List Word) : Except String (List String) :=
  Word.expandAll ctx.get? ctx.settings.nounset ws

/-- The state after a command with this exit code. -/
def withStatus (ctx : Context) (code : Int) : Context :=
  { ctx with status := code }

/-- The state after a change of the working directory. -/
def enter (ctx : Context) (dir : Option String) : Context :=
  match dir with
  | none => ctx
  | some dir => { ctx with cwd := dir, env := ctx.env.set "PWD" dir }

end Context

/-- Where input comes from. -/
inductive Source where
  /-- From nowhere. -/
  | empty
  /-- From the input of this process; built-in commands see none. -/
  | inherited
  /-- From bytes that are all there. -/
  | bytes (data : Bytes)
  /-- From a channel. -/
  | channel (id : ChannelId)
  deriving Repr, DecidableEq

/-- Where output goes. -/
inductive Sink where
  /-- Into a channel, as output of this kind. -/
  | channel (id : ChannelId) (kind : ChunkKind)
  /-- Into a file. -/
  | file (handle : HandleId)
  /-- Nowhere. -/
  | discard
  deriving Repr, DecidableEq

/-- The three streams of a command. -/
structure Streams where
  /-- Its input. -/
  stdin : Source
  /-- Its output. -/
  stdout : Sink
  /-- Its messages. -/
  stderr : Sink
  deriving Repr, DecidableEq

end Runnel
