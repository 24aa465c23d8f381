import Runnel.Runner.Result
import Runnel.Runner.Signal

/-!
# Runnel.Runner.Listener

Listeners are told what happens to a runner. A listener may end the runner in return.
-/

namespace Runnel

/-- What a listener wants to hear about. -/
inductive Topic where
  /-- Each chunk. -/
  | data
  /-- Each chunk of output. -/
  | stdout
  /-- Each chunk of messages. -/
  | stderr
  /-- The result. -/
  | result
  /-- The exit code. -/
  | exit
  /-- An error. -/
  | error
  /-- The exit code, when everything else has been said. -/
  | close
  deriving Repr, DecidableEq

namespace Topic

/-- The name of a topic. -/
def name : Topic → String
  | data => "data"
  | stdout => "stdout"
  | stderr => "stderr"
  | result => "end"
  | exit => "exit"
  | error => "error"
  | close => "close"

/-- All topics. -/
def all : List Topic :=
  [data, stdout, stderr, result, exit, error, close]

/-- The topic of a name. -/
def ofName? (name : String) : Option Topic :=
  all.find? fun t => t.name == name

end Topic

/-- What listeners are told. -/
inductive Event where
  /-- A chunk. -/
  | data (chunk : Chunk)
  /-- A chunk of output. -/
  | stdout (bytes : Bytes)
  /-- A chunk of messages. -/
  | stderr (bytes : Bytes)
  /-- The result. -/
  | result (r : RunResult)
  /-- The exit code. -/
  | exit (code : Int)
  /-- An error. -/
  | error (e : RunError)
  /-- The exit code, when everything else has been said. -/
  | close (code : Int)
  deriving Repr, DecidableEq

namespace Event

/-- The topic that an event belongs to. -/
def topic : Event → Topic
  | data _ => .data
  | stdout _ => .stdout
  | stderr _ => .stderr
  | result _ => .result
  | exit _ => .exit
  | error _ => .error
  | close _ => .close

/-- An event as a line of a log. -/
def text (e : Event) : String :=
  e.topic.name ++ ":" ++
    match e with
    | data c => c.kind.name ++ ":" ++ c.text
    | stdout bytes | stderr bytes => Text.decodeLossy bytes
    | result r => Text.signedDigits r.code ++ ":" ++ Text.decodeLossy r.stdout
    | exit code | close code => Text.signedDigits code
    | error e => e.message

/-- The events of a chunk. -/
def ofChunk (c : Chunk) : List Event :=
  [.data c, match c.kind with | .stdout => .stdout c.data | .stderr => .stderr c.data]

/-- The events at the end of a run. -/
def ofResult (r : RunResult) : List Event :=
  [.result r, .exit r.code, .close r.code]

end Event

/-- A listener. -/
structure Listener where
  /-- What it wants to hear about. -/
  topic : Topic
  /-- With what it ends the runner once it has heard of it. -/
  reaction : Option Signal
  deriving Repr, DecidableEq

namespace Listener

/-- How many listeners want to hear about a topic. -/
def count (listeners : List Listener) (t : Topic) : Nat :=
  listeners.countP fun l => l.topic == t

/-- Those that hear of an event. -/
def hearing (listeners : List Listener) (e : Event) : List Listener :=
  listeners.filter fun l => l.topic == e.topic

/-- How many listeners there are on each topic, for people. -/
def describe (listeners : List Listener) : String :=
  "Listeners \x7b " ++
    Text.joinWith ", " (Topic.all.map fun t => t.name ++ ": " ++ Text.digits (count listeners t)) ++
    " \x7d"

end Listener
end Runnel
