import Runnel.Number.Integer
import Runnel.Runner.Schedule

/-!
# Runnel.Runner.Session

Command lines that run one after the other in one state, without a runner.
-/

namespace Runnel

/-- What a command line has done. -/
structure LineOutcome where
  /-- The exit code. -/
  code : Int
  /-- The state at the end. -/
  ctx : Context
  /-- All output. -/
  stdout : Bytes
  /-- All messages. -/
  stderr : Bytes
  deriving Repr, DecidableEq

namespace System

/-- Room for more chunks than any run writes. -/
def ampleRoom : Nat := Number.twoPow 32

/-- A source that hands out these pieces and ends. -/
def sourceOfPieces (s : System) (pieces : List Bytes) : Source × System :=
  let (channel, s) := s.newChannel inputCapacity
  (.channel channel, (s.spawn (.forward pieces channel none)).2)

/-- Runs a command line to its end; without an outcome it has broken down or hangs. -/
def runText (s : System) (ctx : Context) (stdin : Source) (text : String) (operators : Bool) :
    System × Option LineOutcome :=
  let (output, s) := s.newChannel ampleRoom
  let s := s.updateChannel output Channel.addWriter
  let io : Streams := ⟨stdin, .channel output .stdout, .channel output .stderr⟩
  let (task, s) := s.spawn (.work (lineActivity text operators ctx io .done) io)
  s.ask fun s =>
    match s.workOf task with
    | .done code ctx =>
      let chunks := (s.machine.channel output).queue
      (s, some ⟨code, ctx, Chunk.gather .stdout chunks, Chunk.gather .stderr chunks⟩)
    | _ => (s, none)

/-- Reads input to its end or, with a number, up to so many newlines. -/
def readSource (s : System) (source : Source) (lines : Option Nat) : System × Option Bytes :=
  let ctx := s.shell.context 0 0
  let io : Streams := ⟨source, .discard, .discard⟩
  let (output, s) := s.newChannel ampleRoom
  let work : Work := .read source lines [] fun bytes =>
    .write none (.channel output .stdout) bytes fun _ => .done 0 ctx
  let (task, s) := s.spawn (.work work io)
  s.ask fun s =>
    if (s.workOf task).isComplete then
      (s, some (Chunk.gather .stdout (s.machine.channel output).queue))
    else (s, none)

end System
end Runnel
