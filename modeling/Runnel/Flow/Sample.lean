import Runnel.Flow.Machine

/-!
# Runnel.Flow.Sample

The first chunks of a generator. Its reader takes so many; then it cancels the generator, or leaves.
-/

namespace Runnel

/-- The first chunks of a generator. -/
structure Sample where
  /-- The chunks. -/
  chunks : List Chunk
  /-- How the generator ended; `none` if it hangs. -/
  ending : Option GeneratorEnd
  deriving Repr, DecidableEq

namespace Machine

/-- Takes at most so many chunks out of a channel; they come in reverse order, before those that
were taken earlier. -/
def takeUpTo (id : ChannelId) : Nat → Machine → List Chunk → Machine × List Chunk
  | 0, m, taken => (m, taken)
  | n + 1, m, taken =>
    match m.beginTurn.take id with
    | (m, .chunk c) => takeUpTo id n m (c :: taken)
    | (m, _) => (m, taken)

/-- The reader has what it wants. -/
def endSample (m : Machine) (id : ChannelId) (token : TokenId) (cancel : Bool) : Machine :=
  if cancel then m.setToken token else m.updateChannel id Channel.hangUp

/-- Lets a generator and its reader take turns, at most so many. -/
def sampleWithin (g : Generator) (i : Invocation) (id : ChannelId) (token : TokenId) (limit : Nat)
    (cancel : Bool) : Nat → Machine → GeneratorProgress → Option Ticket → List Chunk → Sample
  | 0, _, _, _, taken => ⟨taken.reverse, none⟩
  | turns + 1, m, p, ticket, taken =>
    let m := if taken.length = limit then m.endSample id token cancel else m
    let (m, produced) :=
      m.beginTurn.produce g i (.channel id .stdout) (.channel id .stderr) token p ticket
    let (m, taken) := m.takeUpTo id (limit - taken.length) taken
    match produced with
    | .ended how => ⟨taken.reverse, some how⟩
    | .unfinished p ticket => sampleWithin g i id token limit cancel turns m p ticket taken

/-- More turns than any generator needs that ends. -/
def samplePatience : Nat := 100000

/-- The first chunks of a generator: at most so many, then it is cancelled, or the reader leaves. -/
def sample (m : Machine) (g : Generator) (i : Invocation) (token : TokenId) (limit : Nat)
    (cancel : Bool) : Sample :=
  let (id, m) := m.newChannel 1
  sampleWithin g i id token limit cancel samplePatience m ⟨0, false, false⟩ none []

end Machine
end Runnel
