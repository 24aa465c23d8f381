import Runnel.Flow.Turn

/-!
# Runnel.Proofs.Flow.Deeds

What work does that others notice, turn by turn.

* `Work.perform`: a turn together with the commands that are invoked in it, the programs that are
  looked for and the processes that are started. `Work.perform_eq`: it is a turn of `Work.advance`.
* `Work.Turns`: some turns of work. Between two of them anything may happen to the machine.
-/

namespace Runnel

/-- Something that work does and others notice. -/
inductive Deed where
  /-- A built-in command was run to its end. -/
  | invoke (handler : Handler) (i : Invocation)
  /-- The program of a name was looked for. -/
  | seek (name : String)
  /-- A process was to be started. -/
  | launch (l : Launch)

/-- What comes out of a turn. -/
structure Performed where
  /-- The machine. -/
  machine : Machine
  /-- What is left to do. -/
  work : Work
  /-- What was done, in order. -/
  deeds : List Deed

namespace Performed

/-- The turn with a deed before it. -/
def after (d : Deed) (p : Performed) : Performed :=
  { p with deeds := d :: p.deeds }

end Performed

namespace Work

mutual

/-- A turn of work with its deeds. -/
def perform : Work → Machine → Performed
  | .done code ctx, m => ⟨m, .done code ctx, []⟩
  | .crash, m => ⟨m, .crash, []⟩
  | .rest begun next, m => if begun then perform next m else ⟨m, .rest true next, []⟩
  | .ask token next, m => perform (next (m.isSet token)) m
  | .write ticket sink data next, m =>
    match m.write sink ticket data with
    | (m, .delivered ok) => perform (next ok) m
    | (m, .held ticket) => ⟨m, .write ticket sink data next, []⟩
  | .read source lines gathered next, m =>
    match m.gather source lines gathered with
    | (m, gathered, true) => perform (next gathered) m
    | (m, gathered, false) => ⟨m, .read source lines gathered next, []⟩
  | .load path next, m => perform (next (m.disk.readFile path)) m
  | .openFile path mode next, m =>
    perform (next (m.openFile path mode).1) (m.openFile path mode).2
  | .lookUp name next, m => perform (next (m.registry.get? name)) m
  | .call c i next, m =>
    (perform (next (c.run i m.disk).1) { m with disk := (c.run i m.disk).2 }).after
      (.invoke (.call c) i)
  | .pause length moment token next, m =>
    let moment := pauseEnd m length moment
    if moment ≤ m.clock then perform (next false) m
    else if m.isSet token then perform (next true) m
    else ⟨m, .pause length (some moment) token next, []⟩
  | .generate g i stdout stderr token progress ticket next, m =>
    match m.produce g i stdout stderr token progress ticket with
    | (m, .ended how) => (perform (next how) m).after (.invoke (.generator g) i)
    | (m, .unfinished progress ticket) =>
      ⟨m, .generate g i stdout stderr token progress ticket next, []⟩
  | .retain sink next, m => perform next (m.retain sink)
  | .release sink next, m => perform next (m.release sink)
  | .abandon source next, m => perform next (m.abandon source)
  | .connect next, m => perform (next (m.newChannel pipeCapacity).1) (m.newChannel pipeCapacity).2
  | .together branches next, m =>
    let (m, branches, deeds) := performAll branches m
    match codes? branches with
    | some codes =>
      let p := perform (next codes) m
      { p with deeds := deeds ++ p.deeds }
    | none =>
      if branches.any hasCrashed then ⟨m, .crash, deeds⟩ else ⟨m, .together branches next, deeds⟩
  | .seek searchPath cwd name next, m =>
    (perform (next (Search.program? m.disk searchPath cwd name)) m).after (.seek name)
  | .launch l group next, m =>
    (perform (next (m.launch l group).2) (m.launch l group).1).after (.launch l)
  | .attend stdout stderr group token a next, m =>
    match m.attend stdout stderr group token a with
    | (m, .ended code) => perform (next code) m
    | (m, .unfinished a) => ⟨m, .attend stdout stderr group token a next, []⟩

/-- A turn of each branch, up to one that breaks down. -/
def performAll : List Work → Machine → Machine × List Work × List Deed
  | [], m => (m, [], [])
  | b :: more, m =>
    let p := perform b m
    if hasCrashed p.work then (p.machine, p.work :: more, p.deeds)
    else
      let (m, more, deeds) := performAll more p.machine
      (m, p.work :: more, p.deeds ++ deeds)

end

mutual

/-- A turn with its deeds is a turn. -/
theorem perform_eq : (w : Work) → (m : Machine) →
    ((w.perform m).machine, (w.perform m).work) = w.advance m
  | .done .., m | .crash, m => by simp only [perform, advance]
  | .rest begun next, m => by
    simp only [perform, advance]
    split
    · exact perform_eq next m
    · rfl
  | .ask token next, m => by
    simp only [perform, advance]
    exact perform_eq _ m
  | .write ticket sink data next, m => by
    rcases h : m.write sink ticket data with ⟨m', ok | held⟩
    · simp only [perform, advance, h]
      exact perform_eq _ _
    · simp only [perform, advance, h]
  | .read source lines gathered next, m => by
    rcases h : m.gather source lines gathered with ⟨m', bytes, _ | _⟩
    · simp only [perform, advance, h]
    · simp only [perform, advance, h]
      exact perform_eq _ _
  | .load path next, m => by
    simp only [perform, advance]
    exact perform_eq _ m
  | .openFile path mode next, m => by
    simp only [perform, advance]
    exact perform_eq _ _
  | .lookUp name next, m => by
    simp only [perform, advance]
    exact perform_eq _ m
  | .call c i next, m => by
    simp only [perform, advance]
    exact perform_eq _ _
  | .pause length moment token next, m => by
    simp only [perform, advance]
    split
    · exact perform_eq _ m
    split
    · exact perform_eq _ m
    · rfl
  | .generate g i stdout stderr token progress ticket next, m => by
    rcases h : m.produce g i stdout stderr token progress ticket with ⟨m', how | ⟨progress, held⟩⟩
    · simp only [perform, advance, h]
      exact perform_eq _ _
    · simp only [perform, advance, h]
  | .retain sink next, m | .release sink next, m | .abandon source next, m => by
    simp only [perform, advance]
    exact perform_eq next _
  | .connect next, m => by
    simp only [perform, advance]
    exact perform_eq _ _
  | .together branches next, m => by
    have h := performAll_eq branches m
    simp only [perform, advance, ← h]
    cases hc : codes? (performAll branches m).2.1 with
    | some codes =>
      simp only
      exact perform_eq _ _
    | none =>
      simp only
      split
      · rfl
      · rfl
  | .seek searchPath cwd name next, m => by
    simp only [perform, advance]
    exact perform_eq _ m
  | .launch l group next, m => by
    simp only [perform, advance]
    exact perform_eq _ _
  | .attend stdout stderr group token a next, m => by
    rcases h : m.attend stdout stderr group token a with ⟨m', code | a'⟩
    · simp only [perform, advance, h]
      exact perform_eq _ _
    · simp only [perform, advance, h]

theorem performAll_eq : (branches : List Work) → (m : Machine) →
    ((performAll branches m).1, (performAll branches m).2.1) = advanceAll branches m
  | [], m => by simp only [performAll, advanceAll]
  | b :: more, m => by
    have hb := perform_eq b m
    have hmore := performAll_eq more (b.perform m).machine
    simp only [performAll, advanceAll, ← hb]
    split
    · rfl
    · simp only [← hmore]

end

/-- What is being done between two turns. -/
def doing : Work → List Deed
  | .generate g i .. => [.invoke (.generator g) i]
  | _ => []

/-- Some turns of work, each on a machine that satisfies `P`, and the deeds in them. Between two of
them anything may happen to the machine. -/
inductive Turns (P : Machine → Prop) : Work → List Deed → Work → Prop where
  /-- No turn. -/
  | none (w : Work) : Turns P w [] w
  /-- A turn, and some turns after it. -/
  | turn {w w' : Work} {m : Machine} {deeds : List Deed} :
      P m → Turns P (w.perform m).work deeds w' → Turns P w ((w.perform m).deeds ++ deeds) w'

end Work

/-! ## What a turn leaves alone -/

namespace Machine

/-- The names of commands and the tokens are still the same. -/
structure Keeps (m m' : Machine) : Prop where
  /-- The names of commands. -/
  registry : m'.registry = m.registry
  /-- The tokens. -/
  tokens : m'.tokens = m.tokens

theorem Keeps.refl (m : Machine) : Keeps m m := ⟨rfl, rfl⟩

theorem Keeps.trans {m m' m'' : Machine} (h : Keeps m m') (h' : Keeps m' m'') : Keeps m m'' :=
  ⟨h'.registry.trans h.registry, h'.tokens.trans h.tokens⟩

theorem offer_keeps (m : Machine) (id : ChannelId) (ticket : Option Ticket) (chunk : Chunk) :
    Keeps m (m.offer id ticket chunk).1 := by
  unfold offer
  split
  · exact .refl m
  · cases ticket with
    | none | some t =>
      simp only
      split
      all_goals exact ⟨rfl, rfl⟩

theorem writeFile_keeps (m : Machine) (handle : HandleId) (data : Bytes) :
    Keeps m (m.writeFile handle data) := by
  unfold writeFile
  split
  all_goals exact ⟨rfl, rfl⟩

theorem write_keeps (m : Machine) (sink : Sink) (ticket : Option Ticket) (data : Bytes) :
    Keeps m (m.write sink ticket data).1 := by
  unfold write
  split
  · exact .refl m
  · cases sink with
    | channel id kind => exact offer_keeps m id ticket _
    | file handle => exact writeFile_keeps m handle data
    | discard => exact .refl m

theorem take_keeps (m : Machine) (id : ChannelId) : Keeps m (m.take id).1 := by
  unfold take
  split
  · exact .refl m
  simp only
  split
  · exact ⟨rfl, rfl⟩
  split
  · exact ⟨rfl, rfl⟩
  · exact .refl m

theorem gatherChunks_keeps (id : ChannelId) (lines : Option Nat) (n : Nat) (m : Machine)
    (pieces : List Bytes) (seen : Nat) :
    Keeps m (gatherChunks id lines n m pieces seen).1 := by
  induction n generalizing m pieces seen with
  | zero => exact .refl m
  | succ n ih =>
    have htake := take_keeps m id
    unfold gatherChunks
    split
    · exact .refl m
    · rcases h : m.take id with ⟨m', c | _ | _⟩
      · rw [h] at htake
        exact htake.trans (ih m' _ _)
      · rw [h] at htake
        exact htake
      · rw [h] at htake
        exact htake

theorem abandon_keeps (m : Machine) (source : Source) : Keeps m (m.abandon source) := by
  cases source with
  | channel id => exact ⟨rfl, rfl⟩
  | empty | inherited | bytes data => exact .refl m

theorem gather_keeps (m : Machine) (source : Source) (lines : Option Nat) (gathered : Bytes) :
    Keeps m (m.gather source lines gathered).1 := by
  cases source with
  | empty | inherited | bytes data => exact .refl m
  | channel id =>
    have h := gatherChunks_keeps id lines (turnBudget + 1) m [] (gathered.count 10)
    simp only [gather]
    split
    · exact h.trans (abandon_keeps _ _)
    · exact h

end Machine
end Runnel
