import Runnel.Proofs.Flow.TurnSteps

/-!
# Runnel.Proofs.Flow.Serving

Work request by request, together with the machine that serves it. A machine serves the request that
some branch has come to, or gets on with it; which branch that is, and what becomes of the machine
between two requests, is left open. So this is every schedule.

* `Work.Request`, `Work.Exchange`: what work asks for, and the machine before and after it is
  served.
* `Work.Serves`, `Work.Runs`: an exchange, and some of them one after the other.
* `Work.Serves.step`: whoever is served takes a step.
* `Work.advance_runs`: a turn is a run without anything in between.
-/

namespace Runnel
namespace Work

/-- What work asks a machine for. -/
inductive Request where
  | rest (begun : Bool)
  | ask (token : TokenId)
  | write (ticket : Option Ticket) (sink : Sink) (data : Bytes)
  | read (source : Source) (lines : Option Nat) (gathered : Bytes)
  | load (path : String)
  | openFile (path : String) (mode : Disk.OutputMode)
  | lookUp (name : String)
  | call (c : Call) (i : Invocation)
  | pause (length : Number.Duration) (until? : Option Nat) (token : TokenId)
  | generate (g : Generator) (i : Invocation) (stdout stderr : Sink) (token : TokenId)
      (progress : GeneratorProgress) (ticket : Option Ticket)
  | retain (sink : Sink)
  | release (sink : Sink)
  | abandon (source : Source)
  | connect
  /-- All branches have ended, or one has broken down. -/
  | join
  | seek (searchPath : Option String) (cwd name : String)
  | launch (l : Launch) (group : GroupId)
  | attend (stdout stderr : Sink) (group : GroupId) (token : TokenId) (a : Attendance)

/-- The request that work has come to. Several branches have one together only when they are
over. -/
def request? : Work → Option Request
  | .done _ _ | .crash => none
  | .rest begun _ => some (.rest begun)
  | .ask token _ => some (.ask token)
  | .write ticket sink data _ => some (.write ticket sink data)
  | .read source lines gathered _ => some (.read source lines gathered)
  | .load path _ => some (.load path)
  | .openFile path mode _ => some (.openFile path mode)
  | .lookUp name _ => some (.lookUp name)
  | .call c i _ => some (.call c i)
  | .pause length until? token _ => some (.pause length until? token)
  | .generate g i stdout stderr token progress ticket _ =>
    some (.generate g i stdout stderr token progress ticket)
  | .retain sink _ => some (.retain sink)
  | .release sink _ => some (.release sink)
  | .abandon source _ => some (.abandon source)
  | .connect _ => some .connect
  | .together branches _ =>
    if (codes? branches).isSome || branches.any hasCrashed then some .join else none
  | .seek searchPath cwd name _ => some (.seek searchPath cwd name)
  | .launch l group _ => some (.launch l group)
  | .attend stdout stderr group token a _ => some (.attend stdout stderr group token a)

/-- The machine serves the request that work has come to: what becomes of both. A request that
cannot be answered yet stays. -/
def serve (m : Machine) : Work → Machine × Work
  | .done code ctx => (m, .done code ctx)
  | .crash => (m, .crash)
  | .rest begun next => (m, if begun then next else .rest true next)
  | .ask token next => (m, next (m.isSet token))
  | .write ticket sink data next =>
    match m.write sink ticket data with
    | (m, .delivered ok) => (m, next ok)
    | (m, .held ticket) => (m, .write ticket sink data next)
  | .read source lines gathered next =>
    match m.gather source lines gathered with
    | (m, gathered, true) => (m, next gathered)
    | (m, gathered, false) => (m, .read source lines gathered next)
  | .load path next => (m, next (m.disk.readFile path))
  | .openFile path mode next => ((m.openFile path mode).2, next (m.openFile path mode).1)
  | .lookUp name next => (m, next (m.registry.get? name))
  | .call c i next => ({ m with disk := (c.run i m.disk).2 }, next (c.run i m.disk).1)
  | .pause length moment token next =>
    if pauseEnd m length moment ≤ m.clock then (m, next false)
    else if m.isSet token then (m, next true)
    else (m, .pause length (some (pauseEnd m length moment)) token next)
  | .generate g i stdout stderr token progress ticket next =>
    match m.produce g i stdout stderr token progress ticket with
    | (m, .ended how) => (m, next how)
    | (m, .unfinished progress ticket) =>
      (m, .generate g i stdout stderr token progress ticket next)
  | .retain sink next => (m.retain sink, next)
  | .release sink next => (m.release sink, next)
  | .abandon source next => (m.abandon source, next)
  | .connect next => ((m.newChannel pipeCapacity).2, next (m.newChannel pipeCapacity).1)
  | .together branches next =>
    match codes? branches with
    | some codes => (m, next codes)
    | none => (m, .crash)
  | .seek searchPath cwd name next => (m, next (Search.program? m.disk searchPath cwd name))
  | .launch l group next => ((m.launch l group).1, next (m.launch l group).2)
  | .attend stdout stderr group token a next =>
    match m.attend stdout stderr group token a with
    | (m, .ended code) => (m, next code)
    | (m, .unfinished a) => (m, .attend stdout stderr group token a next)

/-- A request, and the machine before and after it is served. -/
structure Exchange where
  before : Machine
  request : Request
  after : Machine

/-- The machine serves work or one of its branches. -/
inductive Serves : Work → Exchange → Work → Prop where
  | here {w w' : Work} {x : Exchange} (hr : w.request? = some x.request)
      (hs : w.serve x.before = (x.after, w')) : Serves w x w'
  | branch {b b' : Work} {x : Exchange} (before after : List Work) (next : List Int → Work)
      (h : Serves b x b') :
      Serves (.together (before ++ b :: after) next) x (.together (before ++ b' :: after) next)

/-- Some exchanges, one after the other. -/
inductive Runs : Work → List Exchange → Work → Prop where
  | none (w : Work) : Runs w [] w
  | serve {w w' w'' : Work} {x : Exchange} {xs : List Exchange} (h : Serves w x w')
      (h' : Runs w' xs w'') : Runs w (x :: xs) w''

section

variable {w w' w'' : Work} {x : Exchange} {xs ys : List Exchange}

theorem Runs.trans (h : Runs w xs w') (h' : Runs w' ys w'') : Runs w (xs ++ ys) w'' := by
  induction h with
  | none w => exact h'
  | serve hx _ ih => exact .serve hx (ih h')

theorem Runs.one (h : Serves w x w') : Runs w [x] w' :=
  .serve h (.none w')

theorem Runs.branch (before after : List Work) (next : List Int → Work) (h : Runs w xs w') :
    Runs (.together (before ++ w :: after) next) xs (.together (before ++ w' :: after) next) := by
  induction h with
  | none w => exact .none _
  | serve hx _ ih => exact .serve (.branch before after next hx) ih

end

/-! ## Exchanges are steps -/

/-- Whoever is served takes a step. -/
theorem serve_step {w : Work} {r : Request} (hr : w.request? = some r) (m : Machine) :
    ∃ events, Step m w events (w.serve m).2 := by
  cases w with
  | done | crash => cases hr
  | rest begun next =>
    cases begun with
    | true => exact ⟨_, .answer (.rest true next)⟩
    | false => exact ⟨_, .delay (.rest next)⟩
  | ask token next => exact ⟨_, .answer (.ask token next)⟩
  | write ticket sink data next =>
    rcases h : m.write sink ticket data with ⟨m', ok | held⟩
    · simp only [serve, h]
      exact ⟨_, .answer (.write ticket sink data next ok)⟩
    · simp only [serve, h]
      exact ⟨_, .delay (.write ticket held sink data next)⟩
  | read source lines gathered next =>
    rcases h : m.gather source lines gathered with ⟨m', bytes, _ | _⟩
    · simp only [serve, h]
      exact ⟨_, .delay (.read source lines gathered bytes next)⟩
    · simp only [serve, h]
      exact ⟨_, .answer (.read source lines gathered next bytes)⟩
  | load path next => exact ⟨_, .answer (.load path next _)⟩
  | openFile path mode next => exact ⟨_, .answer (.openFile path mode next _)⟩
  | lookUp name next => exact ⟨_, .answer (.lookUp name next)⟩
  | call c i next => exact ⟨_, .answer (.call c i next _)⟩
  | pause length moment token next =>
    simp only [serve]
    split
    · exact ⟨_, .answer (.pause length moment token next _)⟩
    split
    · exact ⟨_, .answer (.pause length moment token next _)⟩
    · exact ⟨_, .delay (.pause length moment _ token next)⟩
  | generate g i stdout stderr token p ticket next =>
    rcases h : m.produce g i stdout stderr token p ticket with ⟨m', how | ⟨p', held⟩⟩
    · simp only [serve, h]
      exact ⟨_, .answer (.generate g i stdout stderr token p ticket next how)⟩
    · simp only [serve, h]
      exact ⟨_, .delay (.generate g i stdout stderr token p p' ticket held next)⟩
  | retain sink next => exact ⟨_, .answer (.retain sink next)⟩
  | release sink next => exact ⟨_, .answer (.release sink next)⟩
  | abandon source next => exact ⟨_, .answer (.abandon source next)⟩
  | connect next => exact ⟨_, .answer (.connect next _)⟩
  | together branches next =>
    cases hc : codes? branches with
    | some codes =>
      simp only [serve, hc]
      exact ⟨_, .answer (.join next hc)⟩
    | none =>
      have hcrashed : branches.any hasCrashed = true := by
        refine Bool.of_not_eq_false fun hfalse => ?_
        simp [request?, hc, hfalse] at hr
      simp only [serve, hc]
      exact ⟨_, .answer (.fail next hcrashed)⟩
  | seek searchPath cwd name next => exact ⟨_, .answer (.seek searchPath cwd name next _)⟩
  | launch l group next => exact ⟨_, .answer (.launch l group next _)⟩
  | attend stdout stderr group token a next =>
    rcases h : m.attend stdout stderr group token a with ⟨m', code | a'⟩
    · simp only [serve, h]
      exact ⟨_, .answer (.attend stdout stderr group token a next code)⟩
    · simp only [serve, h]
      exact ⟨_, .delay (.attend stdout stderr group token a a' next)⟩

theorem Serves.step {w w' : Work} {x : Exchange} (h : Serves w x w') :
    ∃ events, Step x.before w events w' := by
  induction h with
  | branch before after next _ ih => exact ih.imp fun events h => .branch before after next h
  | @here w w' x hr hs =>
    have hstep := serve_step hr x.before
    rwa [hs] at hstep

theorem Runs.steps {P : Machine → Prop} {w w' : Work} {xs : List Exchange} (h : Runs w xs w')
    (hP : ∀ x ∈ xs, P x.before) : ∃ events, Steps P w events w' := by
  induction h with
  | none w => exact ⟨[], .none w⟩
  | serve hx _ ih =>
    obtain ⟨events, hstep⟩ := hx.step
    obtain ⟨more, hsteps⟩ := ih fun x hx => hP x (List.mem_cons_of_mem _ hx)
    exact ⟨_, .step (hP _ List.mem_cons_self) hstep hsteps⟩

/-! ## What exchanges leave alone -/

/-- Whoever is served leaves the names of commands and the tokens alone. -/
theorem serve_keeps (m : Machine) (w : Work) : Machine.Keeps m (w.serve m).1 := by
  cases w with
  | done | crash | rest | ask | load | lookUp | seek => exact .refl m
  | write ticket sink data next =>
    have hkeeps := m.write_keeps sink ticket data
    simp only [serve]
    split
    all_goals
      rename_i h
      rwa [h] at hkeeps
  | read source lines gathered next =>
    have hkeeps := m.gather_keeps source lines gathered
    simp only [serve]
    split
    all_goals
      rename_i h
      rwa [h] at hkeeps
  | openFile path mode next => exact m.openFile_keeps path mode
  | call c i next => exact ⟨rfl, rfl⟩
  | pause length moment token next =>
    simp only [serve]
    repeat' split
    all_goals exact .refl m
  | generate g i stdout stderr token progress ticket next =>
    have hkeeps := m.produce_keeps g i stdout stderr token progress ticket
    simp only [serve]
    split
    all_goals
      rename_i h
      rwa [h] at hkeeps
  | retain sink next => exact m.retain_keeps sink
  | release sink next => exact m.release_keeps sink
  | abandon source next => exact m.abandon_keeps source
  | connect next => exact m.newChannel_keeps pipeCapacity
  | together branches next =>
    simp only [serve]
    split
    all_goals exact .refl m
  | launch l group next => exact m.launch_keeps l group
  | attend stdout stderr group token a next =>
    have hkeeps := m.attend_keeps stdout stderr group token a
    simp only [serve]
    split
    all_goals
      rename_i h
      rwa [h] at hkeeps

theorem Serves.keeps {w w' : Work} {x : Exchange} (h : Serves w x w') :
    Machine.Keeps x.before x.after := by
  induction h with
  | branch before after next _ ih => exact ih
  | @here w w' x hr hs =>
    have hkeeps := serve_keeps x.before w
    rwa [hs] at hkeeps

/-! ## Turns -/

/-- Nothing happens to the machine but these exchanges. -/
def Linked : Machine → List Exchange → Machine → Prop
  | m, [], m' => m' = m
  | m, x :: xs, m' => x.before = m ∧ Linked x.after xs m'

theorem Linked.trans {m m' m'' : Machine} {xs ys : List Exchange} (h : Linked m xs m')
    (h' : Linked m' ys m'') : Linked m (xs ++ ys) m'' := by
  induction xs generalizing m with
  | nil => exact h ▸ h'
  | cons x xs ih => exact ⟨h.1, ih h.2⟩

/-- A run without anything in between leaves the names of commands and the tokens alone. -/
theorem Runs.keeps {m m' : Machine} {w w' : Work} {xs : List Exchange} (h : Runs w xs w')
    (hm : Linked m xs m') : ∀ x ∈ xs, Machine.Keeps m x.before := by
  induction h generalizing m with
  | none w => simp
  | serve hx _ ih =>
    obtain ⟨rfl, hm⟩ := hm
    refine List.forall_mem_cons.mpr ⟨.refl _, fun x hxs => ?_⟩
    exact hx.keeps.trans (ih hm x hxs)

/-- A run of work on a machine. -/
def RunsOn (m : Machine) (w : Work) (m' : Machine) (w' : Work) : Prop :=
  ∃ xs, Runs w xs w' ∧ Linked m xs m'

theorem RunsOn.refl (m : Machine) (w : Work) : RunsOn m w m w :=
  ⟨[], .none w, rfl⟩

theorem RunsOn.trans {m m' m'' : Machine} {w w' w'' : Work} (h : RunsOn m w m' w')
    (h' : RunsOn m' w' m'' w'') : RunsOn m w m'' w'' := by
  obtain ⟨xs, hxs, hm⟩ := h
  obtain ⟨ys, hys, hm'⟩ := h'
  exact ⟨xs ++ ys, hxs.trans hys, hm.trans hm'⟩

/-- Work is served first, and then it runs on. -/
theorem RunsOn.serve {m m' m'' : Machine} {w w' w'' : Work} {r : Request}
    (hr : w.request? = some r) (hs : w.serve m = (m', w')) (h : RunsOn m' w' m'' w'') :
    RunsOn m w m'' w'' := by
  obtain ⟨xs, hxs, hm⟩ := h
  exact ⟨⟨m, r, m'⟩ :: xs, .serve (.here hr hs) hxs, rfl, hm⟩

theorem RunsOn.one {m m' : Machine} {w w' : Work} {r : Request}
    (hr : w.request? = some r) (hs : w.serve m = (m', w')) : RunsOn m w m' w' :=
  .serve hr hs (.refl m' w')

mutual

/-- A turn is a run. -/
theorem advance_runs : (w : Work) → (m : Machine) →
    RunsOn m w (w.advance m).1 (w.advance m).2
  | .done .., m | .crash, m => by
    simp only [advance]
    exact .refl ..
  | .rest begun next, m => by
    simp only [advance]
    cases begun with
    | true => exact .serve rfl rfl (advance_runs next m)
    | false => exact .one rfl rfl
  | .ask token next, m => by
    simp only [advance]
    exact .serve rfl rfl (advance_runs _ m)
  | .write ticket sink data next, m => by
    rcases h : m.write sink ticket data with ⟨m', ok | held⟩
    · simp only [advance, h]
      exact .serve rfl (by simp only [serve, h]) (advance_runs (next ok) m')
    · simp only [advance, h]
      exact .one rfl (by simp only [serve, h])
  | .read source lines gathered next, m => by
    rcases h : m.gather source lines gathered with ⟨m', bytes, _ | _⟩
    · simp only [advance, h]
      exact .one rfl (by simp only [serve, h])
    · simp only [advance, h]
      exact .serve rfl (by simp only [serve, h]) (advance_runs (next bytes) m')
  | .load path next, m => by
    simp only [advance]
    exact .serve rfl rfl (advance_runs _ m)
  | .openFile path mode next, m => by
    simp only [advance]
    exact .serve rfl rfl (advance_runs _ _)
  | .lookUp name next, m => by
    simp only [advance]
    exact .serve rfl rfl (advance_runs _ m)
  | .call c i next, m => by
    simp only [advance]
    exact .serve rfl rfl (advance_runs _ _)
  | .pause length moment token next, m => by
    simp only [advance]
    split
    · rename_i h
      exact .serve rfl (by simp only [serve, if_pos h]) (advance_runs (next false) m)
    · rename_i h
      split
      · rename_i hset
        exact .serve rfl (by simp only [serve, if_neg h, if_pos hset])
          (advance_runs (next true) m)
      · rename_i hset
        exact .one rfl (by simp only [serve, if_neg h, if_neg hset])
  | .generate g i stdout stderr token progress ticket next, m => by
    rcases h : m.produce g i stdout stderr token progress ticket with ⟨m', how | ⟨progress', held⟩⟩
    · simp only [advance, h]
      exact .serve rfl (by simp only [serve, h]) (advance_runs (next how) m')
    · simp only [advance, h]
      exact .one rfl (by simp only [serve, h])
  | .retain sink next, m | .release sink next, m | .abandon source next, m => by
    simp only [advance]
    exact .serve rfl rfl (advance_runs next _)
  | .connect next, m => by
    simp only [advance]
    exact .serve rfl rfl (advance_runs _ _)
  | .together branches next, m => by
    obtain ⟨xs, hxs, hm⟩ := advanceAll_runs next branches m
    have hbranches : RunsOn m (.together branches next) (advanceAll branches m).1
        (.together (advanceAll branches m).2 next) := ⟨xs, hxs [], hm⟩
    simp only [advance]
    cases hc : codes? (advanceAll branches m).2 with
    | some codes =>
      refine hbranches.trans (.serve (r := .join) ?_ ?_ (advance_runs (next codes) _))
      · simp [request?, hc]
      · simp only [serve, hc]
    | none =>
      simp only
      split
      · rename_i hcrashed
        refine hbranches.trans (.one (r := .join) ?_ ?_)
        · simp [request?, hcrashed]
        · simp only [serve, hc]
      · exact hbranches
  | .seek searchPath cwd name next, m => by
    simp only [advance]
    exact .serve rfl rfl (advance_runs _ m)
  | .launch l group next, m => by
    simp only [advance]
    exact .serve rfl rfl (advance_runs _ _)
  | .attend stdout stderr group token a next, m => by
    rcases h : m.attend stdout stderr group token a with ⟨m', code | a'⟩
    · simp only [advance, h]
      exact .serve rfl (by simp only [serve, h]) (advance_runs (next code) m')
    · simp only [advance, h]
      exact .one rfl (by simp only [serve, h])

/-- A turn of each branch is a run of all of them. -/
theorem advanceAll_runs (next : List Int → Work) : (branches : List Work) → (m : Machine) →
    ∃ xs, (∀ before, Runs (.together (before ++ branches) next) xs
      (.together (before ++ (advanceAll branches m).2) next)) ∧
      Linked m xs (advanceAll branches m).1
  | [], m => ⟨[], fun before => .none _, rfl⟩
  | b :: more, m => by
    obtain ⟨xs, hxs, hm⟩ := advance_runs b m
    simp only [advanceAll]
    split
    · exact ⟨xs, fun before => hxs.branch before more next, hm⟩
    · obtain ⟨ys, hys, hm'⟩ := advanceAll_runs next more (b.advance m).1
      refine ⟨xs ++ ys, fun before => ?_, hm.trans hm'⟩
      have h := hys (before ++ [(b.advance m).2])
      simp only [List.append_assoc, List.singleton_append] at h
      exact (hxs.branch before more next).trans h

end

end Work
end Runnel
