import Runnel.Flow.Activity
import Runnel.Proofs.Flow.Steps

/-!
# Runnel.Proofs.Flow.AndOr

Sequences as lists of and-or lists. A sequence is cut at `;` into lists whose commands are joined by
`&&` and `||`. Each list is a tree that grows to the left and is evaluated with short circuit, and
with `errexit` the first list ends all whose final command was run and failed.

* `AndOr.cut`, `AndOr.evaluate`, `AndOr.evaluateAll`: this reading.
* `Work.Comes`: what work comes to if no token is set.
* `Activity.sequence_comes`: sequences are evaluated like this, whatever their commands do.
-/

namespace Runnel

/-! ## Commands as functions -/

/-- What a command does. -/
structure Effect where
  stdout : Bytes
  stderr : Bytes
  code : Int
  /-- The state that it leaves behind. -/
  ctx : Context

/-- What a command does in a state and with some input. -/
abbrev Behaviour : Type := Context → Source → Effect

/-- The activity of a command that is a function. -/
def Activity.ofBehaviour (b : Behaviour) : Activity := fun ctx io next =>
  .write none io.stdout (b ctx io.stdin).stdout fun _ =>
    .write none io.stderr (b ctx io.stdin).stderr fun _ =>
      Work.releaseAll io (next (b ctx io.stdin).code (b ctx io.stdin).ctx)

/-! ## And-or lists -/

/-- A command that was run. -/
structure Ran (α : Type) where
  command : α
  input : Source
  effect : Effect

/-- What commands came to. -/
structure Course (α : Type) where
  /-- Those that were run, in order. -/
  runs : List (Ran α)
  code : Int
  ctx : Context
  /-- The final command was run. -/
  finalRan : Bool

/-- Commands joined by `&&` and `||`, which associate to the left. -/
inductive AndOr (α : Type) where
  /-- A command. -/
  | single (a : α)
  /-- A command that is run after success. -/
  | and (left : AndOr α) (a : α)
  /-- A command that is run after failure. -/
  | or (left : AndOr α) (a : α)

namespace Course

variable {α : Type}

/-- Nothing is run. -/
def idle (ctx : Context) : Course α :=
  ⟨[], ctx.status, ctx, false⟩

/-- With commands that were run before. -/
def after (c : Course α) (earlier : List (Ran α)) : Course α :=
  { c with runs := earlier ++ c.runs }

/-- The final command was run and failed, and that ends all. -/
def stops (c : Course α) : Bool :=
  c.finalRan && c.code != 0 && c.ctx.settings.errexit

/-- What is written in the course of it. -/
def events (io : Streams) (c : Course α) : List Work.Event :=
  c.runs.flatMap fun r =>
    [.output io.stdout r.effect.stdout, .output io.stderr r.effect.stderr]

end Course

namespace AndOr

variable {α : Type} (does : α → Behaviour)

/-- A command is run. -/
def run (ctx : Context) (input : Source) (a : α) : Course α :=
  let e := does a ctx input
  ⟨[⟨a, input, e⟩], e.code, e.ctx.withStatus e.code, true⟩

/-- A command behind others is run without input, or it is skipped, which leaves the exit code. -/
def goOn (c : Course α) (runs : Bool) (a : α) : Course α :=
  if runs then (run does c.ctx .empty a).after c.runs else { c with finalRan := false }

/-- What an and-or list comes to; its first command gets the input. -/
def evaluate (ctx : Context) (input : Source) : AndOr α → Course α
  | .single a => run does ctx input a
  | .and left a =>
    let c := evaluate ctx input left
    goOn does c (c.code == 0) a
  | .or left a =>
    let c := evaluate ctx input left
    goOn does c (c.code != 0) a

/-- What and-or lists come to one after the other; the first one gets the input. -/
def evaluateAll (ctx : Context) (input : Source) : List (AndOr α) → Course α
  | [] => .idle ctx
  | l :: more =>
    let c := evaluate does ctx input l
    if c.stops || more.isEmpty then c else (evaluateAll c.ctx .empty more).after c.runs

/-- The and-or lists of a sequence, of which `left` has been read. -/
def cut (left : AndOr α) : List (Connector × α) → List (AndOr α)
  | [] => [left]
  | (.and, a) :: rest => cut (.and left a) rest
  | (.or, a) :: rest => cut (.or left a) rest
  | (.next, a) :: rest => left :: cut (.single a) rest

example : cut (.single 'a') [(.or, 'b'), (.and, 'c'), (.next, 'd')] =
    [.and (.or (.single 'a') 'b') 'c', .single 'd'] := rfl

/-! ### Who gets the input -/

/-- The first command that was run had this input, and the others had none. -/
def Feeds (input : Source) (runs : List (Ran α)) : Prop :=
  ∃ r more, runs = r :: more ∧ r.input = input ∧ ∀ r ∈ more, r.input = .empty

theorem Feeds.append {input : Source} {runs more : List (Ran α)} (h : Feeds input runs)
    (hmore : ∀ r ∈ more, r.input = .empty) : Feeds input (runs ++ more) := by
  obtain ⟨r, others, rfl, hr, hothers⟩ := h
  refine ⟨r, others ++ more, rfl, hr, fun r' hr' => ?_⟩
  rcases List.mem_append.mp hr' with hr' | hr'
  · exact hothers r' hr'
  · exact hmore r' hr'

theorem Feeds.all_empty {runs : List (Ran α)} (h : Feeds .empty runs) :
    ∀ r ∈ runs, r.input = .empty := by
  obtain ⟨r, more, rfl, hr, hmore⟩ := h
  exact List.forall_mem_cons.mpr ⟨hr, hmore⟩

theorem feeds_goOn {input : Source} {c : Course α} (h : Feeds input c.runs) (runs : Bool) (a : α) :
    Feeds input (goOn does c runs a).runs := by
  cases runs with
  | true =>
    refine h.append fun r hr => ?_
    rw [List.mem_singleton.mp hr]
  | false => exact h

theorem feeds_evaluate (ctx : Context) (input : Source) (l : AndOr α) :
    Feeds input (evaluate does ctx input l).runs := by
  induction l with
  | single a => exact ⟨_, [], rfl, rfl, by simp⟩
  | and left a ih => exact feeds_goOn does ih _ a
  | or left a ih => exact feeds_goOn does ih _ a

theorem evaluateAll_inputs (ctx : Context) (ls : List (AndOr α)) :
    ∀ r ∈ (evaluateAll does ctx .empty ls).runs, r.input = .empty := by
  induction ls generalizing ctx with
  | nil => simp [evaluateAll, Course.idle]
  | cons l more ih =>
    have hl := (feeds_evaluate does ctx .empty l).all_empty
    simp only [evaluateAll]
    split
    · exact hl
    · exact List.forall_mem_append.mpr ⟨hl, ih _⟩

theorem cut_ne_nil (left : AndOr α) (rest : List (Connector × α)) : cut left rest ≠ [] := by
  induction rest generalizing left with
  | nil => simp [cut]
  | cons m rest ih =>
    obtain ⟨_ | _ | _, a⟩ := m
    · exact ih _
    · exact ih _
    · simp [cut]

/-- Only the first command of all gets input. -/
theorem feeds_evaluateAll (ctx : Context) (input : Source) {ls : List (AndOr α)} (h : ls ≠ []) :
    Feeds input (evaluateAll does ctx input ls).runs := by
  obtain ⟨l, more, rfl⟩ := List.exists_cons_of_ne_nil h
  have hl := feeds_evaluate does ctx input l
  simp only [evaluateAll]
  split
  · exact hl
  · exact hl.append (evaluateAll_inputs does _ more)

end AndOr

/-! ## What work comes to -/

namespace Work

/-- No token is set. -/
def Uncancelled (m : Machine) : Prop :=
  ∀ token, m.isSet token = false

theorem uncancelled_ofDisk (disk : Disk) (registry : Registry) :
    Uncancelled (.ofDisk disk registry) :=
  fun _ => by simp [Machine.ofDisk, Machine.isSet]

/-- The runs of work that end while no token is set: what others notice in them, and the end. -/
def Ends (w : Work) (events : List Event) (w' : Work) : Prop :=
  w'.isComplete = true ∧ ∃ later, events = w.opening ++ later ∧ Steps Uncancelled w later w'

section

variable {w w' next : Work} {events : List Event}

theorem ends_done {code : Int} {ctx : Context} :
    Ends (.done code ctx) events w' ↔ events = [] ∧ w' = .done code ctx := by
  constructor
  · rintro ⟨_, later, rfl, hsteps⟩
    cases hsteps with
    | none => exact ⟨rfl, rfl⟩
    | step _ hstep => cases hstep with | answer h => cases h | delay h => cases h
  · rintro ⟨rfl, rfl⟩
    exact ⟨rfl, [], rfl, .none _⟩

/-- An answer comes first in a run. -/
theorem Ends.answer {m : Machine} (h : Ends next events w') (hm : Uncancelled m)
    (ha : Answer m w next) : Ends w (w.opening ++ events) w' := by
  obtain ⟨hw', later, rfl, hsteps⟩ := h
  exact ⟨hw', _, rfl, hsteps.answer hm ha⟩

/-- A request that nobody notices, that nothing delays and that has one answer does not count. -/
theorem ends_iff_of_answer (hopening : w.opening = []) (hw : w.isComplete = false)
    (hbranch : ∀ branches next, w ≠ .together branches next) (hdelay : ∀ w', ¬ Delay w w')
    (hanswer : ∀ m, Uncancelled m → ∀ w', Answer m w w' ↔ w' = next) :
    Ends w events w' ↔ Ends next events w' := by
  constructor
  · rintro ⟨hw', later, rfl, hsteps⟩
    rw [hopening, List.nil_append]
    cases hsteps with
    | none => rw [hw] at hw'; cases hw'
    | step hm hstep hmore =>
      cases hstep with
      | answer ha =>
        cases (hanswer _ hm _).mp ha
        exact ⟨hw', _, rfl, hmore⟩
      | delay hd => exact absurd hd (hdelay _)
      | branch => exact absurd rfl (hbranch _ _)
  · intro h
    have hm := uncancelled_ofDisk .empty .empty
    have := h.answer hm ((hanswer _ hm next).mpr rfl)
    rwa [hopening, List.nil_append] at this

theorem ends_retain {sink : Sink} : Ends (.retain sink next) events w' ↔ Ends next events w' :=
  ends_iff_of_answer (by simp only [opening]) rfl (by simp) (fun _ hd => by cases hd) fun _ _ _ =>
    ⟨fun ha => by cases ha; rfl, fun h => by subst h; exact .retain _ _⟩

theorem ends_release {sink : Sink} : Ends (.release sink next) events w' ↔ Ends next events w' :=
  ends_iff_of_answer (by simp only [opening]) rfl (by simp) (fun _ hd => by cases hd) fun _ _ _ =>
    ⟨fun ha => by cases ha; rfl, fun h => by subst h; exact .release _ _⟩

theorem ends_abandon {source : Source} :
    Ends (.abandon source next) events w' ↔ Ends next events w' :=
  ends_iff_of_answer (by simp only [opening]) rfl (by simp) (fun _ hd => by cases hd) fun _ _ _ =>
    ⟨fun ha => by cases ha; rfl, fun h => by subst h; exact .abandon _ _⟩

theorem ends_ask {token : TokenId} {next : Bool → Work} :
    Ends (.ask token next) events w' ↔ Ends (next false) events w' :=
  ends_iff_of_answer (by simp only [opening]) rfl (by simp) (fun _ hd => by cases hd) fun m hm _ =>
    ⟨fun ha => by cases ha; rw [hm token], fun h => h ▸ hm token ▸ .ask token next⟩

/-- What is written is noticed once, however long it is held up. -/
theorem ends_write {ticket : Option Ticket} {sink : Sink} {data : Bytes} :
    Ends (.write ticket sink data fun _ => next) events w' ↔
      ∃ more, events = .output sink data :: more ∧ Ends next more w' := by
  constructor
  · rintro ⟨hw', later, rfl, hsteps⟩
    refine ⟨later, rfl, ?_⟩
    generalize hv : Work.write ticket sink data (fun _ => next) = v at hsteps
    induction hsteps generalizing ticket with
    | none => subst hv; cases hw'
    | step hm hstep hmore ih =>
      subst hv
      cases hstep with
      | answer ha =>
        cases ha
        exact ⟨hw', _, rfl, hmore⟩
      | delay hd =>
        cases hd with
        | write _ held => exact ih hw' rfl
  · rintro ⟨more, rfl, h⟩
    exact h.answer (uncancelled_ofDisk .empty .empty) (.write ticket sink data _ true)

end

/-- All runs of work that end come to this, and there is one. -/
def Comes {α : Type} (io : Streams) (w : Work) (c : Course α) : Prop :=
  ∀ events w', Ends w events w' ↔ events = c.events io ∧ w' = .done c.code c.ctx

section

variable {α : Type} {io : Streams} {next : Work} {c : Course α}

theorem comes_done {code : Int} {ctx : Context} {finalRan : Bool} :
    Comes io (.done code ctx) (⟨[], code, ctx, finalRan⟩ : Course α) :=
  fun _ _ => ends_done

theorem Comes.release (h : Comes io next c) (sink : Sink) : Comes io (.release sink next) c :=
  fun events w' => ends_release.trans (h events w')

theorem Comes.retain (h : Comes io next c) (sink : Sink) : Comes io (.retain sink next) c :=
  fun events w' => ends_retain.trans (h events w')

theorem Comes.ask {next : Bool → Work} (h : Comes io (next false) c) (token : TokenId) :
    Comes io (.ask token next) c :=
  fun events w' => ends_ask.trans (h events w')

/-- A command that is a function is run, and then comes what follows. -/
theorem comes_ofBehaviour {does : α → Behaviour} {a : α} {ctx : Context} {input : Source}
    {next : Int → Context → Work}
    (h : Comes io (next (does a ctx input).code (does a ctx input).ctx) c) :
    Comes io (Activity.ofBehaviour (does a) ctx { io with stdin := input } next)
      (c.after (AndOr.run does ctx input a).runs) := by
  intro events w'
  simp only [Activity.ofBehaviour, releaseAll, ends_write, ends_abandon, ends_release]
  constructor
  · rintro ⟨_, rfl, more, rfl, hnext⟩
    obtain ⟨rfl, rfl⟩ := (h more w').mp hnext
    exact ⟨rfl, rfl⟩
  · rintro ⟨rfl, rfl⟩
    exact ⟨_, rfl, _, rfl, (h _ _).mpr ⟨rfl, rfl⟩⟩

end

end Work

/-! ## Sequences -/

namespace Activity

open AndOr Work

variable {α : Type} (does : α → Behaviour)

/-- The members of a sequence. -/
def ofMembers (rest : List (Connector × α)) : List (Connector × Activity) :=
  rest.map fun m => (m.1, ofBehaviour (does m.2))

@[simp] theorem ofMembers_nil : ofMembers does [] = [] := rfl

@[simp] theorem ofMembers_cons (connector : Connector) (a : α) (rest : List (Connector × α)) :
    ofMembers does ((connector, a) :: rest) =
      (connector, ofBehaviour (does a)) :: ofMembers does rest := rfl

/-- What a sequence does after its members have come so far. -/
def resume (io : Streams) (c : Course α) (rest : List (Connector × α)) : Work :=
  if c.finalRan && stopsSequence c.ctx c.code (ofMembers does rest) then
    .release io.stdout (.release io.stderr (.done c.code c.ctx))
  else sequenceRest io.stdout io.stderr .done c.ctx c.code (ofMembers does rest)

variable {does}

/-- A member that its connector admits: the sequence asks for the token, runs it, and goes on. -/
theorem comes_member {io : Streams} {connector : Connector} {a : α} {c d : Course α}
    {rest : List (Connector × α)} (hadmits : connector.admits c.code = true)
    (h : Comes io (resume does io (run does c.ctx .empty a) rest) d) :
    Comes io
      (sequenceRest io.stdout io.stderr .done c.ctx c.code (ofMembers does ((connector, a) :: rest)))
      (d.after (run does c.ctx .empty a).runs) := by
  simp only [ofMembers_cons, sequenceRest, hadmits, Bool.not_true, Bool.false_eq_true, if_false]
  refine Comes.ask (Comes.retain (Comes.retain (comes_ofBehaviour ?_) io.stderr) io.stdout) _
  simpa only [resume, run, Bool.true_and] using h

/-- A member behind `&&` or `||` is run or skipped, and then comes what follows. -/
theorem exists_comes_goOn {io : Streams} {connector : Connector} (hc : connector ≠ .next) {a : α}
    {c d : Course α} {rest : List (Connector × α)}
    (h : Comes io (resume does io (goOn does c (connector.admits c.code) a) rest) d) :
    ∃ d', d.after (goOn does c (connector.admits c.code) a).runs = d'.after c.runs ∧
      Comes io (resume does io c ((connector, a) :: rest)) d' := by
  have hresume : resume does io c ((connector, a) :: rest) =
      sequenceRest io.stdout io.stderr .done c.ctx c.code
        (ofMembers does ((connector, a) :: rest)) := by
    cases connector with
    | and | or => simp [resume, stopsSequence]
    | next => exact absurd rfl hc
  rw [hresume]
  cases hadmits : connector.admits c.code with
  | true =>
    rw [hadmits] at h
    refine ⟨d.after (run does c.ctx .empty a).runs, ?_, comes_member hadmits h⟩
    simp [goOn, Course.after]
  | false =>
    rw [hadmits] at h
    refine ⟨d, rfl, ?_⟩
    simpa [resume, goOn, sequenceRest, hadmits] using h

/-- Resuming after `left` comes to what is left of the evaluation. The induction is on the members
that follow; each makes `left` longer or begins a new list. -/
theorem exists_comes_resume (does : α → Behaviour) (io : Streams) (rest : List (Connector × α))
    (ctx : Context) (input : Source) (left : AndOr α) :
    ∃ d : Course α,
      evaluateAll does ctx input (cut left rest) = d.after (evaluate does ctx input left).runs ∧
      Comes io (resume does io (evaluate does ctx input left) rest) d := by
  induction rest generalizing ctx input left with
  | nil =>
    generalize hc : evaluate does ctx input left = c
    have hresume : resume does io c [] =
        .release io.stdout (.release io.stderr (.done c.code c.ctx)) := by
      simp [resume, sequenceRest]
    rw [hresume]
    exact ⟨⟨[], c.code, c.ctx, c.finalRan⟩, by simp [cut, evaluateAll, hc, Course.after],
      (comes_done.release io.stderr).release io.stdout⟩
  | cons m rest ih =>
    obtain ⟨connector, a⟩ := m
    cases connector with
    | and =>
      obtain ⟨d, hd, hcomes⟩ := ih ctx input (.and left a)
      obtain ⟨d', hd', hcomes'⟩ := exists_comes_goOn (show Connector.and ≠ .next by simp) hcomes
      exact ⟨d', hd.trans hd', hcomes'⟩
    | or =>
      obtain ⟨d, hd, hcomes⟩ := ih ctx input (.or left a)
      obtain ⟨d', hd', hcomes'⟩ := exists_comes_goOn (show Connector.or ≠ .next by simp) hcomes
      exact ⟨d', hd.trans hd', hcomes'⟩
    | next =>
      generalize hc : evaluate does ctx input left = c
      obtain ⟨d, hd, hcomes⟩ := ih c.ctx .empty (.single a)
      have hstops : (c.finalRan && stopsSequence c.ctx c.code (ofMembers does ((.next, a) :: rest)))
          = c.stops := by
        simp [stopsSequence, Course.stops, Bool.and_assoc]
      have hmore : (cut (.single a) rest).isEmpty = false := by
        simp [cut_ne_nil]
      simp only [cut, evaluateAll, hc, resume, hstops, hmore, Bool.or_false]
      cases c.stops with
      | true =>
        exact ⟨⟨[], c.code, c.ctx, c.finalRan⟩, by simp [Course.after],
          (comes_done.release io.stderr).release io.stdout⟩
      | false =>
        simp only [hd, Bool.false_eq_true, if_false]
        exact ⟨d.after (run does c.ctx .empty a).runs, rfl, comes_member rfl hcomes⟩

/-- A sequence of commands that are functions comes to what its and-or lists come to: as long as no
token is set, its runs end with their exit code and state after writing what they write, and there
is such a run. Only the first command gets input. -/
theorem sequence_comes (does : α → Behaviour) (first : α) (rest : List (Connector × α))
    (ctx : Context) (io : Streams) :
    let course := evaluateAll does ctx io.stdin (cut (.single first) rest)
    (∀ events w,
      Steps Uncancelled (sequence (ofBehaviour (does first)) (ofMembers does rest) ctx io .done)
        events w ∧ w.isComplete = true ↔
      events = course.events io ∧ w = .done course.code course.ctx) ∧
    Feeds io.stdin course.runs := by
  intro course
  refine ⟨fun events w => ?_, feeds_evaluateAll does ctx io.stdin (cut_ne_nil _ rest)⟩
  obtain ⟨d, hd, hcomes⟩ := exists_comes_resume does io rest ctx io.stdin (.single first)
  have hfirst : Comes io (sequence (ofBehaviour (does first)) (ofMembers does rest) ctx io .done)
      (d.after (run does ctx io.stdin first).runs) := by
    refine Comes.retain (Comes.retain (comes_ofBehaviour ?_) io.stderr) io.stdout
    simpa only [resume, evaluate, run, Bool.true_and] using hcomes
  have hcourse : course = d.after (run does ctx io.stdin first).runs := hd
  rw [hcourse, ← hfirst events w, Ends]
  simp [sequence, opening, and_comm]

end Activity
end Runnel
