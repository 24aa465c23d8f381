import Runnel.Flow.Activity
import Runnel.Proofs.Flow.Happenings
import Runnel.Proofs.Flow.Linking

/-!
# Runnel.Proofs.Flow.Staging

A stage of a pipeline: a simple command without redirects whose name stands for a call that reads
all of its input and whose outcome depends on its invocation alone.

* `CallStage`, `CallStage.output`: the command, and what it hands back to given input.
* `Point`, `CallStage.work`, `CallStage.step`: how far the stage is, what is left to do there, and
  its next step.
* `CallStage.serve_work`: the machine that serves the stage makes it take this step.
* `CallStage.past_step`, `CallStage.step_handles`: what comes of a step, and what it does to the
  streams.
-/

namespace Runnel

open Activity Work

/-- What a call hands back, however it ends. A pause is over before the call has ended. -/
def Outcome.output (name : String) : Outcome → Output
  | .done output => output
  | .failed reason => .ofMessage (failureMessage name reason) 1
  | .crashed message => .ofMessage (failureMessage name (crashMessage message)) 1
  | .pause _ complete _ => .ofCode complete

/-- A simple command without redirects that stands for a call in this state. -/
structure CallStage (ctx : Context) where
  /-- The name, as it is written. -/
  word : Word
  /-- The arguments, as they are written. -/
  words : List Word
  /-- The name. -/
  name : String
  /-- The arguments. -/
  args : List String
  /-- What stands behind the name. -/
  call : Call
  /-- How the call ends, which depends on nothing but the invocation. -/
  behaviour : Invocation → Outcome
  /-- Names stand for built-in commands. -/
  builtins : ctx.builtins = true
  /-- The words stand for the name and the arguments. -/
  expands : ctx.expandAll (word :: words) = .ok (name :: args)
  /-- The call wants all of its input. -/
  demands : call.demand args = .everything
  runs : ∀ i disk, (call.run i disk).1 = behaviour i

/-- How far a stage is. -/
inductive Point (ctx : Context) where
  | start
  /-- It shows its words. -/
  | tracing (wanted : ctx.settings.xtrace = true) (ticket : Option Ticket)
  | lookingUp
  | reading (gathered : Bytes)
  | calling (input : Bytes)
  | pausing (input : Bytes) (length : Number.Duration) (cutShort : Int) (until? : Option Nat)
  /-- It delivers its output. -/
  | writing (input : Bytes) (ticket : Option Ticket)
  /-- It delivers its messages. -/
  | reporting (input : Bytes) (ticket : Option Ticket)
  | closing (input : Bytes)
  /-- It lets go of its output. -/
  | leaving (input : Bytes)
  /-- It lets go of the sink for messages. -/
  | parting (input : Bytes)
  | finished (input : Bytes)

/-- Where a stage with this input goes on after its call. -/
def Point.afterCall {ctx : Context} (input : Bytes) : Outcome → Point ctx
  | .done _ => .writing input none
  | .failed _ | .crashed _ => .reporting input none
  | .pause length _ cutShort => .pausing input length cutShort none

/-- The stage is over. -/
def Point.isOver {ctx : Context} : Point ctx → Bool
  | .finished _ => true
  | _ => false

/-- When a pause that has begun is over. -/
def Point.moment {ctx : Context} : Point ctx → Nat
  | .pausing _ _ _ (some moment) => moment
  | _ => 0

/-- How much is left to do. -/
def Point.rank {ctx : Context} : Point ctx → Nat
  | .start => 12
  | .tracing .. => 11
  | .lookingUp => 10
  | .reading _ => 9
  | .calling _ => 8
  | .pausing _ _ _ none => 7
  | .pausing _ _ _ (some _) => 6
  | .writing _ _ => 5
  | .reporting _ _ => 4
  | .closing _ => 3
  | .leaving _ => 2
  | .parting _ => 1
  | .finished _ => 0

namespace CallStage

variable {ctx : Context} (s : CallStage ctx) (io : Streams)

/-- The command of the stage. -/
def command : Command :=
  .simple s.word s.words []

/-- What the call gets to see when its input is this. -/
def invocation (input : Bytes) : Invocation :=
  ⟨s.name, s.args, Text.decodeLossy input, ctx.cwd, ctx.env, ctx.status⟩

/-- What the stage delivers when its input is this. -/
def output (input : Bytes) : Output :=
  (s.behaviour (s.invocation input)).output s.name

/-- The line that shows the words of the stage. -/
def trace : Bytes :=
  Text.encode (traceLine (s.name :: s.args))

/-- What follows once the name is looked up. -/
def found : Option Handler → Work
  | some handler => Activity.builtin s.name handler s.args ctx io .done
  | none => namedProgram s.name s.args ctx io .done

/-- The end of the stage. -/
def ending (input : Bytes) : Work :=
  .done (s.output input).code
    ((ctx.enter (s.output input).chdir).withStatus (s.output input).code)

/-- What is left to do at a point. -/
def work : Point ctx → Work
  | .start => s.command.activity ctx io .done
  | .tracing _ ticket => .write ticket io.stderr s.trace fun _ => .lookUp s.name (s.found io)
  | .lookingUp => .lookUp s.name (s.found io)
  | .reading gathered =>
    .read io.stdin none gathered fun input =>
      .call s.call (s.invocation input) fun outcome =>
        conclude s.name outcome ctx { io with stdin := .empty } .done
  | .calling input =>
    .call s.call (s.invocation input) fun outcome =>
      conclude s.name outcome ctx { io with stdin := .empty } .done
  | .pausing input length cutShort until? =>
    .pause length until? ctx.token fun cut =>
      deliver (if cut then .ofCode cutShort else s.output input) ctx
        { io with stdin := .empty } .done
  | .writing input ticket =>
    .write ticket io.stdout (s.output input).stdout fun _ =>
      .write none io.stderr (s.output input).stderr fun _ =>
        .abandon .empty (.release io.stdout (.release io.stderr (s.ending input)))
  | .reporting input ticket =>
    .write ticket io.stderr (s.output input).stderr fun _ =>
      .abandon .empty (.release io.stdout (.release io.stderr (s.ending input)))
  | .closing input => .abandon .empty (.release io.stdout (.release io.stderr (s.ending input)))
  | .leaving input => .release io.stdout (.release io.stderr (s.ending input))
  | .parting input => .release io.stderr (s.ending input)
  | .finished input => s.ending input

/-- The next step of the stage, while the token is not set and the name is known. -/
def step : Point ctx → Machine → Machine × Point ctx
  | .start, m => (m, if h : ctx.settings.xtrace = true then .tracing h none else .lookingUp)
  | .tracing wanted ticket, m =>
    match m.write io.stderr ticket s.trace with
    | (m, .delivered _) => (m, .lookingUp)
    | (m, .held ticket) => (m, .tracing wanted ticket)
  | .lookingUp, m => (m, .reading [])
  | .reading gathered, m =>
    match m.gather io.stdin none gathered with
    | (m, input, true) => (m, .calling input)
    | (m, gathered, false) => (m, .reading gathered)
  | .calling input, m =>
    ({ m with disk := (s.call.run (s.invocation input) m.disk).2 },
      Point.afterCall input (s.behaviour (s.invocation input)))
  | .pausing input length cutShort until?, m =>
    if pauseEnd m length until? ≤ m.clock then (m, .writing input none)
    else (m, .pausing input length cutShort (some (pauseEnd m length until?)))
  | .writing input ticket, m =>
    match m.write io.stdout ticket (s.output input).stdout with
    | (m, .delivered _) => (m, .reporting input none)
    | (m, .held ticket) => (m, .writing input ticket)
  | .reporting input ticket, m =>
    match m.write io.stderr ticket (s.output input).stderr with
    | (m, .delivered _) => (m, .closing input)
    | (m, .held ticket) => (m, .reporting input ticket)
  | .closing input, m => (m, .leaving input)
  | .leaving input, m => (m.release io.stdout, .parting input)
  | .parting input, m => (m.release io.stderr, .finished input)
  | .finished input, m => (m, .finished input)

/-- The token is not set, and the name stands for the call. -/
structure Ready (m : Machine) : Prop where
  token : m.isSet ctx.token = false
  found : m.registry.get? s.name = some (.call s.call)

/-! ## Steps -/

theorem activity_eq :
    s.command.activity ctx io .done =
      .ask ctx.token fun cancelled =>
        if cancelled then releaseAll io (.done ctx.status ctx)
        else s.work io
          (if h : ctx.settings.xtrace = true then .tracing h none else .lookingUp) := by
  simp only [command, Command.activity, guarded, simple, s.expands, redirected, invoke, traced,
    s.builtins, if_true]
  congr 1
  funext cancelled
  split
  · rfl
  · split
    · rfl
    · rfl

theorem found_eq : s.found io (some (.call s.call)) = s.work io (.reading []) := by
  simp only [found, Activity.builtin, demanded, s.demands]
  rfl

theorem conclude_eq (input : Bytes) :
    conclude s.name (s.behaviour (s.invocation input)) ctx { io with stdin := .empty } .done =
      s.work io (Point.afterCall input (s.behaviour (s.invocation input))) := by
  cases h : s.behaviour (s.invocation input) with
  | done output =>
    simp only [Point.afterCall, work, ending, CallStage.output, h, Outcome.output]
    rfl
  | failed reason | crashed message =>
    simp only [Point.afterCall, work, ending, CallStage.output, h, Outcome.output]
    rfl
  | pause length complete cutShort =>
    simp only [Point.afterCall, work, CallStage.output, h, Outcome.output, ← apply_ite]
    rfl

variable {s io} {m : Machine} {p : Point ctx}

/-- Serving the stage makes it take its step. -/
theorem serve_work (hm : s.Ready m) (p : Point ctx) :
    (s.work io p).serve m = ((s.step io p m).1, s.work io (s.step io p m).2) := by
  cases p with
  | start =>
    show (s.command.activity ctx io .done).serve m = _
    simp only [activity_eq, serve, hm.token, step, Bool.false_eq_true, if_false]
  | tracing wanted ticket | writing input ticket | reporting input ticket =>
    simp only [work, serve, step]
    split
    all_goals
      rename_i h
      simp only [h]
  | lookingUp =>
    simp only [work, serve, hm.found, found_eq, step]
  | reading gathered =>
    simp only [work, serve, step]
    split
    all_goals
      rename_i h
      simp only [h]
  | calling input =>
    simp only [work, serve, s.runs, step, conclude_eq]
  | pausing input length cutShort until? =>
    simp only [work, serve, hm.token, Bool.false_eq_true, if_false, step]
    split
    all_goals rfl
  | closing | leaving | parting | finished => rfl

/-! ## What comes of a step -/

variable (s io)

/-- The line that shows the words, if it is wanted. -/
def traced : List Happening :=
  if ctx.settings.xtrace then writing io.stderr s.trace else []

/-- What comes of the stage up to its call. -/
def calledWith (input : Bytes) : List Happening :=
  s.traced io ++ [.received io.stdin input] ++ [.called s.call (s.invocation input)]

/-- What comes of the stage in all when its input is this. -/
def happenings (input : Bytes) : List Happening :=
  s.calledWith io input ++ writing io.stdout (s.output input).stdout ++
    writing io.stderr (s.output input).stderr

/-- What has come of the stage once it is at a point. -/
def past : Point ctx → List Happening
  | .start | .tracing .. => []
  | .lookingUp | .reading _ => s.traced io
  | .calling input => s.traced io ++ [.received io.stdin input]
  | .pausing input _ _ _ | .writing input _ => s.calledWith io input
  | .reporting input _ => s.calledWith io input ++ writing io.stdout (s.output input).stdout
  | .closing input | .leaving input | .parting input | .finished input => s.happenings io input

/-- Where the stage stands with its input and its output. -/
def standing : Point ctx → Standing
  | .start | .tracing .. | .lookingUp => ⟨[], true, [], true⟩
  | .reading gathered => ⟨[], true, gathered, true⟩
  | .calling input | .pausing input _ _ _ | .writing input _ => ⟨[], true, input, false⟩
  | .reporting input _ | .closing input | .leaving input =>
    ⟨(s.output input).stdout, true, input, false⟩
  | .parting input | .finished input => ⟨(s.output input).stdout, false, input, false⟩

variable {s io}

/-- What comes of an exchange is what comes of the step. -/
theorem past_step {r : Request} (hr : (s.work io p).request? = some r) (m' : Machine) :
    s.past io (s.step io p m).2 = s.past io p ++ (⟨m, r, m'⟩ : Exchange).happenings := by
  cases p with
  | start =>
    replace hr : (s.command.activity ctx io .done).request? = some r := hr
    rw [activity_eq] at hr
    cases hr
    cases h : ctx.settings.xtrace with
    | true => simp [step, h, past, Exchange.happenings]
    | false => simp [step, h, past, traced, Exchange.happenings]
  | tracing wanted ticket =>
    cases hr
    rcases h : m.write io.stderr ticket s.trace with ⟨m₁, ok | held⟩
    · simp [step, h, past, traced, wanted, Exchange.happenings]
    · simp [step, h, past, Exchange.happenings]
  | lookingUp => cases hr; simp [step, past, Exchange.happenings]
  | reading gathered =>
    cases hr
    rcases h : m.gather io.stdin none gathered with ⟨m₁, bytes, _ | _⟩
    · simp [step, h, past, Exchange.happenings]
    · simp [step, h, past, Exchange.happenings]
  | calling input =>
    cases hr
    simp only [step, Exchange.happenings]
    cases h : s.behaviour (s.invocation input) with
    | done output | pause => rfl
    | failed | crashed =>
      simp [Point.afterCall, past, calledWith, CallStage.output, h, Outcome.output,
        Output.ofMessage, writing, chunks]
  | pausing input length cutShort until? =>
    cases hr
    simp only [step, Exchange.happenings, List.append_nil]
    split
    all_goals rfl
  | writing input ticket =>
    cases hr
    rcases h : m.write io.stdout ticket (s.output input).stdout with ⟨m₁, ok | held⟩
    · simp [step, h, past, Exchange.happenings]
    · simp [step, h, past, Exchange.happenings]
  | reporting input ticket =>
    cases hr
    rcases h : m.write io.stderr ticket (s.output input).stderr with ⟨m₁, ok | held⟩
    · simp [step, h, past, Exchange.happenings, CallStage.happenings]
    · simp [step, h, past, Exchange.happenings]
  | closing | leaving | parting =>
    cases hr
    simp [step, past, Exchange.happenings]
  | finished => cases hr

/-- A step is one of those that stages take. -/
theorem step_handles (p : Point ctx) (m : Machine) :
    Handles io (s.standing p) m (s.standing (s.step io p m).2) (s.step io p m).1 := by
  have herr := io.stderr.within_channel?
  cases p with
  | start =>
    simp only [step]
    split
    all_goals exact .aside (.refl _ m)
  | tracing wanted ticket =>
    have htouches := Machine.write_touches m herr ticket s.trace
    simp only [step]
    split
    all_goals
      rename_i h
      rw [h] at htouches
      exact .aside htouches
  | lookingUp => exact .aside (.refl _ m)
  | reading gathered =>
    simp only [step]
    split
    all_goals
      rename_i h
      exact .reads (v := s.standing (.reading gathered)) rfl h
  | calling input =>
    have hdisk : Machine.Touches (fun id => io.stderr.channel? = some id) m
        { m with disk := (s.call.run (s.invocation input) m.disk).2 } := .of_same rfl rfl rfl
    simp only [step]
    cases h : s.behaviour (s.invocation input) with
    | done output | pause =>
      simp only [Point.afterCall, standing]
      exact .aside hdisk
    | failed | crashed =>
      have hsent : (s.output input).stdout = [] := by
        simp [CallStage.output, h, Outcome.output, Output.ofMessage]
      simp only [Point.afterCall, standing, hsent]
      exact .aside hdisk
  | pausing input length cutShort until? =>
    simp only [step]
    split
    all_goals exact .aside (.refl _ m)
  | writing input ticket =>
    simp only [step]
    split
    · rename_i h
      exact .writes rfl rfl h
    · rename_i h
      exact .waits rfl rfl h
  | reporting input ticket =>
    have htouches := Machine.write_touches m herr ticket (s.output input).stderr
    simp only [step]
    split
    all_goals
      rename_i h
      rw [h] at htouches
      exact .aside htouches
  | closing input => exact .aside (.refl _ m)
  | leaving input => exact .leaves rfl
  | parting input => exact .aside (Machine.release_touches m herr)
  | finished input => exact .aside (.refl _ m)

/-! ## What a stage reads -/

/-- A stage asks for input in one place only. -/
theorem eq_reading {source : Source} {lines : Option Nat} {gathered : Bytes}
    (hr : (s.work io p).request? = some (.read source lines gathered)) :
    p = .reading gathered ∧ source = io.stdin := by
  cases p with
  | start => rw [work, activity_eq] at hr; cases hr
  | reading gathered => cases hr; exact ⟨rfl, rfl⟩
  | _ => cases hr

/-- Elsewhere it gets no input. -/
theorem standing_step (hp : ∀ gathered, p ≠ .reading gathered) (m : Machine) :
    (s.standing (s.step io p m).2).taken = (s.standing p).taken ∧
      (s.standing (s.step io p m).2).reading = (s.standing p).reading := by
  cases p with
  | start | pausing | tracing | writing | reporting =>
    simp only [step]
    split
    all_goals exact ⟨rfl, rfl⟩
  | lookingUp | closing | leaving | parting | finished => exact ⟨rfl, rfl⟩
  | reading gathered => exact absurd rfl (hp gathered)
  | calling input =>
    simp only [step]
    cases s.behaviour (s.invocation input) with
    | _ => exact ⟨rfl, rfl⟩

/-- Whatever the stage does, it has read what was drawn from its input. -/
theorem yields_step {r : Request} (hr : (s.work io p).request? = some r) {drawn : Bytes}
    (h : io.stdin.Yields (s.standing p) drawn) :
    io.stdin.Yields (s.standing (s.step io p m).2)
      (drawn ++ (⟨m, r, (s.step io p m).1⟩ : Exchange).drawn io.stdin) := by
  by_cases hp : ∃ gathered, p = .reading gathered
  · obtain ⟨gathered, rfl⟩ := hp
    cases hr
    rcases hg : m.gather io.stdin none gathered with ⟨m', bytes, enough⟩
    have hyields := Machine.gather_yields (v := s.standing (.reading gathered)) hg h
    cases enough with
    | true | false =>
      simp only [step, hg]
      exact hyields
  · obtain ⟨htaken, hreading⟩ := @standing_step _ s io p (fun gathered heq => hp ⟨gathered, heq⟩) m
    rw [Exchange.drawn_eq_nil fun lines gathered heq => ?_, List.append_nil]
    · exact h.congr htaken hreading
    · rw [show r = _ from heq] at hr
      exact hp ⟨gathered, (eq_reading hr).1⟩

/-! ## Where a stage can be served -/

/-- Whether the stage is over. -/
theorem isComplete_work (p : Point ctx) : (s.work io p).isComplete = p.isOver := by
  cases p with
  | start => rw [work, activity_eq]; rfl
  | _ => rfl

theorem not_hasCrashed_work (p : Point ctx) : hasCrashed (s.work io p) = false := by
  cases p with
  | start => rw [work, activity_eq]; rfl
  | _ => rfl

/-- As long as it is not over, the stage has a request. -/
theorem exists_request (hp : p.isOver = false) : ∃ r, (s.work io p).request? = some r := by
  cases p with
  | start => rw [work, activity_eq]; exact ⟨_, rfl⟩
  | finished => cases hp
  | _ => exact ⟨_, rfl⟩

/-- A stage makes no channels. -/
theorem made_eq_nil {x : Exchange} (hr : (s.work io p).request? = some x.request) :
    x.made = [] := by
  have hne : x.request ≠ .connect := by
    intro heq
    rw [heq] at hr
    cases p with
    | start => rw [work, activity_eq] at hr; cases hr
    | _ => cases hr
  unfold Exchange.made
  split
  · rename_i h
    exact absurd h hne
  · rfl

/-- An exchange makes the stage take its step. -/
theorem step_of_serves {x : Exchange} {w : Work} (h : Serves (s.work io p) x w)
    (hm : s.Ready x.before) :
    (s.work io p).request? = some x.request ∧ x.after = (s.step io p x.before).1 ∧
      w = s.work io (s.step io p x.before).2 := by
  generalize hv : s.work io p = v at h
  cases h with
  | here hr hs =>
    subst hv
    rw [serve_work hm, Prod.mk.injEq] at hs
    exact ⟨hr, hs.1.symm, hs.2.symm⟩
  | branch before after next h =>
    -- no stage has branches
    cases p with
    | start => rw [work, activity_eq] at hv; cases hv
    | _ => cases hv

theorem serves_step (hm : s.Ready m) {r : Request} (hr : (s.work io p).request? = some r) :
    Serves (s.work io p) ⟨m, r, (s.step io p m).1⟩ (s.work io (s.step io p m).2) :=
  .here hr (serve_work hm p)

/-- When the streams of a stage hold nothing up, each step brings it closer to its end. -/
theorem rank_step (hp : p.isOver = false)
    (herr : ∀ ticket data, ∃ ok, (m.write io.stderr ticket data).2 = .delivered ok)
    (hout : (s.standing p).writing = true → (s.standing p).sent = [] →
      ∀ ticket data, ∃ ok, (m.write io.stdout ticket data).2 = .delivered ok)
    (hin : (s.standing p).reading = true →
      (m.gather io.stdin none (s.standing p).taken).2.2 = true)
    (hclock : p.moment ≤ m.clock) : (s.step io p m).2.rank < p.rank := by
  cases p with
  | start =>
    simp only [step]
    split
    all_goals simp [Point.rank]
  | tracing wanted ticket =>
    obtain ⟨ok, hok⟩ := herr ticket s.trace
    rcases h : m.write io.stderr ticket s.trace with ⟨m', written⟩
    rw [h] at hok
    cases hok
    simp [step, h, Point.rank]
  | lookingUp => simp [step, Point.rank]
  | reading gathered =>
    have henough := hin rfl
    rcases h : m.gather io.stdin none gathered with ⟨m', bytes, enough⟩
    simp only [standing, h] at henough
    subst henough
    simp [step, h, Point.rank]
  | calling input =>
    simp only [step]
    cases s.behaviour (s.invocation input) with
    | _ => simp [Point.afterCall, Point.rank]
  | pausing input length cutShort until? =>
    cases until? with
    | none =>
      simp only [step]
      split
      all_goals simp [Point.rank]
    | some moment =>
      have hmoment : moment ≤ m.clock := hclock
      simp [step, pauseEnd, hmoment, Point.rank]
  | writing input ticket =>
    obtain ⟨ok, hok⟩ := hout rfl rfl ticket (s.output input).stdout
    rcases h : m.write io.stdout ticket (s.output input).stdout with ⟨m', written⟩
    rw [h] at hok
    cases hok
    simp [step, h, Point.rank]
  | reporting input ticket =>
    obtain ⟨ok, hok⟩ := herr ticket (s.output input).stderr
    rcases h : m.write io.stderr ticket (s.output input).stderr with ⟨m', written⟩
    rw [h] at hok
    cases hok
    simp [step, h, Point.rank]
  | closing | leaving | parting => simp [step, Point.rank]
  | finished => cases hp

end CallStage
end Runnel
