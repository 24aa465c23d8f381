import Runnel.Flow.Activity
import Runnel.Proofs.Command.Deferring
import Runnel.Proofs.Command.Reading
import Runnel.Proofs.Flow.Deeds

/-!
# Runnel.Proofs.Flow.QuotedLine

Command lines of quoted values, and work that runs one built-in command.

* `Work.Quiet`: work that only writes, lets go of streams, pauses and ends.
* `Work.Once`: work that invokes one handler and is quiet afterwards, provided that nothing is
  cancelled and the name of the handler stays registered.
* `Work.Once.turns`: whatever happens between the turns of such work, the handler is invoked once
  and nothing else is done.
* `lineActivity_quoteAll`: a line of quoted values invokes the command of its first value once, with
  the other values as they are, and does nothing else, whatever the values hold.
-/

namespace Runnel
namespace Work

/-- Work that only writes, lets go of streams, pauses and ends. -/
inductive Quiet : Work → Prop where
  | done (code : Int) (ctx : Context) : Quiet (.done code ctx)
  | write {ticket : Option Ticket} {sink : Sink} {data : Bytes} {next : Bool → Work} :
      (∀ ok, Quiet (next ok)) → Quiet (.write ticket sink data next)
  | pause {length : Number.Duration} {moment : Option Nat} {token : TokenId} {next : Bool → Work} :
      (∀ cut, Quiet (next cut)) → Quiet (.pause length moment token next)
  | release {sink : Sink} {next : Work} : Quiet next → Quiet (.release sink next)
  | abandon {source : Source} {next : Work} : Quiet next → Quiet (.abandon source next)

/-- Work that asks whether `token` is set, looks up `name` to find `handler`, and invokes it once,
with an invocation that satisfies `R`; or it breaks down first, if `fails`. -/
inductive Once (token : TokenId) (name : String) (handler : Handler) (R : Invocation → Prop)
    (fails : Prop) : Work → Prop where
  | write {ticket : Option Ticket} {sink : Sink} {data : Bytes} {next : Bool → Work} :
      (∀ ok, Once token name handler R fails (next ok)) →
      Once token name handler R fails (.write ticket sink data next)
  | ask {next : Bool → Work} :
      Once token name handler R fails (next false) →
      Once token name handler R fails (.ask token next)
  | lookUp {next : Option Handler → Work} :
      Once token name handler R fails (next (some handler)) →
      Once token name handler R fails (.lookUp name next)
  | read {source : Source} {lines : Option Nat} {gathered : Bytes} {next : Bytes → Work} :
      (∀ bytes, Once token name handler R fails (next bytes)) →
      Once token name handler R fails (.read source lines gathered next)
  | call {c : Call} {i : Invocation} {next : Outcome → Work} :
      handler = .call c → R i → (∀ outcome, Quiet (next outcome)) →
      Once token name handler R fails (.call c i next)
  | generate {g : Generator} {i : Invocation} {stdout stderr : Sink} {cancel : TokenId}
      {progress : GeneratorProgress} {ticket : Option Ticket} {next : GeneratorEnd → Work} :
      handler = .generator g → R i → (∀ ending, Quiet (next ending)) →
      Once token name handler R fails
        (.generate g i stdout stderr cancel progress ticket next)
  | crash : fails → Once token name handler R fails .crash

/-! ## Quiet work -/

namespace Quiet

theorem doing {w : Work} (h : Quiet w) : w.doing = [] := by
  cases h <;> rfl

/-- Quiet work does nothing in its turn that others notice, and stays quiet. -/
theorem perform {w : Work} (h : Quiet w) (m : Machine) :
    (w.perform m).deeds = [] ∧ Quiet (w.perform m).work := by
  induction h generalizing m with
  | done code ctx => exact ⟨rfl, .done code ctx⟩
  | @write ticket sink data next hnext ih =>
    rcases hw : m.write sink ticket data with ⟨m', ok | held⟩
    · simp only [Work.perform, hw]
      exact ih ok m'
    · simp only [Work.perform, hw]
      exact ⟨trivial, .write hnext⟩
  | @pause length moment token next hnext ih =>
    simp only [Work.perform]
    split
    · exact ih false m
    split
    · exact ih true m
    · exact ⟨rfl, .pause hnext⟩
  | release _ ih => exact ih _
  | abandon _ ih => exact ih _

theorem turns {P : Machine → Prop} {w w' : Work} {deeds : List Deed} (h : Quiet w)
    (hrun : Turns P w deeds w') : deeds = [] ∧ Quiet w' := by
  induction hrun with
  | none w => exact ⟨rfl, h⟩
  | @turn w w' m deeds _ _ ih =>
    obtain ⟨hnone, hquiet⟩ := h.perform m
    obtain ⟨hrest, hend⟩ := ih hquiet
    exact ⟨by rw [hnone, hrest]; rfl, hend⟩

end Quiet

/-! ## One invocation -/

/-- What holds somebody up is that a channel is empty or full. -/
def IsTraffic : Wait → Prop
  | .chunk _ | .room _ _ => True
  | _ => False

theorem waits_of_held {m m' : Machine} {ticket held : Option Ticket} {sink : Sink} {data : Bytes}
    (h : m.write sink ticket data = (m', .held held)) (next : Bool → Work) :
    ∃ x, (Work.write held sink data next).waits = [x] ∧ IsTraffic x := by
  cases sink with
  | channel id kind => exact ⟨.room id held, rfl, trivial⟩
  | file handle | discard =>
    unfold Machine.write at h
    split at h
    · cases h
    · cases h

theorem waits_of_gather {m m' : Machine} {source : Source} {lines : Option Nat}
    {gathered bytes : Bytes} (h : m.gather source lines gathered = (m', bytes, false))
    (next : Bytes → Work) :
    ∃ x, (Work.read source lines bytes next).waits = [x] ∧ IsTraffic x := by
  cases source with
  | channel id => exact ⟨.chunk id, rfl, trivial⟩
  | empty | inherited | bytes data => cases h

/-- The token is not set, and the name stands for the handler. -/
structure Undisturbed (token : TokenId) (name : String) (handler : Handler) (m : Machine) : Prop where
  /-- Nothing is cancelled. -/
  running : m.isSet token = false
  /-- The name is registered. -/
  registered : m.registry.get? name = some handler

section Once

variable {token : TokenId} {name : String} {handler : Handler} {R : Invocation → Prop} {fails : Prop}

theorem Undisturbed.keeps {m m' : Machine} (h : Undisturbed token name handler m)
    (hk : m.Keeps m') : Undisturbed token name handler m' := by
  refine ⟨?_, by rw [hk.registry]; exact h.registered⟩
  have hset := h.running
  simp only [Machine.isSet] at hset ⊢
  rw [hk.tokens]
  exact hset

/-- The handler was invoked with an invocation that satisfies `R`, and nothing else was done. -/
def Invoked (handler : Handler) (R : Invocation → Prop) (deeds : List Deed) : Prop :=
  ∃ i, deeds = [.invoke handler i] ∧ R i

/-- The invocation goes on, or a channel holds up the work, or it has broken down. -/
def Held (handler : Handler) (R : Invocation → Prop) (w : Work) : Prop :=
  Invoked handler R w.doing ∨ (∃ x, w.waits = [x] ∧ IsTraffic x) ∨ w = .crash

namespace Once

/-- In its turn such work is held up before the invocation is complete, or is done with it. -/
theorem perform {w : Work} (h : Once token name handler R fails w) {m : Machine}
    (hm : Undisturbed token name handler m) :
    ((w.perform m).deeds = [] ∧ Once token name handler R fails (w.perform m).work ∧
      Held handler R (w.perform m).work) ∨
    (Invoked handler R (w.perform m).deeds ∧ Quiet (w.perform m).work) := by
  induction h generalizing m with
  | @write ticket sink data next hnext ih =>
    have hk := m.write_keeps sink ticket data
    rcases hw : m.write sink ticket data with ⟨m', ok | held⟩
    · rw [hw] at hk
      simp only [Work.perform, hw]
      exact ih ok (hm.keeps hk)
    · simp only [Work.perform, hw]
      exact .inl ⟨trivial, .write hnext, .inr (.inl (waits_of_held hw next))⟩
  | ask _ ih =>
    simp only [Work.perform, hm.running]
    exact ih hm
  | lookUp _ ih =>
    simp only [Work.perform, hm.registered]
    exact ih hm
  | @read source lines gathered next hnext ih =>
    have hk := m.gather_keeps source lines gathered
    rcases hg : m.gather source lines gathered with ⟨m', bytes, _ | _⟩
    · simp only [Work.perform, hg]
      exact .inl ⟨trivial, .read hnext, .inr (.inl (waits_of_gather hg next))⟩
    · rw [hg] at hk
      simp only [Work.perform, hg]
      exact ih bytes (hm.keeps hk)
  | @call c i next hc hR hnext =>
    subst hc
    obtain ⟨hnone, hquiet⟩ := (hnext (c.run i m.disk).1).perform { m with disk := (c.run i m.disk).2 }
    refine .inr ⟨⟨i, ?_, hR⟩, hquiet⟩
    simp only [Work.perform, Performed.after, hnone]
  | @generate g i stdout stderr cancel progress ticket next hg hR hnext =>
    rcases hp : m.produce g i stdout stderr cancel progress ticket with ⟨m', how | ⟨p, held⟩⟩
    · subst hg
      obtain ⟨hnone, hquiet⟩ := (hnext how).perform m'
      refine .inr ⟨⟨i, ?_, hR⟩, ?_⟩
      · simp only [Work.perform, hp, Performed.after, hnone]
      · simp only [Work.perform, hp, Performed.after]
        exact hquiet
    · simp only [Work.perform, hp]
      exact .inl ⟨trivial, .generate hg hR hnext, .inl ⟨i, by rw [hg]; rfl, hR⟩⟩
  | crash hf => exact .inl ⟨rfl, .crash hf, .inr (.inr rfl)⟩

/-- What is being done before the invocation is complete is this invocation. -/
theorem doing {w : Work} (h : Once token name handler R fails w) :
    w.doing = [] ∨ Invoked handler R w.doing := by
  cases h with
  | generate hg hR _ => exact .inr ⟨_, by rw [hg]; rfl, hR⟩
  | _ => exact .inl rfl

theorem fails_of_complete {w : Work} (h : Once token name handler R fails w)
    (hw : w.isComplete = true) : fails ∧ w = .crash := by
  cases h with
  | crash hf => exact ⟨hf, rfl⟩
  | _ => cases hw

/-- Some turns of such work bring it nearer to the invocation or it is done with it. -/
theorem turns {w w' : Work} {deeds : List Deed} (h : Once token name handler R fails w)
    (hrun : Turns (Undisturbed token name handler) w deeds w') :
    (deeds = [] ∧ Once token name handler R fails w') ∨
    (Invoked handler R deeds ∧ Quiet w') := by
  induction hrun with
  | none w => exact .inl ⟨rfl, h⟩
  | @turn w w' m deeds hm hrest ih =>
    rcases h.perform hm with ⟨hnone, honce, -⟩ | ⟨hinvoked, hquiet⟩
    · rw [hnone]
      exact ih honce
    · obtain ⟨hrest, hend⟩ := hquiet.turns hrest
      rw [hrest, List.append_nil]
      exact .inr ⟨hinvoked, hend⟩

end Once
end Once

variable {next : Int → Context → Work}

theorem quiet_finish (h : ∀ code ctx, Quiet (next code ctx)) (io : Streams) (code : Int)
    (ctx : Context) : Quiet (Activity.finish io code ctx next) :=
  .abandon (.release (.release (h _ _)))

theorem quiet_complain (h : ∀ code ctx, Quiet (next code ctx)) (message : String) (ctx : Context)
    (io : Streams) : Quiet (Activity.complain message ctx io next) :=
  .write fun _ => quiet_finish h io 1 ctx

theorem quiet_deliver (h : ∀ code ctx, Quiet (next code ctx)) (o : Output) (ctx : Context)
    (io : Streams) : Quiet (Activity.deliver o ctx io next) :=
  .write fun _ => .write fun _ => quiet_finish h io o.code _

theorem quiet_conclude (h : ∀ code ctx, Quiet (next code ctx)) (name : String) (outcome : Outcome)
    (ctx : Context) (io : Streams) : Quiet (Activity.conclude name outcome ctx io next) := by
  cases outcome with
  | done output => exact quiet_deliver h output ctx io
  | failed reason => exact quiet_complain h _ ctx io
  | crashed message => exact quiet_complain h _ ctx io
  | pause length complete cutShort => exact .pause fun cut => quiet_deliver h _ ctx io

theorem quiet_concludeGenerator (h : ∀ code ctx, Quiet (next code ctx)) (name : String)
    (ending : GeneratorEnd) (ctx : Context) (io : Streams) :
    Quiet (Activity.concludeGenerator name ending ctx io next) := by
  cases ending with
  | code n => exact quiet_finish h io n ctx
  | failed reason => exact quiet_complain h _ ctx io
  | crashed message => exact quiet_complain h _ ctx io

/-- The invocation of a command by name, with these arguments, in this state. -/
structure IsCall (name : String) (args : List String) (ctx : Context) (i : Invocation) : Prop where
  /-- The name. -/
  name_eq : i.name = name
  /-- The arguments. -/
  args_eq : i.args = args
  /-- The working directory. -/
  cwd_eq : i.cwd = ctx.cwd
  /-- The variables. -/
  env_eq : i.env = ctx.env
  /-- The exit code of the command before. -/
  status_eq : i.status = ctx.status

variable {handler : Handler}

theorem once_builtin (h : ∀ code ctx, Quiet (next code ctx)) (name : String) (args : List String)
    (ctx : Context) (io : Streams) :
    Once ctx.token name handler (IsCall name args ctx) (Activity.demanded handler args = none)
      (Activity.builtin name handler args ctx io next) := by
  unfold Activity.builtin
  split
  · rename_i hd
    exact .crash hd
  · refine .read fun bytes => ?_
    cases handler with
    | call c =>
      exact .call rfl ⟨rfl, rfl, rfl, rfl, rfl⟩ fun outcome => quiet_conclude h name outcome ctx _
    | generator g =>
      exact .generate rfl ⟨rfl, rfl, rfl, rfl, rfl⟩ fun ending =>
        .release (quiet_concludeGenerator h name ending ctx _)

theorem once_invoke (h : ∀ code ctx, Quiet (next code ctx)) (name : String) (args : List String)
    {ctx : Context} (hb : ctx.builtins = true) (io : Streams) :
    Once ctx.token name handler (IsCall name args ctx) (Activity.demanded handler args = none)
      (Activity.invoke (name :: args) ctx io next) := by
  simp only [Activity.invoke, Activity.traced, hb, if_true]
  split
  · exact .write fun _ => .lookUp (once_builtin h name args ctx io)
  · exact .lookUp (once_builtin h name args ctx io)

end Work

/-! ## Lines -/

/-- A line of quoted values is one guarded command, whatever the variables are. -/
theorem quotedLine_eq {name : String} (hname : '=' ∉ name.toList)
    (hquoted : isQuoted name.toList = false) (args : List String) (ctx : Context) (io : Streams)
    (next : Int → Context → Work) :
    lineActivity (quoteAll (name :: args)) true ctx io next =
      if ctx.settings.verbose then
        Work.say io.stderr (quoteAll (name :: args) ++ "\n")
          (Activity.guarded (Activity.invoke (name :: args.map received)) ctx io next)
      else Activity.guarded (Activity.invoke (name :: args.map received)) ctx io next := by
  have hwords : ctx.expandAll (.ofValue name :: args.map Word.ofValue)
      = .ok (name :: args.map received) := by
    have h := Word.expandAll_ofValue ctx.get? ctx.settings.nounset (name :: args)
    rw [List.map_cons, List.map_cons, received_of_not_quoted hquoted] at h
    exact h
  have hsimple : Activity.guarded (.simple (.ofValue name) (args.map Word.ofValue) []) ctx io next
      = Activity.guarded (Activity.invoke (name :: args.map received)) ctx io next := by
    simp only [Activity.guarded, Activity.simple, hwords, Activity.redirected]
  simp only [lineActivity, not_needsRealShell_quoteAll (List.cons_ne_nil name args),
    parse_quoteAll hname, Bool.not_true, Bool.or_self, Bool.false_eq_true, if_false,
    Command.activity, hsimple]

/-- A line of quoted values invokes the command of its first value with the other values, literally:
at most once before it is complete, once when it is complete, and nothing else is done. It is held
up by empty or full channels only. The one way around the invocation is that the command breaks down
when it is asked how much input it reads. -/
theorem lineActivity_quoteAll {name : String} {args : List String} {ctx : Context} {io : Streams}
    {handler : Handler} {deeds : List Deed} {w : Work} (hname : '=' ∉ name.toList)
    (hquoted : isQuoted name.toList = false) (hb : ctx.builtins = true)
    (hrun : Work.Turns (Work.Undisturbed ctx.token name handler)
      (lineActivity (quoteAll (name :: args)) true ctx io .done) deeds w) :
    (deeds ++ w.doing = [] ∨
      Work.Invoked handler (Work.IsCall name (args.map received) ctx) (deeds ++ w.doing)) ∧
    (w.isComplete = true →
      Work.Invoked handler (Work.IsCall name (args.map received) ctx) deeds ∨
      (Activity.demanded handler (args.map received) = none ∧ w = .crash)) ∧
    ∀ m, Work.Undisturbed ctx.token name handler m →
      Work.Invoked handler (Work.IsCall name (args.map received) ctx)
        (deeds ++ (w.perform m).deeds ++ (w.perform m).work.doing) ∨
      (∃ x, (w.perform m).work.waits = [x] ∧ Work.IsTraffic x) ∨
      (Activity.demanded handler (args.map received) = none ∧ (w.perform m).work = .crash) := by
  have hinvoke : Work.Once ctx.token name handler (Work.IsCall name (args.map received) ctx)
      (Activity.demanded handler (args.map received) = none)
      (Activity.invoke (name :: args.map received) ctx io .done) :=
    Work.once_invoke Work.Quiet.done name (args.map received) hb io
  have honce : Work.Once ctx.token name handler (Work.IsCall name (args.map received) ctx)
      (Activity.demanded handler (args.map received) = none)
      (lineActivity (quoteAll (name :: args)) true ctx io .done) := by
    rw [quotedLine_eq hname hquoted]
    split
    · exact .write fun _ => .ask hinvoke
    · exact .ask hinvoke
  rcases honce.turns hrun with ⟨rfl, honce⟩ | ⟨hinvoked, hquiet⟩
  · refine ⟨honce.doing, fun hw => .inr (honce.fails_of_complete hw), fun m hm => ?_⟩
    rcases honce.perform hm with ⟨hnone, honce, hheld | hheld | hheld⟩ | ⟨hinvoked, hquiet⟩
    · rw [hnone]
      exact .inl hheld
    · exact .inr (.inl hheld)
    · exact .inr (.inr (honce.fails_of_complete (by rw [hheld]; rfl)))
    · rw [hquiet.doing, List.append_nil]
      exact .inl hinvoked
  · refine ⟨?_, fun _ => .inl hinvoked, fun m hm => ?_⟩
    · rw [hquiet.doing, List.append_nil]
      exact .inr hinvoked
    · obtain ⟨hnone, hend⟩ := hquiet.perform m
      rw [hnone, hend.doing, List.append_nil, List.append_nil]
      exact .inl hinvoked

theorem lineActivity_quoteAll_hostile :
    let handler := Handler.pure fun i => .done (.ofText (Text.joinWith " " i.args))
    let ctx : Context := ⟨"/", [("x", "y")], 0, { Settings.off with nounset := true }, true,
      ⟨"/bin/sh", ["-c"]⟩, 0, 0⟩
    let m := Machine.ofDisk .empty (Registry.empty.register 0 "a b" handler).2
    Work.Invoked handler (Work.IsCall "a b" ["$x; rm *", "", "it's", "c"] ctx)
      ((lineActivity (quoteAll ["a b", "$x; rm *", "", "it's", "'c'"]) true ctx
        ⟨.empty, .discard, .discard⟩ .done).perform m).deeds := by
  intro handler ctx m
  have hm : Work.Undisturbed ctx.token "a b" handler m := ⟨by decide, rfl⟩
  have hrun := Work.Turns.turn hm (.none ((lineActivity
    (quoteAll ["a b", "$x; rm *", "", "it's", "'c'"]) true ctx ⟨.empty, .discard, .discard⟩
      .done).perform m).work)
  obtain ⟨-, hcomplete, -⟩ := @lineActivity_quoteAll "a b" _ _ _ _ _ _ (by decide) (by decide) rfl hrun
  have hdone : ((lineActivity (quoteAll ["a b", "$x; rm *", "", "it's", "'c'"]) true ctx
      ⟨.empty, .discard, .discard⟩ .done).perform m).work.isComplete = true := by
    rw [quotedLine_eq (by decide) (by decide)]
    simp only [ctx, handler, m]
    decide +kernel
  rw [List.append_nil] at hcomplete
  rcases hcomplete hdone with h | ⟨h, -⟩
  · exact h
  · cases h

end Runnel
