import Runnel.Proofs.Flow.Orderly

/-!
# Runnel.Proofs.Flow.Conduct

How command trees behave, whatever the commands in them do. Every kind of activity is orderly if
those that it is made of are, and so is the activity of every tree.

* `Context.Leads`, `Context.Stays`: the states that may be left behind.
* `Activity.Orderly`: work that is orderly as long as what follows is.
* `Command.activity_orderly`, `Command.activity_stays`: the trees.
-/

namespace Runnel

theorem Environment.set_set (env : Environment) (name value value' : String) :
    (env.set name value).set name value' = env.set name value' := by
  simp [Environment.set, Environment.unset, List.filter_append, List.filter_filter]

namespace Context

/-- `ctx'` is what may be left behind of `ctx` after an end with `code`: apart from the exit code,
the working directory may have changed and the variable for it with it. -/
structure Leads (ctx : Context) (code : Int) (ctx' : Context) : Prop where
  status : ctx'.status = code
  settings : ctx'.settings = ctx.settings
  builtins : ctx'.builtins = ctx.builtins
  program : ctx'.program = ctx.program
  token : ctx'.token = ctx.token
  group : ctx'.group = ctx.group
  place : ctx'.cwd = ctx.cwd ∧ ctx'.env = ctx.env ∨ ctx'.env = ctx.env.set "PWD" ctx'.cwd

/-- Only the exit code has changed. -/
def Stays (ctx : Context) (code : Int) (ctx' : Context) : Prop :=
  ctx' = ctx.withStatus code

variable {ctx ctx' ctx'' : Context} {code code' : Int}

theorem Stays.leads (h : Stays ctx code ctx') : Leads ctx code ctx' := by
  subst h
  exact ⟨rfl, rfl, rfl, rfl, rfl, rfl, .inl ⟨rfl, rfl⟩⟩

theorem stays_withStatus (ctx : Context) (code : Int) : Stays ctx code (ctx.withStatus code) :=
  rfl

theorem stays_status (ctx : Context) : Stays ctx ctx.status ctx :=
  rfl

theorem leads_enter (ctx : Context) (dir : Option String) (code : Int) :
    Leads ctx code ((ctx.enter dir).withStatus code) := by
  cases dir with
  | none => exact (stays_withStatus ctx code).leads
  | some dir => exact ⟨rfl, rfl, rfl, rfl, rfl, rfl, .inr rfl⟩

theorem Leads.withStatus_eq (h : Leads ctx code ctx') : ctx'.withStatus code = ctx' := by
  rw [← h.status]
  rfl

theorem Leads.trans (h : Leads ctx code ctx') (h' : Leads ctx' code' ctx'') :
    Leads ctx code' ctx'' where
  status := h'.status
  settings := h'.settings.trans h.settings
  builtins := h'.builtins.trans h.builtins
  program := h'.program.trans h.program
  token := h'.token.trans h.token
  group := h'.group.trans h.group
  place := by
    -- Of two changes of the directory only the second one is left of the variable.
    rcases h'.place with ⟨hcwd, henv⟩ | henv
    · rw [hcwd, henv]
      exact h.place
    · rcases h.place with ⟨_, hfirst⟩ | hfirst
      · exact .inr (by rw [henv, hfirst])
      · exact .inr (by rw [henv, hfirst, Environment.set_set])

end Context

/-! ## Parts of work -/

namespace Work

variable {token : TokenId} {found : Handler → Prop} {n : Nat} {Q : Int → Context → Prop}
  {next : Work}

theorem Orderly.say (h : Orderly token found n Q next) (sink : Sink) (text : String) :
    Orderly token found n Q (say sink text next) := by
  simp only [Work.say, Orderly, implies_true, true_and]
  exact h

theorem Orderly.releaseAll (h : Orderly token found n Q next) (io : Streams) :
    Orderly token found n Q (releaseAll io next) := by
  simpa only [Work.releaseAll, Orderly] using h

end Work

/-! ## Activities -/

namespace Activity

/-- In a state with this token, and as long as what follows is orderly after all that `F` allows,
the activity is orderly and starts at most `n` commands before it asks. -/
def Orderly (token : TokenId) (found : Handler → Prop) (n : Nat)
    (F : Context → Int → Context → Prop) (a : Activity) : Prop :=
  ∀ ctx io next Q, ctx.token = token →
    (∀ code ctx', F ctx code ctx' → Work.Orderly token found 0 Q (next code ctx')) →
    Work.Orderly token found n Q (a ctx io next)

variable {token : TokenId} {found : Handler → Prop} {n : Nat} {F : Context → Int → Context → Prop}
  {a : Activity}

theorem Orderly.le (h : Orderly token found 0 F a) : Orderly token found n F a :=
  fun ctx io next Q htoken hnext => (h ctx io next Q htoken hnext).mono (Nat.zero_le n)

/-- What is known of the states that are left behind may be forgotten. -/
theorem Orderly.leads (h : Orderly token found n Context.Stays a) :
    Orderly token found n Context.Leads a :=
  fun ctx io next Q htoken hnext =>
    h ctx io next Q htoken fun code ctx' hstays => hnext code ctx' hstays.leads

/-- A check comes first. -/
theorem guarded_orderly (hF : ∀ ctx, F ctx ctx.status ctx) (h : Orderly token found 1 F a) :
    Orderly token found 0 F (guarded a) := by
  intro ctx io next Q htoken hnext
  simp only [guarded, Work.Orderly, if_true, Bool.false_eq_true, if_false]
  exact ⟨htoken, (hnext _ _ (hF ctx)).releaseAll io, h ctx io next Q htoken hnext⟩

/-! ### Simple commands -/

-- What follows a simple command is orderly with nothing due, so every ending of a command is too.
-- The number one comes from the check before it and is used up by the call or the launch.

theorem finish_orderly {ctx : Context} {code : Int} {next : Int → Context → Work}
    {Q : Int → Context → Prop} (io : Streams)
    (h : Work.Orderly token found n Q (next code (ctx.withStatus code))) :
    Work.Orderly token found n Q (finish io code ctx next) :=
  h.releaseAll io

theorem complain_orderly (message : String) :
    Orderly token found 0 Context.Stays (complain message) :=
  fun ctx io _ _ _ hnext =>
    (finish_orderly io (hnext 1 _ (ctx.stays_withStatus 1))).say io.stderr message

theorem deliver_orderly (o : Output) : Orderly token found 0 Context.Leads (deliver o) := by
  intro ctx io next Q _ hnext
  simp only [deliver, Work.Orderly, implies_true, true_and]
  exact finish_orderly io (hnext _ _ (ctx.leads_enter o.chdir o.code))

theorem conclude_orderly (name : String) (outcome : Outcome) :
    Orderly token found 0 Context.Leads (conclude name outcome) := by
  intro ctx io next Q htoken hnext
  cases outcome with
  | done output => exact deliver_orderly output ctx io next Q htoken hnext
  | failed reason => exact (complain_orderly _).leads ctx io next Q htoken hnext
  | crashed message => exact (complain_orderly _).leads ctx io next Q htoken hnext
  | pause length complete cutShort =>
    simp only [conclude, Work.Orderly]
    exact fun cut => deliver_orderly _ ctx io next Q htoken hnext

theorem concludeGenerator_orderly (name : String) (ending : GeneratorEnd) :
    Orderly token found 0 Context.Stays (concludeGenerator name ending) := by
  intro ctx io next Q htoken hnext
  cases ending with
  | code n => exact finish_orderly io (hnext _ _ (ctx.stays_withStatus n))
  | failed reason => exact complain_orderly _ ctx io next Q htoken hnext
  | crashed message => exact complain_orderly _ ctx io next Q htoken hnext

/-- A built-in command is started once its input is read, without another check. -/
theorem builtin_orderly (name : String) {handler : Handler} (hfound : found handler)
    (args : List String) : Orderly token found 1 Context.Leads (builtin name handler args) := by
  intro ctx io next Q htoken hnext
  unfold builtin
  cases hdemand : demanded handler args with
  | none =>
    simp only [Work.Orderly]
    exact ⟨handler, args, hfound, hdemand⟩
  | some lines =>
    simp only [Work.Orderly]
    refine ⟨Nat.one_pos, fun bytes => ?_⟩
    cases handler with
    | call c =>
      simp only [Work.Orderly]
      exact ⟨⟨Nat.one_pos, fun outcome =>
        conclude_orderly name outcome ctx _ next Q htoken hnext⟩, rfl⟩
    | generator g =>
      simp only [Work.Orderly]
      exact ⟨⟨Nat.one_pos, fun how =>
        (concludeGenerator_orderly name how).leads ctx _ next Q htoken hnext⟩, rfl⟩

/-- A program is started right after another check. -/
theorem program_orderly (l : Launch) : Orderly token found 0 Context.Stays (program l) := by
  intro ctx io next Q htoken hnext
  simp only [program, Work.Orderly, if_true, Bool.false_eq_true, if_false]
  refine ⟨htoken, finish_orderly io (hnext _ _ (ctx.stays_withStatus _)), Nat.one_pos,
    fun started => ?_⟩
  cases started with
  | error e => exact (finish_orderly _ (hnext _ _ (ctx.stays_withStatus _))).say io.stderr _
  | ok attendance =>
    simp only [Work.Orderly]
    exact fun code => finish_orderly _ (hnext _ _ (ctx.stays_withStatus code))

theorem namedProgram_orderly (name : String) (args : List String) :
    Orderly token found 0 Context.Stays (namedProgram name args) := by
  intro ctx io next Q htoken hnext
  simp only [namedProgram, Work.Orderly]
  intro program
  cases program with
  | none => exact (finish_orderly io (hnext _ _ (ctx.stays_withStatus _))).say io.stderr _
  | some path => exact program_orderly _ ctx io next Q htoken hnext

theorem traced_orderly (words : List String) (h : Orderly token found n F a) :
    Orderly token found n F (traced words a) := by
  intro ctx io next Q htoken hnext
  have hbody := h ctx io next Q htoken hnext
  unfold traced
  split
  · exact hbody.say io.stderr _
  · exact hbody

theorem invoke_orderly (words : List String) :
    Orderly token found 1 Context.Leads (invoke words) := by
  cases words with
  | nil =>
    intro ctx io next Q _ hnext
    exact (finish_orderly io (hnext _ _ (ctx.stays_withStatus 0).leads)).mono (Nat.zero_le 1)
  | cons name args =>
    refine traced_orderly _ fun ctx io next Q htoken hnext => ?_
    have hprogram : Work.Orderly token found 1 Q (namedProgram name args ctx io next) :=
      (namedProgram_orderly name args).leads.le ctx io next Q htoken hnext
    simp only
    split
    · simp only [Work.Orderly]
      exact ⟨Nat.one_pos, hprogram, fun handler hfound =>
        builtin_orderly name hfound args ctx io next Q htoken hnext⟩
    · exact hprogram

theorem redirected_orderly (h : Orderly token found 1 Context.Leads a) (redirects : List Redirect) :
    Orderly token found 1 Context.Leads (redirected a redirects) := by
  induction redirects with
  | nil => exact h
  | cons r rest ih =>
    intro ctx io next Q htoken hnext
    have hcomplain : ∀ message, Work.Orderly token found 1 Q (complain message ctx io next) :=
      fun message => (complain_orderly message).leads.le ctx io next Q htoken hnext
    unfold redirected
    split
    · exact hcomplain _
    · simp only
      split
      · simp only [Work.Orderly]
        refine ⟨Nat.one_pos, Nat.one_pos, fun loaded => ?_⟩
        cases loaded with
        | error e => exact hcomplain _
        | ok bytes =>
          simp only [Work.Orderly]
          exact ih ctx _ next Q htoken hnext
      · simp only [Work.Orderly]
        refine ⟨Nat.one_pos, Nat.one_pos, fun opened => ?_⟩
        cases opened with
        | error e => exact hcomplain _
        | ok handle =>
          simp only [Work.Orderly]
          exact ih ctx _ next Q htoken hnext

theorem simple_orderly (name : Word) (args : List Word) (redirects : List Redirect) :
    Orderly token found 1 Context.Leads (simple name args redirects) := by
  intro ctx io next Q htoken hnext
  unfold simple
  split
  · exact (complain_orderly _).leads.le ctx io next Q htoken hnext
  · exact redirected_orderly (invoke_orderly _) redirects ctx io next Q htoken hnext

/-! ### Sequences -/

/-- Each member asks on its own, and the state that it leaves behind is that of the next one. -/
theorem sequenceRest_orderly {rest : List (Connector × Activity)}
    (hrest : ∀ m ∈ rest, Orderly token found 0 Context.Leads m.2) {ctx : Context} {code : Int}
    {stdout stderr : Sink} {next : Int → Context → Work} {Q : Int → Context → Prop}
    (hstatus : ctx.status = code) (htoken : ctx.token = token)
    (hnext : ∀ code ctx', ctx.Leads code ctx' → Work.Orderly token found 0 Q (next code ctx')) :
    Work.Orderly token found 0 Q (sequenceRest stdout stderr next ctx code rest) := by
  induction rest generalizing ctx code with
  | nil =>
    simp only [sequenceRest, Work.Orderly]
    exact hnext code ctx (hstatus ▸ ctx.stays_status.leads)
  | cons m rest ih =>
    obtain ⟨connector, a⟩ := m
    unfold sequenceRest
    split
    · exact ih (fun m hm => hrest m (List.mem_cons_of_mem _ hm)) hstatus htoken hnext
    · simp only [Work.Orderly, if_true, Bool.false_eq_true, if_false]
      refine ⟨htoken, hnext code ctx (hstatus ▸ ctx.stays_status.leads), ?_⟩
      refine (hrest _ List.mem_cons_self).le ctx _ _ Q htoken fun code' ctx' hleads => ?_
      rw [hleads.withStatus_eq]
      split
      · simp only [Work.Orderly]
        exact hnext code' ctx' hleads
      · exact ih (fun m hm => hrest m (List.mem_cons_of_mem _ hm)) hleads.status
          (hleads.token.trans htoken) fun code'' ctx'' h => hnext code'' ctx'' (hleads.trans h)

theorem sequence_orderly {first : Activity} {rest : List (Connector × Activity)}
    (hfirst : Orderly token found 0 Context.Leads first)
    (hrest : ∀ m ∈ rest, Orderly token found 0 Context.Leads m.2) :
    Orderly token found 0 Context.Leads (sequence first rest) := by
  intro ctx io next Q htoken hnext
  simp only [sequence, Work.Orderly]
  refine hfirst ctx io _ Q htoken fun code ctx' hleads => ?_
  rw [hleads.withStatus_eq]
  split
  · simp only [Work.Orderly]
    exact hnext code ctx' hleads
  · exact sequenceRest_orderly hrest hleads.status (hleads.token.trans htoken)
      fun code' ctx'' h => hnext code' ctx'' (hleads.trans h)

/-! ### Pipelines and subshells -/

/-- The branches of a pipeline: each asks on its own, and what it leaves behind is lost. -/
theorem connectStages_orderly {stages : List Activity}
    (hstages : ∀ a ∈ stages, Orderly token found 0 Context.Leads a) {ctx : Context}
    {stdout stderr : Sink} {next : List Work → Work} {Q : Int → Context → Prop} {input : Source}
    {branches : List Work} (htoken : ctx.token = token)
    (hbranches : ∀ b ∈ branches, Work.Orderly token found 0 (fun _ _ => True) b)
    (hnext : ∀ branches, (∀ b ∈ branches, Work.Orderly token found 0 (fun _ _ => True) b) →
      Work.Orderly token found 0 Q (next branches)) :
    Work.Orderly token found 0 Q
      (connectStages ctx stdout stderr next input branches stages) := by
  induction stages generalizing input branches with
  | nil =>
    simp only [connectStages, Work.Orderly]
    exact hnext _ fun b hb => hbranches b (List.mem_reverse.mp hb)
  | cons a rest ih =>
    have hmore : ∀ io, ∀ b ∈ a ctx io .done :: branches,
        Work.Orderly token found 0 (fun _ _ => True) b := by
      intro io b hb
      rcases List.mem_cons.mp hb with rfl | hb
      · refine hstages a List.mem_cons_self ctx io _ _ htoken fun code ctx' _ => ?_
        simp only [Work.Orderly]
      · exact hbranches b hb
    cases rest with
    | nil =>
      simp only [connectStages]
      exact hnext _ fun b hb => hmore _ b (List.mem_reverse.mp hb)
    | cons a' rest =>
      simp only [connectStages, Work.Orderly]
      exact fun id => ih (fun a ha => hstages a (List.mem_cons_of_mem _ ha)) (hmore _)

theorem pipeline_orderly {stages : List Activity}
    (hstages : ∀ a ∈ stages, Orderly token found 0 Context.Leads a) :
    Orderly token found 0 Context.Stays (pipeline stages) := by
  intro ctx io next Q htoken hnext
  refine connectStages_orderly hstages htoken (by simp) fun branches hbranches => ?_
  simp only [Work.Orderly]
  refine ⟨Nat.le_of_eq (Work.dueAll_eq_zero fun b hb => ?_), Work.orderlyAll_of_forall
    fun b hb => ⟨0, hbranches b hb⟩, fun codes => hnext _ _ (ctx.stays_withStatus _)⟩
  exact Nat.le_zero.mp (hbranches b hb).due_le

theorem subshell_orderly (h : Orderly token found 0 Context.Leads a) :
    Orderly token found 0 Context.Stays (subshell a) :=
  fun ctx io _ Q htoken hnext =>
    h ctx io _ Q htoken fun code _ _ => hnext code _ (ctx.stays_withStatus code)

end Activity

/-! ## Trees -/

namespace Command

open Activity

variable {token : TokenId} {found : Handler → Prop}

mutual

/-- The activity of a tree is orderly. -/
theorem activity_orderly : (c : Command) →
    Activity.Orderly token found 0 Context.Leads c.activity
  | .simple name args redirects => by
    simp only [activity]
    exact guarded_orderly (fun ctx => ctx.stays_status.leads) (simple_orderly name args redirects)
  | .pipeline stages => by
    simp only [activity]
    exact (guarded_orderly Context.stays_status
      (pipeline_orderly (activities_orderly stages)).le).leads
  | .sequence first rest => by
    simp only [activity]
    exact guarded_orderly (fun ctx => ctx.stays_status.leads)
      (sequence_orderly (activity_orderly first) (memberActivities_orderly rest)).le
  | .subshell body => by
    simp only [activity]
    exact (guarded_orderly Context.stays_status (subshell_orderly (activity_orderly body)).le).leads

theorem activities_orderly : (cs : List Command) →
    ∀ a ∈ activities cs, Activity.Orderly token found 0 Context.Leads a
  | [] => by simp [activities]
  | c :: rest => by
    simp only [activities, List.forall_mem_cons]
    exact ⟨activity_orderly c, activities_orderly rest⟩

theorem memberActivities_orderly : (cs : List (Connector × Command)) →
    ∀ m ∈ memberActivities cs, Activity.Orderly token found 0 Context.Leads m.2
  | [] => by simp [memberActivities]
  | (_, c) :: rest => by
    simp only [memberActivities, List.forall_mem_cons]
    exact ⟨activity_orderly c, memberActivities_orderly rest⟩

end

/-- What is done in a subshell or in a stage of a pipeline stays there. -/
def isContained : Command → Bool
  | .pipeline _ | .subshell _ => true
  | .simple .. | .sequence .. => false

theorem activity_stays {c : Command} (hc : c.isContained = true) :
    Activity.Orderly token found 0 Context.Stays c.activity := by
  cases c with
  | simple | sequence => cases hc
  | pipeline stages =>
    simp only [activity]
    exact guarded_orderly Context.stays_status (pipeline_orderly (activities_orderly stages)).le
  | subshell body =>
    simp only [activity]
    exact guarded_orderly Context.stays_status (subshell_orderly (activity_orderly body)).le

end Command
end Runnel
