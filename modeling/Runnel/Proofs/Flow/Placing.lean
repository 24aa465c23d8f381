import Runnel.Proofs.Flow.Conduct
import Runnel.Proofs.Registry

/-!
# Runnel.Proofs.Flow.Placing

Where the commands of a line are started: in which working directory, and with which variables. Each
of them starts where the line did, or with a variable that shows its directory, since `cd` changes
both at once; and the first one starts where the line did.

* `Place`: a working directory and variables. `Place.Shows`: the variable shows the directory.
* `Work.Placed`: all commands of a tree of requests start in some places, or those do that may be
  the first ones.
* `Work.Steps.placed`, `Work.Steps.first_placed`: what that means for the commands that are started
  in some steps.
* `lineActivity_placed`: it holds of command lines, whatever the places, if `cd` does not lead out
  of them.
-/

namespace Runnel

/-! ## Variables -/

namespace Environment

theorem get?_set (env : Environment) (name value name' : String) :
    (env.set name value).get? name' = if name' = name then some value else env.get? name' := by
  show ((env.filter fun e => e.1 != name) ++ [(name, value)]).lookup name' = _
  rw [List.lookup_append, Registry.lookup_filter_ne]
  by_cases h : name' = name
  · simp [h]
  · simp [h, get?, List.lookup_cons, beq_eq_false_iff_ne.mpr h]

/-- Variables of other names leave a variable alone. -/
theorem get?_extend {name : String} {more : List (String × String)} (h : ∀ e ∈ more, e.1 ≠ name)
    (env : Environment) : (env.extend more).get? name = env.get? name := by
  induction more generalizing env with
  | nil => rfl
  | cons e more ih =>
    obtain ⟨hfirst, hmore⟩ := List.forall_mem_cons.mp h
    show ((env.set e.1 e.2).extend more).get? name = _
    rw [ih hmore, get?_set, if_neg (Ne.symm hfirst)]

end Environment

/-! ## Places -/

/-- Where a command finds itself. -/
structure Place where
  /-- The working directory. -/
  cwd : String
  /-- The variables. -/
  env : Environment
  deriving Repr, DecidableEq

namespace Place

/-- The variable for the working directory shows it. -/
def Shows (p : Place) : Prop :=
  p.env.get? "PWD" = some p.cwd

instance (p : Place) : Decidable p.Shows :=
  inferInstanceAs (Decidable (_ = _))

/-- The place after a change of the working directory. -/
def enter (p : Place) (dir : String) : Place :=
  ⟨dir, p.env.set "PWD" dir⟩

theorem shows_enter (p : Place) (dir : String) : (p.enter dir).Shows := by
  rw [Shows, enter, Environment.get?_set, if_pos rfl]

end Place

/-- Where a state finds itself. -/
def Context.place (ctx : Context) : Place :=
  ⟨ctx.cwd, ctx.env⟩

namespace Work

/-- Where a command is started, if one is. -/
def Event.place? : Event → Option Place
  | .output .. => none
  | .invoke _ i => some ⟨i.cwd, i.env⟩
  | .launch l => some ⟨l.cwd, l.env⟩

/-- Where the commands are started that others see started. -/
def starts (events : List Event) : List Place :=
  events.filterMap Event.place?

theorem starts_append (events more : List Event) :
    starts (events ++ more) = starts events ++ starts more :=
  List.filterMap_append

theorem mem_starts {events : List Event} {p : Place} :
    p ∈ starts events ↔ ∃ e ∈ events, e.place? = some p :=
  List.mem_filterMap

theorem starts_subset {events more : List Event} (h : events ⊆ more) :
    starts events ⊆ starts more := by
  intro p hp
  obtain ⟨e, he, hplace⟩ := mem_starts.mp hp
  exact mem_starts.mpr ⟨e, h he, hplace⟩

/-! ## The condition -/

section

variable (I : Place → Prop) (all : Prop)

mutual

/-- Commands start in places that satisfy `I`, and so do ends. Unless `all` are meant, this only
holds up to the first command: nothing is said of what comes after it. -/
def Placed : Work → Prop
  | .done _ ctx => I ctx.place
  | .crash => True
  | .rest _ next => Placed next
  | .ask _ next => ∀ cancelled, Placed (next cancelled)
  | .write _ _ _ next => ∀ ok, Placed (next ok)
  | .read _ _ _ next => ∀ bytes, Placed (next bytes)
  | .load _ next => ∀ loaded, Placed (next loaded)
  | .openFile _ _ next => ∀ opened, Placed (next opened)
  | .lookUp _ next => ∀ handler, Placed (next handler)
  | .call _ i next => I ⟨i.cwd, i.env⟩ ∧ (all → ∀ outcome, Placed (next outcome))
  | .pause _ _ _ next => ∀ cut, Placed (next cut)
  | .generate _ i _ _ _ _ _ next => I ⟨i.cwd, i.env⟩ ∧ (all → ∀ how, Placed (next how))
  | .retain _ next => Placed next
  | .release _ next => Placed next
  | .abandon _ next => Placed next
  | .connect next => ∀ id, Placed (next id)
  | .together branches next => PlacedAll branches ∧ ∀ codes, Placed (next codes)
  | .seek _ _ _ next => ∀ program, Placed (next program)
  | .launch l _ next => I ⟨l.cwd, l.env⟩ ∧ (all → ∀ started, Placed (next started))
  | .attend _ _ _ _ _ next => ∀ code, Placed (next code)

/-- The condition on each of several branches. -/
def PlacedAll : List Work → Prop
  | [] => True
  | b :: more => Placed b ∧ PlacedAll more

end

end

section

variable {I : Place → Prop} {all : Prop} {w w' : Work} {m : Machine} {events : List Event}

theorem placedAll_iff {branches : List Work} :
    PlacedAll I all branches ↔ ∀ b ∈ branches, Placed I all b := by
  induction branches with
  | nil => simp [PlacedAll]
  | cons b more ih => simp only [PlacedAll, ih, List.forall_mem_cons]

/-! ## Steps -/

mutual

/-- The commands that are started at once are in good places. -/
theorem Placed.opening : {w : Work} → Placed I all w → ∀ p ∈ starts w.opening, I p
  | .call .., h | .generate .., h | .launch .., h => by
    simp only [Placed] at h
    simpa [Work.opening, starts, Event.place?] using h.1
  | .together branches _, h => by
    simp only [Placed] at h
    simp only [Work.opening]
    exact PlacedAll.openings h.1
  | .done .., _ | .crash, _ | .rest .., _ | .ask .., _ | .write .., _ | .read .., _ | .load .., _
  | .openFile .., _ | .lookUp .., _ | .pause .., _ | .retain .., _ | .release .., _
  | .abandon .., _ | .connect .., _ | .seek .., _ | .attend .., _ => by
    simp [Work.opening, starts, Event.place?]

theorem PlacedAll.openings : {branches : List Work} → PlacedAll I all branches →
    ∀ p ∈ starts (openings branches), I p
  | [], _ => by simp [Work.openings, starts]
  | b :: more, h => by
    simp only [PlacedAll] at h
    simp only [Work.openings, starts_append, List.mem_append]
    rintro p (hp | hp)
    · exact Placed.opening h.1 p hp
    · exact PlacedAll.openings h.2 p hp

end

/-- What comes after an answer is in good places, unless it comes after the first command. -/
theorem Answer.placed (h : Answer m w w') (hw : Placed I all w)
    (hall : all ∨ starts w.opening = []) : Placed I all w' := by
  have started : ∀ p, starts w.opening = [p] → all := fun p hp =>
    hall.elim id fun hnone => absurd (hp.symm.trans hnone) (List.cons_ne_nil p [])
  cases h with
  | rest begun | retain sink | release sink | abandon source => simpa only [Placed] using hw
  | ask token next => simp only [Placed] at hw; exact hw _
  | write ticket sink data next ok => simp only [Placed] at hw; exact hw ok
  | read source lines gathered next bytes => simp only [Placed] at hw; exact hw bytes
  | load path next loaded => simp only [Placed] at hw; exact hw loaded
  | openFile path mode next opened => simp only [Placed] at hw; exact hw opened
  | lookUp name next => simp only [Placed] at hw; exact hw _
  | call c i next outcome => simp only [Placed] at hw; exact hw.2 (started _ rfl) outcome
  | pause length moment token next cut => simp only [Placed] at hw; exact hw cut
  | generate g i stdout stderr token p ticket next how =>
    simp only [Placed] at hw; exact hw.2 (started _ rfl) how
  | connect next id => simp only [Placed] at hw; exact hw id
  | join next hcodes => simp only [Placed] at hw; exact hw.2 _
  | fail next hcrashed => simp only [Placed]
  | seek searchPath cwd name next found => simp only [Placed] at hw; exact hw found
  | launch l group next outcome => simp only [Placed] at hw; exact hw.2 (started _ rfl) outcome
  | attend stdout stderr group token a next code => simp only [Placed] at hw; exact hw code

theorem Delay.placed (h : Delay w w') (hw : Placed I all w) : Placed I all w' := by
  cases h with
  | rest | write | read | pause | generate | attend => simpa only [Placed] using hw

theorem Step.placed (h : Step m w events w') (hw : Placed I all w)
    (hall : all ∨ starts w.opening = []) : Placed I all w' := by
  induction h with
  | answer h => exact h.placed hw hall
  | delay h => exact h.placed hw
  | @branch b b' events before after next _ ih =>
    simp only [Placed, placedAll_iff] at hw ⊢
    refine ⟨fun x hx => ?_, hw.2⟩
    have hb : all ∨ starts b.opening = [] := by
      refine hall.imp_right fun hnone => ?_
      simp only [opening, openings_append, openings, starts_append, List.append_eq_nil_iff] at hnone
      exact hnone.2.1
    rcases List.mem_append.mp hx with hx | hx
    · exact hw.1 x (List.mem_append_left _ hx)
    rcases List.mem_cons.mp hx with rfl | hx
    · exact ih (hw.1 b (List.mem_append_right _ List.mem_cons_self)) hb
    · exact hw.1 x (List.mem_append_right _ (List.mem_cons_of_mem _ hx))

/-- A step shows no more than the work that it leads to. -/
theorem Step.events_subset (h : Step m w events w') : events ⊆ w'.opening := by
  induction h with
  | answer _ => exact List.Subset.refl _
  | delay _ => exact List.nil_subset _
  | branch before after next _ ih =>
    simp only [opening, openings_append, openings]
    exact List.subset_append_of_subset_right _ (List.subset_append_of_subset_left _ ih)

theorem Step.starts_opening_eq_nil (h : Step m w events w') (hw : starts w.opening = [])
    (hevents : starts events = []) : starts w'.opening = [] := by
  refine List.eq_nil_iff_forall_not_mem.mpr fun p hp => ?_
  have hp' := starts_subset h.opening_subset hp
  rw [starts_append, hw, hevents] at hp'
  cases hp'

/-- All commands that are started in some steps are in good places. -/
theorem Steps.placed {P : Machine → Prop} (h : Steps P w events w') (hw : Placed I True w) :
    Placed I True w' ∧ ∀ p ∈ starts events, I p := by
  induction h with
  | none w => exact ⟨hw, by simp [starts]⟩
  | step _ hstep _ ih =>
    have hnext := hstep.placed hw (.inl trivial)
    refine ⟨(ih hnext).1, fun p hp => ?_⟩
    rw [starts_append, List.mem_append] at hp
    rcases hp with hp | hp
    · exact hnext.opening p (starts_subset hstep.events_subset hp)
    · exact (ih hnext).2 p hp

/-- The first command that is started in some steps is in a good place; before it, nothing has
changed in this respect. -/
theorem Steps.first_placed {P : Machine → Prop} (h : Steps P w events w') (hw : Placed I all w)
    (hnone : starts w.opening = []) :
    (∀ p, (starts events).head? = some p → I p) ∧
    (starts events = [] → Placed I all w' ∧ starts w'.opening = []) := by
  induction h with
  | none w => exact ⟨by simp [starts], fun _ => ⟨hw, hnone⟩⟩
  | @step w w₁ w₂ m events more _ hstep _ ih =>
    have hnext := hstep.placed hw (.inr hnone)
    rw [starts_append]
    cases hfirst : starts events with
    | nil => exact ih hnext (hstep.starts_opening_eq_nil hnone hfirst)
    | cons p rest =>
      refine ⟨fun q hq => ?_, fun hnil => absurd hnil (List.cons_ne_nil _ _)⟩
      cases hq
      exact hnext.opening p (starts_subset hstep.events_subset (hfirst ▸ List.mem_cons_self))

end

/-! ## Parts of work -/

section

variable {I : Place → Prop} {all : Prop} {next : Work}

theorem Placed.say (h : Placed I all next) (sink : Sink) (text : String) :
    Placed I all (say sink text next) := by
  simp only [Work.say, Placed, implies_true, h]

theorem Placed.releaseAll (h : Placed I all next) (io : Streams) :
    Placed I all (releaseAll io next) := by
  simpa only [Work.releaseAll, Placed] using h

end

end Work

/-! ## Activities -/

namespace Activity

/-- In a good place, and as long as what follows is in good places, the activity is. -/
def Placed (I : Place → Prop) (all : Prop) (a : Activity) : Prop :=
  ∀ ctx io next, I ctx.place →
    (∀ code ctx', I ctx'.place → Work.Placed I all (next code ctx')) →
    Work.Placed I all (a ctx io next)

variable {I : Place → Prop} {all : Prop} {a : Activity}

theorem guarded_placed (h : Placed I all a) : Placed I all (guarded a) := by
  intro ctx io next hctx hnext
  simp only [guarded, Work.Placed]
  intro cancelled
  cases cancelled with
  | true => exact (hnext _ _ hctx).releaseAll io
  | false => exact h ctx io next hctx hnext

/-! ### Simple commands -/

theorem finish_placed {ctx : Context} {code : Int} {next : Int → Context → Work} (io : Streams)
    (h : Work.Placed I all (next code (ctx.withStatus code))) :
    Work.Placed I all (finish io code ctx next) :=
  h.releaseAll io

theorem complain_placed (message : String) : Placed I all (complain message) :=
  fun _ io _ hctx hnext => (finish_placed io (hnext 1 _ hctx)).say io.stderr message

section

-- A change of the working directory comes after the start of a command.
variable (hmove : ∀ p dir, I p → I (Place.enter p dir))
include hmove

theorem deliver_placed (o : Output) : Placed I all (deliver o) := by
  intro ctx io next hctx hnext
  have henter : I (ctx.enter o.chdir).place := by
    cases o.chdir with
    | none => exact hctx
    | some dir => exact hmove _ dir hctx
  simp only [deliver, Work.Placed]
  exact fun _ _ => finish_placed io (hnext _ _ henter)

theorem conclude_placed (name : String) (outcome : Outcome) :
    Placed I all (conclude name outcome) := by
  intro ctx io next hctx hnext
  cases outcome with
  | done output => exact deliver_placed hmove output ctx io next hctx hnext
  | failed reason => exact complain_placed _ ctx io next hctx hnext
  | crashed message => exact complain_placed _ ctx io next hctx hnext
  | pause length complete cutShort =>
    simp only [conclude, Work.Placed]
    exact fun cut => deliver_placed hmove _ ctx io next hctx hnext

end

theorem concludeGenerator_placed (name : String) (ending : GeneratorEnd) :
    Placed I all (concludeGenerator name ending) := by
  intro ctx io next hctx hnext
  cases ending with
  | code n => exact finish_placed io (hnext _ _ hctx)
  | failed reason => exact complain_placed _ ctx io next hctx hnext
  | crashed message => exact complain_placed _ ctx io next hctx hnext

theorem program_placed {l : Launch} {ctx : Context} (hl : I ⟨l.cwd, l.env⟩) (io : Streams)
    {next : Int → Context → Work} (hctx : I ctx.place)
    (hnext : ∀ code ctx', I ctx'.place → Work.Placed I all (next code ctx')) :
    Work.Placed I all (program l ctx io next) := by
  simp only [program, Work.Placed]
  intro cancelled
  cases cancelled with
  | true => exact finish_placed io (hnext _ _ hctx)
  | false =>
    simp only [Bool.false_eq_true, if_false, Work.Placed]
    refine ⟨hl, fun _ started => ?_⟩
    cases started with
    | error e => exact (finish_placed _ (hnext (launchFailureCode e) _ hctx)).say io.stderr _
    | ok attendance =>
      simp only [Work.Placed]
      exact fun code => finish_placed _ (hnext _ _ hctx)

theorem namedProgram_placed (name : String) (args : List String) :
    Placed I all (namedProgram name args) := by
  intro ctx io next hctx hnext
  simp only [namedProgram, Work.Placed]
  intro program
  cases program with
  | none => exact (finish_placed io (hnext notFoundCode _ hctx)).say io.stderr _
  | some path => exact program_placed hctx io hctx hnext

theorem realShell_placed (text : String) : Placed I all (realShell text) :=
  fun _ io _ hctx hnext => program_placed hctx io hctx hnext

theorem traced_placed (words : List String) (h : Placed I all a) :
    Placed I all (traced words a) := by
  intro ctx io next hctx hnext
  have hbody := h ctx io next hctx hnext
  unfold traced
  split
  · exact hbody.say io.stderr _
  · exact hbody

section

variable (hmove : all → ∀ p dir, I p → I (Place.enter p dir))
include hmove

theorem builtin_placed (name : String) (handler : Handler) (args : List String) :
    Placed I all (builtin name handler args) := by
  intro ctx io next hctx hnext
  unfold builtin
  cases demanded handler args with
  | none => simp only [Work.Placed]
  | some lines =>
    simp only [Work.Placed]
    intro bytes
    cases handler with
    | call c =>
      simp only [Work.Placed]
      exact ⟨hctx, fun hall outcome =>
        conclude_placed (hmove hall) name outcome ctx _ next hctx hnext⟩
    | generator g =>
      simp only [Work.Placed]
      exact ⟨hctx, fun _ how => concludeGenerator_placed name how ctx _ next hctx hnext⟩

theorem invoke_placed (words : List String) : Placed I all (invoke words) := by
  cases words with
  | nil => exact fun _ io _ hctx hnext => finish_placed io (hnext _ _ hctx)
  | cons name args =>
    refine traced_placed _ fun ctx io next hctx hnext => ?_
    simp only
    split
    · simp only [Work.Placed]
      intro handler
      cases handler with
      | none => exact namedProgram_placed name args ctx io next hctx hnext
      | some handler => exact builtin_placed hmove name handler args ctx io next hctx hnext
    · exact namedProgram_placed name args ctx io next hctx hnext

omit hmove in
theorem redirected_placed (h : Placed I all a) (redirects : List Redirect) :
    Placed I all (redirected a redirects) := by
  induction redirects with
  | nil => exact h
  | cons r rest ih =>
    intro ctx io next hctx hnext
    have hcomplain : ∀ message, Work.Placed I all (complain message ctx io next) :=
      fun message => complain_placed message ctx io next hctx hnext
    unfold redirected
    split
    · exact hcomplain _
    · simp only
      split
      · simp only [Work.Placed]
        intro loaded
        cases loaded with
        | error e => exact hcomplain _
        | ok bytes =>
          simp only [Work.Placed]
          exact ih ctx _ next hctx hnext
      · simp only [Work.Placed]
        intro opened
        cases opened with
        | error e => exact hcomplain _
        | ok handle =>
          simp only [Work.Placed]
          exact ih ctx _ next hctx hnext

theorem simple_placed (name : Word) (args : List Word) (redirects : List Redirect) :
    Placed I all (simple name args redirects) := by
  intro ctx io next hctx hnext
  unfold simple
  split
  · exact complain_placed _ ctx io next hctx hnext
  · exact redirected_placed (invoke_placed hmove _) redirects ctx io next hctx hnext

end

/-! ### Sequences -/

/-- Each member starts in the place that the one before it leaves behind. -/
theorem sequenceRest_placed {rest : List (Connector × Activity)}
    (hrest : ∀ m ∈ rest, Placed I all m.2) {ctx : Context} (code : Int) (stdout stderr : Sink)
    {next : Int → Context → Work} (hctx : I ctx.place)
    (hnext : ∀ code ctx', I ctx'.place → Work.Placed I all (next code ctx')) :
    Work.Placed I all (sequenceRest stdout stderr next ctx code rest) := by
  induction rest generalizing ctx code with
  | nil =>
    simp only [sequenceRest, Work.Placed]
    exact hnext code ctx hctx
  | cons m rest ih =>
    obtain ⟨connector, a⟩ := m
    obtain ⟨hfirst, hmore⟩ := List.forall_mem_cons.mp hrest
    unfold sequenceRest
    split
    · exact ih hmore code hctx
    · simp only [Work.Placed]
      intro cancelled
      cases cancelled with
      | true =>
        simp only [if_true, Work.Placed]
        exact hnext code ctx hctx
      | false =>
        simp only [Bool.false_eq_true, if_false, Work.Placed]
        refine hfirst ctx _ _ hctx fun code' ctx' hctx' => ?_
        split
        · simp only [Work.Placed]
          exact hnext code' _ hctx'
        · exact ih hmore code' hctx'

theorem sequence_placed {first : Activity} {rest : List (Connector × Activity)}
    (hfirst : Placed I all first) (hrest : ∀ m ∈ rest, Placed I all m.2) :
    Placed I all (sequence first rest) := by
  intro ctx io next hctx hnext
  simp only [sequence, Work.Placed]
  refine hfirst ctx io _ hctx fun code ctx' hctx' => ?_
  split
  · simp only [Work.Placed]
    exact hnext code _ hctx'
  · exact sequenceRest_placed hrest code _ _ hctx' hnext

/-! ### Pipelines and subshells -/

/-- The branches of a pipeline all start in its place. -/
theorem connectStages_placed {stages : List Activity} (hstages : ∀ a ∈ stages, Placed I all a)
    {ctx : Context} {stdout stderr : Sink} {next : List Work → Work} {input : Source}
    {branches : List Work} (hctx : I ctx.place) (hbranches : ∀ b ∈ branches, Work.Placed I all b)
    (hnext : ∀ branches, (∀ b ∈ branches, Work.Placed I all b) →
      Work.Placed I all (next branches)) :
    Work.Placed I all (connectStages ctx stdout stderr next input branches stages) := by
  induction stages generalizing input branches with
  | nil =>
    simp only [connectStages, Work.Placed]
    exact hnext _ fun b hb => hbranches b (List.mem_reverse.mp hb)
  | cons a rest ih =>
    obtain ⟨ha, hrest⟩ := List.forall_mem_cons.mp hstages
    have hmore : ∀ io, ∀ b ∈ a ctx io .done :: branches, Work.Placed I all b := by
      intro io b hb
      rcases List.mem_cons.mp hb with rfl | hb
      · refine ha ctx io _ hctx fun code ctx' hctx' => ?_
        simpa only [Work.Placed] using hctx'
      · exact hbranches b hb
    cases rest with
    | nil =>
      simp only [connectStages]
      exact hnext _ fun b hb => hmore _ b (List.mem_reverse.mp hb)
    | cons a' rest =>
      simp only [connectStages, Work.Placed]
      exact fun id => ih hrest (hmore _)

theorem pipeline_placed {stages : List Activity} (hstages : ∀ a ∈ stages, Placed I all a) :
    Placed I all (pipeline stages) := by
  intro ctx io next hctx hnext
  refine connectStages_placed hstages hctx (List.forall_mem_nil _) fun branches hbranches => ?_
  simp only [Work.Placed]
  exact ⟨Work.placedAll_iff.mpr hbranches, fun codes => hnext _ _ hctx⟩

theorem subshell_placed (h : Placed I all a) : Placed I all (subshell a) :=
  fun ctx io _ hctx hnext => h ctx io _ hctx fun code _ _ => hnext code (ctx.withStatus code) hctx

end Activity

/-! ## Trees and lines -/

/-- What a line does once it has been repeated, if that is asked for: it is left to the real shell,
it does what its tree does, or there is nothing to do. -/
theorem lineActivity_cases (text : String) (operators : Bool) :
    ∃ run : Activity,
      (run = Activity.realShell text ∨ (∃ tree : Command, run = tree.activity) ∨
        run = fun ctx io next => Work.releaseAll io (next 0 ctx)) ∧
      ∀ ctx io next, lineActivity text operators ctx io next =
        if ctx.settings.verbose then Work.say io.stderr (text ++ "\n") (run ctx io next)
        else run ctx io next := by
  refine ⟨_, ?_, fun _ _ _ => rfl⟩
  split
  · exact .inl rfl
  split
  · exact .inr (.inl ⟨_, rfl⟩)
  · exact .inr (.inr rfl)
  · exact .inl rfl

section

open Activity

variable {I : Place → Prop} {all : Prop}

namespace Command

mutual

/-- The commands of a tree are in good places. -/
theorem activity_placed (hmove : all → ∀ p dir, I p → I (Place.enter p dir)) : (c : Command) →
    Activity.Placed I all c.activity
  | .simple name args redirects => by
    simp only [activity]
    exact guarded_placed (simple_placed hmove name args redirects)
  | .pipeline stages => by
    simp only [activity]
    exact guarded_placed (pipeline_placed (activities_placed hmove stages))
  | .sequence first rest => by
    simp only [activity]
    exact guarded_placed
      (sequence_placed (activity_placed hmove first) (memberActivities_placed hmove rest))
  | .subshell body => by
    simp only [activity]
    exact guarded_placed (subshell_placed (activity_placed hmove body))

theorem activities_placed (hmove : all → ∀ p dir, I p → I (Place.enter p dir)) :
    (cs : List Command) → ∀ a ∈ activities cs, Activity.Placed I all a
  | [] => by simp [activities]
  | c :: rest => by
    simp only [activities, List.forall_mem_cons]
    exact ⟨activity_placed hmove c, activities_placed hmove rest⟩

theorem memberActivities_placed (hmove : all → ∀ p dir, I p → I (Place.enter p dir)) :
    (cs : List (Connector × Command)) → ∀ m ∈ memberActivities cs, Activity.Placed I all m.2
  | [] => by simp [memberActivities]
  | (_, c) :: rest => by
    simp only [memberActivities, List.forall_mem_cons]
    exact ⟨activity_placed hmove c, memberActivities_placed hmove rest⟩

end

end Command

/-- The commands of a line are in good places, whether it is run here or by the real shell. -/
theorem lineActivity_placed (hmove : all → ∀ p dir, I p → I (Place.enter p dir)) (text : String)
    (operators : Bool) : Activity.Placed I all (lineActivity text operators) := by
  obtain ⟨run, hcases, heq⟩ := lineActivity_cases text operators
  have hrun : Activity.Placed I all run := by
    rcases hcases with rfl | ⟨tree, rfl⟩ | rfl
    · exact realShell_placed text
    · exact Command.activity_placed hmove tree
    · exact fun _ io _ hctx hnext => (hnext 0 _ hctx).releaseAll io
  intro ctx io next hctx hnext
  rw [heq]
  split
  · exact (hrun ctx io next hctx hnext).say io.stderr _
  · exact hrun ctx io next hctx hnext

end

namespace Work

/-- Where work has ended, if it has. -/
def finish? : Work → Option Place
  | .done _ ctx => some ctx.place
  | _ => none

theorem finish?_eq_none {w : Work} (h : w.isComplete = false) : w.finish? = none := by
  cases w with
  | done => cases h
  | _ => rfl

end Work

/-- A line asks whether it is cancelled, or writes, or lets go of its streams, before it does
anything else. -/
theorem lineActivity_begins (text : String) (operators : Bool) (ctx : Context) (io : Streams)
    (next : Int → Context → Work) :
    Work.starts (lineActivity text operators ctx io next).opening = [] ∧
      (lineActivity text operators ctx io next).isComplete = false := by
  obtain ⟨run, hcases, heq⟩ := lineActivity_cases text operators
  rw [heq]
  split
  · exact ⟨rfl, rfl⟩
  rcases hcases with rfl | ⟨tree, rfl⟩ | rfl
  · exact ⟨rfl, rfl⟩
  · cases tree with
    | simple | pipeline | sequence | subshell => simp only [Command.activity]; exact ⟨rfl, rfl⟩
  · exact ⟨rfl, rfl⟩

/-! ## The commands of a line -/

namespace Place

/-- A command of a line may find itself where the line starts, or in another directory, and then the
variable has been changed with it. -/
def Leads (start p : Place) : Prop :=
  p = start ∨ p = start.enter p.cwd

theorem Leads.enter {start p : Place} (h : Leads start p) (dir : String) :
    Leads start (p.enter dir) := by
  rcases h with rfl | h
  · exact .inr rfl
  · refine .inr ?_
    rw [h]
    simp [Place.enter, Environment.set_set]

theorem Leads.shows {start p : Place} (h : Leads start p) : p = start ∨ p.Shows := by
  refine h.imp_right fun hp => ?_
  rw [hp]
  exact shows_enter start p.cwd

/-- The places in which a line that starts somewhere has started its commands so far. -/
structure Trail (start : Place) (began : List Place) : Prop where
  leads : ∀ p ∈ began, Leads start p
  first : ∀ p, began.head? = some p → p = start

theorem Trail.nil (start : Place) : Trail start [] :=
  ⟨List.forall_mem_nil _, fun _ h => by cases h⟩

/-- The variable shows the directory to all commands of a line if it did so at the start of the
line, and otherwise the first one already finds another directory than the variable shows. -/
theorem Trail.shows_iff {start : Place} {began : List Place} (h : Trail start began) :
    (∀ p ∈ began, p.Shows) ↔ began = [] ∨ start.Shows := by
  constructor
  · intro hall
    cases began with
    | nil => exact .inl rfl
    | cons p rest => exact .inr (h.first p rfl ▸ hall p List.mem_cons_self)
  · rintro (rfl | hstart) p hp
    · cases hp
    · exact (h.leads p hp).shows.elim (fun heq => heq ▸ hstart) id

end Place

namespace Work

/-- What is left of a line that has started in a place and has started commands in others. -/
structure Underway (start : Place) (began : List Place) (w : Work) : Prop where
  placed : Placed start.Leads True w
  first : began = [] → Placed (· = start) False w ∧ starts w.opening = []

theorem underway_lineActivity (text : String) (operators : Bool) (ctx : Context) (io : Streams) :
    Underway ctx.place [] (lineActivity text operators ctx io .done) where
  placed := lineActivity_placed (fun _ _ dir h => h.enter dir) text operators ctx io .done
    (.inl rfl) fun _ _ h => by simpa only [Placed] using h
  first := fun _ => ⟨lineActivity_placed False.elim text operators ctx io .done rfl
    fun _ _ h => by simpa only [Placed] using h, (lineActivity_begins text operators ctx io _).1⟩

/-- What some steps do to a line. -/
theorem Underway.steps {P : Machine → Prop} {start : Place} {began : List Place} {w w' : Work}
    {events : List Event} (h : Underway start began w) (htrail : start.Trail began)
    (hsteps : Steps P w events w') :
    Underway start (began ++ starts events) w' ∧ start.Trail (began ++ starts events) := by
  obtain ⟨hplaced, hleads⟩ := hsteps.placed h.placed
  cases began with
  | nil =>
    obtain ⟨hfirst, hrest⟩ := hsteps.first_placed (h.first rfl).1 (h.first rfl).2
    exact ⟨⟨hplaced, hrest⟩, hleads, hfirst⟩
  | cons p rest =>
    refine ⟨⟨hplaced, fun hnil => absurd hnil (List.cons_ne_nil _ _)⟩, fun q hq => ?_, htrail.first⟩
    rcases List.mem_append.mp hq with hq | hq
    · exact htrail.leads q hq
    · exact hleads q hq

end Work

end Runnel
