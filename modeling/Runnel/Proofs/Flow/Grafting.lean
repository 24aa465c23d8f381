import Runnel.Flow.Activity
import Runnel.Proofs.Flow.Serving

/-!
# Runnel.Proofs.Flow.Grafting

What follows work is put in place of its ends. The activities of command trees do nothing with what
follows them but that: they are work of their own, and what follows them is grafted onto it.

* `Work.graft`: work with more work at its ends.
* `Work.runs_graft`: a run of both is a run of one and then a run of the other.
* `Activity.Continues`, `Command.activity_continues`: activities that graft what follows.
-/

namespace Runnel
namespace Work

/-- Work that goes on where it would end. Branches end where they end. -/
@[simp]
def graft (next : Int → Context → Work) : Work → Work
  | .done code ctx => next code ctx
  | .crash => .crash
  | .rest begun w => .rest begun (w.graft next)
  | .ask token w => .ask token fun set => (w set).graft next
  | .write ticket sink data w => .write ticket sink data fun ok => (w ok).graft next
  | .read source lines gathered w => .read source lines gathered fun bytes => (w bytes).graft next
  | .load path w => .load path fun loaded => (w loaded).graft next
  | .openFile path mode w => .openFile path mode fun opened => (w opened).graft next
  | .lookUp name w => .lookUp name fun found => (w found).graft next
  | .call c i w => .call c i fun outcome => (w outcome).graft next
  | .pause length until? token w => .pause length until? token fun cut => (w cut).graft next
  | .generate g i stdout stderr token progress ticket w =>
    .generate g i stdout stderr token progress ticket fun how => (w how).graft next
  | .retain sink w => .retain sink (w.graft next)
  | .release sink w => .release sink (w.graft next)
  | .abandon source w => .abandon source (w.graft next)
  | .connect w => .connect fun id => (w id).graft next
  | .together branches w => .together branches fun codes => (w codes).graft next
  | .seek searchPath cwd name w => .seek searchPath cwd name fun found => (w found).graft next
  | .launch l group w => .launch l group fun started => (w started).graft next
  | .attend stdout stderr group token a w =>
    .attend stdout stderr group token a fun code => (w code).graft next

section

variable {w w' v : Work} {next : Int → Context → Work} {x : Exchange} {xs : List Exchange}

theorem graft_graft (next more : Int → Context → Work) : (w : Work) →
    (w.graft next).graft more = w.graft fun code ctx => (next code ctx).graft more
  | .done .. | .crash => rfl
  | .rest _ w | .retain _ w | .release _ w | .abandon _ w => by
    simp only [graft, graft_graft next more w]
  | .ask _ w => by simp only [graft, fun set => graft_graft next more (w set)]
  | .write _ _ _ w => by simp only [graft, fun ok => graft_graft next more (w ok)]
  | .read _ _ _ w => by simp only [graft, fun bytes => graft_graft next more (w bytes)]
  | .load _ w => by simp only [graft, fun loaded => graft_graft next more (w loaded)]
  | .openFile _ _ w => by simp only [graft, fun opened => graft_graft next more (w opened)]
  | .lookUp _ w => by simp only [graft, fun found => graft_graft next more (w found)]
  | .call _ _ w => by simp only [graft, fun outcome => graft_graft next more (w outcome)]
  | .pause _ _ _ w => by simp only [graft, fun cut => graft_graft next more (w cut)]
  | .generate _ _ _ _ _ _ _ w => by simp only [graft, fun how => graft_graft next more (w how)]
  | .connect w => by simp only [graft, fun id => graft_graft next more (w id)]
  | .together _ w => by simp only [graft, fun codes => graft_graft next more (w codes)]
  | .seek _ _ _ w => by simp only [graft, fun found => graft_graft next more (w found)]
  | .launch _ _ w => by simp only [graft, fun started => graft_graft next more (w started)]
  | .attend _ _ _ _ _ w => by simp only [graft, fun code => graft_graft next more (w code)]

theorem request?_graft (hw : w.isComplete = false) : (w.graft next).request? = w.request? := by
  cases w with
  | done | crash => cases hw
  | _ => rfl

/-- Work is served alike whatever follows it. -/
theorem serve_graft (hw : w.isComplete = false) (m : Machine) :
    (w.graft next).serve m = ((w.serve m).1, (w.serve m).2.graft next) := by
  cases w with
  | done | crash => cases hw
  | rest begun w => cases begun <;> rfl
  | write | read | generate | pause | attend | together =>
    simp only [graft, serve]
    repeat' split
    all_goals rfl
  | _ => rfl

/-! ### Runs -/

theorem Serves.isComplete (h : Serves w x v) : w.isComplete = false := by
  cases h with
  | here hr _ =>
    cases w with
    | done | crash => cases hr
    | _ => rfl
  | branch => rfl

theorem Serves.graft (h : Serves w x w') (next : Int → Context → Work) :
    Serves (w.graft next) x (w'.graft next) := by
  have hw := h.isComplete
  cases h with
  | here hr hs =>
    refine .here ((request?_graft hw).trans hr) ?_
    rw [serve_graft hw, hs]
  | branch before after _ h => exact .branch before after _ h

theorem serves_of_graft (hw : w.isComplete = false) (h : Serves (w.graft next) x v) :
    ∃ w', Serves w x w' ∧ v = w'.graft next := by
  generalize hu : w.graft next = u at h
  cases h with
  | here hr hs =>
    subst hu
    rw [request?_graft hw] at hr
    rw [serve_graft hw, Prod.mk.injEq] at hs
    exact ⟨_, .here hr (Prod.ext hs.1 rfl), hs.2.symm⟩
  | branch before after _ h =>
    cases w with
    | done | crash => cases hw
    | together branches w =>
      cases hu
      exact ⟨_, .branch before after w h, rfl⟩
    | _ => cases hu

theorem Runs.graft (h : Runs w xs w') (next : Int → Context → Work) :
    Runs (w.graft next) xs (w'.graft next) := by
  induction h with
  | none w => exact .none _
  | serve hx _ ih => exact .serve (hx.graft next) ih

theorem eq_of_runs_of_isComplete (h : Runs w xs v) (hw : w.isComplete = true) :
    xs = [] ∧ v = w := by
  cases h with
  | none => exact ⟨rfl, rfl⟩
  | serve hx => rw [hx.isComplete] at hw; cases hw

/-- A run of work with more work at its ends is a run of it and then a run of what follows, unless
it breaks down on the way. -/
theorem runs_graft (h : Runs (w.graft next) xs v) (hv : v.isComplete = true) :
    (∃ ys code ctx zs, Runs w ys (.done code ctx) ∧ Runs (next code ctx) zs v ∧ xs = ys ++ zs) ∨
      Runs w xs .crash ∧ v = .crash := by
  induction xs generalizing w with
  | nil =>
    cases w with
    | done code ctx => exact .inl ⟨[], code, ctx, [], .none _, h, rfl⟩
    | crash => exact .inr ⟨.none _, (eq_of_runs_of_isComplete h rfl).2⟩
    | _ => cases h; cases hv
  | cons x xs ih =>
    cases hw : w.isComplete with
    | true =>
      cases w with
      | done code ctx => exact .inl ⟨[], code, ctx, x :: xs, .none _, h, rfl⟩
      | crash => cases (eq_of_runs_of_isComplete h rfl).1
      | _ => cases hw
    | false =>
      cases h with
      | serve hx h =>
        obtain ⟨w', hw', rfl⟩ := serves_of_graft hw hx
        rcases ih h with ⟨ys, code, ctx, zs, hys, hzs, rfl⟩ | ⟨hxs, rfl⟩
        · exact .inl ⟨x :: ys, code, ctx, zs, .serve hw' hys, hzs, rfl⟩
        · exact .inr ⟨.serve hw' hxs, rfl⟩

end

end Work

/-! ## Activities -/

namespace Activity

open Work

/-- What follows the activity is grafted onto it. -/
def Continues (a : Activity) : Prop :=
  ∀ ctx io next, a ctx io next = (a ctx io .done).graft next

theorem say_graft (sink : Sink) (text : String) (w : Work) (next : Int → Context → Work) :
    (say sink text w).graft next = say sink text (w.graft next) := rfl

variable {a body : Activity}

theorem Continues.graft_eq (h : Continues a) (ctx : Context) (io : Streams)
    (next more : Int → Context → Work) :
    (a ctx io next).graft more = a ctx io fun code ctx => (next code ctx).graft more := by
  rw [h ctx io next, graft_graft, ← h]

theorem Continues.guarded (h : Continues a) : Continues (guarded a) := by
  intro ctx io next
  simp only [Activity.guarded, graft]
  congr 1
  funext cancelled
  split
  · rfl
  · exact h ctx io next

theorem complain_continues (message : String) : Continues (complain message) :=
  fun _ _ _ => rfl

theorem Continues.traced (h : Continues body) (words : List String) :
    Continues (traced words body) := by
  intro ctx io next
  unfold Activity.traced
  split
  · rw [say_graft, ← h]
  · exact h ctx io next

theorem conclude_continues (name : String) (outcome : Outcome) :
    Continues (conclude name outcome) := by
  intro ctx io next
  cases outcome <;> rfl

theorem concludeGenerator_continues (name : String) (ending : GeneratorEnd) :
    Continues (concludeGenerator name ending) := by
  intro ctx io next
  cases ending <;> rfl

theorem builtin_continues (name : String) (handler : Handler) (args : List String) :
    Continues (builtin name handler args) := by
  intro ctx io next
  unfold builtin
  split
  · rfl
  · simp only [graft]
    congr 1
    funext bytes
    split
    · simp only [graft]
      congr 1
      funext outcome
      exact conclude_continues name outcome ctx _ next
    · simp only [graft]
      congr 1
      funext ending
      rw [← concludeGenerator_continues name ending ctx _ next]

theorem program_continues (l : Launch) : Continues (program l) := by
  intro ctx io next
  simp only [program, graft]
  congr 1
  funext cancelled
  split
  · rfl
  · simp only [graft]
    congr 1
    funext started
    cases started <;> rfl

theorem namedProgram_continues (name : String) (args : List String) :
    Continues (namedProgram name args) := by
  intro ctx io next
  simp only [namedProgram, graft]
  congr 1
  funext found
  cases found with
  | none => rfl
  | some path => exact program_continues _ ctx io next

theorem invoke_continues (words : List String) : Continues (invoke words) := by
  cases words with
  | nil => exact fun _ _ _ => rfl
  | cons name args =>
    refine Continues.traced (fun ctx io next => ?_) (name :: args)
    simp only
    split
    · simp only [graft]
      congr 1
      funext handler
      cases handler with
      | none => exact namedProgram_continues name args ctx io next
      | some handler => exact builtin_continues name handler args ctx io next
    · exact namedProgram_continues name args ctx io next

theorem Continues.redirected (h : Continues body) (redirects : List Redirect) :
    Continues (redirected body redirects) := by
  intro ctx io next
  induction redirects generalizing io with
  | nil => exact h ctx io next
  | cons r rest ih =>
    unfold Activity.redirected
    split
    · exact complain_continues _ ctx io next
    · simp only
      split
      · simp only [graft]
        congr 2
        funext loaded
        cases loaded with
        | error e => exact complain_continues _ ctx io next
        | ok bytes => simp only [graft, ← ih]
      · simp only [graft]
        congr 2
        funext opened
        cases opened with
        | error e => exact complain_continues _ ctx io next
        | ok handle => simp only [graft, ← ih]

theorem simple_continues (name : Word) (args : List Word) (redirects : List Redirect) :
    Continues (simple name args redirects) := by
  intro ctx io next
  unfold simple
  split
  · exact complain_continues _ ctx io next
  · exact (invoke_continues _).redirected redirects ctx io next

theorem sequenceRest_graft {rest : List (Connector × Activity)}
    (h : ∀ m ∈ rest, Continues m.2) (stdout stderr : Sink) (next : Int → Context → Work)
    (ctx : Context) (code : Int) :
    sequenceRest stdout stderr next ctx code rest =
      (sequenceRest stdout stderr .done ctx code rest).graft next := by
  induction rest generalizing ctx code with
  | nil => rfl
  | cons m rest ih =>
    obtain ⟨connector, a⟩ := m
    have ha : Continues a := h (connector, a) List.mem_cons_self
    have hrest := fun m hm => h m (List.mem_cons_of_mem _ hm)
    unfold sequenceRest
    split
    · exact ih hrest ctx code
    · simp only [graft]
      congr 1
      funext cancelled
      split
      · rfl
      · simp only [graft]
        rw [ha.graft_eq]
        congr 3
        funext code ctx
        split
        · rfl
        · exact ih hrest _ _

theorem Continues.sequence {rest : List (Connector × Activity)} (h : Continues a)
    (hrest : ∀ m ∈ rest, Continues m.2) : Continues (sequence a rest) := by
  intro ctx io next
  simp only [Activity.sequence, graft]
  rw [h.graft_eq]
  congr 3
  funext code ctx
  split
  · rfl
  · exact sequenceRest_graft hrest ..

theorem connectStages_graft (ctx : Context) (stdout stderr : Sink)
    (join : List Work → Work) (next : Int → Context → Work) (stages : List Activity)
    (input : Source) (branches : List Work) :
    connectStages ctx stdout stderr (fun branches => (join branches).graft next) input branches
        stages =
      (connectStages ctx stdout stderr join input branches stages).graft next := by
  induction stages generalizing input branches with
  | nil => rfl
  | cons a rest ih =>
    cases rest with
    | nil => rfl
    | cons a' rest =>
      simp only [connectStages, graft]
      congr 1
      funext id
      rw [ih]

theorem pipeline_continues (stages : List Activity) : Continues (pipeline stages) :=
  fun ctx io next => connectStages_graft ctx io.stdout io.stderr
    (fun branches => .together branches fun codes =>
      let code := pipelineCode ctx.settings.pipefail codes
      .done code (ctx.withStatus code)) next stages io.stdin []

theorem Continues.subshell (h : Continues body) : Continues (subshell body) := by
  intro ctx io next
  simp only [Activity.subshell]
  rw [h.graft_eq]
  rfl

end Activity

namespace Command

open Activity

mutual

/-- The activity of a tree does nothing with what follows but to go on with it. -/
theorem activity_continues : (c : Command) → Continues c.activity
  | .simple name args redirects => by
    simp only [activity]
    exact (simple_continues name args redirects).guarded
  | .pipeline stages => by
    simp only [activity]
    exact (pipeline_continues _).guarded
  | .sequence first rest => by
    simp only [activity]
    exact (Continues.sequence (activity_continues first)
      (memberActivities_continue rest)).guarded
  | .subshell body => by
    simp only [activity]
    exact (activity_continues body).subshell.guarded

theorem memberActivities_continue : (cs : List (Connector × Command)) →
    ∀ m ∈ memberActivities cs, Continues m.2
  | [] => by simp [memberActivities]
  | (_, c) :: rest => by
    simp only [memberActivities, List.forall_mem_cons]
    exact ⟨activity_continues c, memberActivities_continue rest⟩

end

end Command
end Runnel
