import Runnel.Flow.Activity
import Runnel.Proofs.Flow.Confined

/-!
# Runnel.Proofs.Flow.ConfinedTree

Command lines use no channels but those of their streams and those between the stages of their
pipelines. Every kind of activity is confined in this way if those that it is made of are.

* `Activity.Confined`: work that stays within its streams as long as what follows does.
* `lineActivity_confined`: the activity of any text.
-/

namespace Runnel

namespace Work

variable {P : ChannelId → Prop} {next : Work}

theorem Within.say (h : Within P next) {sink : Sink} (hs : sink.Within P) (text : String) :
    Within P (say sink text next) := by
  simp only [Work.say, Within]
  exact ⟨hs, fun _ => h⟩

theorem Within.releaseAll (h : Within P next) {io : Streams} (hio : io.Within P) :
    Within P (releaseAll io next) := by
  simp only [Work.releaseAll, Within]
  exact ⟨hio.stdin, hio.stdout, hio.stderr, h⟩

end Work

namespace Activity

/-- The activity uses only channels that its streams or what follows it may use. -/
def Confined (a : Activity) : Prop :=
  ∀ (P : ChannelId → Prop) ctx io next, io.Within P →
    (∀ code ctx', Work.Within P (next code ctx')) → Work.Within P (a ctx io next)

variable {a : Activity} {P : ChannelId → Prop} {io : Streams} {next : Int → Context → Work}

theorem guarded_confined (h : Confined a) : Confined (guarded a) := by
  intro P ctx io next hio hnext
  simp only [guarded, Work.Within]
  intro cancelled
  split
  · exact (hnext _ _).releaseAll hio
  · exact h P ctx io next hio hnext

/-! ### Simple commands -/

theorem finish_confined (hio : io.Within P) (hnext : ∀ code ctx', Work.Within P (next code ctx'))
    (code : Int) (ctx : Context) : Work.Within P (finish io code ctx next) :=
  (hnext _ _).releaseAll hio

theorem complain_confined (message : String) : Confined (complain message) :=
  fun _ ctx _ _ hio hnext => (finish_confined hio hnext 1 ctx).say hio.stderr message

theorem deliver_confined (o : Output) : Confined (deliver o) := by
  intro P ctx io next hio hnext
  simp only [deliver, Work.Within]
  exact ⟨hio.stdout, fun _ => ⟨hio.stderr, fun _ => finish_confined hio hnext _ _⟩⟩

theorem conclude_confined (name : String) (outcome : Outcome) :
    Confined (conclude name outcome) := by
  intro P ctx io next hio hnext
  cases outcome with
  | done output => exact deliver_confined output P ctx io next hio hnext
  | failed reason => exact complain_confined _ P ctx io next hio hnext
  | crashed message => exact complain_confined _ P ctx io next hio hnext
  | pause length complete cutShort =>
    simp only [conclude, Work.Within]
    exact fun cut => deliver_confined _ P ctx io next hio hnext

theorem concludeGenerator_confined (name : String) (ending : GeneratorEnd) :
    Confined (concludeGenerator name ending) := by
  intro P ctx io next hio hnext
  cases ending with
  | code n => exact finish_confined hio hnext n ctx
  | failed reason => exact complain_confined _ P ctx io next hio hnext
  | crashed message => exact complain_confined _ P ctx io next hio hnext

theorem builtin_confined (name : String) (handler : Handler) (args : List String) :
    Confined (builtin name handler args) := by
  intro P ctx io next hio hnext
  have hempty : ({ io with stdin := .empty } : Streams).Within P := ⟨trivial, hio.stdout, hio.stderr⟩
  unfold builtin
  split
  · simp only [Work.Within]
  · simp only [Work.Within]
    refine ⟨hio.stdin, fun bytes => ?_⟩
    cases handler with
    | call c =>
      simp only [Work.Within]
      exact fun outcome => conclude_confined name outcome P ctx _ next hempty hnext
    | generator g =>
      simp only [Work.Within]
      exact ⟨hio.stdout, hio.stderr, fun how => ⟨hio.stdout,
        concludeGenerator_confined name how P ctx _ next ⟨trivial, trivial, hio.stderr⟩ hnext⟩⟩

theorem program_confined (l : Launch) : Confined (program l) := by
  intro P ctx io next hio hnext
  have hempty : ({ io with stdin := .empty } : Streams).Within P := ⟨trivial, hio.stdout, hio.stderr⟩
  simp only [program, Work.Within]
  intro cancelled
  split
  · exact finish_confined hio hnext _ ctx
  · simp only [Work.Within]
    refine ⟨hio.stdin, fun started => ?_⟩
    cases started with
    | error e => exact (finish_confined hempty hnext _ ctx).say hio.stderr _
    | ok attendance =>
      simp only [Work.Within]
      exact ⟨hio.stdout, hio.stderr, fun code => finish_confined hempty hnext code ctx⟩

theorem namedProgram_confined (name : String) (args : List String) :
    Confined (namedProgram name args) := by
  intro P ctx io next hio hnext
  simp only [namedProgram, Work.Within]
  intro program
  cases program with
  | none => exact (finish_confined hio hnext _ ctx).say hio.stderr _
  | some path => exact program_confined _ P ctx io next hio hnext

theorem traced_confined (words : List String) (h : Confined a) : Confined (traced words a) := by
  intro P ctx io next hio hnext
  have hbody := h P ctx io next hio hnext
  unfold traced
  split
  · exact hbody.say hio.stderr _
  · exact hbody

theorem invoke_confined (words : List String) : Confined (invoke words) := by
  cases words with
  | nil => exact fun P ctx io next hio hnext => finish_confined hio hnext 0 ctx
  | cons name args =>
    refine traced_confined _ fun P ctx io next hio hnext => ?_
    have hprogram := namedProgram_confined name args P ctx io next hio hnext
    simp only
    split
    · simp only [Work.Within]
      intro handler
      cases handler with
      | none => exact hprogram
      | some handler => exact builtin_confined name handler args P ctx io next hio hnext
    · exact hprogram

theorem redirected_confined (h : Confined a) (redirects : List Redirect) :
    Confined (redirected a redirects) := by
  induction redirects with
  | nil => exact h
  | cons r rest ih =>
    intro P ctx io next hio hnext
    have hcomplain : ∀ message, Work.Within P (complain message ctx io next) :=
      fun message => complain_confined message P ctx io next hio hnext
    unfold redirected
    split
    · exact hcomplain _
    · simp only
      split
      · simp only [Work.Within]
        intro loaded
        cases loaded with
        | error e => exact hcomplain _
        | ok bytes =>
          simp only [Work.Within]
          exact ⟨hio.stdin, ih P ctx _ next ⟨trivial, hio.stdout, hio.stderr⟩ hnext⟩
      · simp only [Work.Within]
        intro opened
        cases opened with
        | error e => exact hcomplain _
        | ok handle =>
          simp only [Work.Within]
          exact ⟨hio.stdout, ih P ctx _ next ⟨hio.stdin, trivial, hio.stderr⟩ hnext⟩

theorem simple_confined (name : Word) (args : List Word) (redirects : List Redirect) :
    Confined (simple name args redirects) := by
  intro P ctx io next hio hnext
  unfold simple
  split
  · exact complain_confined _ P ctx io next hio hnext
  · exact redirected_confined (invoke_confined _) redirects P ctx io next hio hnext

/-! ### Sequences -/

theorem sequenceRest_confined {rest : List (Connector × Activity)}
    (hrest : ∀ m ∈ rest, Confined m.2) {stdout stderr : Sink} (hout : stdout.Within P)
    (herr : stderr.Within P) (hnext : ∀ code ctx', Work.Within P (next code ctx')) (ctx : Context)
    (code : Int) : Work.Within P (sequenceRest stdout stderr next ctx code rest) := by
  induction rest generalizing ctx code with
  | nil =>
    simp only [sequenceRest, Work.Within]
    exact ⟨hout, herr, hnext code ctx⟩
  | cons m rest ih =>
    obtain ⟨connector, a⟩ := m
    have ih := ih fun m hm => hrest m (List.mem_cons_of_mem _ hm)
    unfold sequenceRest
    split
    · exact ih ctx code
    · simp only [Work.Within]
      intro cancelled
      split
      · simp only [Work.Within]
        exact ⟨hout, herr, hnext code ctx⟩
      · simp only [Work.Within]
        refine ⟨hout, herr, hrest _ List.mem_cons_self P ctx _ _ ⟨trivial, hout, herr⟩
          fun code' ctx' => ?_⟩
        split
        · simp only [Work.Within]
          exact ⟨hout, herr, hnext _ _⟩
        · exact ih _ _

theorem sequence_confined {first : Activity} {rest : List (Connector × Activity)}
    (hfirst : Confined first) (hrest : ∀ m ∈ rest, Confined m.2) :
    Confined (sequence first rest) := by
  intro P ctx io next hio hnext
  simp only [sequence, Work.Within]
  refine ⟨hio.stdout, hio.stderr, hfirst P ctx io _ hio fun code ctx' => ?_⟩
  split
  · simp only [Work.Within]
    exact ⟨hio.stdout, hio.stderr, hnext _ _⟩
  · exact sequenceRest_confined hrest hio.stdout hio.stderr hnext _ _

/-! ### Pipelines and subshells -/

/-- Each stage but the last writes into a channel that was made for it and read by the next one. -/
theorem connectStages_confined {stages : List Activity} (hstages : ∀ a ∈ stages, Confined a)
    {ctx : Context} {stdout stderr : Sink} (hout : stdout.Within P) (herr : stderr.Within P)
    {next : List Work → Work} {input : Source} (hin : input.Within P) {branches : List Work}
    (hbranches : ∀ b ∈ branches, Work.Within P b)
    (hnext : ∀ (Q : ChannelId → Prop) branches, (∀ id, P id → Q id) →
      (∀ b ∈ branches, Work.Within Q b) → Work.Within Q (next branches)) :
    Work.Within P (connectStages ctx stdout stderr next input branches stages) := by
  induction stages generalizing P input branches with
  | nil =>
    simp only [connectStages, Work.Within]
    exact ⟨hin, hout, herr, hnext P _ (fun _ => id) fun b hb => hbranches b (List.mem_reverse.mp hb)⟩
  | cons a rest ih =>
    cases rest with
    | nil =>
      simp only [connectStages]
      refine hnext P _ (fun _ => id) fun b hb => ?_
      rcases List.mem_cons.mp (List.mem_reverse.mp hb) with rfl | hb
      · refine hstages a List.mem_cons_self P ctx _ _ ⟨hin, hout, herr⟩ fun _ _ => ?_
        simp only [Work.Within]
      · exact hbranches b hb
    | cons a' rest =>
      simp only [connectStages, Work.Within]
      intro id
      have hmono : ∀ c, P c → P c ∨ c = id := fun _ => .inl
      have hid : (Source.channel id).Within fun c => P c ∨ c = id := .inr rfl
      refine ⟨herr.mono hmono, ih (fun a ha => hstages a (List.mem_cons_of_mem _ ha))
        (hout.mono hmono) (herr.mono hmono) hid (fun b hb => ?_)
        fun Q bs hQ => hnext Q bs fun c hc => hQ c (.inl hc)⟩
      rcases List.mem_cons.mp hb with rfl | hb
      · refine hstages a List.mem_cons_self _ ctx _ _ ⟨hin.mono hmono, hid, herr.mono hmono⟩
          fun _ _ => ?_
        simp only [Work.Within]
      · exact (hbranches b hb).mono hmono

theorem pipeline_confined {stages : List Activity} (hstages : ∀ a ∈ stages, Confined a) :
    Confined (pipeline stages) := by
  intro P ctx io next hio hnext
  refine connectStages_confined hstages hio.stdout hio.stderr hio.stdin (by simp)
    fun Q branches hQ hbranches => ?_
  simp only [Work.Within]
  exact ⟨Work.withinAll_iff.mpr hbranches, fun codes => (hnext _ _).mono hQ⟩

theorem subshell_confined (h : Confined a) : Confined (subshell a) :=
  fun P ctx io _ hio hnext => h P ctx io _ hio fun _ _ => hnext _ _

end Activity

/-! ## Trees and texts -/

namespace Command

open Activity

mutual

theorem activity_confined : (c : Command) → Confined c.activity
  | .simple name args redirects => by
    simp only [activity]
    exact guarded_confined (simple_confined name args redirects)
  | .pipeline stages => by
    simp only [activity]
    exact guarded_confined (pipeline_confined (activities_confined stages))
  | .sequence first rest => by
    simp only [activity]
    exact guarded_confined
      (sequence_confined (activity_confined first) (memberActivities_confined rest))
  | .subshell body => by
    simp only [activity]
    exact guarded_confined (subshell_confined (activity_confined body))

theorem activities_confined : (cs : List Command) → ∀ a ∈ activities cs, Confined a
  | [] => by simp [activities]
  | c :: rest => by
    simp only [activities, List.forall_mem_cons]
    exact ⟨activity_confined c, activities_confined rest⟩

theorem memberActivities_confined : (cs : List (Connector × Command)) →
    ∀ m ∈ memberActivities cs, Confined m.2
  | [] => by simp [memberActivities]
  | (_, c) :: rest => by
    simp only [memberActivities, List.forall_mem_cons]
    exact ⟨activity_confined c, memberActivities_confined rest⟩

end

end Command

theorem Activity.realShell_confined (text : String) : (Activity.realShell text).Confined :=
  fun P ctx io next hio hnext => program_confined _ P ctx io next hio hnext

/-- Whatever text does as a command line, it stays within its streams. -/
theorem lineActivity_confined (text : String) (operators : Bool) :
    (lineActivity text operators).Confined := by
  intro P ctx io next hio hnext
  unfold lineActivity
  extract_lets run
  have hrun : Activity.Confined run := by
    simp only [run]
    split
    · exact Activity.realShell_confined text
    split
    · exact Command.activity_confined _
    · exact fun P ctx io next hio hnext => (hnext _ _).releaseAll hio
    · exact Activity.realShell_confined text
  have h := hrun P ctx io next hio hnext
  split
  · exact h.say hio.stderr _
  · exact h

end Runnel
