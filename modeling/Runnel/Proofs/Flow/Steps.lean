import Runnel.Proofs.Flow.Deeds

/-!
# Runnel.Proofs.Flow.Steps

Work request by request. A step answers one request, or gets on with one without an answer. Which of
several branches goes next and what a request is answered is left open, so this is every schedule,
whatever files, readers and commands do. Only two answers are those of a machine: whether a token is
set, and what stands behind a name.

* `Work.opening`: what others notice as soon as work gets to a request.
* `Work.Step`, `Work.Steps`: a step and some steps, with what others notice in them.
* `Work.exists_ending`: work never gets stuck, since some answers bring it to an end.
-/

namespace Runnel
namespace Work

/-- Something that others notice of work. -/
inductive Event where
  /-- Bytes are handed to a sink. -/
  | output (sink : Sink) (data : Bytes)
  /-- A built-in command is called. -/
  | invoke (handler : Handler) (i : Invocation)
  /-- A process is to be started. -/
  | launch (l : Launch)

namespace Event

/-- A command is started, built in or not. -/
def isStart : Event → Bool
  | .output .. => false
  | .invoke .. | .launch .. => true

end Event

-- A command is called when work gets to the request for it, not when the request is answered: a
-- generator may run for long in between.
mutual

/-- What others notice as soon as work is here. -/
def opening : Work → List Event
  | .write _ sink data _ => [.output sink data]
  | .call c i _ => [.invoke (.call c) i]
  | .generate g i _ _ _ _ _ _ => [.invoke (.generator g) i]
  | .launch l _ _ => [.launch l]
  | .together branches _ => openings branches
  | _ => []

/-- What others notice as soon as each of several branches is here. -/
def openings : List Work → List Event
  | [] => []
  | b :: more => opening b ++ openings more

end

/-- The first request of work is answered. -/
inductive Answer (m : Machine) : Work → Work → Prop where
  | rest (begun : Bool) (next : Work) : Answer m (.rest begun next) next
  | ask (token : TokenId) (next : Bool → Work) : Answer m (.ask token next) (next (m.isSet token))
  | write (ticket : Option Ticket) (sink : Sink) (data : Bytes) (next : Bool → Work) (ok : Bool) :
      Answer m (.write ticket sink data next) (next ok)
  | read (source : Source) (lines : Option Nat) (gathered : Bytes) (next : Bytes → Work)
      (bytes : Bytes) : Answer m (.read source lines gathered next) (next bytes)
  | load (path : String) (next : Except SystemError Bytes → Work)
      (loaded : Except SystemError Bytes) : Answer m (.load path next) (next loaded)
  | openFile (path : String) (mode : Disk.OutputMode) (next : Except SystemError HandleId → Work)
      (opened : Except SystemError HandleId) : Answer m (.openFile path mode next) (next opened)
  | lookUp (name : String) (next : Option Handler → Work) :
      Answer m (.lookUp name next) (next (m.registry.get? name))
  | call (c : Call) (i : Invocation) (next : Outcome → Work) (outcome : Outcome) :
      Answer m (.call c i next) (next outcome)
  | pause (length : Number.Duration) (moment : Option Nat) (token : TokenId) (next : Bool → Work)
      (cut : Bool) : Answer m (.pause length moment token next) (next cut)
  | generate (g : Generator) (i : Invocation) (stdout stderr : Sink) (token : TokenId)
      (p : GeneratorProgress) (ticket : Option Ticket) (next : GeneratorEnd → Work)
      (how : GeneratorEnd) :
      Answer m (.generate g i stdout stderr token p ticket next) (next how)
  | retain (sink : Sink) (next : Work) : Answer m (.retain sink next) next
  | release (sink : Sink) (next : Work) : Answer m (.release sink next) next
  | abandon (source : Source) (next : Work) : Answer m (.abandon source next) next
  | connect (next : ChannelId → Work) (id : ChannelId) : Answer m (.connect next) (next id)
  | join {branches : List Work} {codes : List Int} (next : List Int → Work) :
      codes? branches = some codes → Answer m (.together branches next) (next codes)
  | fail {branches : List Work} (next : List Int → Work) :
      branches.any hasCrashed = true → Answer m (.together branches next) .crash
  | seek (searchPath : Option String) (cwd name : String) (next : Option String → Work)
      (found : Option String) : Answer m (.seek searchPath cwd name next) (next found)
  | launch (l : Launch) (group : GroupId) (next : Except SystemError Attendance → Work)
      (started : Except SystemError Attendance) : Answer m (.launch l group next) (next started)
  | attend (stdout stderr : Sink) (group : GroupId) (token : TokenId) (a : Attendance)
      (next : Int → Work) (code : Int) :
      Answer m (.attend stdout stderr group token a next) (next code)

/-- Work gets on with its first request, which is not answered yet. -/
inductive Delay : Work → Work → Prop where
  | rest (next : Work) : Delay (.rest false next) (.rest true next)
  | write (ticket held : Option Ticket) (sink : Sink) (data : Bytes) (next : Bool → Work) :
      Delay (.write ticket sink data next) (.write held sink data next)
  | read (source : Source) (lines : Option Nat) (gathered more : Bytes) (next : Bytes → Work) :
      Delay (.read source lines gathered next) (.read source lines more next)
  | pause (length : Number.Duration) (moment until? : Option Nat) (token : TokenId)
      (next : Bool → Work) :
      Delay (.pause length moment token next) (.pause length until? token next)
  | generate (g : Generator) (i : Invocation) (stdout stderr : Sink) (token : TokenId)
      (p p' : GeneratorProgress) (ticket held : Option Ticket) (next : GeneratorEnd → Work) :
      Delay (.generate g i stdout stderr token p ticket next)
        (.generate g i stdout stderr token p' held next)
  | attend (stdout stderr : Sink) (group : GroupId) (token : TokenId) (a a' : Attendance)
      (next : Int → Work) :
      Delay (.attend stdout stderr group token a next) (.attend stdout stderr group token a' next)

/-- A step of work or of one of its branches, with what others notice. -/
inductive Step (m : Machine) : Work → List Event → Work → Prop where
  | answer {w w' : Work} : Answer m w w' → Step m w w'.opening w'
  | delay {w w' : Work} : Delay w w' → Step m w [] w'
  | branch {b b' : Work} {events : List Event} (before after : List Work)
      (next : List Int → Work) : Step m b events b' →
      Step m (.together (before ++ b :: after) next) events
        (.together (before ++ b' :: after) next)

/-- Some steps, each with a machine that satisfies `P`. Between two of them anything may happen to
the machine. -/
inductive Steps (P : Machine → Prop) : Work → List Event → Work → Prop where
  /-- No step. -/
  | none (w : Work) : Steps P w [] w
  /-- A step, and some steps after it. -/
  | step {w w' w'' : Work} {m : Machine} {events more : List Event} :
      P m → Step m w events w' → Steps P w' more w'' → Steps P w (events ++ more) w''

section

variable {P : Machine → Prop} {w w' w'' : Work} {events more : List Event}

theorem Steps.trans (h : Steps P w events w') (h' : Steps P w' more w'') :
    Steps P w (events ++ more) w'' := by
  induction h with
  | none w => exact h'
  | step hm hstep _ ih =>
    rw [List.append_assoc]
    exact .step hm hstep (ih h')

theorem Steps.one {m : Machine} (hm : P m) (h : Step m w events w') : Steps P w events w' := by
  simpa using Steps.step hm h (.none w')

/-- Some steps after the answer to the first request. -/
theorem Steps.answer {m : Machine} (h' : Steps P w' more w'') (hm : P m) (h : Answer m w w') :
    Steps P w (w'.opening ++ more) w'' :=
  .step hm (.answer h) h'

/-- A branch can take its steps while the others wait. -/
theorem Steps.branch (before after : List Work) (next : List Int → Work)
    (h : Steps P w events w') :
    Steps P (.together (before ++ w :: after) next) events
      (.together (before ++ w' :: after) next) := by
  induction h with
  | none w => exact .none _
  | step hm hstep _ ih => exact .step hm (.branch before after next hstep) ih

/-- A property that every step keeps holds after some steps. -/
theorem Steps.keeps {I : Work → Prop}
    (step : ∀ {m w events w'}, P m → Step m w events w' → I w → I w')
    (h : Steps P w events w') (hw : I w) : I w' := by
  induction h with
  | none w => exact hw
  | step hm hstep _ ih => exact ih (step hm hstep hw)

/-! ### What is noticed -/

theorem openings_append (before after : List Work) :
    openings (before ++ after) = openings before ++ openings after := by
  induction before with
  | nil => rfl
  | cons b more ih => rw [List.cons_append, openings, openings, ih, List.append_assoc]

theorem Delay.opening_eq (h : Delay w w') : w'.opening = w.opening := by
  cases h with
  | rest | write | read | pause | generate | attend => simp only [opening]

/-- What others notice of the work that is left they have noticed before or in the step. -/
theorem Step.opening_subset {m : Machine} (h : Step m w events w') :
    w'.opening ⊆ w.opening ++ events := by
  induction h with
  | answer _ => exact List.subset_append_right _ _
  | delay h => rw [h.opening_eq, List.append_nil]; exact List.Subset.refl _
  | branch before after next _ ih =>
    intro e he
    simp only [opening, openings_append, openings, List.mem_append] at he ⊢
    rcases he with he | he | he
    · exact .inl (.inl he)
    · rcases List.mem_append.mp (ih he) with he | he
      · exact .inl (.inr (.inl he))
      · exact .inr he
    · exact .inl (.inr (.inr he))

theorem Steps.opening_subset (h : Steps P w events w') : w'.opening ⊆ w.opening ++ events := by
  induction h with
  | none w => exact List.subset_append_left _ _
  | step _ hstep _ ih =>
    intro e he
    rcases List.mem_append.mp (ih he) with he | he
    · rw [← List.append_assoc]
      exact List.mem_append_left _ (hstep.opening_subset he)
    · simp only [List.mem_append]
      exact .inr (.inr he)

end

/-! ## Every work can end -/

theorem codes?_eq_some_or_hasCrashed : {branches : List Work} →
    (∀ b ∈ branches, b.isComplete = true) →
    (∃ codes, codes? branches = some codes) ∨ branches.any hasCrashed = true
  | [], _ => .inl ⟨[], rfl⟩
  | b :: more, h => by
    rcases codes?_eq_some_or_hasCrashed fun b hb => h b (List.mem_cons_of_mem _ hb) with
      ⟨codes, hcodes⟩ | hmore
    · have hb := h b List.mem_cons_self
      cases b with
      | done code ctx => exact .inl ⟨code :: codes, by simp [codes?, hcodes]⟩
      | crash => exact .inr (by simp [hasCrashed])
      | _ => cases hb
    · exact .inr (by simp [hmore])

theorem exists_ending_of_answer {P : Machine → Prop} {m : Machine} (hm : P m) {w w' : Work}
    (h : Answer m w w') (h' : ∃ events w'', Steps P w' events w'' ∧ w''.isComplete = true) :
    ∃ events w'', Steps P w events w'' ∧ w''.isComplete = true := by
  obtain ⟨events, w'', hsteps, hw''⟩ := h'
  exact ⟨_, w'', hsteps.answer hm h, hw''⟩

mutual

/-- Work can come to an end. -/
theorem exists_ending {P : Machine → Prop} {m : Machine} (hm : P m) :
    (w : Work) → ∃ events w', Steps P w events w' ∧ w'.isComplete = true
  | .done code ctx => ⟨[], _, .none _, rfl⟩
  | .crash => ⟨[], _, .none _, rfl⟩
  | .rest begun next => exists_ending_of_answer hm (.rest begun next) (exists_ending hm next)
  | .ask token next =>
    exists_ending_of_answer hm (.ask token next) (exists_ending hm (next (m.isSet token)))
  | .write ticket sink data next =>
    exists_ending_of_answer hm (.write ticket sink data next true) (exists_ending hm (next true))
  | .read source lines gathered next =>
    exists_ending_of_answer hm (.read source lines gathered next []) (exists_ending hm (next []))
  | .load path next =>
    exists_ending_of_answer hm (.load path next (.ok [])) (exists_ending hm (next (.ok [])))
  | .openFile path mode next =>
    exists_ending_of_answer hm (.openFile path mode next (.ok 0)) (exists_ending hm (next (.ok 0)))
  | .lookUp name next =>
    exists_ending_of_answer hm (.lookUp name next)
      (exists_ending hm (next (m.registry.get? name)))
  | .call c i next =>
    exists_ending_of_answer hm (.call c i next (.crashed none))
      (exists_ending hm (next (.crashed none)))
  | .pause length moment token next =>
    exists_ending_of_answer hm (.pause length moment token next true)
      (exists_ending hm (next true))
  | .generate g i stdout stderr token p ticket next =>
    exists_ending_of_answer hm (.generate g i stdout stderr token p ticket next (.code 0))
      (exists_ending hm (next (.code 0)))
  | .retain sink next => exists_ending_of_answer hm (.retain sink next) (exists_ending hm next)
  | .release sink next => exists_ending_of_answer hm (.release sink next) (exists_ending hm next)
  | .abandon source next =>
    exists_ending_of_answer hm (.abandon source next) (exists_ending hm next)
  | .connect next => exists_ending_of_answer hm (.connect next 0) (exists_ending hm (next 0))
  | .together branches next => by
    obtain ⟨events, branches', hsteps, hcomplete⟩ := exists_endings hm next branches
    obtain ⟨codes, hcodes⟩ | hcrashed := codes?_eq_some_or_hasCrashed hcomplete
    · obtain ⟨more, w', hmore, hw'⟩ := exists_ending hm (next codes)
      exact ⟨_, w', (hsteps []).trans (hmore.answer hm (.join next hcodes)), hw'⟩
    · exact ⟨_, .crash, (hsteps []).trans (.one hm (.answer (.fail next hcrashed))), rfl⟩
  | .seek searchPath cwd name next =>
    exists_ending_of_answer hm (.seek searchPath cwd name next none) (exists_ending hm (next none))
  | .launch l group next =>
    exists_ending_of_answer hm (.launch l group next (.error .noEntry))
      (exists_ending hm (next (.error .noEntry)))
  | .attend stdout stderr group token a next =>
    exists_ending_of_answer hm (.attend stdout stderr group token a next 0)
      (exists_ending hm (next 0))

/-- Branches come to an end one after the other, behind some that have. -/
theorem exists_endings {P : Machine → Prop} {m : Machine} (hm : P m) (next : List Int → Work) :
    (branches : List Work) → ∃ events branches',
      (∀ before, Steps P (.together (before ++ branches) next) events
        (.together (before ++ branches') next)) ∧ ∀ b ∈ branches', b.isComplete = true
  | [] => ⟨[], [], fun before => .none _, by simp⟩
  | b :: more => by
    obtain ⟨events, b', hb, hcomplete⟩ := exists_ending hm b
    obtain ⟨events', more', hmore, hcomplete'⟩ := exists_endings hm next more
    refine ⟨events ++ events', b' :: more', fun before => ?_, ?_⟩
    · have h := hmore (before ++ [b'])
      simp only [List.append_assoc, List.singleton_append] at h
      exact (hb.branch before more next).trans h
    · intro x hx
      rcases List.mem_cons.mp hx with rfl | hx
      · exact hcomplete
      · exact hcomplete' x hx

end

end Work
end Runnel
