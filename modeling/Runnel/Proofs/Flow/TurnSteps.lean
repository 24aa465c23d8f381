import Runnel.Proofs.Flow.Steps

/-!
# Runnel.Proofs.Flow.TurnSteps

Turns as steps. A turn answers requests with what the machine holds, and leaves alone the names of
commands and the tokens, so all of its steps see the machine alike as far as steps look at it.

* `Work.perform_steps`: a turn is some steps.
* `Work.Turns.steps`: turns are some steps, and every command that is run in them is started in the
  steps.
-/

namespace Runnel

/-! ## What the parts of a turn leave alone -/

namespace Machine

theorem retain_keeps (m : Machine) (sink : Sink) : Keeps m (m.retain sink) := by
  cases sink with
  | channel id kind => exact ⟨rfl, rfl⟩
  | file handle | discard => exact .refl m

theorem release_keeps (m : Machine) (sink : Sink) : Keeps m (m.release sink) := by
  cases sink with
  | channel id kind => exact ⟨rfl, rfl⟩
  | file handle | discard => exact .refl m

theorem newChannel_keeps (m : Machine) (capacity : Nat) : Keeps m (m.newChannel capacity).2 :=
  ⟨rfl, rfl⟩

theorem openFile_keeps (m : Machine) (path : String) (mode : Disk.OutputMode) :
    Keeps m (m.openFile path mode).2 := by
  unfold openFile
  split
  all_goals exact ⟨rfl, rfl⟩

/-! ### Generators -/

theorem withdraw_keeps (m : Machine) (sink : Sink) (ticket : Option Ticket) :
    Keeps m (m.withdraw sink ticket) := by
  unfold withdraw
  split
  · exact ⟨rfl, rfl⟩
  · exact .refl m

theorem send_keeps (m : Machine) (token : TokenId) (sink : Sink) (ticket : Option Ticket)
    (data : Bytes) : Keeps m (m.send token sink ticket data).1 := by
  unfold send
  split
  · exact withdraw_keeps m sink ticket
  · exact write_keeps m sink ticket data

theorem keeps_of_send {m m' : Machine} {token : TokenId} {sink : Sink} {ticket : Option Ticket}
    {data : Bytes} {written : Written} (h : m.send token sink ticket data = (m', written)) :
    Keeps m m' := by
  have hkeeps := send_keeps m token sink ticket data
  rwa [h] at hkeeps

theorem produceWithin_keeps (g : Generator) (i : Invocation) (stdout stderr : Sink)
    (token : TokenId) (n : Nat) (m : Machine) (p : GeneratorProgress) (ticket : Option Ticket) :
    Keeps m (produceWithin g i stdout stderr token n m p ticket).1 := by
  induction n generalizing m p ticket with
  | zero => exact .refl m
  | succ n ih =>
    unfold produceWithin
    split
    case h_1 | h_2 =>
      simp only
      split
      · rename_i hsent
        exact (keeps_of_send hsent).trans (ih _ _ _)
      · rename_i hsent
        exact keeps_of_send hsent
    · split
      · exact ih m _ _
      · exact .refl m
    · split
      · exact ih m _ _
      · exact .refl m
    all_goals exact .refl m

theorem produce_keeps (m : Machine) (g : Generator) (i : Invocation) (stdout stderr : Sink)
    (token : TokenId) (p : GeneratorProgress) (ticket : Option Ticket) :
    Keeps m (m.produce g i stdout stderr token p ticket).1 :=
  produceWithin_keeps g i stdout stderr token _ m p ticket

/-! ### Child processes -/

theorem become_keeps {m m' : Machine} {id : ProcessId} {path name : String} {args : List String}
    {env : Environment} (h : m.become id path name args env = .ok m') : Keeps m m' := by
  unfold become at h
  simp only at h
  split at h
  · cases h
  · cases h
    exact ⟨rfl, rfl⟩

-- Unfolding is slow here, since the errors overlap; the equation holds by computation.
theorem becomeFirst_cons (m : Machine) (id : ProcessId) (path name : String) (args : List String)
    (env : Environment) (e : SystemError) (rest : List String) :
    m.becomeFirst id name args env e (path :: rest) =
      match m.become id path name args env with
      | .ok m => .ok m
      | .error .noEntry | .error .notDirectory => m.becomeFirst id name args env e rest
      | .error .denied => m.becomeFirst id name args env .denied rest
      | .error e => .error e := (rfl)

theorem becomeFirst_keeps {m m' : Machine} {id : ProcessId} {name : String} {args : List String}
    {env : Environment} {paths : List String} {e : SystemError}
    (h : m.becomeFirst id name args env e paths = .ok m') : Keeps m m' := by
  induction paths generalizing e with
  | nil => cases h
  | cons path rest ih =>
    rw [becomeFirst_cons] at h
    split at h
    · rename_i hbecome
      cases h
      exact become_keeps hbecome
    · exact ih h
    · exact ih h
    · exact ih h
    · cases h

theorem openFeed_keeps (m : Machine) (source : Source) : Keeps m (m.openFeed source).2 := by
  cases source with
  | empty | inherited => exact .refl m
  | bytes data | channel id => exact ⟨rfl, rfl⟩

theorem launch_keeps (m : Machine) (l : Launch) (group : GroupId) :
    Keeps m (m.launch l group).1 := by
  unfold launch
  split
  · exact abandon_keeps m l.stdin
  split
  · exact abandon_keeps m l.stdin
  simp only
  split
  · exact abandon_keeps m l.stdin
  · rename_i started hstarted
    unfold becomeNamed at hstarted
    split at hstarted
    · cases hstarted
    · have h := becomeFirst_keeps hstarted
      have hfeed := openFeed_keeps ((m.newPipe [] true).2.newPipe [] true).2 l.stdin
      exact ⟨h.registry.trans hfeed.registry, h.tokens.trans hfeed.tokens⟩

theorem receivePipe_keeps (m : Machine) (id : PipeId) (choose : Bytes → Nat) :
    Keeps m (m.receivePipe id choose).1 := by
  unfold receivePipe
  simp only
  split
  · exact .refl m
  · exact ⟨rfl, rfl⟩

theorem signal_keeps (m : Machine) (id : ProcessId) (signal : Nat) :
    Keeps m (m.signal id signal) := by
  unfold Machine.signal
  simp only
  split
  · exact .refl m
  split
  · exact .refl m
  split
  all_goals exact ⟨rfl, rfl⟩

theorem closeOutlet_keeps (m : Machine) (sink : Sink) (o : Outlet) :
    Keeps m (m.closeOutlet sink o).1 := by
  unfold closeOutlet
  cases o.held with
  | none => exact ⟨rfl, rfl⟩
  | some held =>
    have h := withdraw_keeps m sink held.1
    exact ⟨h.registry, h.tokens⟩

theorem deliverOutlet_keeps (sink : Sink) (n : Nat) (m : Machine) (o : Outlet) :
    Keeps m (deliverOutlet sink n m o).1 := by
  induction n generalizing m o with
  | zero => exact .refl m
  | succ n ih =>
    unfold deliverOutlet
    split
    · exact .refl m
    split
    · rename_i ticket data _
      have h := write_keeps m sink ticket data
      rcases hw : m.write sink ticket data with ⟨m', (_ | _) | held⟩
      · rw [hw] at h
        exact h.trans (closeOutlet_keeps m' sink _)
      · rw [hw] at h
        exact h.trans (ih m' _)
      · rw [hw] at h
        exact h
    · have h := receivePipe_keeps m o.pipe wholePiece
      rcases hr : m.receivePipe o.pipe wholePiece with ⟨m', data | _ | _⟩
      · rw [hr] at h
        exact h.trans (ih m' _)
      · rw [hr] at h
        exact h.trans (closeOutlet_keeps m' sink _)
      · rw [hr] at h
        exact h

theorem attend_keeps (m : Machine) (stdout stderr : Sink) (group : GroupId) (token : TokenId)
    (a : Attendance) : Keeps m (m.attend stdout stderr group token a).1 := by
  unfold attend
  simp only
  split
  · have hout := closeOutlet_keeps m stdout a.stdout
    have herr := closeOutlet_keeps (m.closeOutlet stdout a.stdout).1 stderr a.stderr
    have h := (hout.trans herr).trans (signal_keeps _ a.process endSignal)
    split
    · exact h
    split
    · exact ⟨h.registry, h.tokens⟩
    · exact h
  · have hout := deliverOutlet_keeps stdout (2 * turnBudget) m a.stdout
    have h := hout.trans (deliverOutlet_keeps stderr (2 * turnBudget) _ a.stderr)
    split
    · exact h
    split
    · exact ⟨h.registry, h.tokens⟩
    · exact h

end Machine

/-! ## Turns are steps -/

/-- What others notice of a deed. -/
def Deed.events : Deed → List Work.Event
  | .invoke handler i => [.invoke handler i]
  | .seek _ => []
  | .launch l => [.launch l]

namespace Work

/-- Some steps lead from `w` to `w'`, and others notice the deeds at the start or in the steps. -/
structure Covers (P : Machine → Prop) (w : Work) (deeds : List Deed) (events : List Event)
    (w' : Work) : Prop where
  steps : Steps P w events w'
  deeds : deeds.flatMap Deed.events ⊆ w.opening ++ events

section

variable {P : Machine → Prop} {w w' w'' : Work} {events : List Event} {deeds : List Deed}

theorem Covers.none (w : Work) : Covers P w [] [] w :=
  ⟨.none w, by simp⟩

theorem Covers.delay {m : Machine} (hm : P m) (h : Delay w w') : Covers P w [] [] w' :=
  ⟨.one hm (.delay h), by simp⟩

/-- An answer comes first, with the deeds that the request stands for. -/
theorem Covers.answer {m : Machine} (h : Covers P w' deeds events w'') (first : List Deed)
    (hm : P m) (hanswer : Answer m w w') (hfirst : first.flatMap Deed.events ⊆ w.opening) :
    Covers P w (first ++ deeds) (w'.opening ++ events) w'' := by
  refine ⟨h.steps.answer hm hanswer, ?_⟩
  rw [List.flatMap_append]
  exact List.append_subset.mpr
    ⟨List.subset_append_of_subset_left _ hfirst, List.subset_append_of_subset_right _ h.deeds⟩

theorem Covers.trans {more : List Event} {deeds' : List Deed} (h : Covers P w deeds events w')
    (h' : Covers P w' deeds' more w'') : Covers P w (deeds ++ deeds') (events ++ more) w'' := by
  refine ⟨h.steps.trans h'.steps, ?_⟩
  rw [List.flatMap_append, ← List.append_assoc]
  refine List.append_subset.mpr ⟨List.subset_append_of_subset_left _ h.deeds, fun e he => ?_⟩
  rcases List.mem_append.mp (h'.deeds he) with he | he
  · exact List.mem_append_left _ (h.steps.opening_subset he)
  · exact List.mem_append_right _ he

/-- What a turn comes to: some steps cover it, and the machine still satisfies `P`. -/
def Covered (P : Machine → Prop) (w : Work) (p : Performed) : Prop :=
  (∃ events, Covers P w p.deeds events p.work) ∧ P p.machine

theorem Covered.answer {m : Machine} {p : Performed} (h : Covered P w' p) (hm : P m)
    (hanswer : Answer m w w') : Covered P w p := by
  obtain ⟨⟨events, hcovers⟩, hp⟩ := h
  exact ⟨⟨_, hcovers.answer [] hm hanswer (by simp)⟩, hp⟩

theorem Covered.after {m : Machine} {p : Performed} {d : Deed} (h : Covered P w' p) (hm : P m)
    (hanswer : Answer m w w') (hd : d.events ⊆ w.opening) : Covered P w (p.after d) := by
  obtain ⟨⟨events, hcovers⟩, hp⟩ := h
  exact ⟨⟨_, hcovers.answer [d] hm hanswer (by simpa using hd)⟩, hp⟩

end

/-- `P` holds after a turn if it holds before. -/
def Stable (P : Machine → Prop) : Prop :=
  ∀ m m', Machine.Keeps m m' → P m → P m'

theorem stable_keeps (m : Machine) : Stable (Machine.Keeps m) :=
  fun _ _ h hm => hm.trans h

mutual

/-- A turn is some steps. -/
theorem perform_steps {P : Machine → Prop} (stable : Stable P) :
    (w : Work) → (m : Machine) → P m → Covered P w (w.perform m)
  | .done .., m, hm | .crash, m, hm => by
    simp only [perform]
    exact ⟨⟨[], .none _⟩, hm⟩
  | .rest begun next, m, hm => by
    simp only [perform]
    cases begun with
    | true => exact (perform_steps stable next m hm).answer hm (.rest true next)
    | false => exact ⟨⟨[], .delay hm (.rest next)⟩, hm⟩
  | .ask token next, m, hm => by
    simp only [perform]
    exact (perform_steps stable _ m hm).answer hm (.ask token next)
  | .write ticket sink data next, m, hm => by
    have hkeeps := stable _ _ (Machine.write_keeps m sink ticket data) hm
    rcases h : m.write sink ticket data with ⟨m', ok | held⟩
    · simp only [perform, h]
      rw [h] at hkeeps
      exact (perform_steps stable _ m' hkeeps).answer hm (.write ticket sink data next ok)
    · simp only [perform, h]
      rw [h] at hkeeps
      exact ⟨⟨[], .delay hm (.write ticket held sink data next)⟩, hkeeps⟩
  | .read source lines gathered next, m, hm => by
    have hkeeps := stable _ _ (Machine.gather_keeps m source lines gathered) hm
    rcases h : m.gather source lines gathered with ⟨m', bytes, _ | _⟩
    · simp only [perform, h]
      rw [h] at hkeeps
      exact ⟨⟨[], .delay hm (.read source lines gathered bytes next)⟩, hkeeps⟩
    · simp only [perform, h]
      rw [h] at hkeeps
      exact (perform_steps stable _ m' hkeeps).answer hm (.read source lines gathered next bytes)
  | .load path next, m, hm => by
    simp only [perform]
    exact (perform_steps stable _ m hm).answer hm (.load path next _)
  | .openFile path mode next, m, hm => by
    simp only [perform]
    exact (perform_steps stable _ _ (stable _ _ (Machine.openFile_keeps m path mode) hm)).answer hm
      (.openFile path mode next _)
  | .lookUp name next, m, hm => by
    simp only [perform]
    exact (perform_steps stable _ m hm).answer hm (.lookUp name next)
  | .call c i next, m, hm => by
    simp only [perform]
    have hkeeps : Machine.Keeps m { m with disk := (c.run i m.disk).2 } := ⟨rfl, rfl⟩
    exact (perform_steps stable _ _ (stable _ _ hkeeps hm)).after hm (.call c i next _)
      (by simp [Deed.events, opening])
  | .pause length moment token next, m, hm => by
    simp only [perform]
    split
    · exact (perform_steps stable _ m hm).answer hm (.pause length moment token next _)
    split
    · exact (perform_steps stable _ m hm).answer hm (.pause length moment token next _)
    · exact ⟨⟨[], .delay hm (.pause length moment _ token next)⟩, hm⟩
  | .generate g i stdout stderr token progress ticket next, m, hm => by
    have hkeeps := stable _ _ (Machine.produce_keeps m g i stdout stderr token progress ticket) hm
    rcases h : m.produce g i stdout stderr token progress ticket with ⟨m', how | ⟨progress', held⟩⟩
    · simp only [perform, h]
      rw [h] at hkeeps
      exact (perform_steps stable _ m' hkeeps).after hm
        (.generate g i stdout stderr token progress ticket next how)
        (by simp [Deed.events, opening])
    · simp only [perform, h]
      rw [h] at hkeeps
      exact ⟨⟨[], .delay hm
        (.generate g i stdout stderr token progress progress' ticket held next)⟩, hkeeps⟩
  | .retain sink next, m, hm => by
    simp only [perform]
    exact (perform_steps stable next _ (stable _ _ (Machine.retain_keeps m sink) hm)).answer hm
      (.retain sink next)
  | .release sink next, m, hm => by
    simp only [perform]
    exact (perform_steps stable next _ (stable _ _ (Machine.release_keeps m sink) hm)).answer hm
      (.release sink next)
  | .abandon source next, m, hm => by
    simp only [perform]
    exact (perform_steps stable next _ (stable _ _ (Machine.abandon_keeps m source) hm)).answer hm
      (.abandon source next)
  | .connect next, m, hm => by
    simp only [perform]
    have hkeeps := stable _ _ (Machine.newChannel_keeps m pipeCapacity) hm
    exact (perform_steps stable _ _ hkeeps).answer hm (.connect next _)
  | .together branches next, m, hm => by
    obtain ⟨events, hsteps, hdeeds, hp⟩ := performAll_steps stable next branches m hm
    have hbranches : Covers P (.together branches next) (performAll branches m).2.2 events
        (.together (performAll branches m).2.1 next) := ⟨hsteps [], hdeeds⟩
    simp only [perform]
    cases hc : codes? (performAll branches m).2.1 with
    | some codes =>
      simp only
      obtain ⟨⟨more, hmore⟩, hp'⟩ := perform_steps stable (next codes) _ hp
      have hjoined := hmore.answer [] hp (.join next hc) (by simp)
      exact ⟨⟨_, hbranches.trans hjoined⟩, hp'⟩
    | none =>
      simp only
      split
      · rename_i hcrashed
        have hfailed : Covers P (.together (performAll branches m).2.1 next) [] _ .crash :=
          (Covers.none .crash).answer [] hp (.fail next hcrashed) (by simp)
        exact ⟨⟨_, by simpa using hbranches.trans hfailed⟩, hp⟩
      · exact ⟨⟨events, hbranches⟩, hp⟩
  | .seek searchPath cwd name next, m, hm => by
    simp only [perform]
    exact (perform_steps stable _ m hm).after hm (.seek searchPath cwd name next _)
      (by simp [Deed.events])
  | .launch l group next, m, hm => by
    simp only [perform]
    exact (perform_steps stable _ _ (stable _ _ (Machine.launch_keeps m l group) hm)).after hm
      (.launch l group next _) (by simp [Deed.events, opening])
  | .attend stdout stderr group token a next, m, hm => by
    have hkeeps := stable _ _ (Machine.attend_keeps m stdout stderr group token a) hm
    rcases h : m.attend stdout stderr group token a with ⟨m', code | a'⟩
    · simp only [perform, h]
      rw [h] at hkeeps
      exact (perform_steps stable _ m' hkeeps).answer hm
        (.attend stdout stderr group token a next code)
    · simp only [perform, h]
      rw [h] at hkeeps
      exact ⟨⟨[], .delay hm (.attend stdout stderr group token a a' next)⟩, hkeeps⟩

/-- A turn of each branch is some steps of all of them. -/
theorem performAll_steps {P : Machine → Prop} (stable : Stable P) (next : List Int → Work) :
    (branches : List Work) → (m : Machine) → P m → ∃ events,
      (∀ before, Steps P (.together (before ++ branches) next) events
        (.together (before ++ (performAll branches m).2.1) next)) ∧
      (performAll branches m).2.2.flatMap Deed.events ⊆ openings branches ++ events ∧
      P (performAll branches m).1
  | [], m, hm => ⟨[], fun before => .none _, by simp [performAll], hm⟩
  | b :: more, m, hm => by
    obtain ⟨⟨events, hb⟩, hp⟩ := perform_steps stable b m hm
    simp only [performAll]
    split
    · refine ⟨events, fun before => hb.steps.branch before more next, ?_, hp⟩
      intro e he
      have he := List.mem_append.mp (hb.deeds he)
      simp only [openings, List.mem_append]
      grind
    · obtain ⟨events', hmore, hdeeds, hp'⟩ := performAll_steps stable next more _ hp
      refine ⟨events ++ events', fun before => ?_, ?_, hp'⟩
      · have h := hmore (before ++ [(b.perform m).work])
        simp only [List.append_assoc, List.singleton_append] at h
        exact (hb.steps.branch before more next).trans h
      · intro e he
        simp only [List.flatMap_append, List.mem_append] at he
        simp only [openings, List.mem_append]
        rcases he with he | he
        · have he := List.mem_append.mp (hb.deeds he)
          grind
        · have he := List.mem_append.mp (hdeeds he)
          grind

end

/-- Turns are some steps, in which all is started that is done in the turns. -/
theorem Turns.steps {P : Machine → Prop} (stable : Stable P) {w w' : Work} {deeds : List Deed}
    (h : Turns P w deeds w') : ∃ events, Covers P w deeds events w' := by
  induction h with
  | none w => exact ⟨[], .none w⟩
  | turn hm _ ih =>
    obtain ⟨⟨events, hturn⟩, _⟩ := perform_steps stable _ _ hm
    obtain ⟨more, hmore⟩ := ih
    exact ⟨events ++ more, hturn.trans hmore⟩

end Work
end Runnel
