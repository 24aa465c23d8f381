import Runnel.Proofs.Runner.Invariant

/-!
# Runnel.Proofs.Runner.Ending

How runs end.

* `System.safe_finish`, `System.safe_kill`: recording a result is safe, whatever listeners do in
  return.
* `System.result_kill`: a runner that is killed before it is finished gets the code of the signal.
-/

namespace Runnel.System

/-! ## Telling listeners -/

theorem told_cons (s : System) (r r' : RunnerId) (e : Event) (t : Topic) :
    told { s with journal := (r, e) :: s.journal } r' t
      = s.told r' t + if r = r' ∧ e.topic = t then 1 else 0 := by
  simp [told, List.countP_cons]

theorem journal_cons {s : System} (hi : s.Inv) {r : RunnerId} (hr : r < s.runners.size) (e : Event) :
    ∀ e' ∈ (r, e) :: s.journal, e'.1 < s.runners.size := by
  intro e' he'
  rcases List.mem_cons.mp he' with rfl | he'
  · exact hr
  · exact hi.journal e' he'

theorem grows_journal (s : System) (journal : List (RunnerId × Event)) :
    Grows s { s with journal } :=
  .of_same rfl (Nat.le_refl _) fun _ _ hc => hc

theorem safe_journal {s : System} {r : RunnerId} {e : Event} (hr : r < s.runners.size)
    (he : e.topic.isEnd = false) : Safe s { s with journal := (r, e) :: s.journal } := by
  intro hi
  have hg := grows_journal s ((r, e) :: s.journal)
  have htold : ∀ r' t, t.isEnd = true →
      told { s with journal := (r, e) :: s.journal } r' t = s.told r' t := by
    intro r' t ht
    have hne : ¬ (r = r' ∧ e.topic = t) := by
      rintro ⟨-, rfl⟩
      rw [he] at ht
      cases ht
    rw [told_cons, if_neg hne]
    rfl
  refine ⟨⟨hi.runners, ?_, journal_cons hi hr e, fun t ht => (hi.tasks t ht).grows hg⟩, hg, rfl,
    ?_⟩
  · intro r' hr' hnot t ht
    rw [htold r' t ht]
    exact hi.untold r' hr' hnot t ht
  · intro r' _
    exact .of_same rfl (htold r')

/-- An event that is not about the end of a run may be told at any time. -/
theorem safe_tell {react : Signal → System → System} (h : ∀ signal s, Safe s (react signal s))
    {r : RunnerId} {listeners : List Listener} {s : System} {e : Event} (hr : r < s.runners.size)
    (he : e.topic.isEnd = false) : Safe s (tell react r listeners s e) := by
  refine safe_foldl (P := fun s => r < s.runners.size)
    (fun _ _ hr hev => Nat.lt_of_lt_of_le hr hev.size) (fun s l hr => ?_) hr _
  refine (safe_journal hr he).trans ?_
  cases l.reaction with
  | none => exact .refl _
  | some signal => exact h signal _

/-! ## Telling of the end

Between the moment in which a result is recorded and the one in which all listeners have heard of it,
the events are not yet what `Accounted` wants. `Telling` says how far they are; only recording and
telling together are safe. -/

/-- The listeners of `r` are told of each topic so many times; all else evolves. -/
structure Telling (r : RunnerId) (n : Topic → Nat) (s s' : System) : Prop extends Grows s s' where
  added : s'.runners.size = s.runners.size
  others : ∀ r' < s.runners.size, r' ≠ r → Accounted s s' r'
  told : ∀ t : Topic, t.isEnd = true → s'.told r t = s.told r t + n t

/-- The listeners of `r`, which is finished, are told of each topic so many times. -/
def Tells (r : RunnerId) (n : Topic → Nat) (s s' : System) : Prop :=
  s.Inv → r < s.runners.size → (s.runner r).phase = .finished → s'.Inv ∧ Telling r n s s'

theorem Safe.tells {s s' : System} (h : Safe s s') (r : RunnerId) : Tells r (fun _ => 0) s s' := by
  intro hi hr hf
  obtain ⟨hi', he⟩ := h hi
  exact ⟨hi', he.toGrows, he.added, fun r' hr' _ => he.accounted r' hr', (he.accounted r hr).after hf⟩

theorem Tells.trans {r : RunnerId} {n n' : Topic → Nat} {s s' s'' : System} (h : Tells r n s s')
    (h' : Tells r n' s' s'') : Tells r (fun t => n t + n' t) s s'' := by
  intro hi hr hf
  obtain ⟨hi', ht⟩ := h hi hr hf
  obtain ⟨hi'', ht'⟩ := h' hi' (Nat.lt_of_lt_of_le hr ht.size) ((ht.kept r hr).finished hf)
  refine ⟨hi'', ht.toGrows.trans ht'.toGrows, ht'.added.trans ht.added, fun r' hr' hne => ?_,
    fun t he => ?_⟩
  · have hr'' := Nat.lt_of_lt_of_le hr' ht.size
    exact .trans (ht.kept r' hr') (ht'.kept r' hr'') (ht.others r' hr' hne) (ht'.others r' hr'' hne)
  · rw [ht'.told t he, ht.told t he, Nat.add_assoc]

theorem Tells.congr {r : RunnerId} {n n' : Topic → Nat} {s s' : System} (h : Tells r n s s')
    (hn : ∀ t : Topic, t.isEnd = true → n t = n' t) : Tells r n' s s' := by
  intro hi hr hf
  obtain ⟨hi', ht⟩ := h hi hr hf
  exact ⟨hi', ht.toGrows, ht.added, ht.others, fun t he => by rw [ht.told t he, hn t he]⟩

theorem tells_journal (s : System) (r : RunnerId) (e : Event) :
    Tells r (fun t => if e.topic = t then 1 else 0) s { s with journal := (r, e) :: s.journal } := by
  intro hi hr hf
  have hg := grows_journal s ((r, e) :: s.journal)
  have hother : ∀ r', r' ≠ r → ∀ t,
      told { s with journal := (r, e) :: s.journal } r' t = s.told r' t := by
    intro r' hne t
    rw [told_cons, if_neg fun hand => hne hand.1.symm]
    rfl
  refine ⟨⟨hi.runners, ?_, journal_cons hi hr e, fun t ht => (hi.tasks t ht).grows hg⟩, hg, rfl,
    ?_, ?_⟩
  · intro r' hr' hnot t ht
    have hne : r' ≠ r := by
      rintro rfl
      exact hnot hf
    rw [hother r' hne]
    exact hi.untold r' hr' hnot t ht
  · intro r' _ hne
    exact .of_same rfl fun t _ => hother r' hne t
  · intro t _
    rw [told_cons]
    simp

theorem tells_foldl {α : Type} {r : RunnerId} (topic : Topic) {step : System → α → System}
    (h : ∀ s a, Tells r (fun t => if topic = t then 1 else 0) s (step s a)) (list : List α)
    (s : System) :
    Tells r (fun t => if topic = t then list.length else 0) s (list.foldl step s) := by
  induction list generalizing s with
  | nil => exact ((Safe.refl s).tells r).congr fun t _ => by simp
  | cons a list ih =>
    refine ((h s a).trans (ih _)).congr fun t _ => ?_
    by_cases ht : topic = t
    · simp [ht, Nat.add_comm]
    · simp [ht]

/-- Each listener of a topic is told once of an event of this topic. -/
theorem tells_tell {react : Signal → System → System} (h : ∀ signal s, Safe s (react signal s))
    (r : RunnerId) (listeners : List Listener) (s : System) (e : Event) :
    Tells r (fun t => if e.topic = t then Listener.count listeners t else 0) s
      (tell react r listeners s e) := by
  refine (tells_foldl e.topic (fun s l => ?_) (Listener.hearing listeners e) s).congr fun t _ => ?_
  · have hjournal := tells_journal s r e
    cases l.reaction with
    | none => exact hjournal
    | some signal => exact (hjournal.trans ((h signal _).tells r)).congr fun _ _ => Nat.add_zero _
  · by_cases ht : e.topic = t
    · subst ht
      simp [Listener.count, Listener.hearing, List.countP_eq_length_filter]
    · simp [ht]

/-- At the end each listener is told of its topic once. -/
theorem tells_ofResult {react : Signal → System → System} (h : ∀ signal s, Safe s (react signal s))
    (r : RunnerId) (listeners : List Listener) (s : System) (result : RunResult) :
    Tells r (Listener.count listeners) s
      ((Event.ofResult result).foldl (tell react r listeners) s) := by
  refine (((tells_tell h r listeners s (.result result)).trans
    (tells_tell h r listeners _ (.exit result.code))).trans
    (tells_tell h r listeners _ (.close result.code))).congr fun t ht => ?_
  cases t with
  | result | exit | close => simp [Event.topic]
  | data | stdout | stderr | error => cases ht

/-! ## Recording a result -/

/-- The state of a runner from its end on. -/
def ended (code : Int) (x : Runner) : Runner :=
  { x with
    phase := .finished
    result := some (RunResult.ofChunks code x.chunks.toList)
    subscribers := []
    stdin := none
    registered := false
    listeners := [] }

theorem sound_ended {writers : Nat} {r : RunnerId} {x : Runner} (h : x.Sound writers r) (code : Int) :
    (ended code x).Sound writers r where
  result_iff := ⟨fun _ => rfl, fun _ => rfl⟩
  recorded := by
    rintro _ ⟨⟩
    rfl
  cleared := fun _ => ⟨rfl, rfl, rfl⟩
  untouched := fun hp => by cases hp
  uncaptured := h.uncaptured
  stages := h.stages
  writer := fun w hw => by cases hw

/-- What is let go of at the end of a run. -/
def letGo (s : System) (r : RunnerId) : System :=
  let runner := s.runner r
  let s := s.dropSubscribers runner.subscribers
  let s := match runner.stdin with
    | some writer => s.closeWriter writer
    | none => s
  if runner.registered then s.unregister r else s

theorem frame_letGo (s : System) (r : RunnerId) : Frame s (s.letGo r) := by
  have hdrop := frame_dropSubscribers s (s.runner r).subscribers
  have hclose : Frame s (match (s.runner r).stdin with
      | some writer => (s.dropSubscribers (s.runner r).subscribers).closeWriter writer
      | none => s.dropSubscribers (s.runner r).subscribers) := by
    cases (s.runner r).stdin with
    | none => exact hdrop
    | some writer => exact hdrop.trans (frame_closeWriter _ writer)
  unfold letGo
  simp only
  split
  · exact hclose.trans (frame_unregister _ r)
  · exact hclose

theorem closed_letGo {s : System} {r : RunnerId} {w : WriterId} (h : (s.runner r).stdin = some w) :
    ((s.letGo r).writer w).isOpen = false := by
  unfold letGo
  simp only [h]
  split
  · show ((System.closeWriter _ w).writer w).isOpen = false
    rw [writer_closeWriter]
    simp
  · rw [writer_closeWriter]
    simp

/-- Records a result, before anybody is told of it. -/
def record (s : System) (r : RunnerId) (code : Int) : System :=
  (s.letGo r).updateRunner r (ended code)

theorem told_record (s : System) (r : RunnerId) (code : Int) (r' : RunnerId) (t : Topic) :
    (s.record r code).told r' t = s.told r' t :=
  (frame_letGo s r).told r' t

theorem size_record (s : System) (r : RunnerId) (code : Int) :
    (s.record r code).runners.size = s.runners.size := by
  rw [record, size_updateRunner, (frame_letGo s r).runners]

theorem runner_record_self {s : System} {r : RunnerId} (hr : r < s.runners.size) (code : Int) :
    (s.record r code).runner r = ended code (s.runner r) := by
  have hf := frame_letGo s r
  rw [record, runner_updateRunner_self (hf.runners ▸ hr), hf.runner]

theorem runner_record_of_ne (s : System) {r r' : RunnerId} (h : r' ≠ r) (code : Int) :
    (s.record r code).runner r' = s.runner r' := by
  rw [record, runner_updateRunner_of_ne _ h, (frame_letGo s r).runner]

theorem inv_record {s : System} {r : RunnerId} (hi : s.Inv) (hr : r < s.runners.size)
    (hnot : (s.runner r).phase ≠ .finished) (code : Int) :
    (s.record r code).Inv ∧ Grows s (s.record r code) := by
  have hf := frame_letGo s r
  obtain ⟨hi', he⟩ := hf.safe hi
  have hr' : r < (s.letGo r).runners.size := hf.runners ▸ hr
  have hx := hf.runner r
  have hsound : ((s.letGo r).runner r).Sound (s.letGo r).writers.size r := hi'.runners r hr'
  have honward : Onward (s.letGo r) ((s.letGo r).runner r) (ended code ((s.letGo r).runner r)) := by
    refine ⟨rfl, ?_, fun hfin => ?_, fun w hw => .inr ⟨(hsound.writer w hw).1, ?_⟩⟩
    · show _ ≤ Phase.rank .finished
      cases ((s.letGo r).runner r).phase <;> decide
    · rw [hx] at hfin
      exact absurd hfin hnot
    · rw [hx] at hw
      exact closed_letGo hw
  obtain ⟨hi'', hg⟩ := inv_updateRunner (ended code) hi' hr' (sound_ended hsound code) honward
  exact ⟨hi'', he.toGrows.trans hg⟩

theorem finishWith_eq (react : Signal → System → System) {r : RunnerId} (code : Int) {s : System}
    (hresult : (s.runner r).result = none) :
    finishWith react r code s =
      (Event.ofResult (RunResult.ofChunks code (s.runner r).chunks.toList)).foldl
        (tell react r (s.runner r).listeners) (s.record r code) := by
  have hrecord : s.record r code = (s.letGo r).updateRunner r fun x =>
      { x with
        phase := .finished
        result := some (RunResult.ofChunks code (s.runner r).chunks.toList)
        subscribers := []
        stdin := none
        registered := false
        listeners := [] } := by
    refine updateRunner_congr ?_
    rw [(frame_letGo s r).runner]
    rfl
  rw [hrecord]
  simp only [finishWith, hresult]
  rfl

/-- A run that has ended does not end again. -/
theorem finishWith_of_some (react : Signal → System → System) {r : RunnerId} (code : Int)
    {s : System} {result : RunResult} (hresult : (s.runner r).result = some result) :
    finishWith react r code s = s := by
  simp [finishWith, hresult]

/-- A runner that does not exist does not end. -/
theorem finishWith_of_le (react : Signal → System → System) {r : RunnerId} {s : System}
    (hle : s.runners.size ≤ r) (code : Int) : finishWith react r code s = s := by
  have hresult : (s.runner r).result = none := by
    rw [runner_of_le hle]
    rfl
  rw [finishWith_eq react code hresult, record, updateRunner_of_le]
  · simp [runner_of_le hle, letGo, noRunner, Runner.ofJob, tell, Event.ofResult,
      Listener.hearing, dropSubscribers]
  · rw [(frame_letGo s r).runners]
    exact hle

section Finish

variable {react : Signal → System → System} (h : ∀ signal s, Safe s (react signal s))

include h

/-- A run that has not ended does so, and its listeners are told. -/
theorem finishWith_spec {s : System} {r : RunnerId} (hi : s.Inv) (hr : r < s.runners.size)
    (hnot : (s.runner r).phase ≠ .finished) (code : Int) :
    ((finishWith react r code s).Inv ∧ Evolves s (finishWith react r code s)) ∧
      ((finishWith react r code s).runner r).result
        = some (RunResult.ofChunks code (s.runner r).chunks.toList) := by
  have hresult : (s.runner r).result = none := by
    cases hx : (s.runner r).result with
    | none => rfl
    | some result => exact absurd ((hi.runners r hr).result_iff.mp (by rw [hx]; rfl)) hnot
  rw [finishWith_eq react code hresult]
  obtain ⟨hi', hg⟩ := inv_record hi hr hnot code
  have hself := runner_record_self hr code
  have hfin : ((s.record r code).runner r).phase = .finished := by
    rw [hself]
    rfl
  have hr' := Nat.lt_of_lt_of_le hr hg.size
  obtain ⟨hi'', ht⟩ := tells_ofResult h r (s.runner r).listeners (s.record r code)
    (RunResult.ofChunks code (s.runner r).chunks.toList) hi' hr' hfin
  -- the runner itself is accounted for by what its listeners were told, the others step by step
  refine ⟨⟨hi'', hg.trans ht.toGrows, ht.added.trans (size_record s r code), fun r' hlt => ?_⟩, ?_⟩
  · have hlt' := Nat.lt_of_lt_of_le hlt hg.size
    by_cases heq : r' = r
    · subst heq
      refine ⟨fun hnot' => absurd ((ht.kept r' hlt').finished hfin) hnot', fun _ _ t he => ?_,
        fun hf => absurd hf hnot⟩
      rw [ht.told t he, told_record]
    · have hmid : Accounted s (s.record r code) r' :=
        .of_same (runner_record_of_ne s heq code) fun t _ => told_record s r code r' t
      exact hmid.trans (hg.kept r' hlt) (ht.kept r' hlt') (ht.others r' hlt' heq)
  · rw [((ht.kept r hr').record hfin).1, hself]
    rfl

/-- Recording a result is safe. -/
theorem safe_finishWith (s : System) (r : RunnerId) (code : Int) :
    Safe s (finishWith react r code s) := by
  intro hi
  cases hx : (s.runner r).result with
  | some result =>
    rw [finishWith_of_some react code hx]
    exact Safe.refl s hi
  | none =>
    by_cases hr : r < s.runners.size
    · refine (finishWith_spec h hi hr (fun hf => ?_) code).1
      have hsome := (hi.runners r hr).result_iff.mpr hf
      rw [hx] at hsome
      cases hsome
    · rw [finishWith_of_le react (Nat.le_of_not_lt hr)]
      exact Safe.refl s hi

end Finish

/-! ## Kills -/

/-- A signal for all stages of a runner. -/
def reach (depth : Nat) (r : RunnerId) (signal : Signal) (s : System) : System :=
  (s.runner r).job.stages.foldl (fun s stage => killWithin depth signal stage s)
    (s.signalChildren r signal)

theorem killWithin_succ (depth : Nat) (signal : Signal) (r : RunnerId) (s : System) :
    killWithin (depth + 1) signal r s =
      let s := reach depth r signal s
      if (s.runner r).isFinished then s
      else finishWith (reach depth r) r signal.exitCode
        (s.updateMachine fun m => m.setToken (s.runner r).token) :=
  rfl

theorem safe_reach {depth : Nat}
    (h : ∀ signal stage s, Safe s (killWithin depth signal stage s)) (r : RunnerId)
    (signal : Signal) (s : System) : Safe s (reach depth r signal s) := by
  have hsignal : Safe s (s.signalChildren r signal) := safe_updateMachine s _
  exact hsignal.trans (safe_foldl (P := fun _ => True) (fun _ _ _ _ => trivial)
    (fun s stage _ => h signal stage s) trivial _)

/-- Killing a runner is safe. -/
theorem safe_killWithin (depth : Nat) (signal : Signal) (r : RunnerId) (s : System) :
    Safe s (killWithin depth signal r s) := by
  induction depth generalizing signal r s with
  | zero => exact .refl s
  | succ depth ih =>
    have hreach := safe_reach ih r
    rw [killWithin_succ]
    refine (hreach signal s).trans ?_
    simp only
    split
    · exact .refl _
    · exact (safe_updateMachine _ _).trans (safe_finishWith hreach _ r _)

theorem safe_kill (s : System) (signal : Signal) (r : RunnerId) : Safe s (s.kill signal r) :=
  safe_killWithin (r + 1) signal r s

theorem safe_finish (s : System) (r : RunnerId) (code : Int) : Safe s (s.finish r code) :=
  safe_finishWith (fun signal s => safe_kill s signal r) s r code

theorem safe_emitAll (s : System) (r : RunnerId) {events : List Event}
    (h : ∀ e ∈ events, e.topic.isEnd = false) : Safe s (s.emitAll r events) := by
  by_cases hr : r < s.runners.size
  · unfold emitAll
    generalize (s.runner r).listeners = listeners
    induction events generalizing s with
    | nil => exact .refl s
    | cons e events ih =>
      have htell : Safe s (tell (fun signal s => s.kill signal r) r listeners s e) :=
        safe_tell (fun signal s => safe_kill s signal r) hr (h e List.mem_cons_self)
      intro hi
      obtain ⟨-, he⟩ := htell hi
      exact (htell.trans (ih _ (fun e he => h e (List.mem_cons_of_mem _ he))
        (Nat.lt_of_lt_of_le hr he.size))) hi
  · have hsame : s.emitAll r events = s := by
      unfold emitAll
      rw [runner_of_le (Nat.le_of_not_lt hr)]
      clear h
      induction events with
      | nil => rfl
      | cons e events ih => exact ih
    rw [hsame]
    exact .refl s

theorem safe_emit (s : System) (r : RunnerId) {e : Event} (h : e.topic.isEnd = false) :
    Safe s (s.emit r e) := by
  have hall : ∀ e' ∈ [e], e'.topic.isEnd = false := by
    intro e' he'
    rw [List.mem_singleton.mp he']
    exact h
  exact safe_emitAll s r hall

/-- A run that has not ended may end with any code. -/
theorem result_finish {s : System} (hi : s.Inv) {r : RunnerId} (hr : r < s.runners.size)
    (hnot : (s.runner r).phase ≠ .finished) (code : Int) :
    ((s.finish r code).runner r).result
      = some (RunResult.ofChunks code (s.runner r).chunks.toList) :=
  (finishWith_spec (fun signal s => safe_kill s signal r) hi hr hnot code).2

/-! ## What a kill reaches

A kill ends the stages of a runner first. If that could end the runner itself, it would get a code
that is not the one of the signal. It cannot, since stages have lower numbers. -/

/-- All jobs are what they were, and so are the runners from `r` on. -/
structure Spares (r : RunnerId) (s s' : System) : Prop where
  jobs : ∀ r', (s'.runner r').job = (s.runner r').job
  beyond : ∀ r', r ≤ r' → s'.runner r' = s.runner r'

/-- What a runner runs is older than the runner. -/
def Ordered (s : System) : Prop :=
  ∀ r, ∀ stage ∈ (s.runner r).job.stages, stage < r

theorem Inv.ordered {s : System} (hi : s.Inv) : s.Ordered := by
  intro r
  by_cases hr : r < s.runners.size
  · exact (hi.runners r hr).stages
  · rw [runner_of_le (Nat.le_of_not_lt hr)]
    intro stage hs
    cases hs

namespace Spares

variable {r : RunnerId} {s s' s'' : System}

theorem of_runners (h : s'.runners = s.runners) : Spares r s s' :=
  ⟨fun r' => by rw [runner_congr h], fun r' _ => runner_congr h r'⟩

theorem refl (r : RunnerId) (s : System) : Spares r s s :=
  of_runners rfl

theorem trans (h : Spares r s s') (h' : Spares r s' s'') : Spares r s s'' :=
  ⟨fun r' => (h'.jobs r').trans (h.jobs r'),
    fun r' hle => (h'.beyond r' hle).trans (h.beyond r' hle)⟩

theorem mono {r' : RunnerId} (h : Spares r s s') (hle : r ≤ r') : Spares r' s s' :=
  ⟨h.jobs, fun r'' hle' => h.beyond r'' (Nat.le_trans hle hle')⟩

theorem ordered (h : Spares r s s') (ho : s.Ordered) : s'.Ordered := by
  intro r' stage hs
  rw [h.jobs] at hs
  exact ho r' stage hs

theorem foldl {α : Type} {step : System → α → System} {list : List α}
    (h : ∀ a ∈ list, ∀ s, s.Ordered → Spares r s (step s a)) (ho : s.Ordered) :
    Spares r s (list.foldl step s) := by
  induction list generalizing s with
  | nil => exact refl r s
  | cons a list ih =>
    have ha := h a List.mem_cons_self s ho
    exact ha.trans (ih (fun b hb => h b (List.mem_cons_of_mem a hb)) (ha.ordered ho))

end Spares

section Spares

variable {react : Signal → System → System} {r : RunnerId}
  (h : ∀ signal s, s.Ordered → Spares (r + 1) s (react signal s))

include h

theorem spares_tell (listeners : List Listener) {s : System} (ho : s.Ordered) (e : Event) :
    Spares (r + 1) s (tell react r listeners s e) := by
  refine Spares.foldl (fun l _ s ho => ?_) ho
  have hjournal : Spares (r + 1) s { s with journal := (r, e) :: s.journal } := .of_runners rfl
  refine hjournal.trans ?_
  cases l.reaction with
  | none => exact .refl _ _
  | some signal => exact h signal _ (hjournal.ordered ho)

theorem spares_finishWith {s : System} (ho : s.Ordered) (code : Int) :
    Spares (r + 1) s (finishWith react r code s) := by
  cases hx : (s.runner r).result with
  | some result =>
    rw [finishWith_of_some react code hx]
    exact .refl _ s
  | none =>
    have hrecord : Spares (r + 1) s (s.record r code) := by
      refine ⟨fun r' => ?_, fun r' hlt => runner_record_of_ne s (Nat.ne_of_gt hlt) code⟩
      by_cases heq : r' = r
      · subst heq
        by_cases hr : r' < s.runners.size
        · rw [runner_record_self hr]
          rfl
        · have hf := frame_letGo s r'
          rw [record, updateRunner_of_le (hf.runners ▸ Nat.le_of_not_lt hr), hf.runner]
      · rw [runner_record_of_ne s heq]
    rw [finishWith_eq react code hx]
    exact hrecord.trans (.foldl (fun e _ s ho => spares_tell h _ ho e) (hrecord.ordered ho))

end Spares

/-- The stages of a runner are older than it. -/
theorem spares_reach {depth : Nat}
    (h : ∀ signal stage s, s.Ordered → Spares (stage + 1) s (killWithin depth signal stage s))
    (r : RunnerId) (signal : Signal) {s : System} (ho : s.Ordered) :
    Spares r s (reach depth r signal s) := by
  have hsignal : Spares r s (s.signalChildren r signal) := .of_runners rfl
  refine hsignal.trans (.foldl (fun stage hs s' ho' => ?_) (hsignal.ordered ho))
  exact (h signal stage s' ho').mono (ho r stage hs)

theorem spares_killWithin (depth : Nat) (signal : Signal) (r : RunnerId) {s : System}
    (ho : s.Ordered) : Spares (r + 1) s (killWithin depth signal r s) := by
  induction depth generalizing signal r s with
  | zero => exact .refl _ s
  | succ depth ih =>
    have hreach : ∀ signal s, s.Ordered → Spares (r + 1) s (reach depth r signal s) :=
      fun signal s ho =>
        (spares_reach (fun signal stage s ho => ih signal stage ho) r signal ho).mono (Nat.le_succ r)
    have hmiddle := (hreach signal s ho).ordered ho
    rw [killWithin_succ]
    refine (hreach signal s ho).trans ?_
    simp only
    split
    · exact .refl _ _
    · have htoken : Spares (r + 1) (reach depth r signal s)
          ((reach depth r signal s).updateMachine fun m =>
            m.setToken ((reach depth r signal s).runner r).token) := .of_runners rfl
      exact htoken.trans (spares_finishWith hreach (htoken.ordered hmiddle) signal.exitCode)

/-- A runner that is killed before it has ended gets the code of the signal, with what was captured
so far. -/
theorem result_kill {s : System} (hi : s.Inv) {r : RunnerId} (hr : r < s.runners.size)
    (hnot : (s.runner r).phase ≠ .finished) (signal : Signal) :
    ((s.kill signal r).runner r).result
      = some (RunResult.ofChunks signal.exitCode (s.runner r).chunks.toList) := by
  have hreach := safe_reach (fun signal stage s => safe_killWithin r signal stage s) r
  obtain ⟨hi', he⟩ := hreach signal s hi
  have hsame : (reach r r signal s).runner r = s.runner r :=
    (spares_reach (fun signal stage s ho => spares_killWithin r signal stage ho) r signal
      hi.ordered).beyond r (Nat.le_refl r)
  have hnot' : ((reach r r signal s).runner r).phase ≠ .finished := by
    rw [hsame]
    exact hnot
  have hopen : ((reach r r signal s).runner r).isFinished = false :=
    Bool.eq_false_iff.mpr fun hf => hnot' (Runner.isFinished_iff.mp hf)
  have htoken := safe_updateMachine (reach r r signal s) fun m =>
    m.setToken ((reach r r signal s).runner r).token
  rw [kill, killWithin_succ]
  simp only [hopen, Bool.false_eq_true, if_false]
  rw [(finishWith_spec hreach (htoken hi').1 (Nat.lt_of_lt_of_le hr he.size) hnot' _).2]
  show some (RunResult.ofChunks _ ((reach r r signal s).runner r).chunks.toList) = _
  rw [hsame]

end Runnel.System
