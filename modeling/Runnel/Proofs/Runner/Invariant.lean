import Runnel.Runner.Finish

/-!
# Runnel.Proofs.Runner.Invariant

What is true of all runners at all times, and what no change of a system ever takes back.

* `System.Inv`: the invariant.
* `System.Evolves`: phases only move on, results stay, and listeners are told of the end of a run
  when it ends and at no other time.
* `System.Safe`: a change that keeps the invariant and with which the system evolves. Safe changes
  can be made one after the other (`System.Safe.trans`).
-/

namespace Runnel

/-- The order of the phases. -/
def Phase.rank : Phase → Nat
  | .pending => 0
  | .running => 1
  | .finished => 2

theorem Phase.finished_of_rank {p q : Phase} (h : p.rank ≤ q.rank) (hp : p = .finished) :
    q = .finished := by
  subst hp
  cases q with
  | finished => rfl
  | pending | running => cases Nat.not_succ_le_self _ (Nat.le_trans (by decide) h)

theorem Phase.begun_of_rank {p q : Phase} (h : p.rank ≤ q.rank) (hp : p ≠ .pending) :
    q ≠ .pending := by
  rintro rfl
  cases p with
  | pending => exact hp rfl
  | running | finished => cases h

theorem Runner.isFinished_iff {x : Runner} : x.isFinished = true ↔ x.phase = .finished := by
  rw [Runner.isFinished, beq_iff_eq]

/-- The topic is about the end of a run. -/
def Topic.isEnd : Topic → Bool
  | .result | .exit | .close => true
  | _ => false

/-- What is true of the runner of a number, when there are so many writers. -/
structure Runner.Sound (writers : Nat) (r : RunnerId) (x : Runner) : Prop where
  /-- There is a result when the runner is finished, and only then. -/
  result_iff : x.result.isSome = true ↔ x.phase = .finished
  /-- The result holds what was captured. -/
  recorded : ∀ result, x.result = some result →
    result = RunResult.ofChunks result.code x.chunks.toList
  /-- A runner that is finished has let go of everybody. -/
  cleared : x.phase = .finished → x.listeners = [] ∧ x.subscribers = [] ∧ x.stdin = none
  /-- Nothing is captured before the runner begins. -/
  untouched : x.phase = .pending → x.chunks = #[] ∧ x.stdin = none
  /-- Nothing is captured if nothing is to be captured. -/
  uncaptured : x.options.capture = false → x.chunks = #[]
  /-- What the runner runs is older than the runner. -/
  stages : ∀ stage ∈ x.job.stages, stage < r
  /-- If it has a writer, this exists, and the runner runs a command line. -/
  writer : ∀ w, x.stdin = some w → w < writers ∧ ∃ text, x.job = .line text

theorem Runner.Sound.mono {writers writers' : Nat} {r : RunnerId} {x : Runner}
    (h : x.Sound writers r) (hw : writers ≤ writers') : x.Sound writers' r :=
  { h with writer := fun w hs => ⟨Nat.lt_of_lt_of_le (h.writer w hs).1 hw, (h.writer w hs).2⟩ }

namespace System

/-- How often listeners of a runner were told of a topic. -/
def told (s : System) (r : RunnerId) (t : Topic) : Nat :=
  s.journal.countP fun e => e.1 == r && e.2.topic == t

/-- The runner exists and has begun. -/
structure Begun (s : System) (r : RunnerId) : Prop where
  lt : r < s.runners.size
  phase : (s.runner r).phase ≠ .pending

/-- The runner that a routine runs has begun. -/
def RoutineBegun (s : System) : Routine → Prop
  | .beginLine r _ | .runLine r _ | .beginPipe r | .runPipe r _ => s.Begun r
  | _ => True

/-- What is true of a system at all times. -/
structure Inv (s : System) : Prop where
  /-- All runners are sound. -/
  runners : ∀ r < s.runners.size, (s.runner r).Sound s.writers.size r
  /-- Nobody was told of the end of a run that has not ended. -/
  untold : ∀ r < s.runners.size, (s.runner r).phase ≠ .finished →
    ∀ t : Topic, t.isEnd = true → s.told r t = 0
  /-- All events are about runners that exist. -/
  journal : ∀ e ∈ s.journal, e.1 < s.runners.size
  /-- Only runners that have begun are run. -/
  tasks : ∀ t ∈ s.tasks, s.RoutineBegun t.routine

/-! ## Evolution -/

/-- What a change never takes back from a runner. -/
structure Kept (s s' : System) (r : RunnerId) : Prop where
  /-- It runs what it ran. -/
  job : (s'.runner r).job = (s.runner r).job
  /-- Its phase moves on. -/
  phase : (s.runner r).phase.rank ≤ (s'.runner r).phase.rank
  /-- Once it is finished, its result stays, and nothing more is captured. -/
  record : (s.runner r).phase = .finished →
    (s'.runner r).result = (s.runner r).result ∧ (s'.runner r).chunks = (s.runner r).chunks
  /-- It lets go of its writer only by closing it. -/
  stdin : ∀ w, (s.runner r).stdin = some w →
    (s'.runner r).stdin = some w ∨ w < s'.writers.size ∧ (s'.writer w).isOpen = false

/-- What a change never takes back. -/
structure Grows (s s' : System) : Prop where
  /-- No runner vanishes. -/
  size : s.runners.size ≤ s'.runners.size
  /-- No writer vanishes. -/
  writers : s.writers.size ≤ s'.writers.size
  /-- No writer opens again. -/
  closed : ∀ w < s.writers.size, (s.writer w).isOpen = false → (s'.writer w).isOpen = false
  /-- All runners are kept. -/
  kept : ∀ r < s.runners.size, Kept s s' r

/-- The listeners of a runner are told of its end when it ends, each of them once, and at no other
time. -/
structure Accounted (s s' : System) (r : RunnerId) : Prop where
  /-- Before the end, those who listen go on to do so. -/
  before : (s'.runner r).phase ≠ .finished → (s'.runner r).listeners = (s.runner r).listeners ∧
    ∀ t : Topic, t.isEnd = true → s'.told r t = s.told r t
  /-- At the end, those who listen are told. -/
  ending : (s.runner r).phase ≠ .finished → (s'.runner r).phase = .finished →
    ∀ t : Topic, t.isEnd = true →
      s'.told r t = s.told r t + Listener.count (s.runner r).listeners t
  /-- After the end, nobody is told any more. -/
  after : (s.runner r).phase = .finished →
    ∀ t : Topic, t.isEnd = true → s'.told r t = s.told r t

/-- The system evolves. -/
structure Evolves (s s' : System) : Prop extends Grows s s' where
  /-- No runner is added. -/
  added : s'.runners.size = s.runners.size
  /-- All listeners are told when they should. -/
  accounted : ∀ r < s.runners.size, Accounted s s' r

/-- Any change, also one that adds runners or listeners. -/
structure Advances (s s' : System) : Prop extends Grows s s' where
  /-- What is new has not begun. -/
  born : ∀ r < s'.runners.size, s.runners.size ≤ r → (s'.runner r).phase = .pending
  /-- At the end of a run, those who listen are told. -/
  ending : ∀ r < s.runners.size, (s.runner r).phase ≠ .finished →
    (s'.runner r).phase = .finished → ∀ t : Topic, t.isEnd = true →
      s'.told r t = s.told r t + Listener.count (s.runner r).listeners t
  /-- After the end, nobody is told any more. -/
  after : ∀ r < s.runners.size, (s.runner r).phase = .finished →
    ∀ t : Topic, t.isEnd = true → s'.told r t = s.told r t

/-- The change keeps the invariant, and with it the system evolves. -/
def Safe (s s' : System) : Prop :=
  s.Inv → s'.Inv ∧ Evolves s s'

theorem Kept.of_same {s s' : System} {r : RunnerId} (h : s'.runner r = s.runner r) :
    Kept s s' r := by
  refine ⟨by rw [h], Nat.le_of_eq (by rw [h]), fun _ => ?_, fun w hw => .inl ?_⟩
  · rw [h]
    exact ⟨rfl, rfl⟩
  · rw [h]
    exact hw

/-- The listeners of a runner that stays as it is are not told of its end. -/
theorem Accounted.of_same {s s' : System} {r : RunnerId} (h : s'.runner r = s.runner r)
    (ht : ∀ t : Topic, t.isEnd = true → s'.told r t = s.told r t) : Accounted s s' r := by
  refine ⟨fun _ => ⟨by rw [h], ht⟩, fun hnot hf => ?_, fun _ => ht⟩
  rw [h] at hf
  exact absurd hf hnot

theorem runner_congr {s s' : System} (h : s'.runners = s.runners) (r : RunnerId) :
    s'.runner r = s.runner r := by
  rw [runner, runner, h]

theorem Grows.of_same {s s' : System} (hr : s'.runners = s.runners)
    (hw : s.writers.size ≤ s'.writers.size)
    (hc : ∀ w < s.writers.size, (s.writer w).isOpen = false → (s'.writer w).isOpen = false) :
    Grows s s' :=
  ⟨Nat.le_of_eq (by rw [hr]), hw, hc, fun r _ => .of_same (runner_congr hr r)⟩

theorem Grows.refl (s : System) : Grows s s :=
  .of_same rfl (Nat.le_refl _) fun _ _ hc => hc

theorem Safe.refl (s : System) : Safe s s :=
  fun h => ⟨h, .refl s, rfl, fun _ _ => .of_same rfl fun _ _ => rfl⟩

theorem Kept.finished {s s' : System} {r : RunnerId} (h : Kept s s' r)
    (hf : (s.runner r).phase = .finished) : (s'.runner r).phase = .finished :=
  Phase.finished_of_rank h.phase hf

theorem Grows.trans {s s' s'' : System} (h : Grows s s') (h' : Grows s' s'') : Grows s s'' := by
  refine ⟨Nat.le_trans h.size h'.size, Nat.le_trans h.writers h'.writers, ?_, ?_⟩
  · intro w hw hc
    exact h'.closed w (Nat.lt_of_lt_of_le hw h.writers) (h.closed w hw hc)
  · intro r hr
    have k := h.kept r hr
    have k' := h'.kept r (Nat.lt_of_lt_of_le hr h.size)
    refine ⟨k'.job.trans k.job, Nat.le_trans k.phase k'.phase, ?_, ?_⟩
    · intro hf
      obtain ⟨hresult, hchunks⟩ := k.record hf
      obtain ⟨hresult', hchunks'⟩ := k'.record (k.finished hf)
      exact ⟨hresult'.trans hresult, hchunks'.trans hchunks⟩
    · intro w hw
      rcases k.stdin w hw with hsame | ⟨hlt, hc⟩
      · exact k'.stdin w hsame
      · exact .inr ⟨Nat.lt_of_lt_of_le hlt h'.writers, h'.closed w hlt hc⟩

theorem Accounted.trans {s s' s'' : System} {r : RunnerId} (k : Kept s s' r) (k' : Kept s' s'' r)
    (h : Accounted s s' r) (h' : Accounted s' s'' r) : Accounted s s'' r := by
  refine ⟨?_, ?_, ?_⟩
  · intro hnot
    obtain ⟨hl', ht'⟩ := h'.before hnot
    obtain ⟨hl, ht⟩ := h.before fun hf => hnot (k'.finished hf)
    exact ⟨hl'.trans hl, fun t he => (ht' t he).trans (ht t he)⟩
  · intro hnot hf t he
    by_cases hmid : (s'.runner r).phase = .finished
    · rw [h'.after hmid t he, h.ending hnot hmid t he]
    · obtain ⟨hl, ht⟩ := h.before hmid
      rw [h'.ending hmid hf t he, ht t he, hl]
  · intro hf t he
    rw [h'.after (k.finished hf) t he, h.after hf t he]

theorem Evolves.advances {s s' : System} (h : Evolves s s') : Advances s s' where
  toGrows := h.toGrows
  born := fun _ hlt hle => absurd (h.added ▸ hlt) (Nat.not_lt_of_le hle)
  ending := fun r hr => (h.accounted r hr).ending
  after := fun r hr => (h.accounted r hr).after

theorem Evolves.trans_advances {s s' s'' : System} (h : Evolves s s') (h' : Advances s' s'') :
    Advances s s'' where
  toGrows := h.toGrows.trans h'.toGrows
  born := fun r hlt hle => h'.born r hlt (h.added ▸ hle)
  ending := by
    intro r hr hnot hf t he
    have hr' := Nat.lt_of_lt_of_le hr h.size
    by_cases hmid : (s'.runner r).phase = .finished
    · rw [h'.after r hr' hmid t he, (h.accounted r hr).ending hnot hmid t he]
    · obtain ⟨hl, ht⟩ := (h.accounted r hr).before hmid
      rw [h'.ending r hr' hmid hf t he, ht t he, hl]
  after := by
    intro r hr hf t he
    rw [h'.after r (Nat.lt_of_lt_of_le hr h.size) ((h.kept r hr).finished hf) t he,
      (h.accounted r hr).after hf t he]

theorem Safe.trans {s s' s'' : System} (h : Safe s s') (h' : Safe s' s'') : Safe s s'' := by
  intro hi
  obtain ⟨hi', he⟩ := h hi
  obtain ⟨hi'', he'⟩ := h' hi'
  refine ⟨hi'', he.toGrows.trans he'.toGrows, he'.added.trans he.added, fun r hr => ?_⟩
  have hr' := Nat.lt_of_lt_of_le hr he.size
  exact .trans (he.kept r hr) (he'.kept r hr') (he.accounted r hr) (he'.accounted r hr')

theorem Begun.grows {s s' : System} {r : RunnerId} (h : s.Begun r) (hg : Grows s s') :
    s'.Begun r :=
  ⟨Nat.lt_of_lt_of_le h.lt hg.size, Phase.begun_of_rank (hg.kept r h.lt).phase h.phase⟩

theorem RoutineBegun.grows {s s' : System} {routine : Routine} (h : s.RoutineBegun routine)
    (hg : Grows s s') : s'.RoutineBegun routine := by
  cases routine with
  | beginLine r start | runLine r run | beginPipe r | runPipe r run => exact Begun.grows h hg
  | ended | work w io | watch r token | forward pieces channel ticket | await token => trivial

/-- Changes one after the other are safe if each of them is so as long as `P` holds. -/
theorem safe_foldl {α : Type} {P : System → Prop} {step : System → α → System}
    (hP : ∀ s s', P s → Evolves s s' → P s') (h : ∀ s a, P s → Safe s (step s a)) {s : System}
    (hs : P s) (list : List α) : Safe s (list.foldl step s) := by
  induction list generalizing s with
  | nil => exact .refl s
  | cons a list ih =>
    intro hi
    obtain ⟨hi', he⟩ := h s a hs hi
    exact ((h s a hs).trans (ih (hP _ _ hs he))) hi

/-! ## Changes that leave runners alone -/

/-- Runners, tasks and the journal are the same, and no writer vanishes or opens again. -/
structure Frame (s s' : System) : Prop where
  runners : s'.runners = s.runners
  tasks : s'.tasks = s.tasks
  journal : s'.journal = s.journal
  writers : s.writers.size ≤ s'.writers.size
  closed : ∀ w < s.writers.size, (s.writer w).isOpen = false → (s'.writer w).isOpen = false

namespace Frame

theorem of_eq {s s' : System} (hr : s'.runners = s.runners) (ht : s'.tasks = s.tasks)
    (hj : s'.journal = s.journal) (hw : s'.writers = s.writers) : Frame s s' := by
  refine ⟨hr, ht, hj, Nat.le_of_eq (by rw [hw]), fun w _ hc => ?_⟩
  rw [System.writer, hw]
  exact hc

theorem refl (s : System) : Frame s s :=
  .of_eq rfl rfl rfl rfl

theorem trans {s s' s'' : System} (h : Frame s s') (h' : Frame s' s'') : Frame s s'' :=
  ⟨h'.runners.trans h.runners, h'.tasks.trans h.tasks, h'.journal.trans h.journal,
    Nat.le_trans h.writers h'.writers,
    fun w hw hc => h'.closed w (Nat.lt_of_lt_of_le hw h.writers) (h.closed w hw hc)⟩

theorem foldl {α : Type} {step : System → α → System} (h : ∀ s a, Frame s (step s a)) (s : System)
    (list : List α) : Frame s (list.foldl step s) := by
  induction list generalizing s with
  | nil => exact .refl s
  | cons a list ih => exact (h s a).trans (ih _)

variable {s s' : System} (h : Frame s s')

include h

theorem runner (r : RunnerId) : s'.runner r = s.runner r :=
  runner_congr h.runners r

theorem told (r : RunnerId) (t : Topic) : s'.told r t = s.told r t := by
  rw [System.told, System.told, h.journal]

theorem grows : Grows s s' :=
  .of_same h.runners h.writers h.closed

theorem accounted (r : RunnerId) : Accounted s s' r :=
  .of_same (h.runner r) fun t _ => h.told r t

theorem safe : Safe s s' := by
  intro hi
  refine ⟨⟨?_, ?_, ?_, ?_⟩, h.grows, congrArg Array.size h.runners, fun r _ => h.accounted r⟩
  · intro r hr
    rw [h.runner]
    exact (hi.runners r (h.runners ▸ hr)).mono h.writers
  · intro r hr hnot t he
    rw [h.runner] at hnot
    rw [h.told]
    exact hi.untold r (h.runners ▸ hr) hnot t he
  · intro e he
    rw [h.runners]
    exact hi.journal e (h.journal ▸ he)
  · intro t ht
    exact (hi.tasks t (h.tasks ▸ ht)).grows h.grows

end Frame

theorem frame_updateMachine (s : System) (change : Machine → Machine) :
    Frame s (s.updateMachine change) :=
  .of_eq rfl rfl rfl rfl

theorem frame_updateChannel (s : System) (id : ChannelId) (change : Channel → Channel) :
    Frame s (s.updateChannel id change) :=
  frame_updateMachine s _

theorem frame_updateStream (s : System) (id : StreamId) (change : ChunkStream → ChunkStream) :
    Frame s (s.updateStream id change) :=
  .of_eq rfl rfl rfl rfl

theorem frame_dropSubscribers (s : System) (channels : List ChannelId) :
    Frame s (s.dropSubscribers channels) :=
  .foldl (fun s id => frame_updateChannel s id _) s channels

theorem frame_unregister (s : System) (r : RunnerId) : Frame s (s.unregister r) :=
  .of_eq rfl rfl rfl rfl

theorem writers_closeWriter (s : System) (id : WriterId) :
    (s.closeWriter id).writers
      = if (s.writer id).isOpen then
          s.writers.setIfInBounds id { s.writer id with isOpen := false }
        else s.writers := by
  unfold closeWriter
  simp only
  split
  · rfl
  · rfl

/-- A writer is closed, and no other. -/
theorem writer_closeWriter (s : System) (id w : WriterId) :
    ((s.closeWriter id).writer w).isOpen = ((s.writer w).isOpen && w != id) := by
  rw [writer, writers_closeWriter]
  cases ho : (s.writer id).isOpen with
  | false =>
    show (s.writer w).isOpen = _
    by_cases h : w = id
    · simp [h, ho]
    · simp [h]
  | true =>
    simp only [if_true, Array.getD_eq_getD_getElem?, Array.getElem?_setIfInBounds]
    by_cases h : id = w
    · subst h
      by_cases hid : id < s.writers.size
      · simp [hid]
      · simp [hid]
    · simp [h, Ne.symm h, writer]

theorem frame_closeWriter (s : System) (id : WriterId) : Frame s (s.closeWriter id) := by
  have hclosed : ∀ w < s.writers.size, (s.writer w).isOpen = false →
      ((s.closeWriter id).writer w).isOpen = false := by
    intro w _ hc
    rw [writer_closeWriter, hc]
    rfl
  unfold closeWriter at hclosed ⊢
  simp only at hclosed ⊢
  split
  · rename_i ho
    rw [if_pos ho] at hclosed
    refine ⟨rfl, rfl, rfl, Nat.le_of_eq ?_, hclosed⟩
    simp [updateChannel, updateMachine]
  · exact .refl s

theorem safe_updateMachine (s : System) (change : Machine → Machine) :
    Safe s (s.updateMachine change) :=
  (frame_updateMachine s change).safe

theorem safe_updateChannel (s : System) (id : ChannelId) (change : Channel → Channel) :
    Safe s (s.updateChannel id change) :=
  (frame_updateChannel s id change).safe

theorem safe_tasks {s : System} {tasks : Array Task} {ready : List TaskId}
    (h : s.Inv → ∀ t ∈ tasks, s.RoutineBegun t.routine) : Safe s { s with tasks, ready } := by
  intro hi
  have hg : Grows s { s with tasks, ready } := .of_same rfl (Nat.le_refl _) fun _ _ hc => hc
  exact ⟨⟨hi.runners, hi.untold, hi.journal, fun t ht => (h hi t ht).grows hg⟩, hg, rfl,
    fun _ _ => .of_same rfl fun _ _ => rfl⟩

theorem safe_spawn {s : System} {routine : Routine} (h : s.RoutineBegun routine) :
    Safe s (s.spawn routine).2 := by
  refine safe_tasks fun hi t ht => ?_
  rcases Array.mem_push.mp ht with ht | rfl
  · exact hi.tasks t ht
  · exact h

/-! ## Changes of one runner -/

theorem runner_updateRunner (s : System) (r r' : RunnerId) (change : Runner → Runner) :
    (s.updateRunner r change).runner r'
      = if r' = r ∧ r < s.runners.size then change (s.runner r) else s.runner r' := by
  simp only [updateRunner, runner, Array.getD_eq_getD_getElem?, Array.getElem?_modify]
  by_cases h : r' = r
  · subst h
    by_cases hr : r' < s.runners.size
    · simp [hr]
    · simp [hr]
  · simp [h, Ne.symm h]

theorem updateRunner_congr {s : System} {r : RunnerId} {f g : Runner → Runner}
    (h : f (s.runner r) = g (s.runner r)) : s.updateRunner r f = s.updateRunner r g := by
  have hmodify : s.runners.modify r f = s.runners.modify r g := by
    refine Array.ext_getElem? fun i => ?_
    rw [Array.getElem?_modify, Array.getElem?_modify]
    split
    · rename_i hri
      subst hri
      cases hx : s.runners[r]? with
      | none => rfl
      | some x =>
        have hsame : s.runner r = x := by
          rw [runner, Array.getD_eq_getD_getElem?, hx]
          rfl
        rw [hsame] at h
        simp [h]
    · rfl
  rw [updateRunner, updateRunner, hmodify]

theorem size_updateRunner (s : System) (r : RunnerId) (change : Runner → Runner) :
    (s.updateRunner r change).runners.size = s.runners.size := by
  simp [updateRunner]

theorem runner_updateRunner_self {s : System} {r : RunnerId} (hr : r < s.runners.size)
    (change : Runner → Runner) : (s.updateRunner r change).runner r = change (s.runner r) := by
  rw [runner_updateRunner, if_pos ⟨rfl, hr⟩]

theorem runner_updateRunner_of_ne (s : System) {r r' : RunnerId} (h : r' ≠ r)
    (change : Runner → Runner) : (s.updateRunner r change).runner r' = s.runner r' := by
  rw [runner_updateRunner, if_neg fun hand => h hand.1]

theorem updateRunner_of_le {s : System} {r : RunnerId} (h : s.runners.size ≤ r)
    (change : Runner → Runner) : s.updateRunner r change = s := by
  have hmodify : s.runners.modify r change = s.runners := by
    refine Array.ext_getElem? fun i => ?_
    rw [Array.getElem?_modify]
    split
    · rename_i hri
      subst hri
      rw [Array.getElem?_eq_none h]
      rfl
    · rfl
  rw [updateRunner, hmodify]

theorem runner_of_le {s : System} {r : RunnerId} (h : s.runners.size ≤ r) :
    s.runner r = noRunner := by
  rw [runner, Array.getD_eq_getD_getElem?, Array.getElem?_eq_none h]
  rfl

/-- What may become of the runner `x` of a system. -/
structure Onward (s : System) (x y : Runner) : Prop where
  job : y.job = x.job
  phase : x.phase.rank ≤ y.phase.rank
  record : x.phase = .finished → y.result = x.result ∧ y.chunks = x.chunks
  stdin : ∀ w, x.stdin = some w →
    y.stdin = some w ∨ w < s.writers.size ∧ (s.writer w).isOpen = false

/-- What may become of the runner `x` of a system without its being finished. -/
structure Continues (s : System) (x y : Runner) : Prop extends Onward s x y where
  finished : y.phase = .finished → x.phase = .finished
  listeners : y.listeners = x.listeners

/-- A change of something else. -/
theorem Continues.of_same {s : System} {x y : Runner} (hjob : y.job = x.job)
    (hphase : y.phase = x.phase) (hresult : y.result = x.result) (hchunks : y.chunks = x.chunks)
    (hstdin : y.stdin = x.stdin) (hlisteners : y.listeners = x.listeners) : Continues s x y :=
  ⟨⟨hjob, Nat.le_of_eq (by rw [hphase]), fun _ => ⟨hresult, hchunks⟩,
    fun _ hw => .inl (hstdin.trans hw)⟩, fun hf => hphase.symm.trans hf, hlisteners⟩

section Update

variable {s : System} {r : RunnerId} {change : Runner → Runner}

theorem inv_updateRunner (change : Runner → Runner) (hi : s.Inv) (hr : r < s.runners.size)
    (hs : (change (s.runner r)).Sound s.writers.size r)
    (ho : Onward s (s.runner r) (change (s.runner r))) :
    (s.updateRunner r change).Inv ∧ Grows s (s.updateRunner r change) := by
  have hsize := size_updateRunner s r change
  have hgrows : Grows s (s.updateRunner r change) := by
    refine ⟨Nat.le_of_eq hsize.symm, Nat.le_refl _, fun _ _ hc => hc, fun r' hr' => ?_⟩
    by_cases heq : r' = r
    · subst heq
      rw [← runner_updateRunner_self hr change] at ho
      exact ⟨ho.job, ho.phase, ho.record, ho.stdin⟩
    · exact .of_same (runner_updateRunner_of_ne s heq change)
  refine ⟨⟨?_, ?_, fun e he => hsize.symm ▸ hi.journal e he,
    fun t ht => (hi.tasks t ht).grows hgrows⟩, hgrows⟩
  · intro r' hr'
    rw [hsize] at hr'
    by_cases heq : r' = r
    · subst heq
      rw [runner_updateRunner_self hr']
      exact hs
    · rw [runner_updateRunner_of_ne s heq]
      exact hi.runners r' hr'
  · intro r' hr' hnot t he
    rw [hsize] at hr'
    exact hi.untold r' hr' (fun hf => hnot ((hgrows.kept r' hr').finished hf)) t he

/-- A runner may change in a way that does not finish it. -/
theorem safe_updateRunner
    (h : s.Inv → r < s.runners.size →
      (change (s.runner r)).Sound s.writers.size r ∧
        Continues s (s.runner r) (change (s.runner r))) :
    Safe s (s.updateRunner r change) := by
  by_cases hr : r < s.runners.size
  · intro hi
    obtain ⟨hs, hc⟩ := h hi hr
    obtain ⟨hi', hg⟩ := inv_updateRunner change hi hr hs hc.toOnward
    refine ⟨hi', hg, size_updateRunner s r change, fun r' _ => ?_⟩
    by_cases heq : r' = r
    · subst heq
      refine ⟨fun _ => ⟨?_, fun _ _ => rfl⟩, fun hnot hf => ?_, fun _ _ _ => rfl⟩
      · rw [runner_updateRunner_self hr]
        exact hc.listeners
      · rw [runner_updateRunner_self hr] at hf
        exact absurd (hc.finished hf) hnot
    · exact .of_same (runner_updateRunner_of_ne s heq change) fun _ _ => rfl
  · rw [updateRunner_of_le (Nat.le_of_not_lt hr)]
    exact .refl s

end Update

end System
end Runnel
