import Mathlib.Logic.Relation
import Runnel.Proofs.Runner.Replay
import Runnel.Proofs.Runner.Turning

/-!
# Runnel.Proofs.Runner.LifeCycle

What becomes of a runner, whatever is done to it and to others, and in which order.

* `System.Step`: everything that can be done to a system.
* `System.Reaches`: what comes of doing such things one after the other.
* `System.lifeCycle`: the life of any runner of any system that can be reached.
* `System.reaches_wait`, `System.reaches_collect`: waiting and reading are made of such steps.
-/

namespace Runnel.System

/-- What can be done to a system at once. -/
inductive Step (s : System) : System → Prop where
  /-- Somebody makes a runner for a command line. -/
  | newRunner (text : String) (options : RunOptions) : Step s (s.newRunner (.line text) options).2
  /-- Somebody connects two runners. -/
  | pipe {source dest : RunnerId} (hs : source < s.runners.size) (hd : dest < s.runners.size) :
      Step s (s.pipe source dest).2
  /-- Somebody changes the options of a runner. -/
  | configure (r : RunnerId) (change : RunOptions → RunOptions) : Step s (s.configure r change).2
  /-- Somebody listens. -/
  | listen (r : RunnerId) (l : Listener) : Step s (s.listen r l)
  /-- Somebody starts a runner. -/
  | start (r : RunnerId) : Step s (s.start r).2
  /-- Somebody begins to wait for a runner, which is started if need be. -/
  | ensureStarted (r : RunnerId) : Step s (s.ensureStarted r)
  /-- Somebody begins to read along. -/
  | openStream (r : RunnerId) : Step s (s.openStream r).2
  /-- Somebody stops reading along. -/
  | dropStream (id : StreamId) : Step s (s.dropStream id)
  /-- A chunk of a runner that has begun is there. -/
  | beginDelivery {r : RunnerId} (chunk : Chunk) (h : (s.runner r).phase ≠ .pending) :
      Step s (s.beginDelivery r chunk).1
  /-- A chunk is handed to those who read along, as far as there is room. -/
  | deliver (r : RunnerId) (d : Delivery) : Step s (s.deliver r d).1
  /-- A runner fails. -/
  | emit (r : RunnerId) (e : RunError) : Step s (s.emit r (.error e))
  /-- A run ends by itself. -/
  | finish (r : RunnerId) (code : Int) : Step s (s.finish r code)
  /-- Somebody kills a runner. -/
  | kill (signal : Signal) (r : RunnerId) : Step s (s.kill signal r)
  /-- The user interrupts. -/
  | interrupt : Step s s.interrupt.2
  /-- A task takes its turn. -/
  | takeTurn (task : TaskId) : Step s (s.takeTurn task)
  /-- Tasks stand in line. -/
  | enqueueIf (test : Routine → Bool) : Step s (s.enqueueIf test)
  /-- Something else is to be done side by side. -/
  | spawn {routine : Routine} (h : s.RoutineBegun routine) : Step s (s.spawn routine).2
  /-- Somebody outside forgets a runner, or remembers it. -/
  | hold (r : RunnerId) (held : Bool) : Step s (s.updateRunner r fun x => { x with held })
  /-- Something happens that does not concern runners: reading, writing, the clock. -/
  | aside {s' : System} (h : Frame s s') : Step s s'

/-- The second system can come of the first one. -/
abbrev Reaches : System → System → Prop :=
  Relation.ReflTransGen Step

/-! ## Single steps -/

theorem safe_hold (s : System) (r : RunnerId) (held : Bool) :
    Safe s (s.updateRunner r fun x => { x with held }) := by
  refine safe_updateRunner fun hi hr => ?_
  have hs := hi.runners r hr
  exact ⟨⟨hs.result_iff, hs.recorded, hs.cleared, hs.untouched, hs.uncaptured, hs.stages, hs.writer⟩,
    .of_same rfl rfl rfl rfl rfl rfl⟩

theorem Safe.advances {s s' : System} (h : Safe s s') (hi : s.Inv) : s'.Inv ∧ Advances s s' :=
  ⟨(h hi).1, (h hi).2.advances⟩

/-- Each step keeps the invariant. -/
theorem Step.advances {s s' : System} (h : Step s s') (hi : s.Inv) : s'.Inv ∧ Advances s s' := by
  cases h with
  | newRunner text options => exact inv_newRunner hi (fun _ hs => by cases hs) options
  | pipe hs hd => exact inv_pipe hi hs hd
  | configure r change => exact (safe_configure s r change).advances hi
  | listen r l => exact inv_listen hi r l
  | start r => exact (safe_start s r).advances hi
  | ensureStarted r => exact (safe_ensureStarted s r).advances hi
  | openStream r => exact (safe_openStream s r).advances hi
  | dropStream id => exact (safe_dropStream s id).advances hi
  | beginDelivery chunk h => exact (safe_beginDelivery h chunk).advances hi
  | deliver r d => exact (safe_deliver s r d).advances hi
  | emit r e => exact (safe_emit s r rfl).advances hi
  | finish r code => exact (safe_finish s r code).advances hi
  | kill signal r => exact (safe_kill s signal r).advances hi
  | interrupt => exact (safe_interrupt s).advances hi
  | takeTurn task => exact (safe_takeTurn s task).advances hi
  | enqueueIf test => exact (safe_enqueueIf s test).advances hi
  | spawn h => exact (safe_spawn h).advances hi
  | hold r held => exact (safe_hold s r held).advances hi
  | aside h => exact h.safe.advances hi

/-! ## Many steps -/

theorem inv_ofShell (machine : Machine) (shell : Shell) : (ofShell machine shell).Inv where
  runners := fun r hr => absurd hr (Nat.not_lt_zero r)
  untold := fun r hr => absurd hr (Nat.not_lt_zero r)
  journal := fun _ he => absurd he List.not_mem_nil
  tasks := fun t ht => absurd ht (Array.not_mem_empty t)

theorem inv_of_reaches {s s' : System} (h : s.Reaches s') (hi : s.Inv) : s'.Inv := by
  induction h with
  | refl => exact hi
  | tail _ hstep ih => exact (hstep.advances ih).1

theorem grows_of_reaches {s s' : System} (h : s.Reaches s') (hi : s.Inv) : Grows s s' := by
  induction h with
  | refl => exact .refl s
  | tail hreach hstep ih => exact ih.trans (hstep.advances (inv_of_reaches hreach hi)).2.toGrows

/-- Once a run has ended, nobody is told again. -/
theorem told_of_reaches {s s' : System} (h : s.Reaches s') (hi : s.Inv) {r : RunnerId}
    (hr : r < s.runners.size) (hf : (s.runner r).phase = .finished) {t : Topic}
    (ht : t.isEnd = true) : s'.told r t = s.told r t := by
  induction h with
  | refl => rfl
  | tail hreach hstep ih =>
    have hg := grows_of_reaches hreach hi
    rw [(hstep.advances (inv_of_reaches hreach hi)).2.after r (Nat.lt_of_lt_of_le hr hg.size)
      ((hg.kept r hr).finished hf) t ht, ih]

/-- Every runner was pending once. -/
theorem born_of_reaches {machine : Machine} {shell : Shell} {s : System}
    (h : (ofShell machine shell).Reaches s) {r : RunnerId} (hr : r < s.runners.size) :
    ∃ u, (ofShell machine shell).Reaches u ∧ u.Reaches s ∧ r < u.runners.size ∧
      (u.runner r).phase = .pending := by
  induction h with
  | refl => cases hr
  | @tail v s hreach hstep ih =>
    by_cases hv : r < v.runners.size
    · obtain ⟨u, hu, hus, hru, hp⟩ := ih hv
      exact ⟨u, hu, hus.tail hstep, hru, hp⟩
    · have hadv := (hstep.advances (inv_of_reaches hreach (inv_ofShell machine shell))).2
      exact ⟨s, hreach.tail hstep, .refl, hr, hadv.born r hr (Nat.le_of_not_lt hv)⟩

/-- Every run that has ended did so in one step, in which its listeners were told. -/
theorem ending_of_reaches {machine : Machine} {shell : Shell} {s : System}
    (h : (ofShell machine shell).Reaches s) {r : RunnerId} (hr : r < s.runners.size)
    (hf : (s.runner r).phase = .finished) :
    ∃ u v, (ofShell machine shell).Reaches u ∧ Step u v ∧ v.Reaches s ∧
      (u.runner r).phase ≠ .finished ∧ (v.runner r).phase = .finished ∧
      ∀ t : Topic, t.isEnd = true → s.told r t = Listener.count (u.runner r).listeners t := by
  induction h with
  | refl => cases hr
  | @tail w s hreach hstep ih =>
    have hi := inv_of_reaches hreach (inv_ofShell machine shell)
    have hadv := (hstep.advances hi).2
    by_cases hw : r < w.runners.size
    · by_cases hfw : (w.runner r).phase = .finished
      · obtain ⟨u, v, hu, huv, hvw, hnot, hfv, htold⟩ := ih hw hfw
        refine ⟨u, v, hu, huv, hvw.tail hstep, hnot, hfv, fun t ht => ?_⟩
        rw [hadv.after r hw hfw t ht, htold t ht]
      · refine ⟨w, s, hreach, hstep, .refl, hfw, hf, fun t ht => ?_⟩
        rw [hadv.ending r hw hfw hf t ht, hi.untold r hw hfw t ht, Nat.zero_add]
    · rw [hadv.born r hr (Nat.le_of_not_lt hw)] at hf
      cases hf

/-! ## The life of a runner -/

/-- What a runner keeps from one system to a later one. -/
structure Lasting (s s' : System) (r : RunnerId) : Prop where
  /-- Its phase only moves on. -/
  phase : (s.runner r).phase.rank ≤ (s'.runner r).phase.rank
  /-- A result never changes, and nothing is captured once there is one. -/
  record : (s.runner r).phase = .finished →
    (s'.runner r).result = (s.runner r).result ∧ (s'.runner r).chunks = (s.runner r).chunks
  /-- At the end the writer of its input is closed, whoever has it. -/
  stdin : ∀ w, (s.runner r).stdin = some w → (s'.runner r).phase = .finished →
    (s'.writer w).isOpen = false
  /-- Nobody is told of the end twice. -/
  told : (s.runner r).phase = .finished →
    ∀ t : Topic, t.isEnd = true → s'.told r t = s.told r t

/-- The life of a runner of a system that has come from the first one. -/
structure LifeCycle (first s : System) (r : RunnerId) : Prop where
  /-- It was pending at first. -/
  born : ∃ u, first.Reaches u ∧ u.Reaches s ∧ r < u.runners.size ∧ (u.runner r).phase = .pending
  /-- There is a result when it is finished, and only then. -/
  result_iff : (s.runner r).result.isSome = true ↔ (s.runner r).phase = .finished
  /-- The result holds the output that was captured. -/
  recorded : ∀ result, (s.runner r).result = some result →
    result.stdout = Chunk.gather .stdout (s.runner r).chunks.toList ∧
    result.stderr = Chunk.gather .stderr (s.runner r).chunks.toList
  /-- A signal ends a run that has not ended, with a code of its own. -/
  killed : (s.runner r).phase ≠ .finished → ∀ signal : Signal,
    ((s.kill signal r).runner r).phase = .finished ∧
    ((s.kill signal r).runner r).result = some
      { code := 128 + signal.number
        stdout := Chunk.gather .stdout (s.runner r).chunks.toList
        stderr := Chunk.gather .stderr (s.runner r).chunks.toList }
  /-- A run that has not ended may end by itself, with any code. -/
  finished : (s.runner r).phase ≠ .finished → ∀ code : Int,
    ((s.finish r code).runner r).phase = .finished ∧
    ((s.finish r code).runner r).result = some
      { code
        stdout := Chunk.gather .stdout (s.runner r).chunks.toList
        stderr := Chunk.gather .stderr (s.runner r).chunks.toList }
  /-- A stream that is opened after the end hands out what was captured, and ends. -/
  replayed : (s.runner r).phase = .finished → ∀ n, (s.runner r).chunks.size < n →
    ((s.openStream r).2.collect (s.openStream r).1 (some n)).2 = some (s.runner r).chunks.toList
  /-- At the end it lets go of everybody. -/
  cleared : (s.runner r).phase = .finished →
    (s.runner r).listeners = [] ∧ (s.runner r).subscribers = [] ∧ (s.runner r).stdin = none
  /-- Nobody is told of the end beforehand. -/
  untold : (s.runner r).phase ≠ .finished → ∀ t : Topic, t.isEnd = true → s.told r t = 0
  /-- Each of those who listened just before the end was told of it once. -/
  told : (s.runner r).phase = .finished → ∃ u v, first.Reaches u ∧ Step u v ∧ v.Reaches s ∧
    (u.runner r).phase ≠ .finished ∧ (v.runner r).phase = .finished ∧
    ∀ t : Topic, t.isEnd = true → s.told r t = Listener.count (u.runner r).listeners t
  /-- What holds from now on. -/
  later : ∀ s', s.Reaches s' → Lasting s s' r

theorem lasting_of_reaches {s s' : System} (hi : s.Inv) (h : s.Reaches s') {r : RunnerId}
    (hr : r < s.runners.size) : Lasting s s' r := by
  have hg := grows_of_reaches h hi
  have hk := hg.kept r hr
  refine ⟨hk.phase, hk.record, fun w hw hf => ?_, fun hf t ht => told_of_reaches h hi hr hf ht⟩
  rcases hk.stdin w hw with hsame | ⟨-, hclosed⟩
  · obtain ⟨-, -, hnone⟩ := ((inv_of_reaches h hi).runners r (Nat.lt_of_lt_of_le hr hg.size)).cleared hf
    rw [hnone] at hsame
    cases hsame
  · exact hclosed

theorem finished_of_result {s s' : System} (h : Safe s s') (hi : s.Inv) {r : RunnerId}
    (hr : r < s.runners.size) {result : RunResult} (hx : (s'.runner r).result = some result) :
    (s'.runner r).phase = .finished := by
  obtain ⟨hi', he⟩ := h hi
  exact (hi'.runners r (Nat.lt_of_lt_of_le hr he.size)).result_iff.mp (by rw [hx]; rfl)

/-- The life of any runner, whatever is done to a system in which nothing ran at first. -/
theorem lifeCycle {machine : Machine} {shell : Shell} {s : System}
    (h : (ofShell machine shell).Reaches s) {r : RunnerId} (hr : r < s.runners.size) :
    LifeCycle (ofShell machine shell) s r := by
  have hi := inv_of_reaches h (inv_ofShell machine shell)
  have hs := hi.runners r hr
  refine ⟨born_of_reaches h hr, hs.result_iff, fun result hx => ?_, fun hnot signal => ?_,
    fun hnot code => ?_, fun hf n hn => collect_openStream hi hr hf hn, hs.cleared, hi.untold r hr,
    ending_of_reaches h hr, fun s' h' => lasting_of_reaches hi h' hr⟩
  · have hsame := hs.recorded result hx
    exact ⟨congrArg RunResult.stdout hsame, congrArg RunResult.stderr hsame⟩
  · have hresult := result_kill hi hr hnot signal
    exact ⟨finished_of_result (safe_kill s signal r) hi hr hresult, hresult⟩
  · have hresult := result_finish hi hr hnot code
    exact ⟨finished_of_result (safe_finish s r code) hi hr hresult, hresult⟩

theorem lifeCycle_interrupted :
    let first := ofShell (Machine.ofDisk .empty .empty)
      ⟨.off, "/", [], ⟨"/bin/sh", ["-c"]⟩, true, true, true⟩
    let s := (((first.newRunner (.line "sleep 1") .standard).2.listen 0 ⟨.exit, none⟩).start 0).2.kill
      .int 0
    (first.Reaches s ∧ 0 < s.runners.size) ∧ (s.runner 0).result = some ⟨130, [], []⟩ ∧
      s.told 0 .exit = 1 ∧ LifeCycle first s 0 := by
  intro first s
  have hreach : first.Reaches s :=
    (((Relation.ReflTransGen.single (.newRunner "sleep 1" .standard)).tail (.listen 0 _)).tail
      (.start 0)).tail (.kill .int 0)
  have hsize : 0 < s.runners.size := by decide
  exact ⟨⟨hreach, hsize⟩, by decide, by decide, lifeCycle hreach hsize⟩

/-! ## Waiting and reading -/

theorem reaches_updateMachine (s : System) (change : Machine → Machine) :
    s.Reaches (s.updateMachine change) :=
  .single (.aside (frame_updateMachine s change))

theorem reaches_serveRound (n : Nat) (s : System) : s.Reaches (serveRound n s) := by
  induction n generalizing s with
  | zero => exact .refl
  | succ n ih =>
    unfold serveRound
    split
    · rename_i s' heq
      refine .trans ?_ (ih s')
      unfold serveFirst at heq
      split at heq
      · cases heq
      · rename_i task ready _
        cases heq
        have hframe : Frame s { s with ready } := .of_eq rfl rfl rfl rfl
        exact ((Relation.ReflTransGen.single (.aside hframe)).tail (.takeTurn task)).tail
          (.enqueueIf _)
    · exact .refl

theorem reaches_stir {s s' : System} {deadline : Option Nat} (h : s.stir deadline = some s') :
    s.Reaches s' := by
  unfold stir at h
  split at h
  · cases h
    exact .single (.enqueueIf _)
  split at h
  · cases h
    exact .single (.enqueueIf _)
  simp only at h
  split at h
  · cases h
    exact (Relation.ReflTransGen.single (.aside (frame_machine s _))).tail (.enqueueIf _)
  · obtain ⟨moment, -, rfl⟩ := Option.map_eq_some_iff.mp h
    exact (reaches_updateMachine s _).tail (.enqueueIf _)

theorem reaches_askWithin {α : Type} {request : System → System × Option α}
    (h : ∀ s : System, s.Reaches (request s).1) (deadline : Option Nat) (rounds : Nat) (s : System) :
    s.Reaches (askWithin request deadline rounds s).1 := by
  induction rounds generalizing s with
  | zero => exact .refl
  | succ rounds ih =>
    have hrequest := (reaches_updateMachine s Machine.beginTurn).trans (h _)
    unfold askWithin
    split
    · rename_i heq
      rw [heq] at hrequest
      exact hrequest
    · rename_i s' heq
      rw [heq] at hrequest
      refine hrequest.trans ?_
      split
      · exact .refl
      have hqueue : s'.Reaches s'.enqueue := .single (.enqueueIf _)
      simp only
      split
      · split
        · rename_i hstir
          exact (hqueue.trans (reaches_stir hstir)).trans (ih _)
        · exact hqueue
      · exact (hqueue.trans (reaches_serveRound roundLength _)).trans (ih _)

theorem reaches_ask {α : Type} {request : System → System × Option α}
    (h : ∀ s : System, s.Reaches (request s).1) (s : System) : s.Reaches (s.ask request).1 :=
  reaches_askWithin h none patience s

/-- Who waits for a result only takes such steps, again and again. -/
theorem reaches_wait (s : System) (r : RunnerId) : s.Reaches (s.wait r).1 :=
  .trans (.single (.ensureStarted r)) (reaches_ask (fun _ => .refl) _)

theorem reaches_nextChunk (s : System) (id : StreamId) : s.Reaches (s.nextChunk id).1 := by
  refine reaches_ask (fun s => ?_) s
  have hread : s.Reaches (s.readStream id).1 := .single (.aside (frame_readStream s id))
  split
  · rename_i heq
    rw [heq] at hread
    exact hread
  · rename_i heq
    rw [heq] at hread
    exact hread
  · rename_i heq
    rw [heq] at hread
    exact hread

theorem reaches_readChunks (id : StreamId) (n : Nat) (s : System) (read : List Chunk) :
    s.Reaches (readChunks id n s read).1 := by
  induction n generalizing s read with
  | zero => exact .refl
  | succ n ih =>
    have hnext := reaches_nextChunk s id
    unfold readChunks
    split
    · rename_i heq
      rw [heq] at hnext
      exact hnext.trans (ih _ _)
    · rename_i heq
      rw [heq] at hnext
      exact hnext
    · rename_i heq
      rw [heq] at hnext
      exact hnext

/-- So does who reads a stream and drops it. -/
theorem reaches_collect (s : System) (id : StreamId) (limit : Option Nat) :
    s.Reaches (s.collect id limit).1 := by
  have hread := reaches_readChunks id (limit.getD patience) s []
  unfold collect
  exact hread.tail (.dropStream id)

end Runnel.System
