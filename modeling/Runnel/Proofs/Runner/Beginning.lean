import Runnel.Proofs.Runner.Ending
import Runnel.Runner.Start

/-!
# Runnel.Proofs.Runner.Beginning

How runs begin, and how others come to read along.

* `System.safe_ensureStarted`, `System.safe_configure`: beginning a run is safe.
* `System.safe_openStream`, `System.safe_dropStream`: so are streams.
* `System.inv_newRunner`, `System.inv_listen`: new runners and new listeners keep the invariant.
-/

namespace Runnel.System

/-! ## Input -/

theorem frame_newChannel (s : System) (capacity : Nat) : Frame s (s.newChannel capacity).2 :=
  .of_eq rfl rfl rfl rfl

theorem frame_pushWriter (s : System) (w : InputWriter) :
    Frame s { s with writers := s.writers.push w } := by
  refine ⟨rfl, rfl, rfl, by simp, fun id hid hc => ?_⟩
  rw [writer, Array.getD_eq_getD_getElem?, Array.getElem?_push, if_neg (Nat.ne_of_lt hid),
    ← Array.getD_eq_getD_getElem?]
  exact hc

/-- A runner that has just begun, and has no live input yet. -/
structure Fresh (s : System) (r : RunnerId) : Prop where
  lt : r < s.runners.size
  phase : (s.runner r).phase = .running
  stdin : (s.runner r).stdin = none

theorem Fresh.begun {s : System} {r : RunnerId} (h : s.Fresh r) : s.Begun r :=
  ⟨h.lt, by rw [h.phase]; decide⟩

theorem Fresh.frame {s s' : System} {r : RunnerId} (h : s.Fresh r) (hf : Frame s s') :
    s'.Fresh r :=
  ⟨hf.runners ▸ h.lt, by rw [hf.runner]; exact h.phase, by rw [hf.runner]; exact h.stdin⟩

/-- A runner that has just begun gets a writer. -/
theorem safe_giveWriter {s : System} {r : RunnerId} (h : s.Fresh r)
    (hline : ∃ text, (s.runner r).job = .line text) {w : WriterId} (hw : w < s.writers.size) :
    Safe s (s.updateRunner r fun x => { x with stdin := some w }) := by
  refine safe_updateRunner fun hi hr => ?_
  have hs := hi.runners r hr
  have hrunning := h.phase
  refine ⟨⟨hs.result_iff, hs.recorded, fun hf => ?_, fun hp => ?_, hs.uncaptured, hs.stages,
    fun w' hw' => ?_⟩, ⟨rfl, Nat.le_refl _, fun _ => ⟨rfl, rfl⟩, fun w' hw' => ?_⟩, id, rfl⟩
  · rw [show (s.runner r).phase = .finished from hf] at hrunning
    cases hrunning
  · rw [show (s.runner r).phase = .pending from hp] at hrunning
    cases hrunning
  · cases hw'
    exact ⟨hw, hline⟩
  · rw [h.stdin] at hw'
    cases hw'

theorem safe_prepareInput {s : System} {r : RunnerId} (h : s.Fresh r)
    (hline : ∃ text, (s.runner r).job = .line text) (input : InputOption) :
    Safe s (s.prepareInput r input).2 := by
  cases input with
  | inherit | ignore | bytes data | text text => exact .refl s
  | stream data =>
    refine (frame_newChannel s inputCapacity).safe.trans ?_
    exact safe_spawn trivial
  | pipe =>
    have hchannel := frame_newChannel s inputCapacity
    have hpush := frame_pushWriter (s.newChannel inputCapacity).2
      ⟨(s.newChannel inputCapacity).1, true⟩
    refine (hchannel.trans hpush).safe.trans ?_
    refine safe_giveWriter (h.frame (hchannel.trans hpush)) hline ?_
    show s.writers.size < (s.writers.push _).size
    simp

/-! ## Begin -/

/-- A change of the options is safe as long as what is captured stays so, or nothing was. -/
theorem safe_options {s : System} {r : RunnerId} (change : RunOptions → RunOptions)
    (h : s.Inv → (change (s.runner r).options).capture = (s.runner r).options.capture ∨
      (s.runner r).chunks = #[]) :
    Safe s (s.updateRunner r fun x => { x with options := change x.options }) := by
  refine safe_updateRunner fun hi hr => ?_
  have hs := hi.runners r hr
  refine ⟨⟨hs.result_iff, hs.recorded, hs.cleared, hs.untouched, fun hc => ?_, hs.stages,
    hs.writer⟩, .of_same rfl rfl rfl rfl rfl rfl⟩
  rcases h hi with hsame | hempty
  · exact hs.uncaptured (hsame ▸ hc)
  · exact hempty

theorem prepare_cases (s : System) (r : RunnerId) :
    s.prepare r = (.beginPipe r, s) ∨
    (∃ text, (s.runner r).job = .line text) ∧ ∃ start, s.prepare r = (.beginLine r start,
      ((s.updateRunner r fun x => { x with options := { x.options with stdin := .inherit } })
        |>.prepareInput r (s.runner r).options.stdin).2) := by
  cases hjob : (s.runner r).job with
  | pipe source dest => exact .inl (by simp only [prepare, hjob])
  | line text => exact .inr ⟨⟨text, rfl⟩, _, by simp only [prepare, hjob]; rfl⟩

theorem prepare_spec {s : System} {r : RunnerId} (h : s.Fresh r) :
    Safe s (s.prepare r).2 ∧ (s.Inv → (s.prepare r).2.RoutineBegun (s.prepare r).1) := by
  rcases prepare_cases s r with heq | ⟨⟨text, hjob⟩, start, heq⟩
  · rw [heq]
    exact ⟨.refl s, fun _ => h.begun⟩
  · have hfresh : Fresh (s.updateRunner r fun x =>
        { x with options := { x.options with stdin := .inherit } }) r := by
      refine ⟨?_, ?_, ?_⟩
      · rw [size_updateRunner]
        exact h.lt
      · rw [runner_updateRunner_self h.lt]
        exact h.phase
      · rw [runner_updateRunner_self h.lt]
        exact h.stdin
    have hopt : Safe s (s.updateRunner r fun x =>
        { x with options := { x.options with stdin := .inherit } }) :=
      safe_options (fun o => { o with stdin := .inherit }) fun _ => .inl rfl
    have hline : ∃ text, ((s.updateRunner r fun x =>
        { x with options := { x.options with stdin := .inherit } }).runner r).job = .line text := by
      rw [runner_updateRunner_self h.lt]
      exact ⟨text, hjob⟩
    have hsafe := hopt.trans (safe_prepareInput hfresh hline (s.runner r).options.stdin)
    rw [heq]
    exact ⟨hsafe, fun hi => h.begun.grows (hsafe hi).2.toGrows⟩

/-- A runner begins to run. -/
def launch (s : System) (r : RunnerId) : System :=
  { s with supervisor := (s.supervisor.register r).2 }.updateRunner r fun x =>
    { x with
      phase := .running
      settings := s.shell.settings
      registered := (s.supervisor.register r).1 }

theorem launch_spec {s : System} {r : RunnerId} (h : (s.runner r).phase = .pending) :
    Safe s (s.launch r) ∧ (s.Inv → (s.launch r).Fresh r) := by
  have hr : r < s.runners.size := by
    by_cases hr : r < s.runners.size
    · exact hr
    · rw [runner_of_le (Nat.le_of_not_lt hr)] at h
      cases h
  have hframe : Frame s { s with supervisor := (s.supervisor.register r).2 } := .of_eq rfl rfl rfl rfl
  refine ⟨hframe.safe.trans (safe_updateRunner fun hi hr => ?_), fun hi => ⟨?_, ?_, ?_⟩⟩
  · have hs : (s.runner r).Sound s.writers.size r := hi.runners r hr
    refine ⟨⟨⟨fun hsome => ?_, nofun⟩, hs.recorded, nofun, nofun, hs.uncaptured, hs.stages,
      hs.writer⟩, ⟨rfl, ?_, fun _ => ⟨rfl, rfl⟩, fun _ hw => .inl hw⟩, nofun, rfl⟩
    · have hf := hs.result_iff.mp hsome
      rw [h] at hf
      cases hf
    · show (s.runner r).phase.rank ≤ _
      rw [h]
      exact Nat.zero_le _
  · rw [launch, size_updateRunner]
    exact hr
  · rw [launch, runner_updateRunner_self]
    exact hr
  · rw [launch, runner_updateRunner_self]
    · exact ((hi.runners r hr).untouched h).2
    · exact hr

/-- A runner begins to run, and its task waits for its turn. -/
def launchTask (s : System) (r : RunnerId) : System :=
  (((s.launch r).prepare r).2.spawn ((s.launch r).prepare r).1).2

theorem safe_launchTask {s : System} {r : RunnerId} (h : (s.runner r).phase = .pending) :
    Safe s (s.launchTask r) := by
  obtain ⟨hlaunch, hfresh⟩ := launch_spec h
  -- that no writer is there yet follows from the invariant of the system before
  intro hi
  obtain ⟨hprepare, hbegun⟩ := prepare_spec (hfresh hi)
  exact ((hlaunch.trans hprepare).trans (safe_spawn (hbegun (hlaunch hi).1))) hi

/-- A run that can begin does so. -/
theorem start_of_pending {s : System} {r : RunnerId} (hscheduled : s.scheduled = true)
    (hphase : (s.runner r).phase = .pending) :
    (s.start r).2 = s.launchTask r ∨
      ∃ token, (s.start r).2 = ((s.launchTask r).spawn (.watch r token)).2 := by
  generalize hx : (s.start r).2 = s'
  unfold start at hx
  rw [if_neg (by simp [hscheduled]), if_neg (by simp [hphase])] at hx
  dsimp only at hx
  split at hx
  · rename_i token _
    exact .inr ⟨token, hx.symm⟩
  · exact .inl hx.symm

theorem start_cases (s : System) (r : RunnerId) :
    (s.start r).2 = s ∨
    (s.runner r).phase = .pending ∧ ((s.start r).2 = s.launchTask r ∨
      ∃ token, (s.start r).2 = ((s.launchTask r).spawn (.watch r token)).2) := by
  by_cases hscheduled : s.scheduled = true
  · by_cases hphase : (s.runner r).phase = .pending
    · exact .inr ⟨hphase, start_of_pending hscheduled hphase⟩
    · exact .inl (by simp [start, hscheduled, hphase])
  · exact .inl (by simp [start, hscheduled])

theorem safe_start (s : System) (r : RunnerId) : Safe s (s.start r).2 := by
  rcases start_cases s r with heq | ⟨hpending, heq | ⟨token, heq⟩⟩
  · rw [heq]
    exact .refl s
  · rw [heq]
    exact safe_launchTask hpending
  · rw [heq]
    exact (safe_launchTask hpending).trans (safe_spawn trivial)

/-- Beginning a run is safe, even if it cannot begin. -/
theorem safe_ensureStarted (s : System) (r : RunnerId) : Safe s (s.ensureStarted r) := by
  have hstart := safe_start s r
  unfold ensureStarted
  split
  · rename_i heq
    rw [heq] at hstart
    exact hstart
  · rename_i heq
    rw [heq] at hstart
    exact (hstart.trans (safe_emit _ r rfl)).trans (safe_finish _ r 1)

/-- Options only change before a run begins, when nothing has been captured. -/
theorem safe_configure (s : System) (r : RunnerId) (change : RunOptions → RunOptions) :
    Safe s (s.configure r change).2 := by
  unfold configure
  split
  · exact .refl s
  · rename_i hphase
    by_cases hr : r < s.runners.size
    · refine safe_options change fun hi => .inr ((hi.runners r hr).untouched ?_).1
      simpa using hphase
    · rw [updateRunner_of_le (Nat.le_of_not_lt hr)]
      exact .refl s

/-! ## Streams -/

theorem safe_subscribe {s : System} {r : RunnerId} (h : (s.runner r).phase ≠ .finished)
    (channel : ChannelId) :
    Safe s (s.updateRunner r fun x => { x with subscribers := x.subscribers ++ [channel] }) := by
  refine safe_updateRunner fun hi hr => ?_
  have hs := hi.runners r hr
  exact ⟨⟨hs.result_iff, hs.recorded, fun hf => absurd hf h, hs.untouched, hs.uncaptured, hs.stages,
    hs.writer⟩, .of_same rfl rfl rfl rfl rfl rfl⟩

/-- Beginning to read along is safe. -/
theorem safe_openStream (s : System) (r : RunnerId) : Safe s (s.openStream r).2 := by
  have hchannel := frame_newChannel s outputCapacity
  have hpush : ∀ (s : System) (x : ChunkStream),
      Safe s ({ s with streams := s.streams.push x }.ensureStarted r) :=
    fun s x => (Frame.of_eq rfl rfl rfl rfl : Frame s { s with streams := s.streams.push x }).safe.trans
      (safe_ensureStarted _ r)
  refine hchannel.safe.trans (Safe.trans ?_ (hpush _ _))
  split
  · exact safe_updateChannel _ _ _
  · rename_i hf
    exact safe_subscribe (fun hfin => hf (Runner.isFinished_iff.mpr hfin)) _

theorem frame_readStream (s : System) (id : StreamId) : Frame s (s.readStream id).1 := by
  unfold readStream
  simp only
  split
  · exact .refl s
  split
  · exact frame_updateStream s id _
  · have hmachine : Frame s { s with machine := (s.machine.take (s.stream id).channel).1 } :=
      .of_eq rfl rfl rfl rfl
    split
    · exact hmachine.trans (frame_updateStream _ id _)
    · exact hmachine

/-- Stopping to read along is safe. -/
theorem safe_dropStream (s : System) (id : StreamId) : Safe s (s.dropStream id) := by
  unfold dropStream
  simp only
  split
  · exact .refl s
  · refine Safe.trans ?_ (safe_updateChannel _ _ _)
    have hupdate := frame_updateStream s id fun x => { x with held := false }
    split
    · exact hupdate.safe
    · exact hupdate.safe.trans (safe_kill _ _ _)

/-! ## New runners and listeners -/

section NewRunner

variable (s : System) (job : Job) (options : RunOptions)

theorem size_newRunner : (s.newRunner job options).2.runners.size = s.runners.size + 1 := by
  simp [newRunner]

theorem runner_newRunner {r : RunnerId} (hr : r < s.runners.size) :
    (s.newRunner job options).2.runner r = s.runner r := by
  rw [runner, Array.getD_eq_getD_getElem?]
  show (s.runners.push _)[r]?.getD noRunner = _
  rw [Array.getElem?_push, if_neg (Nat.ne_of_lt hr), ← Array.getD_eq_getD_getElem?]
  rfl

theorem runner_newRunner_size : ∃ token group,
    (s.newRunner job options).2.runner s.runners.size = .ofJob job options token group := by
  refine ⟨s.machine.newToken.1, s.machine.newToken.2.newGroup.1, ?_⟩
  rw [runner, Array.getD_eq_getD_getElem?]
  show (s.runners.push _)[s.runners.size]?.getD noRunner = _
  rw [Array.getElem?_push, if_pos rfl]
  rfl

end NewRunner

theorem sound_ofJob {writers : Nat} {r : RunnerId} {job : Job} (h : ∀ stage ∈ job.stages, stage < r)
    (options : RunOptions) (token : TokenId) (group : GroupId) :
    (Runner.ofJob job options token group).Sound writers r where
  result_iff := ⟨nofun, nofun⟩
  recorded := nofun
  cleared := nofun
  untouched := fun _ => ⟨rfl, rfl⟩
  uncaptured := fun _ => rfl
  stages := h
  writer := nofun

/-- A new runner may run older ones. -/
theorem inv_newRunner {s : System} (hi : s.Inv) {job : Job}
    (h : ∀ stage ∈ job.stages, stage < s.runners.size) (options : RunOptions) :
    (s.newRunner job options).2.Inv ∧ Advances s (s.newRunner job options).2 := by
  have hsize := size_newRunner s job options
  have hold : ∀ r < s.runners.size, (s.newRunner job options).2.runner r = s.runner r :=
    fun r hr => runner_newRunner s job options hr
  obtain ⟨token, group, hnew⟩ := runner_newRunner_size s job options
  have hgrows : Grows s (s.newRunner job options).2 := by
    refine ⟨?_, Nat.le_refl _, fun _ _ hc => hc, fun r hr => .of_same (hold r hr)⟩
    rw [hsize]
    exact Nat.le_succ _
  refine ⟨⟨fun r hr => ?_, fun r hr hnot t he => ?_, fun e he => ?_,
    fun t ht => (hi.tasks t ht).grows hgrows⟩, hgrows, fun r hr hle => ?_, fun r hr hnot hf => ?_,
    fun _ _ _ _ _ => rfl⟩
  · rw [hsize] at hr
    rcases Nat.lt_succ_iff_lt_or_eq.mp hr with hlt | rfl
    · rw [hold r hlt]
      exact hi.runners r hlt
    · rw [hnew]
      exact sound_ofJob h options token group
  · rw [hsize] at hr
    rcases Nat.lt_succ_iff_lt_or_eq.mp hr with hlt | rfl
    · rw [hold r hlt] at hnot
      exact hi.untold r hlt hnot t he
    -- events are about runners that existed when they were told
    · show s.told _ t = 0
      refine List.countP_eq_zero.mpr fun e he' heq => ?_
      have hlt := hi.journal e he'
      simp only [Bool.and_eq_true, beq_iff_eq] at heq
      rw [heq.1] at hlt
      exact Nat.lt_irrefl _ hlt
  · rw [hsize]
    exact Nat.lt_succ_of_lt (hi.journal e he)
  · rw [hsize] at hr
    rw [Nat.le_antisymm (Nat.le_of_lt_succ hr) hle, hnew]
    rfl
  · rw [hold r hr] at hf
    exact absurd hf hnot

/-- Two runners may be connected. -/
theorem inv_pipe {s : System} (hi : s.Inv) {source dest : RunnerId} (hs : source < s.runners.size)
    (hd : dest < s.runners.size) :
    (s.pipe source dest).2.Inv ∧ Advances s (s.pipe source dest).2 := by
  have hdest := safe_configure s dest fun o => { o with stdin := .pipe, display := false }
  unfold pipe
  split
  · exact ⟨hi, (Safe.refl s hi).2.advances⟩
  simp only
  split
  · rename_i heq
    rw [heq] at hdest
    exact ⟨(hdest hi).1, (hdest hi).2.advances⟩
  · rename_i s' heq
    rw [heq] at hdest
    have hsource := safe_configure s' source fun o => { o with display := false }
    obtain ⟨hi', he⟩ := (hdest.trans hsource) hi
    have hstages : ∀ stage ∈ (Job.pipe source dest).stages,
        stage < (s'.configure source fun o => { o with display := false }).2.runners.size := by
      intro stage hstage
      rw [he.added]
      rcases List.mem_cons.mp hstage with rfl | hstage
      · exact hs
      · rw [List.mem_singleton.mp hstage]
        exact hd
    obtain ⟨hi'', hadv⟩ := inv_newRunner hi' hstages
      { RunOptions.standard with
        display := (s.runner dest).options.display
        capture := (s.runner dest).options.capture
        reject := (s.runner dest).options.reject }
    exact ⟨hi'', he.trans_advances hadv⟩

/-- Nobody listens to a runner that is finished. -/
theorem inv_listen {s : System} (hi : s.Inv) (r : RunnerId) (l : Listener) :
    (s.listen r l).Inv ∧ Advances s (s.listen r l) := by
  unfold listen
  split
  · exact ⟨hi, (Safe.refl s hi).2.advances⟩
  · rename_i hnot
    have hphase : (s.runner r).phase ≠ .finished := fun hf => hnot (Runner.isFinished_iff.mpr hf)
    by_cases hr : r < s.runners.size
    · have hs := hi.runners r hr
      obtain ⟨hi', hg⟩ := inv_updateRunner (fun x => { x with listeners := x.listeners ++ [l] }) hi hr
        ⟨hs.result_iff, hs.recorded, fun hf => absurd hf hphase, hs.untouched, hs.uncaptured,
          hs.stages, hs.writer⟩
        ⟨rfl, Nat.le_refl _, fun _ => ⟨rfl, rfl⟩, fun _ hw => .inl hw⟩
      refine ⟨hi', hg, fun r' hr' hle => ?_, fun r' _ hnot' hf => ?_, fun _ _ _ _ _ => rfl⟩
      · rw [size_updateRunner] at hr'
        exact absurd hr' (Nat.not_lt_of_le hle)
      · by_cases heq : r' = r
        · subst heq
          rw [runner_updateRunner_self hr] at hf
          exact absurd hf hphase
        · rw [runner_updateRunner_of_ne s heq] at hf
          exact absurd hf hnot'
    · rw [updateRunner_of_le (Nat.le_of_not_lt hr)]
      exact ⟨hi, (Safe.refl s hi).2.advances⟩

end Runnel.System
