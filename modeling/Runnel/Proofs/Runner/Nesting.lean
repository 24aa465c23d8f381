import Runnel.Proofs.Runner.Moves

/-!
# Runnel.Proofs.Runner.Nesting

What a pipe whose second stage is a pipe does with the output of its first stage.

* `System.Wired`: what is written for a runner is what its command line reads.
* `System.wired_iff`: a pipe that begins is wired to its second stage only if that is a command line,
  and no pipe is ever wired to another one.
-/

namespace Runnel.System

variable {s s' : System} {r source dest : RunnerId}

/-- Whatever is written with the writer is the input of the command line of the runner, which is
about to begin. -/
def Wired (s : System) (w : WriterId) (r : RunnerId) : Prop :=
  ∃ t ∈ s.tasks, ∃ start, t.routine = .beginLine r start ∧
    start.stdin = .channel (s.writer w).channel

/-! ## Beginning adds tasks and writers -/

/-- All tasks are still there, and all writers write where they did. -/
structure Extends (s s' : System) : Prop where
  tasks : ∀ t ∈ s.tasks, t ∈ s'.tasks
  size : s.writers.size ≤ s'.writers.size
  writers : ∀ w < s.writers.size, (s'.writer w).channel = (s.writer w).channel

theorem Extends.refl (s : System) : Extends s s :=
  ⟨fun _ => id, Nat.le_refl _, fun _ _ => rfl⟩

theorem Extends.trans {s'' : System} (h : Extends s s') (h' : Extends s' s'') : Extends s s'' :=
  ⟨fun t ht => h'.tasks t (h.tasks t ht), Nat.le_trans h.size h'.size,
    fun w hw => (h'.writers w (Nat.lt_of_lt_of_le hw h.size)).trans (h.writers w hw)⟩

theorem Wired.extends {w : WriterId} (h : s.Wired w r) (hw : w < s.writers.size)
    (he : Extends s s') : s'.Wired w r := by
  obtain ⟨t, ht, start, hroutine, hstdin⟩ := h
  exact ⟨t, he.tasks t ht, start, hroutine, by rw [hstdin, he.writers w hw]⟩

theorem Extends.of_eq (ht : s'.tasks = s.tasks) (hw : s'.writers = s.writers) : Extends s s' :=
  ⟨fun _ h => ht ▸ h, Nat.le_of_eq (by rw [hw]), fun _ _ => by rw [writer, hw]; rfl⟩

theorem extends_spawn (s : System) (routine : Routine) : Extends s (s.spawn routine).2 :=
  ⟨fun _ h => Array.mem_push_of_mem _ h, Nat.le_refl _, fun _ _ => rfl⟩

theorem extends_prepareInput (s : System) (r : RunnerId) (input : InputOption) :
    Extends s (s.prepareInput r input).2 := by
  cases input with
  | inherit | ignore | bytes data | text text => exact .refl s
  | stream data =>
    have hchannel : Extends s (s.newChannel inputCapacity).2 := .of_eq rfl rfl
    exact hchannel.trans (extends_spawn _ _)
  | pipe =>
    refine ⟨fun _ => id, ?_, fun w hw => ?_⟩
    · show s.writers.size ≤ (s.writers.push _).size
      simp
    · show ((s.writers.push _).getD w _).channel = _
      rw [Array.getD_eq_getD_getElem?, Array.getElem?_push, if_neg (Nat.ne_of_lt hw),
        ← Array.getD_eq_getD_getElem?]
      rfl

theorem extends_prepare (s : System) (r : RunnerId) : Extends s (s.prepare r).2 := by
  rcases prepare_cases s r with heq | ⟨-, start, heq⟩
  · rw [heq]
    exact .refl s
  · rw [heq]
    have hoptions : Extends s (s.updateRunner r fun x =>
        { x with options := { x.options with stdin := .inherit } }) := .of_eq rfl rfl
    exact hoptions.trans (extends_prepareInput _ r _)

theorem extends_launchTask (s : System) (r : RunnerId) : Extends s (s.launchTask r) := by
  have hlaunch : Extends s (s.launch r) := .of_eq rfl rfl
  exact (hlaunch.trans (extends_prepare _ r)).trans (extends_spawn _ _)

theorem extends_openStream (hscheduled : s.scheduled = true) (r : RunnerId) :
    Extends s (s.openStream r).2 := by
  have hopened := opened_opened s r
  rw [openStream_eq, ensureStarted_eq (hopened.scheduled.trans hscheduled)]
  refine (Extends.of_eq hopened.tasks hopened.writers).trans ?_
  rcases start_cases (s.opened r) r with heq | ⟨-, heq | ⟨token, heq⟩⟩
  · rw [heq]
    exact .refl _
  · rw [heq]
    exact extends_launchTask _ r
  · rw [heq]
    exact (extends_launchTask _ r).trans (extends_spawn _ _)

/-! ## The second stage of a pipe -/

theorem prepare_of_pipe (hline : ∃ text, (s.runner r).job = .line text)
    (hinput : (s.runner r).options.stdin = .pipe) :
    ∃ start u, s.prepare r = (.beginLine r start, (prepareInput u r .pipe).2) ∧
      start.stdin = (u.prepareInput r .pipe).1 ∧ u.runners.size = s.runners.size := by
  obtain ⟨text, hjob⟩ := hline
  unfold prepare
  simp only [hjob, hinput]
  exact ⟨_, _, rfl, rfl, size_updateRunner _ _ _⟩

/-- A command line that takes its input from a pipe and begins is wired to its writer. -/
theorem wired_launchTask (hr : r < s.runners.size)
    (hline : ∃ text, (s.runner r).job = .line text) (hinput : (s.runner r).options.stdin = .pipe) :
    ∃ w, ((s.launchTask r).runner r).stdin = some w ∧ w < (s.launchTask r).writers.size ∧
      (s.launchTask r).Wired w r := by
  have hself : (s.launch r).runner r = { s.runner r with
      phase := .running
      settings := s.shell.settings
      registered := (s.supervisor.register r).1 } := runner_updateRunner_self hr _
  obtain ⟨start, u, hprepare, hstdin, hsize⟩ := prepare_of_pipe (s := s.launch r) (r := r)
    (by rw [hself]; exact hline) (by rw [hself]; exact hinput)
  have hru : r < u.runners.size := by
    rw [hsize, launch, size_updateRunner]
    exact hr
  rw [launchTask, hprepare]
  refine ⟨u.writers.size, ?_, ?_, ⟨.beginLine r start, true⟩, Array.mem_push_self, start, rfl, ?_⟩
  · exact congrArg Runner.stdin (runner_updateRunner_self (s := { u with
      machine := (u.newChannel inputCapacity).2.machine
      writers := u.writers.push ⟨(u.newChannel inputCapacity).1, true⟩ }) hru _)
  · show u.writers.size < (u.writers.push _).size
    simp
  · rw [hstdin]
    show Source.channel _ = .channel ((u.writers.push _).getD u.writers.size _).channel
    rw [Array.getD_eq_getD_getElem?, Array.getElem?_push, if_pos rfl]
    rfl

/-- Whoever reads along with a command line that has not begun, and takes its input from a pipe,
finds it wired to its writer. -/
theorem wired_openStream (hscheduled : s.scheduled = true) (hr : r < s.runners.size)
    (hline : ∃ text, (s.runner r).job = .line text) (hpending : (s.runner r).phase = .pending)
    (hinput : (s.runner r).options.stdin = .pipe) :
    ∃ w, ((s.openStream r).2.runner r).stdin = some w ∧ w < (s.openStream r).2.writers.size ∧
      (s.openStream r).2.Wired w r := by
  have hopened := opened_opened s r
  have hrunner := hopened.runner r hr
  have hscheduled' := hopened.scheduled.trans hscheduled
  obtain ⟨w, hw, hlt, hwired⟩ := wired_launchTask (s := s.opened r) (r := r)
    (by rw [hopened.runners]; exact hr) (by rw [hrunner]; exact hline) (by rw [hrunner]; exact hinput)
  rw [openStream_eq, ensureStarted_eq hscheduled']
  have hstart := start_of_pending (r := r) hscheduled' (by rw [hrunner]; exact hpending)
  generalize (s.opened r).launchTask r = u at hw hlt hwired hstart
  rcases hstart with heq | ⟨token, heq⟩
  · rw [heq]
    exact ⟨w, hw, hlt, hwired⟩
  · rw [heq]
    exact ⟨w, hw, hlt, hwired.extends hlt (extends_spawn _ _)⟩

/-! ## Pipes on pipes -/

/-- A pipe that begins, and whose second stage has been left alone since they were joined, is wired to
this stage if and only if the stage is a command line. So what the first stage writes is lost if the
second one is a pipe, which reads nothing itself; and no pipe is wired to another one later on. -/
theorem wired_iff {disk : Disk} {registry : Registry} {shell : Shell}
    (hmoves : Moves (fun _ => True) (ofShell (Machine.ofDisk disk registry) shell) s)
    (hbegun : s.Begun r) (hjob : (s.runner r).job = .pipe source dest)
    (hpending : (s.runner dest).phase = .pending)
    (hinput : (s.runner dest).options.stdin = .pipe) :
    (∃ p, (s.beginPipe r).2 = .runPipe r p ∧
      ((∃ w, p.writer = some w ∧ (s.beginPipe r).1.Wired w dest) ↔
        ∃ text, (s.runner dest).job = .line text)) ∧
    ((∀ text, (s.runner dest).job ≠ .line text) → ∀ s', Moves (fun _ => True) s s' →
      ∀ t ∈ s'.tasks, ∀ p, t.routine = .runPipe r p → p.writer = none) := by
  have hs := stands_of_moves rfl hmoves
  have hstages := (hs.inv.runners r hbegun.lt).stages
  rw [hjob] at hstages
  have hdest : dest < s.runners.size :=
    Nat.lt_trans (hstages dest (List.mem_cons_of_mem _ List.mem_cons_self)) hbegun.lt
  obtain ⟨hs', ho⟩ := (leads_openStream (R := fun _ => True) hdest hs).sound hs
  rw [beginPipe_eq hjob]
  refine ⟨⟨_, rfl, ?_, ?_⟩, fun hnot s' hlater t ht p hp => ?_⟩
  · rintro ⟨w, hw, -⟩
    obtain ⟨-, text, htext⟩ :=
      (hs'.inv.runners dest (Nat.lt_of_lt_of_le hdest ho.size)).writer w hw
    exact ⟨text, (ho.jobs dest hdest).symm.trans htext⟩
  · intro hline
    obtain ⟨w, hw, hlt, hwired⟩ := wired_openStream hs.scheduled hdest hline hpending hinput
    exact ⟨w, hw, hwired.extends hlt (extends_openStream hs'.scheduled source)⟩
  · -- whoever runs a pipe later on has the writer of its second stage, if there is one
    have hproper := (stands_of_moves rfl (hmoves.trans hlater)).apart.routines t ht
    have ho' := onwards_of_moves rfl hmoves hlater
    rw [hp] at hproper
    obtain ⟨hjob', -, -, hwriter, -⟩ := hproper
    rw [ho'.jobs r hbegun.lt, hjob] at hjob'
    injection hjob' with _ hsame
    cases hx : p.writer with
    | none => rfl
    | some w =>
      obtain ⟨text, htext⟩ := (hwriter w hx).line
      rw [← hsame, ho'.jobs dest hdest] at htext
      exact absurd htext (hnot text)

/-- What `echo lo` writes is lost on the way to `cat | cat`. -/
theorem wired_iff_nested :
    let first := ofShell (Machine.ofDisk .empty .empty)
      ⟨.off, "/", [], ⟨"/bin/sh", ["-c"]⟩, true, true, true⟩
    let lines := (((first.newRunner (.line "echo lo") .standard).2.newRunner (.line "cat")
      .standard).2.newRunner (.line "cat") .standard).2
    let s := ((((lines.pipe 1 2).2.pipe 0 3).2.start 4).2)
    (Moves (fun _ => True) first s ∧ s.Begun 4 ∧ (s.runner 4).job = .pipe 0 3 ∧
      (s.runner 3).phase = .pending ∧ (s.runner 3).options.stdin = .pipe) ∧
    ∀ s', Moves (fun _ => True) s s' → ∀ t ∈ s'.tasks, ∀ p, t.routine = .runPipe 4 p →
      p.writer = none := by
  intro first lines s
  -- each step for any system, so that none of them is computed on the way
  have hlines : ∀ u : System, Moves (fun _ => True) u (((u.newRunner (.line "echo lo")
      .standard).2.newRunner (.line "cat") .standard).2.newRunner (.line "cat") .standard).2 :=
    fun u => ((Relation.ReflTransGen.single (.newRunner "echo lo" .standard)).tail
      (.newRunner "cat" .standard)).tail (.newRunner "cat" .standard)
  have hpipe : ∀ (u : System) (a b : RunnerId), a < u.runners.size → b < u.runners.size →
      Moves (fun _ => True) u (u.pipe a b).2 := fun u a b ha hb => .single (.pipe ha hb)
  have hmoves : Moves (fun _ => True) first s :=
    (((hlines first).trans (hpipe _ 1 2 (by decide +kernel) (by decide +kernel))).trans
      (hpipe _ 0 3 (by decide +kernel) (by decide +kernel))).trans (.single (.start 4))
  have hbegun : s.Begun 4 := ⟨by decide +kernel, by decide +kernel⟩
  have hjob : (s.runner 4).job = .pipe 0 3 := by decide +kernel
  have hpending : (s.runner 3).phase = .pending := by decide +kernel
  have hinput : (s.runner 3).options.stdin = .pipe := by decide +kernel
  have hnot : ∀ text, (s.runner 3).job ≠ .line text := by
    have hjob' : (s.runner 3).job = .pipe 1 2 := by decide +kernel
    intro text htext
    rw [hjob'] at htext
    cases htext
  exact ⟨⟨hmoves, hbegun, hjob, hpending, hinput⟩,
    (wired_iff hmoves hbegun hjob hpending hinput).2 hnot⟩

end Runnel.System
