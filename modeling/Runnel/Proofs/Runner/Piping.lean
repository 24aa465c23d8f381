import Runnel.Proofs.Runner.LifeCycle
import Runnel.Proofs.Runner.Moves

/-!
# Runnel.Proofs.Runner.Piping

Which runners can be connected. Two of them are told apart by their numbers alone, and a pipe has a
number of its own, so nobody notices when the output of a pipe is connected to a runner that the pipe
itself runs.

* `System.Piped`: what becomes of a system when two of its runners are connected.
* `System.pipe_cases`: what comes of the attempt, which is all that the other lemmas need to know.
* `System.Inv.lt_of_contains`: what a runner contains is older than the runner.
* `System.pipe_refused_iff`: who is refused, and who is not.
-/

namespace Runnel.System

variable {s s' : System} {source dest q r : RunnerId}

/-! ## Options -/

/-- Only the options of one runner may have changed. -/
theorem runner_configure (s : System) (r r' : RunnerId) (change : RunOptions → RunOptions) :
    ∃ options, (s.configure r change).2.runner r' = { s.runner r' with options } ∧
      (r' ≠ r → options = (s.runner r').options) := by
  unfold configure
  split
  · exact ⟨_, rfl, fun _ => rfl⟩
  · simp only [runner_updateRunner]
    split
    · rename_i h
      exact ⟨change (s.runner r).options, by rw [h.1], fun hne => absurd h.1 hne⟩
    · exact ⟨_, rfl, fun _ => rfl⟩

theorem size_configure (s : System) (r : RunnerId) (change : RunOptions → RunOptions) :
    (s.configure r change).2.runners.size = s.runners.size := by
  unfold configure
  split
  · rfl
  · exact size_updateRunner _ _ _

theorem journal_configure (s : System) (r : RunnerId) (change : RunOptions → RunOptions) :
    (s.configure r change).2.journal = s.journal := by
  unfold configure
  split
  · rfl
  · rfl

theorem journal_newRunner (s : System) (job : Job) (options : RunOptions) :
    (s.newRunner job options).2.journal = s.journal :=
  rfl

/-! ## Connecting -/

/-- A new runner connects two others. Nothing but the options of these two may have changed. -/
structure Piped (s s' : System) (source dest q : RunnerId) : Prop where
  /-- The new runner has the next number. -/
  fresh : q = s.runners.size
  /-- Nobody is told. -/
  journal : s'.journal = s.journal
  /-- It runs the two. -/
  job : (s'.runner q).job = .pipe source dest
  /-- All others are there, and are what they were. -/
  kept : ∀ r < s.runners.size, ∃ options, s'.runner r = { s.runner r with options } ∧
    (r ≠ source → r ≠ dest → options = (s.runner r).options)

/-- The options of two runners have been changed, so that they can be connected. -/
def readied (s : System) (source dest : RunnerId) : System :=
  ((s.configure dest fun o => { o with stdin := .pipe, display := false }).2.configure source
    fun o => { o with display := false }).2

theorem size_readied (s : System) (source dest : RunnerId) :
    (s.readied source dest).runners.size = s.runners.size := by
  rw [readied, size_configure, size_configure]

theorem journal_readied (s : System) (source dest : RunnerId) :
    (s.readied source dest).journal = s.journal := by
  rw [readied, journal_configure, journal_configure]

theorem runner_readied (s : System) (source dest r : RunnerId) :
    ∃ options, (s.readied source dest).runner r = { s.runner r with options } ∧
      (r ≠ source → r ≠ dest → options = (s.runner r).options) := by
  obtain ⟨first, hfirst, holdest⟩ := runner_configure s dest r fun o =>
    { o with stdin := .pipe, display := false }
  obtain ⟨second, hsecond, hold⟩ := runner_configure _ source r fun o => { o with display := false }
  refine ⟨second, by rw [readied, hsecond, hfirst], fun hsource hdest => ?_⟩
  rw [hold hsource, hfirst, holdest hdest]

theorem pipe_of_pending (hself : source ≠ dest) (hphase : (s.runner dest).phase = .pending) :
    ∃ options, s.pipe source dest = (.ok s.runners.size,
      ((s.readied source dest).newRunner (.pipe source dest) options).2) := by
  have hconfigured : (s.configure dest fun o => { o with stdin := .pipe, display := false }).1
      = .ok () := by
    simp only [configure, hphase, bne_self_eq_false, Bool.false_eq_true, if_false]
  rw [← size_readied s source dest, readied, pipe, if_neg hself]
  generalize s.configure dest (fun o => { o with stdin := .pipe, display := false }) = configured
    at hconfigured ⊢
  obtain ⟨answer, u⟩ := configured
  cases hconfigured
  exact ⟨_, rfl⟩

theorem pipe_of_begun (hself : source ≠ dest) (hphase : (s.runner dest).phase ≠ .pending) :
    s.pipe source dest = (.error .alreadyStarted, s) := by
  have hrefused : s.configure dest (fun o => { o with stdin := .pipe, display := false })
      = (.error .alreadyStarted, s) := by
    simp [configure, hphase]
  rw [pipe, if_neg hself]
  simp only [hrefused]

/-- Two runners are connected, unless they are the same or the second one has begun. Then nothing
happens. -/
theorem pipe_cases (s : System) (source dest : RunnerId) :
    source = dest ∧ s.pipe source dest = (.error .selfPipe, s) ∨
      source ≠ dest ∧ (s.runner dest).phase ≠ .pending ∧
        s.pipe source dest = (.error .alreadyStarted, s) ∨
      source ≠ dest ∧ (s.runner dest).phase = .pending ∧
        ∃ q s', s.pipe source dest = (.ok q, s') ∧ Piped s s' source dest q := by
  by_cases hself : source = dest
  · exact .inl ⟨hself, by rw [pipe, if_pos hself]⟩
  by_cases hphase : (s.runner dest).phase = .pending
  · obtain ⟨options, hpipe⟩ := pipe_of_pending hself hphase
    have hsize := size_readied s source dest
    have hjournal := (journal_newRunner (s.readied source dest) (.pipe source dest) options).trans
      (journal_readied s source dest)
    refine .inr (.inr ⟨hself, hphase, _, _, hpipe, rfl, hjournal, ?_, fun r hr => ?_⟩)
    · obtain ⟨token, group, hnew⟩ := runner_newRunner_size (s.readied source dest)
        (.pipe source dest) options
      rw [← hsize, hnew]
      rfl
    · rw [runner_newRunner _ _ _ (by rwa [hsize])]
      exact runner_readied s source dest r
  · exact .inr (.inl ⟨hself, hphase, pipe_of_begun hself hphase⟩)

/-! ## Pipes of pipes -/

/-- Only a runner that exists contains others. -/
theorem lt_size_of_contains (h : s.Contains r q) : r < s.runners.size := by
  obtain ⟨stage, hstage, -⟩ := Relation.TransGen.head'_iff.mp h
  refine Nat.lt_of_not_le fun hle => ?_
  rw [runner_of_le hle] at hstage
  cases hstage

/-- What a runner contains is older than the runner, so no runner contains itself. -/
theorem Inv.lt_of_contains (hi : s.Inv) (h : s.Contains r q) : q < r := by
  have hstage : ∀ {r stage}, stage ∈ (s.runner r).job.stages → stage < r := fun {r stage} hmem =>
    (hi.runners r (lt_size_of_contains (.single hmem))).stages stage hmem
  induction h with
  | single hmem => exact hstage hmem
  | tail _ hmem ih => exact Nat.lt_trans (hstage hmem) ih

/-- Who contained something goes on to do so. -/
theorem Piped.contains (h : Piped s s' source dest q) {stage : RunnerId}
    (hcontains : s.Contains r stage) : s'.Contains r stage := by
  refine Relation.TransGen.mono (fun r stage hmem => ?_) _ _ hcontains
  obtain ⟨options, hkept, -⟩ := h.kept r (lt_size_of_contains (.single hmem))
  rw [hkept]
  exact hmem

/-- A runner is refused as its own destination, and no other one is. So the output of a pipe can be
connected to each runner that it contains and that has not begun, however deep it is: the new pipe
runs this runner twice, at its end and in its source. Whoever is refused, nothing has changed. -/
theorem pipe_refused_iff {machine : Machine} {shell : Shell}
    (h : (ofShell machine shell).Reaches s) (source dest : RunnerId) :
    let piped := s.pipe source dest
    (piped.1 = .error .selfPipe ↔ source = dest) ∧
      (piped.1 = .error .alreadyStarted ↔ source ≠ dest ∧ (s.runner dest).phase ≠ .pending) ∧
      (∀ e, piped.1 = .error e → piped.2 = s) ∧
      (s.Contains source dest → (s.runner dest).phase = .pending →
        ∃ q, piped.1 = .ok q ∧ Piped s piped.2 source dest q ∧ piped.2.Contains source dest ∧
          (piped.2.runner dest).phase = .pending) := by
  have hi := inv_of_reaches h (inv_ofShell machine shell)
  intro piped
  rcases pipe_cases s source dest with ⟨hself, heq⟩ | ⟨hself, hphase, heq⟩ |
      ⟨hself, hphase, q, s', heq, hpiped⟩
  · rw [show piped = _ from heq]
    refine ⟨iff_of_true rfl hself, iff_of_false nofun fun hand => hand.1 hself, fun _ _ => rfl,
      fun hcontains _ => ?_⟩
    exact absurd hself (Nat.ne_of_gt (hi.lt_of_contains hcontains))
  · rw [show piped = _ from heq]
    exact ⟨iff_of_false nofun hself, iff_of_true rfl ⟨hself, hphase⟩, fun _ _ => rfl,
      fun _ hpending => absurd hpending hphase⟩
  · rw [show piped = _ from heq]
    refine ⟨iff_of_false nofun hself, iff_of_false nofun fun hand => hand.2 hphase, nofun,
      fun hcontains _ => ⟨q, rfl, hpiped, hpiped.contains hcontains, ?_⟩⟩
    have hlt := Nat.lt_trans (hi.lt_of_contains hcontains) (lt_size_of_contains hcontains)
    obtain ⟨options, hkept, -⟩ := hpiped.kept dest hlt
    rw [hkept]
    exact hphase

/-- A pipe of a pipe, and the runner at its very beginning. -/
theorem pipe_refused_iff_nested :
    let first := ofShell (Machine.ofDisk .empty .empty)
      ⟨.off, "/", [], ⟨"/bin/sh", ["-c"]⟩, true, true, true⟩
    let lines := (((first.newRunner (.line "cat") .standard).2.newRunner (.line "head -n 1")
      .standard).2.newRunner (.line "cat") .standard).2
    let s := ((lines.pipe 0 1).2.pipe 3 2).2
    (first.Reaches s ∧ s.Contains 4 0 ∧ (s.runner 0).phase = .pending) ∧
      (s.pipe 4 4).1 = .error .selfPipe ∧ ∃ q, (s.pipe 4 0).1 = .ok q := by
  intro first lines s
  have hlines : first.Reaches lines :=
    ((Relation.ReflTransGen.single (.newRunner "cat" .standard)).tail
      (.newRunner "head -n 1" .standard)).tail (.newRunner "cat" .standard)
  have hreach : first.Reaches s :=
    (hlines.tail (.pipe (by decide +kernel) (by decide +kernel))).tail
      (.pipe (by decide +kernel) (by decide +kernel))
  have hcontains : s.Contains 4 0 :=
    .tail (.single (show 3 ∈ (s.runner 4).job.stages by decide +kernel))
      (show 0 ∈ (s.runner 3).job.stages by decide +kernel)
  have hphase : (s.runner 0).phase = .pending := by decide +kernel
  obtain ⟨q, hq, -⟩ := (pipe_refused_iff hreach 4 0).2.2.2 hcontains hphase
  exact ⟨⟨hreach, hcontains, hphase⟩, (pipe_refused_iff hreach 4 4).1.mpr rfl, q, hq⟩

/-- A pipe whose output is connected to its own first stage. -/
theorem pipe_into_stage :
    let first := ofShell (Machine.ofDisk .empty .empty)
      ⟨.off, "/", [], ⟨"/bin/sh", ["-c"]⟩, true, true, true⟩
    let s := (((first.newRunner (.line "echo a") .standard).2.newRunner (.line "cat")
      .standard).2.pipe 0 1).2
    first.Reaches s ∧ s.Contains 2 0 ∧ (s.runner 0).phase = .pending ∧
      (s.pipe 2 0).1 ≠ .error .selfPipe ∧ (s.pipe 2 0).2.commandText 3 = "echo a | cat | echo a" := by
  intro first s
  -- for any system, so that this one is not computed on the way
  have hcontains : ∀ u : System, 0 ∈ (u.runner 2).job.stages → u.Contains 2 0 := fun _ h => .single h
  have hpipe : ∀ u : System, 0 < u.runners.size → 1 < u.runners.size → u.Reaches (u.pipe 0 1).2 :=
    fun _ ha hb => .single (.pipe ha hb)
  have hlines : first.Reaches ((first.newRunner (.line "echo a") .standard).2.newRunner (.line "cat")
      .standard).2 :=
    (Relation.ReflTransGen.single (.newRunner "echo a" .standard)).tail (.newRunner "cat" .standard)
  have hreach : first.Reaches s :=
    hlines.trans (hpipe _ (by decide +kernel) (by decide +kernel))
  exact ⟨hreach, hcontains s (by decide +kernel), by decide +kernel, by decide +kernel,
    by decide +kernel⟩

end Runnel.System
