import Runnel.Runner.Turn

/-!
# Runnel.Proofs.Runner.Steady

What turns do to the shell and to the tasks. Whatever is delivered, told or killed, both stay as
they are. Only a command line that comes to its end by itself has an effect on the shell: its
working directory is from then on that of the shell.

* `System.Steady`: the shell and the tasks are the same.
* `System.routineAt`: what a task does.
* `Shell.follow`: what the end of a command line does to a shell.
* `System.takeTurn_resting`, `System.takeTurn_work`, `System.takeTurn_runLine`,
  `System.takeTurn_beginLine`: the turns of tasks.
-/

namespace Runnel

/-- The shell after the end of the work of a command line. -/
def Shell.follow (shell : Shell) (run : LineRun) : Work → Shell
  | .done _ ctx =>
    if run.entersShell && !Path.isSame ctx.cwd run.cwd then
      { shell with cwd := shell.resolve ctx.cwd } else shell
  | _ => shell

theorem Shell.env_follow (shell : Shell) (run : LineRun) (w : Work) :
    (shell.follow run w).env = shell.env := by
  unfold follow
  split
  · split <;> rfl
  · rfl

/-- A run is the same as before, apart from what has been delivered. -/
structure LineRun.Same (run run' : LineRun) : Prop where
  worker : run'.worker = run.worker
  cwd : run'.cwd = run.cwd
  entersShell : run'.entersShell = run.entersShell

theorem LineRun.Same.trans {run run' run'' : LineRun} (h : Same run run') (h' : Same run' run'') :
    Same run run'' :=
  ⟨h'.worker.trans h.worker, h'.cwd.trans h.cwd, h'.entersShell.trans h.entersShell⟩

/-- The routine neither works nor has to do with runs. -/
def Routine.isResting : Routine → Bool
  | .ended | .watch .. | .forward .. | .await .. => true
  | .work .. | .beginLine .. | .runLine .. | .beginPipe .. | .runPipe .. => false

/-- Work that is complete stays as it is. -/
theorem Work.advance_of_isComplete {w : Work} (h : w.isComplete = true) (m : Machine) :
    (w.advance m).2 = w := by
  cases w with
  | done | crash => simp only [Work.advance]
  | _ => cases h

theorem Work.isComplete_of_hasCrashed {w : Work} (h : w.hasCrashed = true) :
    w.isComplete = true := by
  cases w with
  | crash => rfl
  | _ => cases h

/-- The routine runs a pipe. -/
def Routine.isPipe : Routine → Bool
  | .beginPipe _ | .runPipe .. => true
  | _ => false

namespace System

/-! ## What stays as it is -/

/-- The shell and the tasks are the same. -/
structure Steady (s s' : System) : Prop where
  shell : s'.shell = s.shell
  tasks : s'.tasks = s.tasks

section

variable {s s' s'' : System}

theorem Steady.refl (s : System) : Steady s s :=
  ⟨rfl, rfl⟩

theorem Steady.trans (h : Steady s s') (h' : Steady s' s'') : Steady s s'' :=
  ⟨h'.shell.trans h.shell, h'.tasks.trans h.tasks⟩

theorem Steady.foldl {α : Type} {step : System → α → System} (h : ∀ s a, Steady s (step s a))
    (s : System) (list : List α) : Steady s (list.foldl step s) := by
  induction list generalizing s with
  | nil => exact .refl s
  | cons a list ih => exact (h s a).trans (ih _)

theorem Steady.workOf (h : Steady s s') (task : TaskId) : s'.workOf task = s.workOf task := by
  rw [System.workOf, System.workOf, h.tasks]

theorem steady_updateMachine (s : System) (change : Machine → Machine) :
    Steady s (s.updateMachine change) :=
  ⟨rfl, rfl⟩

theorem steady_updateChannel (s : System) (id : ChannelId) (change : Channel → Channel) :
    Steady s (s.updateChannel id change) :=
  ⟨rfl, rfl⟩

theorem steady_machine (s : System) (machine : Machine) : Steady s { s with machine } :=
  ⟨rfl, rfl⟩

theorem steady_updateRunner (s : System) (r : RunnerId) (change : Runner → Runner) :
    Steady s (s.updateRunner r change) :=
  ⟨rfl, rfl⟩

theorem steady_dropSubscribers (s : System) (channels : List ChannelId) :
    Steady s (s.dropSubscribers channels) :=
  .foldl (fun s id => steady_updateChannel s id _) s channels

theorem steady_closeWriter (s : System) (id : WriterId) : Steady s (s.closeWriter id) := by
  unfold closeWriter
  simp only
  split
  · exact ⟨rfl, rfl⟩
  · exact .refl s

/-! ### The end of a run -/

theorem steady_tell {react : Signal → System → System} (h : ∀ signal s, Steady s (react signal s))
    (r : RunnerId) (listeners : List Listener) (s : System) (e : Event) :
    Steady s (tell react r listeners s e) := by
  refine .foldl (fun s l => ?_) s _
  have hnoted : Steady s { s with journal := (r, e) :: s.journal } := ⟨rfl, rfl⟩
  simp only
  split
  · exact hnoted.trans (h _ _)
  · exact hnoted

theorem steady_finishWith {react : Signal → System → System}
    (h : ∀ signal s, Steady s (react signal s)) (r : RunnerId) (code : Int) (s : System) :
    Steady s (finishWith react r code s) := by
  unfold finishWith
  simp only
  split
  · exact .refl s
  refine Steady.trans ?_ (.foldl (fun s e => steady_tell h r _ s e) _ _)
  refine Steady.trans ?_ (steady_updateRunner _ r _)
  have hdrop := steady_dropSubscribers s (s.runner r).subscribers
  have hunregister : ∀ t, Steady s t → Steady s (t.unregister r) := fun _ h => h.trans ⟨rfl, rfl⟩
  split
  · refine hunregister _ ?_
    split
    · exact hdrop.trans (steady_closeWriter _ _)
    · exact hdrop
  · split
    · exact hdrop.trans (steady_closeWriter _ _)
    · exact hdrop

/-- A kill reaches runners and their processes, and nothing else. -/
theorem steady_killWithin (depth : Nat) (signal : Signal) (r : RunnerId) (s : System) :
    Steady s (killWithin depth signal r s) := by
  induction depth generalizing signal r s with
  | zero => exact .refl s
  | succ depth ih =>
    have hreach : ∀ signal s, Steady s ((s.runner r).job.stages.foldl
        (fun s stage => killWithin depth signal stage s) (s.signalChildren r signal)) :=
      fun signal s => (steady_updateMachine s _).trans
        (.foldl (fun s stage => ih signal stage s) _ _)
    unfold killWithin
    simp only
    split
    · exact hreach signal s
    · exact ((hreach signal s).trans (steady_updateMachine _ _)).trans
        (steady_finishWith hreach r _ _)

theorem steady_kill (s : System) (signal : Signal) (r : RunnerId) : Steady s (s.kill signal r) :=
  steady_killWithin (r + 1) signal r s

theorem steady_finish (s : System) (r : RunnerId) (code : Int) : Steady s (s.finish r code) :=
  steady_finishWith (fun signal s => steady_kill s signal r) r code s

theorem steady_emit (s : System) (r : RunnerId) (e : Event) : Steady s (s.emit r e) :=
  steady_tell (fun signal s => steady_kill s signal r) r _ s e

theorem steady_emitAll (s : System) (r : RunnerId) (events : List Event) :
    Steady s (s.emitAll r events) :=
  .foldl (fun s e => steady_tell (fun signal s => steady_kill s signal r) r _ s e) s events

/-! ### Deliveries -/

theorem steady_beginDelivery (s : System) (r : RunnerId) (chunk : Chunk) :
    Steady s (s.beginDelivery r chunk).1 := by
  unfold beginDelivery
  simp only
  split
  · exact .refl s
  · refine Steady.trans ?_ (steady_emitAll _ r _)
    refine Steady.trans ?_ (.foldl (fun s id => steady_updateChannel s id _) _ _)
    split <;> split <;> exact ⟨rfl, rfl⟩

theorem steady_endDelivery (s : System) (d : Delivery) : Steady s (s.endDelivery d) := by
  unfold endDelivery
  refine Steady.trans ?_ (steady_dropSubscribers _ _)
  split
  · exact steady_updateChannel s _ _
  · exact .refl s

theorem steady_forgetClosed (s : System) (r : RunnerId) : Steady s (s.forgetClosed r) :=
  (steady_dropSubscribers s _).trans (steady_updateRunner _ r _)

theorem steady_deliverTo (r : RunnerId) (d : Delivery) (remaining : List ChannelId)
    (ticket : Option Ticket) (s : System) : Steady s (deliverTo r d remaining ticket s).1 := by
  induction remaining generalizing ticket s with
  | nil => exact (steady_endDelivery s _).trans (steady_forgetClosed _ r)
  | cons id rest ih =>
    unfold deliverTo
    split
    · exact steady_endDelivery s _
    split
    · exact (steady_machine s _).trans (ih _ _)
    · exact steady_machine s _

theorem steady_deliver (s : System) (r : RunnerId) (d : Delivery) : Steady s (s.deliver r d).1 :=
  steady_deliverTo r d _ _ s

/-! ### Other tasks -/

theorem steady_abandonWork (s : System) (io : Streams) : Steady s (s.abandonWork io) := by
  obtain ⟨stdin, stdout, stderr⟩ := io
  cases stdout <;> cases stderr <;> exact ⟨rfl, rfl⟩

theorem runWork_spec (s : System) (w : Work) (io : Streams) : Steady s (s.runWork w io).1 ∧
    (s.runWork w io).2 = .work (w.advance s.machine).2 io := by
  unfold runWork
  split
  · rename_i hcrashed
    rw [Work.advance_of_isComplete (Work.isComplete_of_hasCrashed hcrashed)]
    exact ⟨.refl s, rfl⟩
  · refine ⟨?_, rfl⟩
    dsimp only
    split
    · exact (steady_machine s _).trans (steady_abandonWork _ io)
    · exact steady_machine s _

theorem forward_spec (channel : ChannelId) (pieces : List Bytes) (ticket : Option Ticket)
    (s : System) : Steady s (forward channel pieces ticket s).1 ∧
      (forward channel pieces ticket s).2.isResting = true := by
  induction pieces generalizing ticket s with
  | nil => exact ⟨steady_updateChannel s _ _, rfl⟩
  | cons piece rest ih =>
    unfold forward
    split
    · exact ⟨(steady_machine s _).trans (ih _ _).1, (ih _ _).2⟩
    · exact ⟨(steady_machine s _).trans (steady_updateChannel _ _ _), rfl⟩
    · exact ⟨steady_machine s _, rfl⟩

theorem resting_spec (s : System) {routine : Routine} (h : routine.isResting = true) :
    Steady s (s.runRoutine routine).1 ∧ (s.runRoutine routine).2.isResting = true := by
  cases routine with
  | ended => exact ⟨.refl s, rfl⟩
  | watch r token =>
    simp only [runRoutine, watch]
    split
    · exact ⟨steady_kill s _ _, rfl⟩
    split
    · exact ⟨.refl s, rfl⟩
    · exact ⟨.refl s, rfl⟩
  | forward pieces channel ticket => exact forward_spec channel pieces ticket s
  | await token =>
    refine ⟨.refl s, ?_⟩
    simp only [runRoutine]
    split <;> rfl
  | work | beginLine | runLine | beginPipe | runPipe => cases h

/-! ### Command lines -/

/-- A turn of a command line that ends with this system and this routine. -/
inductive LineTurn (s : System) (r : RunnerId) (run : LineRun) : System × Routine → Prop where
  /-- It has more to do. -/
  | more {s' : System} {run' : LineRun} (hs : Steady s s') (hrun : run.Same run') :
      LineTurn s r run (s', .runLine r run')
  /-- It comes to its end. -/
  | ended {s' : System} (hcomplete : (s.workOf run.worker).isComplete = true)
      (hshell : s'.shell = s.shell.follow run (s.workOf run.worker)) (htasks : s'.tasks = s.tasks) :
      LineTurn s r run (s', .ended)
  /-- It has been killed. -/
  | killed {s' : System} (hs : Steady s s')
      (hset : s'.machine.isSet (s'.runner r).token = true) : LineTurn s r run (s', .ended)

theorem concludeLine_spec (s : System) (r : RunnerId) (run : LineRun) :
    LineTurn s r run (s.concludeLine r run) := by
  unfold concludeLine
  split
  · rename_i code ctx hw
    refine .ended (by rw [hw]; rfl) ?_ ?_
    · rw [(steady_finish _ r code).shell, hw]
      simp only [Shell.follow]
      split <;> rfl
    · rw [(steady_finish _ r code).tasks]
      split <;> rfl
  · rename_i hw
    have hsteady := (steady_emit s r (.error (.broken crashReason))).trans (steady_finish _ r 1)
    exact .ended (by rw [hw]; rfl) (by rw [hsteady.shell, hw]; rfl) hsteady.tasks
  · exact .more (.refl s) ⟨rfl, rfl, rfl⟩

theorem LineTurn.after {s s' : System} {r : RunnerId} {run run' : LineRun} {p : System × Routine}
    (hs : Steady s s') (hrun : run.Same run') (h : LineTurn s' r run' p) : LineTurn s r run p := by
  cases h with
  | more hs' hrun' => exact .more (hs.trans hs') (hrun.trans hrun')
  | ended hcomplete hshell htasks =>
    rw [hrun.worker, hs.workOf] at hcomplete hshell
    refine .ended hcomplete ?_ (htasks.trans hs.tasks)
    rw [hshell, hs.shell]
    unfold Shell.follow
    rw [hrun.cwd, hrun.entersShell]
  | killed hs' hset => exact .killed (hs.trans hs') hset

theorem runLineWithin_spec (r : RunnerId) (n : Nat) (run : LineRun) (s : System) :
    LineTurn s r run (runLineWithin r n run s) := by
  induction n generalizing run s with
  | zero => exact .more (.refl s) ⟨rfl, rfl, rfl⟩
  | succ n ih =>
    unfold runLineWithin
    split
    · rename_i d _
      have hdeliver := steady_deliver s r d
      split
      · rename_i heq
        rw [heq] at hdeliver
        exact .more hdeliver ⟨rfl, rfl, rfl⟩
      · rename_i heq
        rw [heq] at hdeliver
        refine .after hdeliver ?_ (ih _ _)
        exact ⟨rfl, rfl, rfl⟩
    split
    · exact concludeLine_spec s r run
    split
    · rename_i hset
      exact .killed (steady_updateChannel s _ _) hset
    split
    · rename_i machine chunk _
      refine .after ((steady_machine s machine).trans (steady_beginDelivery _ r chunk)) ?_
        (ih { run with delivery := (beginDelivery { s with machine } r chunk).2 } _)
      exact ⟨rfl, rfl, rfl⟩
    · refine .after (steady_machine s _) ?_ (ih _ _)
      exact ⟨rfl, rfl, rfl⟩
    · exact .more (steady_machine s _) ⟨rfl, rfl, rfl⟩

end

/-! ## Tasks -/

/-- What a task does. -/
def routineAt (s : System) (task : TaskId) : Routine :=
  (s.tasks[task]?.map Task.routine).getD .ended

/-- A task does something else now. -/
def setTask (s : System) (task : TaskId) (routine : Routine) : System :=
  { s with tasks := s.tasks.setIfInBounds task ⟨routine, false⟩ }

section

variable {s s' : System} {task : TaskId}

theorem Steady.routineAt (h : Steady s s') (task : TaskId) :
    s'.routineAt task = s.routineAt task := by
  rw [System.routineAt, System.routineAt, h.tasks]

theorem routineAt_of_le (h : s.tasks.size ≤ task) : s.routineAt task = .ended := by
  rw [routineAt, Array.getElem?_eq_none h]
  rfl

theorem lt_of_routineAt {routine : Routine} (h : s.routineAt task = routine)
    (hne : routine ≠ .ended) : task < s.tasks.size :=
  Nat.lt_of_not_le fun hle => hne (h.symm.trans (routineAt_of_le hle))

theorem workOf_eq (s : System) (task : TaskId) :
    s.workOf task = match s.routineAt task with
      | .work w _ => w
      | _ => .crash := by
  unfold workOf routineAt
  cases h : s.tasks[task]? with
  | none => rfl
  | some t =>
    obtain ⟨routine, queued⟩ := t
    cases routine <;> rfl

theorem workOf_work {w : Work} {io : Streams} (h : s.routineAt task = .work w io) :
    s.workOf task = w := by
  rw [workOf_eq, h]

theorem routineAt_setTask_self {routine : Routine} (h : task < s.tasks.size) :
    (s.setTask task routine).routineAt task = routine := by
  simp [routineAt, setTask, h]

theorem routineAt_setTask_ne (s : System) {task task' : TaskId} (routine : Routine)
    (h : task' ≠ task) : (s.setTask task routine).routineAt task' = s.routineAt task' := by
  simp [routineAt, setTask, Ne.symm h]

theorem routineAt_spawn_size (s : System) (routine : Routine) :
    (s.spawn routine).2.routineAt s.tasks.size = routine := by
  simp [routineAt, spawn]

theorem routineAt_spawn_ne (s : System) (routine : Routine) (h : task ≠ s.tasks.size) :
    (s.spawn routine).2.routineAt task = s.routineAt task := by
  simp [routineAt, spawn, Array.getElem?_push, h]

theorem takeTurn_eq (h : task < s.tasks.size) :
    s.takeTurn task = (((s.updateMachine Machine.beginTurn).runRoutine (s.routineAt task)).1.setTask
      task ((s.updateMachine Machine.beginTurn).runRoutine (s.routineAt task)).2) := by
  simp only [takeTurn, routineAt, Array.getElem?_eq_getElem h]
  rfl

theorem takeTurn_of_le (h : s.tasks.size ≤ task) : s.takeTurn task = s := by
  simp only [takeTurn, Array.getElem?_eq_none h]

/-! ## Turns -/

/-- A task that rests goes on to rest, and all else is as it was. -/
theorem takeTurn_resting (h : (s.routineAt task).isResting = true) :
    (s.takeTurn task).shell = s.shell ∧
      (∀ other, other ≠ task → (s.takeTurn task).routineAt other = s.routineAt other) ∧
      ((s.takeTurn task).routineAt task).isResting = true := by
  by_cases hlt : task < s.tasks.size
  · have hspec := resting_spec (s.updateMachine Machine.beginTurn) h
    have hsteady := (steady_updateMachine s Machine.beginTurn).trans hspec.1
    rw [takeTurn_eq hlt]
    refine ⟨hsteady.shell, fun other hne => ?_, ?_⟩
    · rw [routineAt_setTask_ne _ _ hne]
      exact hsteady.routineAt other
    · rw [routineAt_setTask_self (hsteady.tasks ▸ hlt)]
      exact hspec.2
  · rw [takeTurn_of_le (Nat.le_of_not_lt hlt)]
    exact ⟨rfl, fun _ _ => rfl, h⟩

/-- Work goes on, and all else is as it was. -/
theorem takeTurn_work {w : Work} {io : Streams} (h : s.routineAt task = .work w io) :
    (s.takeTurn task).shell = s.shell ∧
      (∀ other, other ≠ task → (s.takeTurn task).routineAt other = s.routineAt other) ∧
      (s.takeTurn task).routineAt task = .work (w.advance s.machine.beginTurn).2 io := by
  have hlt := lt_of_routineAt h (by rintro ⟨⟩)
  obtain ⟨hrun, hw⟩ := runWork_spec (s.updateMachine Machine.beginTurn) w io
  have hsteady := (steady_updateMachine s Machine.beginTurn).trans hrun
  rw [takeTurn_eq hlt, h]
  refine ⟨hsteady.shell, fun other hne => ?_, ?_⟩
  · rw [routineAt_setTask_ne _ _ hne]
    exact hsteady.routineAt other
  · rw [routineAt_setTask_self (by exact hsteady.tasks ▸ hlt)]
    exact hw

/-- The turn of a task that runs a command line. -/
theorem takeTurn_runLine {r : RunnerId} {run : LineRun} (h : s.routineAt task = .runLine r run) :
    ∃ p, LineTurn s r run p ∧ s.takeTurn task = p.1.setTask task p.2 :=
  ⟨_, .after (steady_updateMachine s Machine.beginTurn) ⟨rfl, rfl, rfl⟩
    (runLineWithin_spec r turnSteps run _),
    by rw [takeTurn_eq (lt_of_routineAt h (by rintro ⟨⟩)), h]; rfl⟩

/-- The turn of a task that begins to run a command line: there is work, as the next task. -/
theorem takeTurn_beginLine {r : RunnerId} {start : LineStart}
    (h : s.routineAt task = .beginLine r start) :
    ∃ (t : System) (io : Streams) (output : ChannelId) (p : System × Routine),
      Steady s t ∧
      LineTurn (t.spawn (.work (lineActivity start.text start.operators start.ctx io .done) io)).2 r
        ⟨s.tasks.size, output, start.ctx.cwd, start.entersShell, none, false⟩ p ∧
      s.takeTurn task = p.1.setTask task p.2 := by
  let t := ((s.updateMachine Machine.beginTurn).newChannel outputCapacity).2.updateChannel
    ((s.updateMachine Machine.beginTurn).newChannel outputCapacity).1 Channel.addWriter
  refine ⟨t, _, _, (s.updateMachine Machine.beginTurn).runRoutine (.beginLine r start), ⟨rfl, rfl⟩,
    runLineWithin_spec r turnSteps _ _, ?_⟩
  rw [takeTurn_eq (lt_of_routineAt h (by rintro ⟨⟩)), h]

theorem workOf_of_isResting (h : (s.routineAt task).isResting = true) : s.workOf task = .crash := by
  rw [workOf_eq]
  split
  · rename_i w io hat
    rw [hat] at h
    cases h
  · rfl

theorem LineTurn.workOf_setTask {r : RunnerId} {run : LineRun} {p : System × Routine}
    (h : LineTurn s r run p) (hlt : task < s.tasks.size) :
    (p.1.setTask task p.2).workOf task = .crash := by
  rw [workOf_eq]
  cases h with
  | more hs => rw [routineAt_setTask_self (by exact hs.tasks ▸ hlt)]
  | ended _ _ htasks => rw [routineAt_setTask_self (by exact htasks ▸ hlt)]
  | killed hs => rw [routineAt_setTask_self (by exact hs.tasks ▸ hlt)]

/-- In a turn the work of a task goes on, if it has any. -/
theorem workOf_takeTurn (hpipe : (s.routineAt task).isPipe = false) :
    (s.takeTurn task).workOf task = ((s.workOf task).advance s.machine.beginTurn).2 := by
  have none : s.workOf task = .crash → (s.takeTurn task).workOf task = .crash →
      (s.takeTurn task).workOf task = ((s.workOf task).advance s.machine.beginTurn).2 := by
    intro hbefore hafter
    rw [hbefore, hafter, Work.advance_of_isComplete rfl]
  cases hat : s.routineAt task with
  | work w io => rw [workOf_work hat, workOf_work (takeTurn_work hat).2.2]
  | beginLine r start =>
    obtain ⟨t, io, output, p, ht, hturn, heq⟩ := takeTurn_beginLine hat
    refine none (by rw [workOf_eq, hat]) (heq ▸ hturn.workOf_setTask ?_)
    have hlt := lt_of_routineAt hat (by rintro ⟨⟩)
    rw [← ht.tasks] at hlt
    simp only [spawn, Array.size_push]
    exact Nat.lt_succ_of_lt hlt
  | runLine r run =>
    obtain ⟨p, hturn, heq⟩ := takeTurn_runLine hat
    exact none (by rw [workOf_eq, hat])
      (heq ▸ hturn.workOf_setTask (lt_of_routineAt hat (by rintro ⟨⟩)))
  | ended | watch | forward | await =>
    have hrest : (s.routineAt task).isResting = true := by rw [hat]; rfl
    exact none (workOf_of_isResting hrest) (workOf_of_isResting (takeTurn_resting hrest).2.2)
  | beginPipe | runPipe => rw [hat] at hpipe; cases hpipe

end
end System
end Runnel
