import Runnel.Proofs.Flow.LineByLine
import Runnel.Proofs.Flow.Placing
import Runnel.Proofs.Runner.Beginning
import Runnel.Proofs.Runner.Steady
import Runnel.Runner.Schedule

/-!
# Runnel.Proofs.Runner.Succession

Command lines that are run one after another through one shell. Each begins in the directory in
which the one before it ended, but with the variables that the shell has had all along: the end of a
line changes the directory of the shell and not its variable. So the variable shows the directory to
the commands of a line if the line begins in the directory that the variable of the shell shows, or
once the line itself has changed its directory, and not otherwise.

* `LineRecord`: what is known of a line, and where its commands were started.
* `System.Lines`: systems in which lines are run one after another, with the records of the lines.
* `System.Stage`: how far the last line is. `System.Stage.turn`: every turn of every task keeps it.
* `System.exists_turn`, `System.exists_serveFirst`: turns can be taken, also in the order of the
  line.
* `System.pwd_of_lines`: what the commands of all lines find in the variable.
-/

namespace Runnel

/-! ## Records -/

/-- A line that has begun. -/
structure LineRecord where
  /-- Where it began. -/
  start : Place
  /-- Where its commands were started. -/
  starts : List Place
  /-- Where it ended, if it has come to its end. -/
  finish : Option Place
  deriving Repr, DecidableEq

namespace LineRecord

/-- A line that has just begun. -/
def ofStart (start : Place) : LineRecord :=
  ⟨start, [], none⟩

/-- The work of a line has shown some events, and this is left of it. -/
def add (line : LineRecord) (events : List Work.Event) (w : Work) : LineRecord :=
  { line with starts := line.starts ++ Work.starts events, finish := w.finish? }

/-- The working directory of the shell after the line: that in which it ended, and the old one if it
is spelt with the same components or the line has broken down. -/
def leaves (line : LineRecord) : String :=
  match line.finish with
  | none => line.start.cwd
  | some p =>
    if Path.isSame p.cwd line.start.cwd then line.start.cwd else Path.join line.start.cwd p.cwd

/-- The working directory of a shell that had `dir` before some lines, the last line first. -/
def lastOf (dir : String) : List LineRecord → String
  | [] => dir
  | line :: _ => line.leaves

/-- Each line begins in the directory that the lines before it have left. -/
def Chained (dir : String) : List LineRecord → Prop
  | [] => True
  | line :: past => line.start.cwd = lastOf dir past ∧ Chained dir past

end LineRecord

namespace Routine

/-- The routine has nothing to do with a line that has not come to its end. -/
def isIdle : Routine → Bool
  | .work w _ => w.isComplete
  | routine => routine.isResting

/-- The runner whose line the routine runs. -/
def line? : Routine → Option RunnerId
  | .beginLine r _ | .runLine r _ => some r
  | _ => none

theorem isIdle_of_isResting {routine : Routine} (h : routine.isResting = true) :
    routine.isIdle = true := by
  cases routine with
  | ended | watch | forward | await => rfl
  | work | beginLine | runLine | beginPipe | runPipe => cases h

end Routine

namespace System

/-! ## One line after another -/

/-- No line runs. -/
def Idle (s : System) : Prop :=
  ∀ task, (s.routineAt task).isIdle = true

instance (s : System) : Decidable s.Idle :=
  decidable_of_iff (∀ task < s.tasks.size, (s.routineAt task).isIdle = true) <| by
    refine ⟨fun h task => ?_, fun h task _ => h task⟩
    by_cases hlt : task < s.tasks.size
    · exact h task hlt
    · rw [routineAt_of_le (Nat.le_of_not_lt hlt)]
      rfl

/-- A runner of a command line that has not begun, and whose options leave the directory and its
variable alone. -/
structure LineReady (s : System) (r : RunnerId) : Prop where
  phase : (s.runner r).phase = .pending
  line : ∃ text, (s.runner r).job = .line text
  cwd : (s.runner r).options.cwd = none
  env : ∀ e ∈ (s.runner r).options.env, e.1 ≠ "PWD"

instance (s : System) (r : RunnerId) : Decidable (s.LineReady r) :=
  decidable_of_iff ((s.runner r).phase = .pending ∧ (s.runner r).job.stages = [] ∧
    (s.runner r).options.cwd = none ∧ ∀ e ∈ (s.runner r).options.env, e.1 ≠ "PWD") <| by
    have hjob : (s.runner r).job.stages = [] ↔ ∃ text, (s.runner r).job = .line text := by
      cases (s.runner r).job <;> simp [Job.stages]
    rw [hjob]
    exact ⟨fun ⟨hphase, hline, hcwd, henv⟩ => ⟨hphase, hline, hcwd, henv⟩,
      fun h => ⟨h.phase, h.line, h.cwd, h.env⟩⟩

/-- Something happens that has nothing to do with lines: the directory of the shell and its variable
stay, and so do the tasks that run lines or work. -/
structure Meanwhile (s s' : System) : Prop where
  cwd : s'.shell.cwd = s.shell.cwd
  pwd : s'.shell.env.get? "PWD" = s.shell.env.get? "PWD"
  tasks : ∀ task, s'.routineAt task = s.routineAt task ∨
    (s.routineAt task).isResting = true ∧ (s'.routineAt task).isResting = true

/-- In its turn the work of a task shows these events, among them all that it does. -/
def TurnShows (s : System) (task : TaskId) (events : List Work.Event) : Prop :=
  Work.Covers (Machine.Keeps s.machine.beginTurn) (s.workOf task)
    ((s.workOf task).perform s.machine.beginTurn).deeds events ((s.takeTurn task).workOf task)

/-- The runner whose line a task runs has not been killed once the task has taken its turn. -/
def TurnLives (s : System) (task : TaskId) : Prop :=
  ∀ r, (s.routineAt task).line? = some r →
    (s.takeTurn task).machine.isSet ((s.takeTurn task).runner r).token = false

instance (s : System) (task : TaskId) : Decidable (s.TurnLives task) :=
  decidable_of_iff (∀ r ∈ (s.routineAt task).line?,
    (s.takeTurn task).machine.isSet ((s.takeTurn task).runner r).token = false) .rfl

/-- The record of the last line after the turn of a task, if the turn shows these events. -/
def recordTurn (s : System) (task : TaskId) (events : List Work.Event) (line : LineRecord) :
    LineRecord :=
  if (s.workOf task).isComplete then line
  else line.add events ((s.takeTurn task).workOf task)

/-- The systems that `first` may become if lines are run in it one after another, each to its
natural end, with the records of the lines, the last one first. Turns are taken by any tasks in any
order. -/
inductive Lines (first : System) : List LineRecord → System → Prop where
  /-- Nothing has happened. -/
  | none : Lines first [] first
  /-- A line begins, while no other one runs. -/
  | start {log : List LineRecord} {s : System} {r : RunnerId} (h : Lines first log s)
      (hidle : s.Idle) (hscheduled : s.scheduled = true) (hready : s.LineReady r) :
      Lines first (.ofStart (s.contextOf r).place :: log) (s.start r).2
  /-- A task takes its turn, in which nobody kills the runner whose line it runs. -/
  | turn {log : List LineRecord} {s : System} {task : TaskId} {events : List Work.Event}
      (h : Lines first log s) (hlive : s.TurnLives task) (hshows : s.TurnShows task events) :
      Lines first (log.modify 0 (s.recordTurn task events)) (s.takeTurn task)
  /-- Something else happens. -/
  | meanwhile {log : List LineRecord} {s s' : System} (h : Lines first log s)
      (hmeanwhile : Meanwhile s s') : Lines first log s'

/-! ## The beginning of a line -/

section

variable {s s' : System} {r : RunnerId}

theorem lt_of_pending (h : (s.runner r).phase = .pending) : r < s.runners.size := by
  refine Nat.lt_of_not_le fun hle => ?_
  rw [runner_of_le hle] at h
  cases h

theorem routineAt_spawn (s : System) (routine : Routine) (task : TaskId) :
    (s.spawn routine).2.routineAt task =
      if task = s.tasks.size then routine else s.routineAt task := by
  split
  · rename_i h
    rw [h, routineAt_spawn_size]
  · rename_i h
    rw [routineAt_spawn_ne s routine h]

/-- A new task that rests changes nothing for lines. -/
theorem meanwhile_spawn (s : System) {routine : Routine} (h : routine.isResting = true) :
    Meanwhile s (s.spawn routine).2 := by
  refine ⟨rfl, rfl, fun task => ?_⟩
  rw [routineAt_spawn]
  split
  · rename_i heq
    exact .inr ⟨by rw [routineAt_of_le (Nat.le_of_eq heq.symm)]; rfl, h⟩
  · exact .inl rfl

theorem Steady.meanwhile (h : Steady s s') : Meanwhile s s' :=
  ⟨by rw [h.shell], by rw [h.shell], fun task => .inl (h.routineAt task)⟩

theorem Meanwhile.trans {s'' : System} (h : Meanwhile s s') (h' : Meanwhile s' s'') :
    Meanwhile s s'' := by
  refine ⟨h'.cwd.trans h.cwd, h'.pwd.trans h.pwd, fun task => ?_⟩
  rcases h.tasks task with heq | ⟨hrest, hrest'⟩
  · rw [← heq]
    exact h'.tasks task
  · rcases h'.tasks task with heq' | ⟨_, hrest''⟩
    · exact .inr ⟨hrest, heq' ▸ hrest'⟩
    · exact .inr ⟨hrest, hrest''⟩

theorem Meanwhile.isIdle (h : Meanwhile s s') {task : TaskId}
    (hidle : (s.routineAt task).isIdle = true) : (s'.routineAt task).isIdle = true := by
  rcases h.tasks task with heq | ⟨_, hrest⟩
  · rw [heq]
    exact hidle
  · exact Routine.isIdle_of_isResting hrest

/-- A task that runs a line or works does so still. -/
theorem Meanwhile.routineAt_eq (h : Meanwhile s s') {task : TaskId}
    (hrest : (s.routineAt task).isResting = false) : s'.routineAt task = s.routineAt task := by
  rcases h.tasks task with heq | ⟨hrest', _⟩
  · exact heq
  · rw [hrest] at hrest'
    cases hrest'

theorem meanwhile_prepareInput (s : System) (r : RunnerId) (input : InputOption) :
    Meanwhile s (s.prepareInput r input).2 := by
  have hsame : ∀ {t : System}, t.shell = s.shell → t.tasks = s.tasks → Meanwhile s t :=
    fun hshell htasks => Steady.meanwhile ⟨hshell, htasks⟩
  cases input with
  | inherit | ignore | bytes data | text text => exact hsame rfl rfl
  | stream data =>
    have hchannel : Meanwhile s (s.newChannel inputCapacity).2 := hsame rfl rfl
    exact hchannel.trans (meanwhile_spawn _ rfl)
  | pipe => exact hsame rfl rfl

/-- A line begins in the directory of the shell and with its variable. -/
theorem LineReady.place (h : s.LineReady r) : (s.contextOf r).place.cwd = s.shell.cwd ∧
    (s.contextOf r).place.env.get? "PWD" = s.shell.env.get? "PWD" := by
  refine ⟨?_, Environment.get?_extend h.env _⟩
  show ((s.runner r).options.cwd.map s.shell.resolve).getD _ = _
  rw [h.cwd]
  rfl

/-- A runner that begins gets a task for its line, and nothing else happens to lines. -/
theorem LineReady.prepare (h : s.LineReady r) : ∃ start,
    ((s.launch r).prepare r).1 = .beginLine r start ∧
    start.ctx.place = (s.contextOf r).place ∧ start.entersShell = true ∧
    Meanwhile s ((s.launch r).prepare r).2 := by
  obtain ⟨text, hjob⟩ := h.line
  have hrunner : (s.launch r).runner r = { s.runner r with
      phase := .running
      settings := s.shell.settings
      registered := (s.supervisor.register r).1 } :=
    runner_updateRunner_self (lt_of_pending h.phase) _
  have hlaunch : Steady s (s.launch r) := ⟨rfl, rfl⟩
  simp only [System.prepare, hrunner, hjob]
  refine ⟨_, rfl, ?_, by rw [h.cwd]; rfl, ?_⟩
  · simp only [Context.place, contextOf, hrunner]
    rfl
  · exact hlaunch.meanwhile.trans ((steady_updateRunner _ r _).meanwhile.trans
      (meanwhile_prepareInput _ r _))

end

/-! ## How far a line is -/

/-- How far the line is that began last. -/
inductive Stage (s : System) (line : LineRecord) : Prop where
  /-- It waits for its turn. -/
  | waiting {task : TaskId} {r : RunnerId} {start : LineStart}
      (hat : s.routineAt task = .beginLine r start)
      (hothers : ∀ other, other ≠ task → (s.routineAt other).isIdle = true)
      (hctx : start.ctx.place = line.start) (henters : start.entersShell = true)
      (hcwd : s.shell.cwd = line.start.cwd) (hnew : line = .ofStart line.start)
  /-- It runs. -/
  | running {task : TaskId} {r : RunnerId} {run : LineRun} {w : Work} {io : Streams}
      (hat : s.routineAt task = .runLine r run) (hworker : s.routineAt run.worker = .work w io)
      (hothers : ∀ other, other ≠ task → other ≠ run.worker → (s.routineAt other).isIdle = true)
      (hdir : run.cwd = line.start.cwd) (henters : run.entersShell = true)
      (hcwd : s.shell.cwd = line.start.cwd) (hunderway : w.Underway line.start line.starts)
      (hfinish : line.finish = w.finish?)
  /-- It has come to its end, and the shell has followed it. -/
  | ended (hidle : s.Idle) (hcwd : s.shell.cwd = line.leaves)

section

variable {s s' : System} {line : LineRecord} {task : TaskId}

theorem complete_of_isIdle (h : (s.routineAt task).isIdle = true) :
    (s.workOf task).isComplete = true := by
  rw [workOf_eq]
  split
  · rename_i w io heq
    rw [heq] at h
    exact h
  · rfl

/-- The turn of a task that has nothing to do with a line that runs has nothing to do with it. -/
theorem meanwhile_takeTurn (h : (s.routineAt task).isIdle = true) :
    Meanwhile s (s.takeTurn task) := by
  by_cases hrest : (s.routineAt task).isResting = true
  · obtain ⟨hshell, hothers, hrest'⟩ := takeTurn_resting hrest
    refine ⟨by rw [hshell], by rw [hshell], fun other => ?_⟩
    by_cases hother : other = task
    · subst hother
      exact .inr ⟨hrest, hrest'⟩
    · exact .inl (hothers other hother)
  · cases hat : s.routineAt task with
    | work w io =>
      rw [hat] at h
      obtain ⟨hshell, hothers, hw⟩ := takeTurn_work hat
      refine ⟨by rw [hshell], by rw [hshell], fun other => .inl ?_⟩
      by_cases hother : other = task
      · rw [hother, hw, hat, Work.advance_of_isComplete h]
      · exact hothers other hother
    | ended | watch | forward | await => rw [hat] at hrest; exact absurd rfl hrest
    | beginLine | runLine | beginPipe | runPipe => rw [hat] at h; cases h

theorem Stage.meanwhile (h : Stage s line) (hm : Meanwhile s s') : Stage s' line := by
  cases h with
  | waiting hat hothers hctx henters hcwd hnew =>
    exact .waiting ((hm.routineAt_eq (by rw [hat]; rfl)).trans hat)
      (fun other hother => hm.isIdle (hothers other hother)) hctx henters (hm.cwd.trans hcwd) hnew
  | running hat hworker hothers hdir henters hcwd hunderway hfinish =>
    exact .running ((hm.routineAt_eq (by rw [hat]; rfl)).trans hat)
      ((hm.routineAt_eq (by rw [hworker]; rfl)).trans hworker)
      (fun other htask hother => hm.isIdle (hothers other htask hother)) hdir henters
      (hm.cwd.trans hcwd) hunderway hfinish
  | ended hidle hcwd => exact .ended (fun other => hm.isIdle (hidle other)) (hm.cwd.trans hcwd)

/-- A line begins. -/
theorem stage_start {r : RunnerId} (hidle : s.Idle) (hscheduled : s.scheduled = true)
    (hready : s.LineReady r) : Stage (s.start r).2 (.ofStart (s.contextOf r).place) ∧
      (s.start r).2.shell.env.get? "PWD" = s.shell.env.get? "PWD" := by
  obtain ⟨start, hroutine, hctx, henters, hm⟩ := hready.prepare
  have htask : Stage (s.launchTask r) (.ofStart (s.contextOf r).place) := by
    rw [launchTask, hroutine]
    refine .waiting (routineAt_spawn_size _ _) (fun other hother => ?_) hctx henters
      (hm.cwd.trans hready.place.1.symm) rfl
    rw [routineAt_spawn, if_neg hother]
    exact hm.isIdle (hidle other)
  rcases start_of_pending hscheduled hready.phase with heq | ⟨token, heq⟩
  · rw [heq]
    exact ⟨htask, hm.pwd⟩
  · rw [heq]
    exact ⟨htask.meanwhile (meanwhile_spawn _ rfl), hm.pwd⟩

/-- The directory of the shell after a line has come to its end. -/
theorem cwd_follow {run : LineRun} {w : Work} (hcomplete : w.isComplete = true)
    (hdir : run.cwd = line.start.cwd) (henters : run.entersShell = true)
    (hcwd : s.shell.cwd = line.start.cwd) (hfinish : line.finish = w.finish?) :
    (s.shell.follow run w).cwd = line.leaves := by
  rw [LineRecord.leaves, hfinish]
  cases w with
  | done code ctx =>
    simp only [Shell.follow, Work.finish?, henters, hdir, Bool.true_and, Bool.not_eq_true',
      Context.place]
    split
    · rename_i hsame
      rw [if_neg (by rw [hsame]; exact Bool.false_ne_true)]
      exact congrArg (Path.join · ctx.cwd) hcwd
    · rename_i hsame
      rw [if_pos (by simpa using hsame)]
      exact hcwd
  | crash => exact hcwd
  | _ => cases hcomplete

/-- The turn of the task with which a line begins. -/
theorem stage_beginLine {r : RunnerId} {start : LineStart}
    (hlive : (s.takeTurn task).machine.isSet ((s.takeTurn task).runner r).token = false)
    (hat : s.routineAt task = .beginLine r start)
    (hothers : ∀ other, other ≠ task → (s.routineAt other).isIdle = true)
    (hctx : start.ctx.place = line.start) (henters : start.entersShell = true)
    (hcwd : s.shell.cwd = line.start.cwd) (hnew : line = .ofStart line.start) :
    Stage (s.takeTurn task) line ∧ (s.takeTurn task).shell.env = s.shell.env := by
  have hlt := lt_of_routineAt hat (by rintro ⟨⟩)
  obtain ⟨t, io, output, p, ht, hturn, heq⟩ := takeTurn_beginLine hat
  obtain ⟨-, hbegins⟩ := lineActivity_begins start.text start.operators start.ctx io .done
  rw [heq] at hlive ⊢
  have hsize : t.tasks.size = s.tasks.size := by rw [ht.tasks]
  have hworker := routineAt_spawn_size t
    (.work (lineActivity start.text start.operators start.ctx io .done) io)
  rw [hsize] at hworker
  cases hturn with
  | @more s' run' hs hrun =>
    have hsize' : task < (t.spawn (.work (lineActivity start.text start.operators start.ctx io
        .done) io)).2.tasks.size := by
      simp only [spawn, Array.size_push, hsize]
      exact Nat.lt_succ_of_lt hlt
    rw [← show run'.worker = s.tasks.size from hrun.worker] at hworker
    refine ⟨.running (routineAt_setTask_self (by exact hs.tasks ▸ hsize'))
      ((routineAt_setTask_ne _ _ ?_).trans ((hs.routineAt _).trans hworker))
      (fun other htask hother => ?_) (hrun.cwd.trans (congrArg Place.cwd hctx))
      (hrun.entersShell.trans henters) ?_ ?_ ?_, ?_⟩
    · exact hrun.worker ▸ Nat.ne_of_gt hlt
    · rw [hrun.worker] at hother
      rw [routineAt_setTask_ne _ _ htask, hs.routineAt, routineAt_spawn, if_neg (hsize ▸ hother),
        ht.routineAt]
      exact hothers other htask
    · exact (congrArg Shell.cwd (hs.shell.trans ht.shell)).trans hcwd
    · rw [hnew, ← hctx]
      exact Work.underway_lineActivity _ _ _ _
    · rw [hnew, Work.finish?_eq_none hbegins]
      rfl
    · exact congrArg Shell.env (hs.shell.trans ht.shell)
  | ended hcomplete =>
    rw [workOf_work hworker, hbegins] at hcomplete
    cases hcomplete
  | killed _ hset => cases hset.symm.trans hlive

/-- The turn of the task that runs a line. -/
theorem stage_runLine {r : RunnerId} {run : LineRun} {w : Work} {io : Streams}
    (hlive : (s.takeTurn task).machine.isSet ((s.takeTurn task).runner r).token = false)
    (hat : s.routineAt task = .runLine r run) (hworker : s.routineAt run.worker = .work w io)
    (hothers : ∀ other, other ≠ task → other ≠ run.worker → (s.routineAt other).isIdle = true)
    (hdir : run.cwd = line.start.cwd) (henters : run.entersShell = true)
    (hcwd : s.shell.cwd = line.start.cwd) (hunderway : w.Underway line.start line.starts)
    (hfinish : line.finish = w.finish?) :
    Stage (s.takeTurn task) line ∧ (s.takeTurn task).shell.env = s.shell.env := by
  have hlt := lt_of_routineAt hat (by rintro ⟨⟩)
  have hne : run.worker ≠ task := by
    intro h
    rw [h, hat] at hworker
    cases hworker
  obtain ⟨p, hturn, heq⟩ := takeTurn_runLine hat
  rw [heq] at hlive ⊢
  cases hturn with
  | more hs hrun =>
    refine ⟨.running (routineAt_setTask_self (by exact hs.tasks ▸ hlt))
      ((routineAt_setTask_ne _ _ (hrun.worker ▸ hne)).trans ((hs.routineAt _).trans
        (hrun.worker ▸ hworker))) (fun other htask hother => ?_) (hrun.cwd.trans hdir)
      (hrun.entersShell.trans henters) ((congrArg Shell.cwd hs.shell).trans hcwd) hunderway hfinish,
      congrArg Shell.env hs.shell⟩
    rw [routineAt_setTask_ne _ _ htask, hs.routineAt]
    exact hothers other htask (hrun.worker ▸ hother)
  | @ended s' hcomplete hshell htasks =>
    rw [workOf_work hworker] at hcomplete hshell
    refine ⟨.ended (fun other => ?_) ?_, (congrArg Shell.env hshell).trans (Shell.env_follow _ _ _)⟩
    · by_cases htask : other = task
      · rw [htask, routineAt_setTask_self (by exact htasks ▸ hlt)]
        rfl
      rw [routineAt_setTask_ne _ _ htask, routineAt, htasks]
      by_cases hother : other = run.worker
      · rw [hother]
        show (s.routineAt run.worker).isIdle = true
        rw [hworker]
        exact hcomplete
      · exact hothers other htask hother
    · exact (congrArg Shell.cwd hshell).trans (cwd_follow hcomplete hdir henters hcwd hfinish)
  | killed _ hset => cases hset.symm.trans hlive

/-- The turn of the task that works for a line. -/
theorem stage_work {r : RunnerId} {run : LineRun} {w : Work} {io : Streams} {owner : TaskId}
    {events : List Work.Event} (htrail : line.start.Trail line.starts)
    (hshows : s.TurnShows run.worker events)
    (hat : s.routineAt owner = .runLine r run) (hworker : s.routineAt run.worker = .work w io)
    (hothers : ∀ other, other ≠ owner → other ≠ run.worker → (s.routineAt other).isIdle = true)
    (hdir : run.cwd = line.start.cwd) (henters : run.entersShell = true)
    (hcwd : s.shell.cwd = line.start.cwd) (hunderway : w.Underway line.start line.starts) :
    Stage (s.takeTurn run.worker)
        (line.add events ((s.takeTurn run.worker).workOf run.worker)) ∧
      line.start.Trail (line.starts ++ Work.starts events) := by
  have hne : owner ≠ run.worker := by
    intro h
    rw [h, hworker] at hat
    cases hat
  obtain ⟨hshell, hsame, hw'⟩ := takeTurn_work hworker
  have hsteps := hshows.steps
  rw [workOf_work hworker, workOf_work hw'] at hsteps
  obtain ⟨hunderway', htrail'⟩ := hunderway.steps htrail hsteps
  refine ⟨.running ((hsame owner hne).trans hat) hw' (fun other howner hother => ?_) hdir henters
    ((congrArg Shell.cwd hshell).trans hcwd) hunderway' ?_, htrail'⟩
  · rw [hsame other hother]
    exact hothers other howner hother
  · rw [workOf_work hw']
    rfl

/-- What the turn of a task does to the last line. -/
theorem Stage.turn {events : List Work.Event} (h : Stage s line)
    (htrail : line.start.Trail line.starts) (hlive : s.TurnLives task)
    (hshows : s.TurnShows task events) :
    (s.takeTurn task).shell.env.get? "PWD" = s.shell.env.get? "PWD" ∧
      Stage (s.takeTurn task) (s.recordTurn task events line) ∧
      line.start.Trail (s.recordTurn task events line).starts := by
  by_cases hidle : (s.routineAt task).isIdle = true
  · -- A task with nothing to do with the line has no work, or has done it.
    have hm := meanwhile_takeTurn hidle
    rw [recordTurn, if_pos (complete_of_isIdle hidle)]
    exact ⟨hm.pwd, h.meanwhile hm, htrail⟩
  cases h with
  | @waiting owner r start hat hothers hctx henters hcwd hnew =>
    obtain rfl : task = owner := Classical.byContradiction fun hne => hidle (hothers task hne)
    obtain ⟨hstage, henv⟩ := stage_beginLine (hlive r (by rw [hat]; rfl)) hat hothers hctx henters
      hcwd hnew
    rw [recordTurn, if_pos (by rw [workOf_eq, hat]; rfl)]
    exact ⟨by rw [henv], hstage, htrail⟩
  | @running owner r run w io hat hworker hothers hdir henters hcwd hunderway hfinish =>
    by_cases howner : task = owner
    · subst howner
      obtain ⟨hstage, henv⟩ := stage_runLine (hlive r (by rw [hat]; rfl)) hat hworker hothers hdir
        henters hcwd hunderway hfinish
      rw [recordTurn, if_pos (by rw [workOf_eq, hat]; rfl)]
      exact ⟨by rw [henv], hstage, htrail⟩
    obtain rfl : task = run.worker :=
      Classical.byContradiction fun hne => hidle (hothers task howner hne)
    rw [hworker] at hidle
    rw [recordTurn, if_neg (by rw [workOf_work hworker]; exact hidle), (takeTurn_work hworker).1]
    exact ⟨rfl, stage_work htrail hshows hat hworker hothers hdir henters hcwd hunderway⟩
  | ended hall => exact absurd (hall task) hidle

end

/-! ## Any number of lines -/

/-- What is true of all lines that have begun in a shell with this directory and this variable, and
how far the last one is. -/
structure Succession (dir : String) (pwd : Option String) (log : List LineRecord) (s : System) :
    Prop where
  chained : LineRecord.Chained dir log
  lines : ∀ line ∈ log, line.start.env.get? "PWD" = pwd ∧ line.start.Trail line.starts
  pwd : s.shell.env.get? "PWD" = pwd
  stage : match log with
    | [] => s.Idle ∧ s.shell.cwd = dir
    | line :: _ => s.Stage line

section

variable {dir : String} {pwd : Option String} {log : List LineRecord} {s s' : System}

theorem Stage.leaves_of_idle {line : LineRecord} (h : Stage s line) (hidle : s.Idle) :
    s.shell.cwd = line.leaves := by
  cases h with
  | @waiting task _ _ hat =>
    have h := hidle task
    rw [hat] at h
    cases h
  | @running task _ _ _ _ hat =>
    have h := hidle task
    rw [hat] at h
    cases h
  | ended _ hcwd => exact hcwd

/-- When no line runs, the shell is where the last line has left it. -/
theorem Succession.cwd_of_idle (h : Succession dir pwd log s) (hidle : s.Idle) :
    s.shell.cwd = LineRecord.lastOf dir log := by
  cases log with
  | nil => exact h.stage.2
  | cons line past => exact Stage.leaves_of_idle h.stage hidle

theorem Succession.start {r : RunnerId} (h : Succession dir pwd log s) (hidle : s.Idle)
    (hscheduled : s.scheduled = true) (hready : s.LineReady r) :
    Succession dir pwd (.ofStart (s.contextOf r).place :: log) (s.start r).2 := by
  obtain ⟨hcwd, hpwd⟩ := hready.place
  obtain ⟨hstage, hkept⟩ := stage_start hidle hscheduled hready
  refine ⟨⟨hcwd.trans (h.cwd_of_idle hidle), h.chained⟩, ?_, hkept.trans h.pwd, hstage⟩
  exact List.forall_mem_cons.mpr ⟨⟨hpwd.trans h.pwd, .nil _⟩, h.lines⟩

theorem Succession.meanwhile (h : Succession dir pwd log s) (hm : Meanwhile s s') :
    Succession dir pwd log s' := by
  refine ⟨h.chained, h.lines, hm.pwd.trans h.pwd, ?_⟩
  cases log with
  | nil => exact ⟨fun task => hm.isIdle (h.stage.1 task), hm.cwd.trans h.stage.2⟩
  | cons line past => exact Stage.meanwhile h.stage hm

theorem Succession.turn {task : TaskId} {events : List Work.Event} (h : Succession dir pwd log s)
    (hlive : s.TurnLives task) (hshows : s.TurnShows task events) :
    Succession dir pwd (log.modify 0 (s.recordTurn task events)) (s.takeTurn task) := by
  cases log with
  | nil => exact h.meanwhile (meanwhile_takeTurn (h.stage.1 task))
  | cons line past =>
    obtain ⟨⟨hline, htrail⟩, hpast⟩ := List.forall_mem_cons.mp h.lines
    obtain ⟨hkept, hstage, htrail'⟩ := Stage.turn h.stage htrail hlive hshows
    have hstart : (s.recordTurn task events line).start = line.start := by
      unfold recordTurn
      split <;> rfl
    refine ⟨⟨?_, h.chained.2⟩, List.forall_mem_cons.mpr ⟨?_, hpast⟩, hkept.trans h.pwd, hstage⟩
    · rw [hstart]
      exact h.chained.1
    · rw [hstart]
      exact ⟨hline, htrail'⟩

end

theorem succession_of_lines {machine : Machine} {shell : Shell} {log : List LineRecord} {s : System}
    (h : Lines (ofShell machine shell) log s) :
    Succession shell.cwd (shell.env.get? "PWD") log s := by
  induction h with
  | none =>
    refine ⟨trivial, List.forall_mem_nil _, rfl, fun task => ?_, rfl⟩
    rw [routineAt_of_le (Nat.zero_le task)]
    rfl
  | start _ hidle hscheduled hready ih => exact ih.start hidle hscheduled hready
  | turn _ hlive hshows ih => exact ih.turn hlive hshows
  | meanwhile _ hm ih => exact ih.meanwhile hm

/-! ## Turns can be taken -/

theorem exists_turnShows {s : System} {task : TaskId} (hpipe : (s.routineAt task).isPipe = false) :
    ∃ events, s.TurnShows task events := by
  obtain ⟨⟨events, hcovers⟩, -⟩ := Work.perform_steps
    (Work.stable_keeps s.machine.beginTurn) (s.workOf task) s.machine.beginTurn (.refl _)
  refine ⟨events, ?_⟩
  rw [TurnShows, workOf_takeTurn hpipe, ← Work.perform_eq]
  exact hcovers

theorem Succession.isPipe_eq_false {dir : String} {pwd : Option String} {log : List LineRecord}
    {s : System} (h : Succession dir pwd log s) (task : TaskId) :
    (s.routineAt task).isPipe = false := by
  have idle : (s.routineAt task).isIdle = true → (s.routineAt task).isPipe = false := by
    intro hidle
    cases hat : s.routineAt task with
    | beginPipe | runPipe => rw [hat] at hidle; cases hidle
    | _ => rfl
  cases log with
  | nil => exact idle (h.stage.1 task)
  | cons line past =>
    cases h.stage with
    | @waiting owner _ _ hat hothers =>
      by_cases howner : task = owner
      · rw [howner, hat]
        rfl
      · exact idle (hothers task howner)
    | @running owner _ run _ _ hat hworker hothers =>
      by_cases howner : task = owner
      · rw [howner, hat]
        rfl
      by_cases hother : task = run.worker
      · rw [hother, hworker]
        rfl
      · exact idle (hothers task howner hother)
    | ended hidle => exact idle (hidle task)

section

variable {machine : Machine} {shell : Shell} {log : List LineRecord} {s : System} {task : TaskId}

/-- Any task can take its turn at any time, unless the runner whose line it runs is killed. -/
theorem exists_turn (h : Lines (ofShell machine shell) log s) (hlive : s.TurnLives task) :
    ∃ events, s.TurnShows task events ∧ Lines (ofShell machine shell)
      (log.modify 0 (s.recordTurn task events)) (s.takeTurn task) := by
  obtain ⟨events, hshows⟩ := exists_turnShows ((succession_of_lines h).isPipe_eq_false task)
  exact ⟨events, hshows, h.turn hlive hshows⟩

/-! ### The schedule -/

theorem meanwhile_enqueueIf (s : System) (test : Routine → Bool) :
    Meanwhile s (s.enqueueIf test) := by
  have hstep : ∀ (s : System) (id : TaskId), Meanwhile s
      { s with
        tasks := s.tasks.modify id fun t => { t with queued := true }
        ready := s.ready ++ [id] } := by
    refine fun s id => ⟨rfl, rfl, fun task => .inl ?_⟩
    simp only [routineAt, Array.getElem?_modify]
    split <;> cases s.tasks[task]? <;> rfl
  have hfold : ∀ (ids : List TaskId) (s : System), Meanwhile s (ids.foldl
      (fun s id =>
        { s with
          tasks := s.tasks.modify id fun t => { t with queued := true }
          ready := s.ready ++ [id] }) s) := by
    intro ids
    induction ids with
    | nil => exact fun s => (Steady.refl s).meanwhile
    | cons id ids ih => exact fun s => (hstep s id).trans (ih _)
  exact hfold _ s

/-- Nothing but the line changes when nobody is in line. -/
theorem lines_stir {s' : System} {deadline : Option Nat} (h : Lines (ofShell machine shell) log s)
    (hstir : s.stir deadline = some s') : Lines (ofShell machine shell) log s' := by
  refine h.meanwhile ?_
  unfold stir at hstir
  split at hstir
  · cases hstir
    exact meanwhile_enqueueIf s _
  split at hstir
  · cases hstir
    exact meanwhile_enqueueIf s _
  simp only at hstir
  split at hstir
  · cases hstir
    exact (steady_machine s _).meanwhile.trans (meanwhile_enqueueIf _ _)
  · obtain ⟨moment, -, rfl⟩ := Option.map_eq_some_iff.mp hstir
    exact (steady_updateMachine s _).meanwhile.trans (meanwhile_enqueueIf _ _)

/-- The first in line takes its turn. -/
theorem exists_serveFirst {s' : System} (h : Lines (ofShell machine shell) log s)
    (hserve : s.serveFirst = some s')
    (hlive : ∀ task ready, s.ready = task :: ready → ({ s with ready } : System).TurnLives task) :
    ∃ log', Lines (ofShell machine shell) log' s' := by
  unfold serveFirst at hserve
  split at hserve
  · cases hserve
  · rename_i task ready hready
    cases hserve
    have hleft : Steady s { s with ready } := ⟨rfl, rfl⟩
    obtain ⟨events, -, hturn⟩ := exists_turn (h.meanwhile hleft.meanwhile) (hlive task ready hready)
    exact ⟨_, hturn.meanwhile (meanwhile_enqueueIf _ _)⟩

/-! ### Turns one by one -/

/-- A task without work adds nothing to the records. -/
theorem lines_takeTurn (h : Lines (ofShell machine shell) log s) (hlive : s.TurnLives task)
    (hcomplete : (s.workOf task).isComplete = true) :
    Lines (ofShell machine shell) log (s.takeTurn task) := by
  obtain ⟨events, -, hturn⟩ := exists_turn h hlive
  have hsame : log.modify 0 (s.recordTurn task events) = log := by
    cases log with
    | nil => rfl
    | cons line past => simp [recordTurn, hcomplete]
  rwa [hsame] at hturn

/-- The record of a line after a turn in which commands are run to their end. -/
theorem lines_work {line : LineRecord} {past : List LineRecord}
    (h : Lines (ofShell machine shell) (line :: past) s) (hlive : s.TurnLives task)
    (hcomplete : (s.workOf task).isComplete = false)
    (hnone : Work.starts (s.workOf task).opening = []) :
    ∃ line', Lines (ofShell machine shell) (line' :: past) (s.takeTurn task) ∧
      line'.start = line.start ∧
      ∀ p ∈ Work.starts (((s.workOf task).perform s.machine.beginTurn).deeds.flatMap Deed.events),
        p ∈ line'.starts := by
  obtain ⟨events, hshows, hturn⟩ := exists_turn h hlive
  refine ⟨_, hturn, ?_, fun p hp => ?_⟩
  · simp [recordTurn, hcomplete, LineRecord.add]
  · have hp' := Work.starts_subset hshows.deeds hp
    rw [Work.starts_append, hnone, List.nil_append] at hp'
    simp [recordTurn, hcomplete, LineRecord.add, hp']

end

/-! ## What the variable shows -/

/-- What the commands of lines find that are run one after another through one shell. Each line
begins in the directory that the lines before it have left, and with the variable that the shell had
at first. Each of its commands is started where it began, or in a directory that the line has
changed to, and then the variable shows this directory. So the variable shows the directory to all
of its commands just if it shows the directory in which the line begins, or there are none. -/
theorem pwd_of_lines {machine : Machine} {shell : Shell} {log : List LineRecord} {s : System}
    (h : Lines (ofShell machine shell) log s) :
    LineRecord.Chained shell.cwd log ∧
      ∀ line ∈ log,
        line.start.env.get? "PWD" = shell.env.get? "PWD" ∧
        (∀ p ∈ line.starts, p = line.start ∨ (p = line.start.enter p.cwd ∧ p.Shows)) ∧
        ((∀ p ∈ line.starts, p.Shows) ↔
          line.starts = [] ∨ shell.env.get? "PWD" = some line.start.cwd) := by
  have hsuccession := succession_of_lines h
  refine ⟨hsuccession.chained, fun line hline => ?_⟩
  obtain ⟨hpwd, htrail⟩ := hsuccession.lines line hline
  refine ⟨hpwd, fun p hp => ?_, ?_⟩
  · refine (htrail.leads p hp).imp_right fun heq => ⟨heq, ?_⟩
    rw [heq]
    exact Place.shows_enter _ _
  · rw [htrail.shows_iff, Place.Shows, hpwd]

-- Both of what follows is about `cd /tmp` and `look`, as one line and as two.
namespace Moving

/-- A command that changes the working directory. -/
def cd : Handler :=
  .pure fun i => .done ⟨[], [], 0, i.args.head?⟩

/-- A command that does nothing. -/
def look : Handler :=
  .pure fun _ => .done (.ofCode 0)

/-- A machine that knows both commands. -/
def machine : Machine :=
  Machine.ofDisk .empty (Registry.empty.registerAll 0 [("cd", cd), ("look", look)])

/-- A shell whose variable shows its directory. -/
def shell : Shell :=
  ⟨.off, "/home", [("PWD", "/home")], ⟨"/bin/sh", ["-c"]⟩, true, true, true⟩

/-- There are runners for two lines. -/
def prepared (a b : String) : System :=
  (((ofShell machine shell).newRunner (.line a) .quiet).2.newRunner (.line b) .quiet).2

theorem lines_prepared (a b : String) : Lines (ofShell machine shell) [] (prepared a b) :=
  (Lines.none.meanwhile (Steady.meanwhile ⟨rfl, rfl⟩)).meanwhile (Steady.meanwhile ⟨rfl, rfl⟩)

/-- The state in which the line of a runner begins in a directory. -/
def stateOf (dir : String) (r : RunnerId) : Context :=
  { shell.context r r with cwd := dir }

/-- The streams of the line of a runner. -/
def streamsOf (r : RunnerId) : Streams :=
  ⟨.inherited, .channel r .stdout, .channel r .stderr⟩

/-- A task works for a runner. -/
def working (s : System) (task : TaskId) (r : RunnerId) (w : Work) : System :=
  { s with tasks := s.tasks.setIfInBounds task ⟨.work w (streamsOf r), true⟩ }

/-- A line that has a tree does what the tree does. -/
theorem working_eq {s : System} {task : TaskId} {r : RunnerId} {text dir : String} {tree : Command}
    (h : s = working s task r
      (lineActivity text true (stateOf dir r) (streamsOf r) .done))
    (hparse : parse text = .ok tree) (hneeds : needsRealShell text.toList = false) :
    s = working s task r (tree.activity (stateOf dir r) (streamsOf r) .done) := by
  rwa [lineActivity_eq hparse hneeds rfl] at h

/-- A word without quotes. -/
def word (text : String) : Word :=
  ⟨[.literal text], false⟩

/-- The tree of `cd /tmp`. -/
def enter : Command :=
  .simple (word "cd") [word "/tmp"] []

/-- The tree of `look`. -/
def lookAround : Command :=
  .simple (word "look") [] []

/-- `cd /tmp; look` is about to work. -/
def together : System :=
  working (((prepared "cd /tmp; look" "").start 0).2.takeTurn 0) 1 0
    ((Command.sequence enter [(.next, lookAround)]).activity (stateOf "/home" 0) (streamsOf 0)
      .done)

theorem enter_grammar (rest : List Token) :
    Grammar.Pipeline (.word (word "cd") :: .word (word "/tmp") :: rest) enter rest :=
  .stages (.simple (.word (.word (.none rest))) rfl) (.none rest)

theorem lookAround_grammar (rest : List Token) :
    Grammar.Pipeline (.word (word "look") :: rest) lookAround rest :=
  .stages (.simple (.word (.none rest)) rfl) (.none rest)

theorem together_eq : ((prepared "cd /tmp; look" "").start 0).2.takeTurn 0 = together :=
  @working_eq _ _ _ "cd /tmp; look" _ _ rfl
    (parse_of_derived rfl
      (.members (enter_grammar _) (.member rfl (lookAround_grammar _) (.none _))))
    (by decide)

/-- `cd /tmp` is about to work. -/
def entering : System :=
  working (((prepared "cd /tmp" "look").start 0).2.takeTurn 0) 1 0
    (enter.activity (stateOf "/home" 0) (streamsOf 0) .done)

theorem entering_eq : ((prepared "cd /tmp" "look").start 0).2.takeTurn 0 = entering :=
  @working_eq _ _ _ "cd /tmp" _ _ rfl
    (parse_of_derived rfl (.members (enter_grammar _) (.none _))) (by decide)

/-- `cd /tmp` has come to its end. -/
def entered : System :=
  (entering.takeTurn 1).takeTurn 0

/-- `look` is about to work. -/
def looking : System :=
  working ((entered.start 1).2.takeTurn 2) 3 1
    (lookAround.activity (stateOf "/tmp" 1) (streamsOf 1) .done)

theorem looking_eq : (entered.start 1).2.takeTurn 2 = looking :=
  @working_eq _ _ _ "look" _ _ rfl
    (parse_of_derived rfl (.members (lookAround_grammar _) (.none _))) (by decide)

end Moving

open Moving in
/-- In `cd /tmp; look` the variable shows both commands where they are. -/
theorem pwd_of_lines_together :
    ∃ line s, Lines (ofShell Moving.machine Moving.shell) [line] s ∧
      ⟨"/tmp", [("PWD", "/tmp")]⟩ ∈ line.starts ∧ ∀ p ∈ line.starts, p.Shows := by
  have hbegun := lines_takeTurn ((lines_prepared "cd /tmp; look" "").start (by decide +kernel)
    (by decide +kernel) (by decide +kernel : (prepared "cd /tmp; look" "").LineReady 0))
    (by decide +kernel : System.TurnLives _ 0) (by decide +kernel)
  rw [together_eq] at hbegun
  obtain ⟨line, hline, hstart, hdone⟩ := lines_work hbegun
    (by decide +kernel : together.TurnLives 1) (by decide +kernel) (by decide +kernel)
  obtain ⟨-, hall⟩ := pwd_of_lines hline
  refine ⟨line, _, hline, hdone _ (by decide +kernel), ?_⟩
  refine (hall line List.mem_cons_self).2.2.mpr (.inr ?_)
  rw [hstart]
  decide +kernel

open Moving in
/-- If `cd /tmp` and `look` are two lines, the second one begins in the new directory, but the
variable shows the old one. -/
theorem pwd_left_behind :
    ¬ ∀ (machine : Machine) (shell : Shell) (log : List LineRecord) (s : System),
      Lines (ofShell machine shell) log s → ∀ line ∈ log, line.start.cwd ≠ shell.cwd →
        ∀ p ∈ line.starts, p.Shows := by
  intro h
  have hbegun := lines_takeTurn ((lines_prepared "cd /tmp" "look").start (by decide +kernel)
    (by decide +kernel) (by decide +kernel : (prepared "cd /tmp" "look").LineReady 0))
    (by decide +kernel : System.TurnLives _ 0) (by decide +kernel)
  rw [entering_eq] at hbegun
  obtain ⟨first, hfirst, -, -⟩ := lines_work hbegun
    (by decide +kernel : entering.TurnLives 1) (by decide +kernel) (by decide +kernel)
  have hentered : Lines (ofShell Moving.machine Moving.shell) [first] entered :=
    lines_takeTurn hfirst (by decide +kernel) (by decide +kernel)
  have hlooking := lines_takeTurn (hentered.start (by decide +kernel) (by decide +kernel)
    (by decide +kernel : entered.LineReady 1)) (by decide +kernel : System.TurnLives _ 2)
    (by decide +kernel)
  rw [looking_eq] at hlooking
  obtain ⟨second, hsecond, hstart, hdone⟩ := lines_work hlooking
    (by decide +kernel : looking.TurnLives 3) (by decide +kernel) (by decide +kernel)
  -- the second line begins in `/tmp`, and so does its command
  have hshows := h Moving.machine Moving.shell _ _ hsecond second List.mem_cons_self
    (by rw [hstart]; decide +kernel) ⟨"/tmp", [("PWD", "/home")]⟩ (hdone _ (by decide +kernel))
  revert hshows
  decide

end System
end Runnel
