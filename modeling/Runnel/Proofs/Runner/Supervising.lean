import Mathlib.Logic.Relation
import Runnel.Proofs.Runner.Incidents
import Runnel.Proofs.Runner.Interrupting
import Runnel.Proofs.Runner.Ledger

/-!
# Runnel.Proofs.Runner.Supervising

The supervisor of a system, whatever is done to the system and to the supervisor itself.

* `System.Sight`: what a supervisor can see at once. A run begins, a run ends, a runner is made, or it
  sees nothing.
* `System.Incidents.sights`: all that can happen to runs consists of such things.
* `System.Enrolled`: what books say of a runner of which the supervisor hears by its begin and its
  end alone.
* `System.Deeds`: all that can be done, one thing after the other. Anybody may add runners to the
  supervisor and remove them.
* `System.supervised`: there is one hook while somebody is active; runners with which nobody meddles
  are active while they run; and an interrupt ends all runners that it reaches.
-/

namespace Runnel.System

/-! ## Sights -/

/-- A supervisor sees nothing of the change. -/
structure Still (s s' : System) : Prop where
  supervisor : s'.supervisor = s.supervisor
  size : s'.runners.size = s.runners.size
  phase : ∀ r, (s'.runner r).phase = (s.runner r).phase
  registered : ∀ r, (s'.runner r).registered = (s.runner r).registered

/-- What a supervisor can see at once. -/
inductive Sight (s : System) : System → Prop where
  /-- Nothing. -/
  | still {s' : System} (h : Still s s') : Sight s s'
  /-- A run begins. -/
  | launch {r : RunnerId} (h : (s.runner r).phase = .pending) : Sight s (s.launch r)
  /-- A run ends. -/
  | record (r : RunnerId) (code : Int) : Sight s (s.record r code)
  /-- There is a new runner. -/
  | newRunner (job : Job) (options : RunOptions) : Sight s (s.newRunner job options).2

/-- What a supervisor can see, one thing after the other. -/
def Sights : System → System → Prop :=
  Relation.ReflTransGen Sight

namespace Still

variable {s s' : System}

theorem of_eq (h : s'.supervisor = s.supervisor) (hr : s'.runners = s.runners) : Still s s' :=
  ⟨h, by rw [hr], fun r => by rw [runner_congr hr], fun r => by rw [runner_congr hr]⟩

theorem refl (s : System) : Still s s :=
  of_eq rfl rfl

theorem sights (h : Still s s') : Sights s s' :=
  .single (.still h)

end Still

namespace Sights

variable {s s' s'' : System}

theorem refl (s : System) : Sights s s :=
  Relation.ReflTransGen.refl

theorem trans (h : Sights s s') (h' : Sights s' s'') : Sights s s'' :=
  Relation.ReflTransGen.trans h h'

theorem foldl {α : Type} {step : System → α → System} (h : ∀ s a, Sights s (step s a)) (s : System)
    (list : List α) : Sights s (list.foldl step s) := by
  induction list generalizing s with
  | nil => exact refl s
  | cons a list ih => exact (h s a).trans (ih _)

end Sights

/-! ## What a supervisor does not see -/

theorem Quiet.still {s s' : System} (h : Quiet s s') : Still s s' :=
  ⟨h.supervisor, h.size, h.phase, fun r => Runner.registered_congr (h.standing r)⟩

theorem still_listen (s : System) (r : RunnerId) (l : Listener) : Still s (s.listen r l) := by
  unfold listen
  split
  · exact .refl s
  · refine ⟨rfl, size_updateRunner _ _ _, fun r' => ?_, fun r' => ?_⟩
    all_goals
      rw [runner_updateRunner]
      split
      · rename_i hand
        rw [hand.1]
      · rfl

/-! ## Ends -/

section

variable {react : Signal → System → System} (h : ∀ signal s, Sights s (react signal s))

include h

theorem sights_tell (r : RunnerId) (listeners : List Listener) (s : System) (e : Event) :
    Sights s (tell react r listeners s e) := by
  refine .foldl (fun s l => ?_) s _
  have hjournal : Still s { s with journal := (r, e) :: s.journal } := .of_eq rfl rfl
  refine hjournal.sights.trans ?_
  cases l.reaction with
  | none => exact .refl _
  | some signal => exact h signal _

/-- The end of a run is one sight; what comes of it are others. -/
theorem sights_finishWith (r : RunnerId) (code : Int) (s : System) :
    Sights s (finishWith react r code s) := by
  cases hx : (s.runner r).result with
  | some result =>
    rw [finishWith_of_some react code hx]
    exact .refl s
  | none =>
    rw [finishWith_eq react code hx]
    exact Sights.trans (.single (.record r code)) (.foldl (sights_tell h r _) _ _)

end

theorem sights_reach {depth : Nat}
    (h : ∀ signal stage s, Sights s (killWithin depth signal stage s)) (r : RunnerId)
    (signal : Signal) (s : System) : Sights s (reach depth r signal s) :=
  (quiet_updateMachine s _).still.sights.trans (.foldl (fun s stage => h signal stage s) _ _)

theorem sights_killWithin (depth : Nat) (signal : Signal) (r : RunnerId) (s : System) :
    Sights s (killWithin depth signal r s) := by
  induction depth generalizing signal r s with
  | zero => exact .refl s
  | succ depth ih =>
    have hreach := sights_reach ih r
    rw [killWithin_succ]
    refine (hreach signal s).trans ?_
    simp only
    split
    · exact .refl _
    · exact (quiet_updateMachine _ _).still.sights.trans (sights_finishWith hreach r _ _)

theorem sights_kill (s : System) (signal : Signal) (r : RunnerId) : Sights s (s.kill signal r) :=
  sights_killWithin (r + 1) signal r s

theorem sights_finish (s : System) (r : RunnerId) (code : Int) : Sights s (s.finish r code) :=
  sights_finishWith (fun signal s => sights_kill s signal r) r code s

theorem sights_emitAll (s : System) (r : RunnerId) (events : List Event) :
    Sights s (s.emitAll r events) :=
  .foldl (sights_tell (fun signal s => sights_kill s signal r) r _) s events

theorem sights_emit (s : System) (r : RunnerId) (e : Event) : Sights s (s.emit r e) :=
  sights_tell (fun signal s => sights_kill s signal r) r _ s e

/-! ## All that happens -/

theorem Incident.sights {s s' : System} (h : Incident s s') : Sights s s' := by
  cases h with
  | quiet h => exact h.still.sights
  | launch h => exact .single (.launch h)
  | finish r code => exact sights_finish s r code
  | kill signal r => exact sights_kill s signal r
  | fail r e => exact sights_emit s r _
  | announce h chunk => exact sights_emitAll s _ _

theorem Incidents.sights {s s' : System} (h : Incidents s s') : Sights s s' := by
  unfold Incidents at h
  induction h with
  | refl => exact .refl s
  | tail _ hincident ih => exact ih.trans hincident.sights

theorem sights_pipe (s : System) (source dest : RunnerId) : Sights s (s.pipe source dest).2 := by
  have hdest := quiet_configure s dest fun o => { o with stdin := .pipe, display := false }
  unfold pipe
  split
  · exact .refl s
  simp only
  split
  · rename_i heq
    rw [heq] at hdest
    exact hdest.still.sights
  · rename_i s' heq
    rw [heq] at hdest
    have hsource := quiet_configure s' source fun o => { o with display := false }
    exact (hdest.trans hsource).still.sights.trans (.single (.newRunner _ _))

open Supervisor (Ledger Books Calls)

/-! ## Books -/

/-- What the books say of a runner that enters when it begins and leaves when it ends. -/
structure Enrolled (s : System) (l : Ledger) (r : RunnerId) : Prop where
  /-- Nobody enters before being made. -/
  unborn : s.runners.size ≤ r → l.entered.count r = 0
  /-- Whoever runs has to leave at the end, and nobody else has to. -/
  registered_iff : (s.runner r).registered = true ↔ (s.runner r).phase = .running
  /-- Nobody enters before the begin. -/
  pending : (s.runner r).phase = .pending → l.entered.count r = 0
  /-- Whoever runs has entered once and not left. -/
  running : (s.runner r).phase = .running → l.entered.count r = 1 ∧ l.left.count r = 0
  /-- Whoever is finished has left, and has entered once, or not at all if there was no begin. -/
  finished : (s.runner r).phase = .finished →
    l.left.count r = l.entered.count r ∧ l.entered.count r ≤ 1

/-- The books are right about all but some. -/
structure Watched (meddled : List RunnerId) (l : Ledger) (s : System) : Prop where
  books : Books l s.supervisor
  enrolled : ∀ r, r ∉ meddled → Enrolled s l r

section

variable {s s' : System} {l l' : Ledger} {r : RunnerId} {meddled : List RunnerId}

theorem Enrolled.mem_iff (h : Enrolled s l r) (hb : Books l s.supervisor) :
    r ∈ s.supervisor.active ↔ (s.runner r).phase = .running := by
  rw [hb.mem_iff]
  cases hp : (s.runner r).phase with
  | pending => simp [h.pending hp]
  | running => simp [h.running hp]
  | finished => simp [h.finished hp]

/-- The books go on to be right as long as nothing happens to the runner. -/
theorem Enrolled.congr (h : Enrolled s l r) (hsize : s.runners.size ≤ s'.runners.size)
    (hphase : (s'.runner r).phase = (s.runner r).phase)
    (hregistered : (s'.runner r).registered = (s.runner r).registered)
    (hentered : l'.entered.count r = l.entered.count r)
    (hleft : l'.left.count r = l.left.count r) : Enrolled s' l' r := by
  refine ⟨fun hle => ?_, ?_, ?_, ?_, ?_⟩
  · rw [hentered]
    exact h.unborn (Nat.le_trans hsize hle)
  · rw [hregistered, hphase]
    exact h.registered_iff
  · rw [hphase, hentered]
    exact h.pending
  · rw [hphase, hentered, hleft]
    exact h.running
  · rw [hphase, hentered, hleft]
    exact h.finished

theorem Watched.still (hw : Watched meddled l s) (h : Still s s') :
    Watched meddled l s' where
  books := h.supervisor ▸ hw.books
  enrolled := fun r hr =>
    (hw.enrolled r hr).congr (Nat.le_of_eq h.size.symm) (h.phase r) (h.registered r) rfl rfl

theorem Watched.newRunner (hw : Watched meddled l s) (job : Job) (options : RunOptions) :
    Watched meddled l (s.newRunner job options).2 where
  books := hw.books
  enrolled := fun r hr => by
    have h := hw.enrolled r hr
    have hsize := size_newRunner s job options
    rcases Nat.lt_trichotomy r s.runners.size with hlt | rfl | hlt
    · have hsame := runner_newRunner s job options hlt
      exact h.congr (by omega) (by rw [hsame]) (by rw [hsame]) rfl rfl
    · obtain ⟨token, group, hnew⟩ := runner_newRunner_size s job options
      have hunborn := h.unborn (Nat.le_refl _)
      refine ⟨fun _ => hunborn, ?_, fun _ => hunborn, ?_, ?_⟩
      all_goals
        rw [hnew]
        simp [Runner.ofJob]
    · have hnone : s.runner r = noRunner := runner_of_le (Nat.le_of_lt hlt)
      have hnone' : (s.newRunner job options).2.runner r = noRunner := runner_of_le (by omega)
      exact h.congr (by omega) (by rw [hnone, hnone']) (by rw [hnone, hnone']) rfl rfl

/-- Whoever is added by others is not among those about whom the books have to be right. -/
theorem Watched.register (hw : Watched meddled l s) (hr : r ∈ meddled) :
    Watched meddled (l.register s.supervisor r)
      { s with supervisor := (s.supervisor.register r).2 } where
  books := hw.books.tail (.register r)
  enrolled := fun r' hr' => by
    have hne : r' ≠ r := fun heq => hr' (heq ▸ hr)
    exact (hw.enrolled r' hr').congr (Nat.le_refl _) rfl rfl (Ledger.count_entered_register hne)
      (by rw [Ledger.left_register])

theorem Watched.unregister (hw : Watched meddled l s) (hr : r ∈ meddled) :
    Watched meddled (l.unregister s.supervisor r) (s.unregister r) where
  books := hw.books.tail (.unregister r)
  enrolled := fun r' hr' => by
    have hne : r' ≠ r := fun heq => hr' (heq ▸ hr)
    exact (hw.enrolled r' hr').congr (Nat.le_refl _) rfl rfl (by rw [Ledger.entered_unregister])
      (Ledger.count_left_unregister hne)

/-- Nobody leaves more often than having entered. -/
theorem Watched.left_le (hw : Watched meddled l s) (r : RunnerId) :
    l.left.count r ≤ l.entered.count r := by
  have hcount := hw.books.balanced.count r
  omega

/-- Whoever begins enters. -/
theorem Watched.launch (hw : Watched meddled l s) (hpending : (s.runner r).phase = .pending) :
    Watched meddled (l.register s.supervisor r) (s.launch r) where
  books := hw.books.tail (.register r)
  enrolled := fun r' hr' => by
    have h := hw.enrolled r' hr'
    have hsize : (s.launch r).runners.size = s.runners.size := size_updateRunner _ _ _
    by_cases hne : r' = r
    · subst hne
      have hr : r' < s.runners.size := lt_of_not_finished (by rw [hpending]; decide)
      have hout : r' ∉ s.supervisor.active := by
        rw [h.mem_iff hw.books, hpending]
        decide
      have hself : (s.launch r').runner r' = { s.runner r' with
          phase := .running
          settings := s.shell.settings
          registered := (s.supervisor.register r').1 } := runner_updateRunner_self hr _
      have hentered := h.pending hpending
      have hleft := hw.left_le r'
      rw [Ledger.register_of_not_mem hout]
      refine ⟨fun hle => absurd hr (Nat.not_lt_of_le (hsize ▸ hle)), ?_, ?_, fun _ => ⟨?_, ?_⟩, ?_⟩
      · rw [hself, Supervisor.register_of_not_mem hout]
        simp
      · rw [hself]
        nofun
      · rw [List.count_cons_self, hentered]
      · exact Nat.le_zero.mp (hentered ▸ hleft)
      · rw [hself]
        nofun
    · have hsame : (s.launch r).runner r' = s.runner r' := runner_updateRunner_of_ne _ hne _
      exact h.congr (Nat.le_of_eq hsize.symm) (by rw [hsame]) (by rw [hsame])
        (Ledger.count_entered_register hne) (by rw [Ledger.left_register])

theorem supervisor_record (s : System) (r : RunnerId) (code : Int) :
    (s.record r code).supervisor =
      if (s.runner r).registered then (s.supervisor.unregister r).2 else s.supervisor := by
  have hdrop := quiet_dropSubscribers s (s.runner r).subscribers
  have hlet : ∀ u : System, Quiet s u →
      (if (s.runner r).registered then u.unregister r else u).supervisor =
        if (s.runner r).registered then (s.supervisor.unregister r).2 else s.supervisor := by
    intro u hu
    split
    · exact congrArg (fun x => (Supervisor.unregister x r).2) hu.supervisor
    · exact hu.supervisor
  show (s.letGo r).supervisor = _
  unfold letGo
  dsimp only
  cases (s.runner r).stdin with
  | none => exact hlet _ hdrop
  | some writer => exact hlet _ (hdrop.trans (quiet_closeWriter _ writer))

/-- What is written down at the end of a run. -/
def recorded (l : Ledger) (s : System) (r : RunnerId) : Ledger :=
  if (s.runner r).registered then l.unregister s.supervisor r else l

theorem calls_record (l : Ledger) (s : System) (r : RunnerId) (code : Int) :
    Calls (l, s.supervisor) (recorded l s r, (s.record r code).supervisor) := by
  rw [supervisor_record, recorded]
  split
  · exact .single (.unregister r)
  · exact .refl

/-- Whoever has entered leaves at the end. -/
theorem Watched.balanced_recorded (hw : Watched meddled l s) (hr : r ∉ meddled) :
    (recorded l s r).left.count r = (recorded l s r).entered.count r ∧
      (recorded l s r).entered.count r ≤ 1 := by
  have h := hw.enrolled r hr
  rw [recorded]
  split
  · rename_i hregistered
    have hrunning := h.registered_iff.mp hregistered
    have hin := (h.mem_iff hw.books).mpr hrunning
    obtain ⟨hentered, hleft⟩ := h.running hrunning
    rw [Ledger.left_unregister_of_mem hin, Ledger.entered_unregister, List.count_cons_self,
      hentered, hleft]
    exact ⟨rfl, Nat.le_refl 1⟩
  · rename_i hregistered
    cases hp : (s.runner r).phase with
    | pending =>
      have hentered := h.pending hp
      have hleft := hw.left_le r
      omega
    | running => exact absurd (h.registered_iff.mpr hp) hregistered
    | finished => exact h.finished hp

theorem Watched.record (hw : Watched meddled l s) (r : RunnerId) (code : Int) :
    Watched meddled (recorded l s r) (s.record r code) where
  books := hw.books.trans (calls_record l s r code)
  enrolled := fun r' hr' => by
    have h := hw.enrolled r' hr'
    have hsize := size_record s r code
    by_cases hne : r' = r
    · subst hne
      by_cases hr : r' < s.runners.size
      · have hself := runner_record_self hr code
        refine ⟨fun hle => absurd hr (Nat.not_lt_of_le (hsize ▸ hle)), ?_, ?_, ?_,
          fun _ => hw.balanced_recorded hr'⟩
        all_goals
          rw [hself]
          simp [ended]
      · have hnone : s.runner r' = noRunner := runner_of_le (Nat.le_of_not_lt hr)
        have hnone' : (s.record r' code).runner r' = noRunner :=
          runner_of_le (hsize ▸ Nat.le_of_not_lt hr)
        have hsame : recorded l s r' = l := by
          rw [recorded, hnone]
          rfl
        rw [hsame]
        exact h.congr (Nat.le_of_eq hsize.symm) (by rw [hnone, hnone']) (by rw [hnone, hnone']) rfl
          rfl
    · have hsame := runner_record_of_ne s hne code
      refine h.congr (Nat.le_of_eq hsize.symm) (by rw [hsame]) (by rw [hsame]) ?_ ?_
      all_goals
        rw [recorded]
        split
      · rw [Ledger.entered_unregister]
      · rfl
      · exact Ledger.count_left_unregister hne
      · rfl

/-- What the supervisor sees at once is written down. -/
theorem Watched.sight (hw : Watched meddled l s) (h : Sight s s') :
    ∃ l', Calls (l, s.supervisor) (l', s'.supervisor) ∧ Watched meddled l' s' := by
  cases h with
  | still h => exact ⟨l, h.supervisor ▸ .refl, hw.still h⟩
  | launch hpending => exact ⟨_, .single (.register _), hw.launch hpending⟩
  | record r code => exact ⟨_, calls_record l s r code, hw.record r code⟩
  | newRunner job options => exact ⟨l, .refl, hw.newRunner job options⟩

/-- Whatever happens, the books go on to be right. -/
theorem Watched.sights (hw : Watched meddled l s) (h : Sights s s') :
    ∃ l', Calls (l, s.supervisor) (l', s'.supervisor) ∧ Watched meddled l' s' := by
  unfold Sights at h
  induction h with
  | refl => exact ⟨l, .refl, hw⟩
  | tail _ hsight ih =>
    obtain ⟨l', hcalls, hw'⟩ := ih
    obtain ⟨l'', hcalls', hw''⟩ := hw'.sight hsight
    exact ⟨l'', hcalls.trans hcalls', hw''⟩

end

/-! ## Deeds -/

section

variable {R : StreamId → Prop} {s s' u : System}

/-- Whatever happens is one of the steps that keep the invariant. -/
theorem Move.step (h : Move R s s') : Step s s' := by
  cases h with
  | newRunner text options => exact .newRunner text options
  | pipe hs hd => exact .pipe hs hd
  | configure r change => exact .configure r change
  | listen r l => exact .listen r l
  | start r => exact .start r
  | ensureStarted r => exact .ensureStarted r
  | openStream => exact .openStream _
  | readStream => exact .aside (frame_readStream s _)
  | dropStream id => exact .dropStream id
  | kill signal r => exact .kill signal r
  | interrupt => exact .interrupt
  | takeTurn task => exact .takeTurn task
  | enqueueIf test => exact .enqueueIf test
  | hold r held => exact .hold r held
  | closeWriter w => exact .aside (frame_closeWriter s w)
  | machine => exact .aside (frame_machine s _)
  | newToken => exact .aside (frame_updateMachine s _)
  | cancel token => exact .aside (frame_updateMachine s fun m => m.setToken token)
  | spawn _ hnone => exact .spawn (routineBegun_of_none hnone)
  | rest shell ready => exact .aside (.of_eq rfl rfl rfl rfl)

/-- What the supervisor sees of whatever happens. -/
theorem Move.sights (h : Move R s s') : Sights s s' := by
  cases h with
  | newRunner text options => exact .single (.newRunner _ options)
  | pipe => exact sights_pipe s _ _
  | configure r change => exact (quiet_configure s r change).still.sights
  | listen r l => exact (still_listen s r l).sights
  | start r => exact (incidents_start s r).sights
  | ensureStarted r => exact (incidents_ensureStarted s r).sights
  | openStream => exact (incidents_openStream s _).sights
  | readStream => exact (quiet_readStream s _).still.sights
  | dropStream id => exact (incidents_dropStream s id).sights
  | kill signal r => exact sights_kill s signal r
  | interrupt => exact (incidents_interrupt s).sights
  | takeTurn task => exact (incidents_takeTurn s task).sights
  | enqueueIf test => exact (quiet_enqueueIf s test).still.sights
  | hold r held =>
    refine (quiet_updateRunner s r ?_).still.sights
    exact fun _ => rfl
  | closeWriter w => exact (quiet_closeWriter s w).still.sights
  | machine => exact (quiet_machine s _).still.sights
  | newToken => exact (quiet_updateMachine s _).still.sights
  | cancel token => exact (quiet_updateMachine s fun m => m.setToken token).still.sights
  | spawn => exact (quiet_spawn s _).still.sights
  | rest shell ready =>
    refine Still.sights ?_
    exact .of_eq rfl rfl

end

/-- What can be done to a system or to its supervisor, and the runners with which the supervisor is
meddled. -/
inductive Deed (s : System) : List RunnerId → System → Prop where
  /-- Something happens that can happen to any system: a runner is made, started or killed, a task
  takes its turn, the user interrupts. -/
  | move {s' : System} (h : Move (fun _ => True) s s') : Deed s [] s'
  /-- A run ends by itself. -/
  | finish (r : RunnerId) (code : Int) : Deed s [] (s.finish r code)
  /-- Somebody adds a runner to the supervisor. -/
  | register (r : RunnerId) : Deed s [r] { s with supervisor := (s.supervisor.register r).2 }
  /-- Somebody removes a runner from the supervisor. -/
  | unregister (r : RunnerId) : Deed s [r] (s.unregister r)

/-- One deed after the other, and the runners with which the supervisor is meddled on the way. -/
inductive Deeds (s : System) : List RunnerId → System → Prop where
  | refl : Deeds s [] s
  | tail {meddled more : List RunnerId} {u s' : System} (h : Deeds s meddled u)
      (h' : Deed u more s') : Deeds s (meddled ++ more) s'

section

variable {s s' : System} {l : Ledger} {meddled more : List RunnerId}

/-- Each deed keeps the invariant. -/
theorem Deed.inv (h : Deed s more s') (hi : s.Inv) : s'.Inv := by
  cases h with
  | move h => exact (h.step.advances hi).1
  | finish r code => exact (safe_finish s r code hi).1
  | register r =>
    have hframe : Frame s { s with supervisor := (s.supervisor.register r).2 } :=
      .of_eq rfl rfl rfl rfl
    exact (hframe.safe hi).1
  | unregister r => exact ((frame_unregister s r).safe hi).1

/-- Each deed is written down, and the books go on to be right. -/
theorem Deed.watched (h : Deed s more s') (hw : Watched meddled l s)
    (hmore : ∀ r ∈ more, r ∈ meddled) :
    ∃ l', Calls (l, s.supervisor) (l', s'.supervisor) ∧ Watched meddled l' s' := by
  cases h with
  | move h => exact hw.sights h.sights
  | finish r code => exact hw.sights (sights_finish s r code)
  | register r => exact ⟨_, .single (.register r), hw.register (hmore r List.mem_cons_self)⟩
  | unregister r => exact ⟨_, .single (.unregister r), hw.unregister (hmore r List.mem_cons_self)⟩

theorem Deeds.inv (h : Deeds s more s') (hi : s.Inv) : s'.Inv := by
  induction h with
  | refl => exact hi
  | tail _ hdeed ih => exact hdeed.inv ih

theorem Deeds.watched (h : Deeds s more s') (hw : Watched meddled l s)
    (hmore : ∀ r ∈ more, r ∈ meddled) :
    ∃ l', Calls (l, s.supervisor) (l', s'.supervisor) ∧ Watched meddled l' s' := by
  induction h with
  | refl => exact ⟨l, .refl, hw⟩
  | tail _ hdeed ih =>
    obtain ⟨l', hcalls, hw'⟩ := ih fun r hr => hmore r (List.mem_append_left _ hr)
    obtain ⟨l'', hcalls', hw''⟩ :=
      hdeed.watched hw' fun r hr => hmore r (List.mem_append_right _ hr)
    exact ⟨l'', hcalls.trans hcalls', hw''⟩

/-- Who meddles with more runners makes the books right about fewer. -/
theorem Watched.mono (hw : Watched meddled l s) (h : ∀ r ∈ meddled, r ∈ more) :
    Watched more l s :=
  ⟨hw.books, fun r hr => hw.enrolled r fun hr' => hr (h r hr')⟩

theorem watched_ofShell (machine : Machine) (shell : Shell) (meddled : List RunnerId) :
    Watched meddled ⟨[], [], 0⟩ (ofShell machine shell) where
  books := .refl
  enrolled := fun r _ => by
    have hnone : (ofShell machine shell).runner r = noRunner := runner_of_le (Nat.zero_le r)
    refine ⟨fun _ => rfl, ?_, ?_, ?_, ?_⟩
    all_goals
      rw [hnone]
      simp [noRunner, Runner.ofJob]

end

/-! ## The supervisor -/

/-- What a supervisor is good for, when some runners were added or removed by others. -/
structure Supervised (meddled : List RunnerId) (l : Ledger) (s : System) : Prop
    extends Watched meddled l s where
  /-- There is a hook as long as somebody is active, and only then. -/
  hooked_iff : s.supervisor.hooked = true ↔ s.supervisor.active ≠ []
  /-- All hooks that were installed have been given up, but for the one that there is. -/
  installs : s.supervisor.installs = l.dropped + s.supervisor.hooks
  /-- There is one at most. -/
  atMostOne : s.supervisor.installs ≤ l.dropped + 1
  /-- Others are active while they run, and at no other time. -/
  active_iff : ∀ r, r ∉ meddled → (r ∈ s.supervisor.active ↔ (s.runner r).phase = .running)
  /-- Whatever is done from now on, those of them that run now and have ended then have entered once
  and left once. -/
  later : ∀ more s', Deeds s more s' → ∃ l', Calls (l, s.supervisor) (l', s'.supervisor) ∧
    ∀ r, r ∉ meddled → r ∉ more → (s.runner r).phase = .running →
      (s'.runner r).phase = .finished → l'.entered.count r = 1 ∧ l'.left.count r = 1
  /-- An interrupt may kill its targets in any order. Each runner that is a target, or that a target
  runs, at whatever depth, then ends with the code of the signal, unless it had ended before. -/
  interrupted : ∀ order : List RunnerId, order.Perm s.targets →
    (s.killAll .int order).runner = s.interrupt.2.runner ∧
    ∀ target ∈ order, ∀ r, s.Within target r → (s.runner r).phase ≠ .finished →
      ((s.killAll .int order).runner r).phase = .finished ∧
      ((s.killAll .int order).runner r).result.map RunResult.code = some 130

section

variable {s : System} {l : Ledger} {meddled : List RunnerId}

/-- Whoever has entered stays in the books. -/
theorem Watched.later (hw : Watched meddled l s) {more : List RunnerId} {s' : System}
    (h : Deeds s more s') :
    ∃ l', Calls (l, s.supervisor) (l', s'.supervisor) ∧
      ∀ r, r ∉ meddled → r ∉ more → (s.runner r).phase = .running →
        (s'.runner r).phase = .finished → l'.entered.count r = 1 ∧ l'.left.count r = 1 := by
  have hmore := hw.mono fun r hr => List.mem_append_left more hr
  obtain ⟨l', hcalls, hw'⟩ := h.watched hmore fun r hr => List.mem_append_right meddled hr
  refine ⟨l', hcalls, fun r hr hr' hrunning hfinished => ?_⟩
  obtain ⟨hleft, hle⟩ := (hw'.enrolled r (by simp [hr, hr'])).finished hfinished
  have hentered : l.entered.count r = 1 := ((hw.enrolled r hr).running hrunning).1
  have hkept : l.entered.count r ≤ l'.entered.count r := hcalls.suffix.1.sublist.count_le r
  omega

/-- An interrupt leaves nobody behind who is under supervision. -/
theorem Tidy.interrupted (ht : s.Tidy) {order : List RunnerId} (h : order.Perm s.targets) :
    (s.killAll .int order).runner = s.interrupt.2.runner ∧
    ∀ target ∈ order, ∀ r, s.Within target r → (s.runner r).phase ≠ .finished →
      ((s.killAll .int order).runner r).phase = .finished ∧
      ((s.killAll .int order).runner r).result.map RunResult.code = some 130 := by
  refine ⟨interrupt_eq s ▸ runner_killAll_of_perm ht .int h,
    fun target htarget r hwithin hnot => ?_⟩
  rw [(strikes_killAll ht .int order).struck r ⟨target, htarget, hwithin⟩ hnot]
  exact ⟨rfl, rfl⟩

/-- Whatever is done to a system in which nothing ran at first, and to its supervisor. -/
theorem supervised {machine : Machine} {shell : Shell}
    (h : Deeds (ofShell machine shell) meddled s) : ∃ l, Supervised meddled l s := by
  have hi := h.inv (inv_ofShell machine shell)
  obtain ⟨l, -, hw⟩ := h.watched (watched_ofShell machine shell meddled) fun _ hr => hr
  have hbalanced := hw.books.balanced
  exact ⟨l, hw, hbalanced.hooked_iff, hbalanced.installs, hw.books.installs_le,
    fun r hr => (hw.enrolled r hr).mem_iff hw.books, fun _ _ => hw.later,
    fun _ => hi.tidy.interrupted⟩

/-- An interrupt ends a pipe that has begun, its two runners, which have not, and a runner that
somebody has added to the supervisor and that stays there. -/
theorem supervised_added :
    let first := ofShell (Machine.ofDisk .empty .empty)
      ⟨.off, "/", [], ⟨"/bin/sh", ["-c"]⟩, true, true, true⟩
    let lines := (((first.newRunner (.line "yes") .standard).2.newRunner (.line "head -n 1")
      .standard).2.newRunner (.line "cat") .standard).2
    let begun := ((lines.pipe 0 1).2.start 3).2
    let s : System := { begun with supervisor := (begun.supervisor.register 2).2 }
    Deeds first [2] s ∧ s.supervisor.active = [3, 2] ∧ (∃ l, Supervised [2] l s) ∧
      [0, 1, 2, 3].map (fun r => (s.runner r).phase) = [.pending, .pending, .pending, .running] ∧
      [0, 1, 2, 3].map (fun r => (s.interrupt.2.runner r).result.map RunResult.code) =
        [some 130, some 130, some 130, some 130] ∧
      s.interrupt.2.supervisor = ⟨[2], true, 1⟩ := by
  intro first lines begun s
  -- each step for any system, so that none of them is computed on the way
  have hlines : ∀ u : System, Deeds u [] (((u.newRunner (.line "yes") .standard).2.newRunner
      (.line "head -n 1") .standard).2.newRunner (.line "cat") .standard).2 := fun u =>
    ((Deeds.refl.tail (.move (.newRunner "yes" .standard))).tail
      (.move (.newRunner "head -n 1" .standard))).tail (.move (.newRunner "cat" .standard))
  have hpipe : ∀ {u v : System}, Deeds u [] v → 1 < v.runners.size →
      Deeds u [2] { ((v.pipe 0 1).2.start 3).2 with
        supervisor := (((v.pipe 0 1).2.start 3).2.supervisor.register 2).2 } := by
    intro u v h hsize
    have hpiped := h.tail (.move (.pipe (Nat.lt_trans Nat.zero_lt_one hsize) hsize))
    exact (hpiped.tail (.move (.start 3))).tail (.register 2)
  have hdeeds : Deeds first [2] s := hpipe (hlines first) (by decide +kernel)
  exact ⟨hdeeds, by decide +kernel, supervised hdeeds, by decide +kernel, by decide +kernel,
    by decide +kernel⟩

end

end Runnel.System
