import Runnel.Proofs.Runner.Beginning
import Runnel.Runner.Schedule

/-!
# Runnel.Proofs.Runner.Turning

Whatever a task does in its turn is safe.

* `System.safe_beginDelivery`, `System.safe_deliver`: a chunk on its way.
* `System.turns_runLineWithin`, `System.turns_runPipe`: command lines and pipes that run.
* `System.safe_takeTurn`: any turn of any task.
-/

namespace Runnel.System

theorem Safe.andThen {s s' s'' : System} (h : Safe s s') (h' : Evolves s s' → Safe s' s'') :
    Safe s s'' :=
  fun hi => (h.trans (h' (h hi).2)) hi

theorem Safe.of_pair {α : Type} {s s' : System} {p : System × α} {a : α} (h : Safe s p.1)
    (heq : p = (s', a)) : Safe s s' := by
  rw [heq] at h
  exact h

theorem Begun.evolves {s s' : System} {r : RunnerId} (h : s.Begun r) (he : Evolves s s') :
    s'.Begun r :=
  h.grows he.toGrows

/-! ## Deliveries -/

theorem safe_capture {s : System} {r : RunnerId} (hb : (s.runner r).phase = .running)
    (hc : (s.runner r).options.capture = true) (chunk : Chunk) :
    Safe s (s.updateRunner r fun x => { x with chunks := x.chunks.push chunk }) := by
  refine safe_updateRunner fun hi hr => ?_
  have hs := hi.runners r hr
  have hnone : (s.runner r).result = none := by
    cases hx : (s.runner r).result with
    | none => rfl
    | some result =>
      have hf := hs.result_iff.mp (by rw [hx]; rfl)
      rw [hb] at hf
      cases hf
  refine ⟨⟨hs.result_iff, fun result hx => ?_, hs.cleared, fun hp => ?_, fun hno => ?_, hs.stages,
    hs.writer⟩, ⟨rfl, Nat.le_refl _, fun hf => ?_, fun _ hw => .inl hw⟩, id, rfl⟩
  · rw [show (s.runner r).result = some result from hx] at hnone
    cases hnone
  · rw [show (s.runner r).phase = .pending from hp] at hb
    cases hb
  · rw [show (s.runner r).options.capture = false from hno] at hc
    cases hc
  · rw [hf] at hb
    cases hb

/-- A chunk is only captured while the runner runs. -/
theorem safe_beginDelivery {s : System} {r : RunnerId} (h : (s.runner r).phase ≠ .pending)
    (chunk : Chunk) : Safe s (s.beginDelivery r chunk).1 := by
  unfold beginDelivery
  simp only
  split
  · exact .refl s
  · rename_i hnot
    have hrunning : (s.runner r).phase = .running := by
      cases hp : (s.runner r).phase with
      | running => rfl
      | pending => exact absurd hp h
      | finished => exact absurd (Runner.isFinished_iff.mpr hp) hnot
    have hcapture : Safe s (if (s.runner r).options.capture then
        s.updateRunner r fun x => { x with chunks := x.chunks.push chunk } else s) := by
      split
      · rename_i hc
        exact safe_capture hrunning hc chunk
      · exact .refl s
    have hdisplay : ∀ s' : System, Frame s' (if (s.runner r).options.display then
        { s' with terminal := chunk :: s'.terminal } else s') := by
      intro s'
      split
      · exact .of_eq rfl rfl rfl rfl
      · exact .refl s'
    have hwriters : ∀ s' : System, Frame s' ((s.runner r).subscribers.foldl
        (fun s id => s.updateChannel id Channel.addWriter) s') :=
      fun s' => .foldl (fun s id => frame_updateChannel s id _) s' _
    refine hcapture.trans (((hdisplay _).trans (hwriters _)).safe.trans ?_)
    refine safe_emitAll _ r fun e he => ?_
    rcases List.mem_cons.mp he with rfl | he
    · rfl
    · rw [List.mem_singleton.mp he]
      cases chunk.kind with
      | stdout | stderr => rfl

theorem frame_endDelivery (s : System) (d : Delivery) : Frame s (s.endDelivery d) := by
  unfold endDelivery
  simp only
  refine Frame.trans ?_ (frame_dropSubscribers _ _)
  split
  · exact frame_updateChannel s _ _
  · exact .refl s

theorem safe_forgetClosed (s : System) (r : RunnerId) : Safe s (s.forgetClosed r) := by
  have hdrop := frame_dropSubscribers s ((s.runner r).subscribers.filter fun id =>
    !(s.machine.channel id).hasReader)
  refine hdrop.safe.trans (safe_updateRunner fun hi hr => ?_)
  have hs := hi.runners r hr
  have hsame := hdrop.runner r
  refine ⟨⟨hs.result_iff, hs.recorded, fun hf => ?_, hs.untouched, hs.uncaptured, hs.stages,
    hs.writer⟩, .of_same rfl rfl rfl rfl rfl rfl⟩
  obtain ⟨hl, hsub, hin⟩ := hs.cleared hf
  rw [hsame] at hsub
  refine ⟨hl, ?_, hin⟩
  show (s.runner r).subscribers.filter _ = []
  rw [hsub]
  rfl

theorem frame_machine (s : System) (machine : Machine) : Frame s { s with machine } :=
  .of_eq rfl rfl rfl rfl

theorem safe_deliverTo (r : RunnerId) (d : Delivery) (channels : List ChannelId)
    (ticket : Option Ticket) (s : System) : Safe s (deliverTo r d channels ticket s).1 := by
  induction channels generalizing ticket s with
  | nil => exact (frame_endDelivery s _).safe.trans (safe_forgetClosed _ r)
  | cons id rest ih =>
    unfold deliverTo
    split
    · exact (frame_endDelivery s _).safe
    · split
      · exact (frame_machine s _).safe.trans (ih none _)
      · exact (frame_machine s _).safe

/-- Going on with a delivery is safe. -/
theorem safe_deliver (s : System) (r : RunnerId) (d : Delivery) : Safe s (s.deliver r d).1 :=
  safe_deliverTo r d d.remaining d.ticket s

/-! ## Turns -/

/-- The turn is safe, and only a runner that has begun is run afterwards. -/
def Turns (s : System) (p : System × Routine) : Prop :=
  s.Inv → (p.1.Inv ∧ Evolves s p.1) ∧ p.1.RoutineBegun p.2

theorem Safe.turns {s s' : System} {p : System × Routine} (h : Safe s s')
    (h' : Evolves s s' → Turns s' p) : Turns s p := by
  intro hi
  obtain ⟨hi', he⟩ := h hi
  refine ⟨(h.trans fun hi' => (h' he hi').1) hi, (h' he hi').2⟩

theorem Turns.of_begun {s s' : System} {r : RunnerId} (hb : s.Begun r) (h : Safe s s')
    {routine : Routine} (hr : ∀ s : System, s.Begun r → s.RoutineBegun routine) :
    Turns s (s', routine) :=
  fun hi => ⟨h hi, hr s' (hb.evolves (h hi).2)⟩

theorem Turns.of_safe {s s' : System} (h : Safe s s') {routine : Routine}
    (hr : ∀ s : System, s.RoutineBegun routine) : Turns s (s', routine) :=
  fun hi => ⟨h hi, hr s'⟩

theorem Turns.followed {s : System} {p q : System × Routine} (h : Turns s p)
    (h' : p.1.RoutineBegun p.2 → Turns p.1 q) : Turns s q := by
  intro hi
  obtain ⟨hsafe, hb⟩ := h hi
  exact Safe.turns (fun _ => hsafe) (fun _ => h' hb) hi

/-! ## Command lines -/

section Line

variable {s : System} {r : RunnerId} (hb : s.Begun r)

include hb

theorem turns_beginLine (start : LineStart) : Turns s (s.beginLine r start) := by
  have hchannel := frame_newChannel s outputCapacity
  have hwriter := frame_updateChannel (s.newChannel outputCapacity).2
    (s.newChannel outputCapacity).1 Channel.addWriter
  have hspawn : ∀ (s : System) (w : Work) (io : Streams), Safe s (s.spawn (.work w io)).2 :=
    fun _ _ _ => safe_spawn trivial
  exact .of_begun hb ((hchannel.trans hwriter).safe.trans (hspawn _ _ _)) fun _ h => h

theorem turns_concludeLine (run : LineRun) : Turns s (s.concludeLine r run) := by
  unfold concludeLine
  split
  · refine .of_safe (Safe.trans ?_ (safe_finish _ r _)) fun _ => trivial
    split
    · exact Frame.safe (.of_eq rfl rfl rfl rfl)
    · exact .refl s
  · exact .of_safe ((safe_emit s r rfl).trans (safe_finish _ r 1)) fun _ => trivial
  · exact .of_begun hb (.refl s) fun _ h => h

end Line

/-- Going on with a command line is safe. -/
theorem turns_runLineWithin (r : RunnerId) (n : Nat) (run : LineRun) {s : System} (hb : s.Begun r) :
    Turns s (runLineWithin r n run s) := by
  induction n generalizing run s with
  | zero => exact .of_begun hb (.refl s) fun _ h => h
  | succ n ih =>
    unfold runLineWithin
    split
    · rename_i d _
      have hdeliver := safe_deliver s r d
      split
      · rename_i heq
        exact .of_begun hb (hdeliver.of_pair heq) fun _ h => h
      · rename_i heq
        exact (hdeliver.of_pair heq).turns fun he => ih _ (hb.evolves he)
    · split
      · exact turns_concludeLine hb run
      split
      · exact .of_safe (safe_updateChannel s _ _) fun _ => trivial
      split
      · rename_i machine chunk _
        have hmachine := frame_machine s machine
        have hphase : (({ s with machine } : System).runner r).phase ≠ .pending := hb.phase
        refine (hmachine.safe.trans (safe_beginDelivery hphase chunk)).turns fun he => ?_
        exact ih _ (hb.evolves he)
      · rename_i machine _
        exact (frame_machine s machine).safe.turns fun he => ih _ (hb.evolves he)
      · exact .of_begun hb (frame_machine s _).safe fun _ h => h

/-! ## Pipes -/

theorem safe_endSource (s : System) (p : PipeRun) : Safe s (s.endSource p).1 := by
  unfold endSource
  refine Safe.trans ?_ (safe_dropStream _ _)
  split
  · exact (frame_closeWriter s _).safe
  · exact .refl s

theorem frame_feed (s : System) (writer : WriterId) (ticket : Option Ticket) (data : Bytes) :
    Frame s (s.feed writer ticket data).1 := by
  unfold feed
  simp only
  split
  · exact .refl s
  split
  · exact frame_machine s _
  · exact frame_machine s _

/-- Moving output of the first runner is safe. -/
theorem safe_runSource (r : RunnerId) (p : PipeRun) (n : Nat) (side : SideProgress) {s : System}
    (hb : s.Begun r) : Safe s (runSource r p n side s).1 := by
  induction n generalizing side s with
  | zero => exact .refl s
  | succ n ih =>
    unfold runSource
    split
    · exact .refl s
    · rename_i d
      have hdeliver := safe_deliver s r d
      split
      · rename_i heq
        exact hdeliver.of_pair heq
      · rename_i heq
        exact (hdeliver.of_pair heq).andThen fun he => ih _ (hb.evolves he)
    · split
      · exact ih _ hb
      · rename_i ticket data _ writer _
        have hfeed := (frame_feed s writer ticket data).safe
        split
        · rename_i heq
          exact (hfeed.of_pair heq).trans (safe_endSource _ p)
        · rename_i heq
          exact hfeed.of_pair heq
        · rename_i heq
          exact (hfeed.of_pair heq).andThen fun he => ih _ (hb.evolves he)
    · have hread := (frame_readStream s p.sourceOutput).safe
      split
      · rename_i heq
        exact hread.of_pair heq
      · rename_i heq
        exact (hread.of_pair heq).trans (safe_endSource _ p)
      · rename_i s' chunk heq
        refine (hread.of_pair heq).andThen fun he => ?_
        have hb' := hb.evolves he
        split
        · exact ih _ hb'
        · have hbegin := safe_beginDelivery hb'.phase chunk
          split
          · rename_i heq'
            exact (hbegin.of_pair heq').andThen fun he' => ih _ (hb'.evolves he')
          · rename_i heq'
            exact (hbegin.of_pair heq').andThen fun he' => ih _ (hb'.evolves he')

/-- Moving output of the second runner is safe. -/
theorem safe_runDest (r : RunnerId) (p : PipeRun) (n : Nat) (side : SideProgress) {s : System}
    (hb : s.Begun r) : Safe s (runDest r p n side s).1 := by
  induction n generalizing side s with
  | zero => exact .refl s
  | succ n ih =>
    unfold runDest
    split
    · exact .refl s
    · exact .refl s
    · rename_i d
      have hdeliver := safe_deliver s r d
      split
      · rename_i heq
        exact hdeliver.of_pair heq
      · rename_i heq
        exact (hdeliver.of_pair heq).andThen fun he => ih _ (hb.evolves he)
    · have hread := (frame_readStream s p.destOutput).safe
      split
      · rename_i heq
        exact hread.of_pair heq
      · rename_i heq
        exact hread.of_pair heq
      · rename_i s' chunk heq
        refine (hread.of_pair heq).andThen fun he => ?_
        have hb' := hb.evolves he
        have hbegin := safe_beginDelivery hb'.phase chunk
        split
        · rename_i heq'
          exact (hbegin.of_pair heq').andThen fun he' => ih _ (hb'.evolves he')
        · rename_i heq'
          exact (hbegin.of_pair heq').andThen fun he' => ih _ (hb'.evolves he')

theorem frame_abortSide (s : System) (p : PipeRun) (side : SideProgress) :
    Frame s (s.abortSide p side) := by
  unfold abortSide
  split
  · exact frame_endDelivery s _
  · split
    · exact frame_updateChannel s _ _
    · exact .refl s
  · exact .refl s

theorem safe_abortPipe (s : System) (p : PipeRun) : Safe s (s.abortPipe p) :=
  (((frame_abortSide s p p.source).trans (frame_abortSide _ p p.dest)).safe.trans
    (safe_dropStream _ p.sourceOutput)).trans (safe_dropStream _ p.destOutput)

section Pipe

variable {s : System} {r : RunnerId} (hb : s.Begun r)

include hb

theorem turns_beginPipe : Turns s (s.beginPipe r) := by
  unfold beginPipe
  split
  · exact .of_safe ((safe_emit s r rfl).trans (safe_finish _ r 1)) fun _ => trivial
  · rename_i source dest _
    have hdest := safe_openStream s dest
    cases hx : s.openStream dest with
    | mk destOutput s' =>
      rw [hx] at hdest
      have hsource := safe_openStream s' source
      cases hy : s'.openStream source with
      | mk sourceOutput s'' =>
        rw [hy] at hsource
        simp only [hy]
        exact .of_begun hb (hdest.trans hsource) fun _ h => h

theorem turns_concludePipe (p : PipeRun) : Turns s (s.concludePipe r p) := by
  unfold concludePipe
  split
  · exact .of_safe ((safe_finish s r _).trans (safe_dropStream _ _)) fun _ => trivial
  · exact .of_begun hb (.refl s) fun _ h => h

theorem safe_runSides (p : PipeRun) : Safe s (s.runSides r p).1 := by
  unfold runSides
  -- as a number, the bound would be counted down whenever terms are compared
  generalize turnSteps = n
  by_cases hsw : p.swapped = true
  · rw [if_pos hsw]
    have hdest := safe_runDest r p n p.dest hb
    cases hx : runDest r p n p.dest s with
    | mk s' dest =>
      rw [hx] at hdest
      refine hdest.andThen fun he => ?_
      have hsource := safe_runSource r p n p.source (hb.evolves he)
      cases hy : runSource r p n p.source s' with
      | mk s'' source =>
        rw [hy] at hsource
        simp only [hy]
        exact hsource
  · rw [if_neg hsw]
    have hsource := safe_runSource r p n p.source hb
    cases hx : runSource r p n p.source s with
    | mk s' source =>
      rw [hx] at hsource
      refine hsource.andThen fun he => ?_
      have hdest := safe_runDest r p n p.dest (hb.evolves he)
      cases hy : runDest r p n p.dest s' with
      | mk s'' dest =>
        rw [hy] at hdest
        simp only [hy]
        exact hdest

/-- Going on with a pipe is safe. -/
theorem turns_runPipe (p : PipeRun) : Turns s (s.runPipe r p) := by
  unfold runPipe
  split
  · exact turns_concludePipe hb p
  split
  · exact .of_safe (safe_abortPipe s p) fun _ => trivial
  · have hsides := safe_runSides hb p
    cases hx : s.runSides r p with
    | mk s' p' =>
      rw [hx] at hsides
      refine hsides.turns fun he => ?_
      have hb' := hb.evolves he
      dsimp only
      split
      · exact turns_concludePipe hb' p'
      split
      · exact .of_safe (safe_abortPipe s' p') fun _ => trivial
      · exact .of_begun hb' (.refl s') fun _ h => h

end Pipe

/-! ## All tasks -/

theorem frame_abandonWork (s : System) (io : Streams) : Frame s (s.abandonWork io) := by
  unfold abandonWork
  refine Frame.trans ?_ (frame_updateMachine _ _)
  have hout : ∀ (s : System) (id : ChannelId),
      Frame s (s.updateChannel id fun c => { c with writers := 0 }) :=
    fun s id => frame_updateChannel s id _
  cases io.stdout with
  | channel id kind =>
    cases io.stderr with
    | channel id' kind' => exact (hout s id).trans (hout _ id')
    | file handle | discard => exact hout s id
  | file handle | discard =>
    cases io.stderr with
    | channel id' kind' => exact hout s id'
    | file handle' | discard => exact .refl s

theorem turns_runWork (s : System) (w : Work) (io : Streams) : Turns s (s.runWork w io) := by
  unfold runWork
  split
  · exact .of_safe (.refl s) fun _ => trivial
  · have hmachine := frame_machine s (w.advance s.machine).1
    refine .of_safe (Frame.safe ?_) fun _ => trivial
    split
    · exact hmachine.trans (frame_abandonWork _ io)
    · exact hmachine

theorem turns_watch (s : System) (r : RunnerId) (token : TokenId) : Turns s (s.watch r token) := by
  unfold watch
  split
  · exact .of_safe (safe_kill s .term r) fun _ => trivial
  split
  · exact .of_safe (.refl s) fun _ => trivial
  · exact .of_safe (.refl s) fun _ => trivial

theorem turns_forward (channel : ChannelId) (pieces : List Bytes) (ticket : Option Ticket)
    (s : System) : Turns s (forward channel pieces ticket s) := by
  induction pieces generalizing ticket s with
  | nil => exact .of_safe (safe_updateChannel s _ _) fun _ => trivial
  | cons piece rest ih =>
    unfold forward
    split
    · exact (frame_machine s _).safe.turns fun _ => ih none _
    · exact .of_safe ((frame_machine s _).trans (frame_updateChannel _ _ _)).safe fun _ => trivial
    · exact .of_safe (frame_machine s _).safe fun _ => trivial

/-- Whatever a routine does in its turn is safe. -/
theorem turns_runRoutine {s : System} {routine : Routine} (hb : s.RoutineBegun routine) :
    Turns s (s.runRoutine routine) := by
  cases routine with
  | ended => exact .of_safe (.refl s) fun _ => trivial
  | work w io => exact turns_runWork s w io
  | beginLine r start =>
    have hline := turns_beginLine hb start
    rw [runRoutine]
    split
    · rename_i heq
      rw [heq] at hline
      exact hline.followed fun hb' => turns_runLineWithin _ turnSteps _ hb'
    · rename_i heq
      rw [heq] at hline
      exact hline
  | runLine r run => exact turns_runLineWithin r turnSteps run hb
  | beginPipe r =>
    have hpipe := turns_beginPipe hb
    rw [runRoutine]
    split
    · rename_i heq
      rw [heq] at hpipe
      exact hpipe.followed fun hb' => turns_runPipe hb' _
    · rename_i heq
      rw [heq] at hpipe
      exact hpipe
  | runPipe r run => exact turns_runPipe hb run
  | watch r token => exact turns_watch s r token
  | forward pieces channel ticket => exact turns_forward channel pieces ticket s
  | await token =>
    refine .of_safe (.refl s) fun s => ?_
    split
    · trivial
    · trivial

/-- Any turn of any task is safe. -/
theorem safe_takeTurn (s : System) (task : TaskId) : Safe s (s.takeTurn task) := by
  unfold takeTurn
  split
  · exact .refl s
  · rename_i t htask
    have hmachine := safe_updateMachine s Machine.beginTurn
    intro hi
    have hb : (s.updateMachine Machine.beginTurn).RoutineBegun t.routine :=
      (hi.tasks t (Array.mem_of_getElem? htask)).grows (hmachine hi).2.toGrows
    obtain ⟨hsafe, hb'⟩ := turns_runRoutine hb (hmachine hi).1
    refine (hmachine.trans (Safe.trans (fun _ => hsafe) (safe_tasks fun hi' t' ht' => ?_))) hi
    rcases Array.mem_or_eq_of_mem_setIfInBounds ht' with hold | rfl
    · exact hi'.tasks t' hold
    · exact hb'

/-! ## Schedules and interrupts -/

/-- Standing in line changes nothing else. -/
theorem safe_enqueueIf (s : System) (test : Routine → Bool) : Safe s (s.enqueueIf test) := by
  refine safe_foldl (P := fun _ => True) (fun _ _ _ _ => trivial) (fun s id _ => ?_) trivial _
  refine safe_tasks fun hi t ht => ?_
  obtain ⟨i, hi'⟩ := Array.mem_iff_getElem?.mp ht
  rw [Array.getElem?_modify] at hi'
  split at hi'
  · cases hx : s.tasks[i]? with
    | none =>
      rw [hx] at hi'
      cases hi'
    | some old =>
      rw [hx] at hi'
      cases hi'
      exact hi.tasks old (Array.mem_of_getElem? hx)
  · exact hi.tasks t (Array.mem_of_getElem? hi')

/-- An interrupt kills runners one after the other. -/
theorem safe_interrupt (s : System) : Safe s s.interrupt.2 :=
  safe_foldl (P := fun _ => True) (fun _ _ _ _ => trivial) (fun s r _ => safe_kill s .int r) trivial _

end Runnel.System
