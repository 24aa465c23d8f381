import Mathlib.Logic.Relation
import Runnel.Proofs.Runner.TurnActs

/-!
# Runnel.Proofs.Runner.Incidents

What a turn consists of, as far as others hear of it: runs begin and end, and listeners are told of
chunks and errors. All else is quiet.

* `System.Quiet`: a change of which neither listeners nor the supervisor hear.
* `System.Incident`: one thing of which they may hear, or something quiet.
* `System.incidents_takeTurn`: any turn of any task consists of such things.
-/

namespace Runnel

/-- What listeners and the supervisor have to do with a runner. -/
structure Runner.Standing where
  /-- How far it is. -/
  phase : Phase
  /-- Its result. -/
  result : Option RunResult
  /-- The supervisor has to be told of its end. -/
  registered : Bool
  /-- Who listens. -/
  listeners : List Listener

/-- What listeners and the supervisor have to do with this runner. -/
def Runner.standing (x : Runner) : Runner.Standing :=
  ⟨x.phase, x.result, x.registered, x.listeners⟩

namespace Runner

variable {x y : Runner}

theorem phase_congr (h : y.standing = x.standing) : y.phase = x.phase :=
  congrArg Standing.phase h

theorem result_congr (h : y.standing = x.standing) : y.result = x.result :=
  congrArg Standing.result h

theorem registered_congr (h : y.standing = x.standing) : y.registered = x.registered :=
  congrArg Standing.registered h

theorem listeners_congr (h : y.standing = x.standing) : y.listeners = x.listeners :=
  congrArg Standing.listeners h

end Runner

namespace System

/-! ## Incidents -/

/-- Neither listeners nor the supervisor hear of the change. -/
structure Quiet (s s' : System) : Prop where
  journal : s'.journal = s.journal
  supervisor : s'.supervisor = s.supervisor
  size : s'.runners.size = s.runners.size
  standing : ∀ r, (s'.runner r).standing = (s.runner r).standing

/-- What can happen at once. -/
inductive Incident (s : System) : System → Prop where
  /-- Nothing of which others hear. -/
  | quiet {s' : System} (h : Quiet s s') : Incident s s'
  /-- A run begins. -/
  | launch {r : RunnerId} (h : (s.runner r).phase = .pending) : Incident s (s.launch r)
  /-- A run ends by itself. -/
  | finish (r : RunnerId) (code : Int) : Incident s (s.finish r code)
  /-- A runner is killed. -/
  | kill (signal : Signal) (r : RunnerId) : Incident s (s.kill signal r)
  /-- Listeners are told of an error. -/
  | fail (r : RunnerId) (e : RunError) : Incident s (s.emit r (.error e))
  /-- Listeners are told of a chunk. -/
  | announce {r : RunnerId} (h : (s.runner r).phase ≠ .finished) (chunk : Chunk) :
      Incident s (s.emitAll r (Event.ofChunk chunk))

/-- What can happen, one thing after the other. -/
def Incidents : System → System → Prop :=
  Relation.ReflTransGen Incident

namespace Quiet

variable {s s' s'' : System}

theorem of_eq (hj : s'.journal = s.journal) (h : s'.supervisor = s.supervisor)
    (hr : s'.runners = s.runners) : Quiet s s' :=
  ⟨hj, h, by rw [hr], fun r => by rw [runner_congr hr]⟩

theorem refl (s : System) : Quiet s s :=
  of_eq rfl rfl rfl

theorem trans (h : Quiet s s') (h' : Quiet s' s'') : Quiet s s'' :=
  ⟨h'.journal.trans h.journal, h'.supervisor.trans h.supervisor, h'.size.trans h.size,
    fun r => (h'.standing r).trans (h.standing r)⟩

theorem foldl {α : Type} {step : System → α → System} (h : ∀ s a, Quiet s (step s a)) (s : System)
    (list : List α) : Quiet s (list.foldl step s) := by
  induction list generalizing s with
  | nil => exact refl s
  | cons a list ih => exact (h s a).trans (ih _)

theorem phase (h : Quiet s s') (r : RunnerId) : (s'.runner r).phase = (s.runner r).phase :=
  Runner.phase_congr (h.standing r)

theorem listeners (h : Quiet s s') (r : RunnerId) :
    (s'.runner r).listeners = (s.runner r).listeners :=
  Runner.listeners_congr (h.standing r)

theorem incidents (h : Quiet s s') : Incidents s s' :=
  .single (.quiet h)

end Quiet

namespace Incidents

variable {s s' s'' : System}

theorem refl (s : System) : Incidents s s :=
  Relation.ReflTransGen.refl

theorem trans (h : Incidents s s') (h' : Incidents s' s'') : Incidents s s'' :=
  Relation.ReflTransGen.trans h h'

theorem foldl {α : Type} {step : System → α → System} (h : ∀ s a, Incidents s (step s a))
    (s : System) (list : List α) : Incidents s (list.foldl step s) := by
  induction list generalizing s with
  | nil => exact refl s
  | cons a list ih => exact (h s a).trans (ih _)

theorem of_pair {α : Type} {p : System × α} {a : α} (h : Incidents s p.1) (heq : p = (s', a)) :
    Incidents s s' := by
  rw [heq] at h
  exact h

end Incidents

/-! ## What is quiet -/

theorem quiet_updateMachine (s : System) (change : Machine → Machine) :
    Quiet s (s.updateMachine change) :=
  .of_eq rfl rfl rfl

theorem quiet_updateChannel (s : System) (id : ChannelId) (change : Channel → Channel) :
    Quiet s (s.updateChannel id change) :=
  .of_eq rfl rfl rfl

theorem quiet_machine (s : System) (machine : Machine) : Quiet s { s with machine } :=
  .of_eq rfl rfl rfl

theorem quiet_updateStream (s : System) (id : StreamId) (change : ChunkStream → ChunkStream) :
    Quiet s (s.updateStream id change) :=
  .of_eq rfl rfl rfl

theorem quiet_newChannel (s : System) (capacity : Nat) : Quiet s (s.newChannel capacity).2 :=
  .of_eq rfl rfl rfl

theorem quiet_spawn (s : System) (routine : Routine) : Quiet s (s.spawn routine).2 :=
  .of_eq rfl rfl rfl

/-- The standing of the runner stays as it is. -/
theorem quiet_updateRunner (s : System) (r : RunnerId) {change : Runner → Runner}
    (h : ∀ x, (change x).standing = x.standing) : Quiet s (s.updateRunner r change) := by
  refine ⟨rfl, rfl, size_updateRunner s r change, fun r' => ?_⟩
  rw [runner_updateRunner]
  split
  · rename_i hand
    rw [hand.1]
    exact h _
  · rfl

theorem quiet_dropSubscribers (s : System) (channels : List ChannelId) :
    Quiet s (s.dropSubscribers channels) :=
  .foldl (fun s id => quiet_updateChannel s id _) s channels

theorem quiet_closeWriter (s : System) (id : WriterId) : Quiet s (s.closeWriter id) := by
  unfold closeWriter
  simp only
  split
  · exact .of_eq rfl rfl rfl
  · exact .refl s

theorem quiet_prepareInput (s : System) (r : RunnerId) (input : InputOption) :
    Quiet s (s.prepareInput r input).2 := by
  cases input with
  | inherit | ignore | bytes data | text text => exact .refl s
  | stream data => exact (quiet_newChannel s inputCapacity).trans (quiet_spawn _ _)
  | pipe =>
    have hpush : Quiet s { (s.newChannel inputCapacity).2 with
        writers := s.writers.push ⟨(s.newChannel inputCapacity).1, true⟩ } := .of_eq rfl rfl rfl
    exact hpush.trans (quiet_updateRunner _ r fun _ => rfl)

theorem quiet_prepare (s : System) (r : RunnerId) : Quiet s (s.prepare r).2 := by
  rcases prepare_cases s r with heq | ⟨-, start, heq⟩
  · rw [heq]
    exact .refl s
  · rw [heq]
    refine Quiet.trans (quiet_updateRunner s r ?_) (quiet_prepareInput _ r _)
    exact fun _ => rfl

theorem quiet_configure (s : System) (r : RunnerId) (change : RunOptions → RunOptions) :
    Quiet s (s.configure r change).2 := by
  unfold configure
  split
  · exact .refl s
  · exact quiet_updateRunner s r fun _ => rfl

theorem quiet_readStream (s : System) (id : StreamId) : Quiet s (s.readStream id).1 := by
  unfold readStream
  simp only
  split
  · exact .refl s
  split
  · exact quiet_updateStream s id _
  · have hmachine := quiet_machine s (s.machine.take (s.stream id).channel).1
    split
    · exact hmachine.trans (quiet_updateStream _ id _)
    · exact hmachine

theorem quiet_endDelivery (s : System) (d : Delivery) : Quiet s (s.endDelivery d) := by
  unfold endDelivery
  simp only
  refine Quiet.trans ?_ (quiet_dropSubscribers _ _)
  split
  · exact quiet_updateChannel s _ _
  · exact .refl s

theorem quiet_forgetClosed (s : System) (r : RunnerId) : Quiet s (s.forgetClosed r) :=
  (quiet_dropSubscribers s _).trans (quiet_updateRunner _ r fun _ => rfl)

theorem quiet_deliverTo (r : RunnerId) (d : Delivery) (channels : List ChannelId)
    (ticket : Option Ticket) (s : System) : Quiet s (deliverTo r d channels ticket s).1 := by
  induction channels generalizing ticket s with
  | nil => exact (quiet_endDelivery s _).trans (quiet_forgetClosed _ r)
  | cons id rest ih =>
    unfold deliverTo
    split
    · exact quiet_endDelivery s _
    · split
      · exact (quiet_machine s _).trans (ih none _)
      · exact quiet_machine s _

theorem quiet_deliver (s : System) (r : RunnerId) (d : Delivery) : Quiet s (s.deliver r d).1 :=
  quiet_deliverTo r d d.remaining d.ticket s

theorem quiet_beginLine (s : System) (r : RunnerId) (start : LineStart) :
    Quiet s (s.beginLine r start).1 :=
  ((quiet_newChannel s outputCapacity).trans (quiet_updateChannel _ _ _)).trans (quiet_spawn _ _)

theorem quiet_feed (s : System) (writer : WriterId) (ticket : Option Ticket) (data : Bytes) :
    Quiet s (s.feed writer ticket data).1 := by
  unfold feed
  simp only
  split
  · exact .refl s
  split
  · exact quiet_machine s _
  · exact quiet_machine s _

theorem quiet_abortSide (s : System) (p : PipeRun) (side : SideProgress) :
    Quiet s (s.abortSide p side) := by
  unfold abortSide
  split
  · exact quiet_endDelivery s _
  · split
    · exact quiet_updateChannel s _ _
    · exact .refl s
  · exact .refl s

theorem quiet_abandonWork (s : System) (io : Streams) : Quiet s (s.abandonWork io) := by
  unfold abandonWork
  refine Quiet.trans ?_ (quiet_updateMachine _ _)
  have hout : ∀ (s : System) (id : ChannelId),
      Quiet s (s.updateChannel id fun c => { c with writers := 0 }) :=
    fun s id => quiet_updateChannel s id _
  cases io.stdout with
  | channel id kind =>
    cases io.stderr with
    | channel id' kind' => exact (hout s id).trans (hout _ id')
    | file handle | discard => exact hout s id
  | file handle | discard =>
    cases io.stderr with
    | channel id' kind' => exact hout s id'
    | file handle' | discard => exact .refl s

theorem quiet_runWork (s : System) (w : Work) (io : Streams) : Quiet s (s.runWork w io).1 := by
  unfold runWork
  split
  · exact .refl s
  · refine (quiet_machine s (w.advance s.machine).1).trans ?_
    dsimp only
    split
    · exact quiet_abandonWork _ io
    · exact .refl _

theorem quiet_forward (channel : ChannelId) (pieces : List Bytes) (ticket : Option Ticket)
    (s : System) : Quiet s (forward channel pieces ticket s).1 := by
  induction pieces generalizing ticket s with
  | nil => exact quiet_updateChannel s _ _
  | cons piece rest ih =>
    unfold forward
    split
    · exact (quiet_machine s _).trans (ih none _)
    · exact (quiet_machine s _).trans (quiet_updateChannel _ _ _)
    · exact quiet_machine s _

theorem quiet_enqueueIf (s : System) (test : Routine → Bool) : Quiet s (s.enqueueIf test) := by
  refine Quiet.foldl ?_ s _
  exact fun _ _ => .of_eq rfl rfl rfl

/-! ## Begins -/

theorem incidents_start (s : System) (r : RunnerId) : Incidents s (s.start r).2 := by
  have htask : (s.runner r).phase = .pending → Incidents s (s.launchTask r) := fun hpending =>
    Incidents.trans (.single (.launch hpending))
      ((quiet_prepare (s.launch r) r).trans (quiet_spawn _ _)).incidents
  rcases start_cases s r with heq | ⟨hpending, heq | ⟨token, heq⟩⟩
  · rw [heq]
    exact .refl s
  · rw [heq]
    exact htask hpending
  · rw [heq]
    exact (htask hpending).trans (quiet_spawn _ _).incidents

theorem incidents_ensureStarted (s : System) (r : RunnerId) : Incidents s (s.ensureStarted r) := by
  have hstart := incidents_start s r
  unfold ensureStarted
  split
  · rename_i heq
    exact hstart.of_pair (p := ((s.start r).2, (s.start r).1)) (by rw [heq])
  · rename_i heq
    rw [heq] at hstart
    exact (hstart.tail (.fail r _)).tail (.finish r 1)

theorem incidents_openStream (s : System) (r : RunnerId) : Incidents s (s.openStream r).2 := by
  have hpush : ∀ (s : System) (x : ChunkStream),
      Incidents s ({ s with streams := s.streams.push x }.ensureStarted r) := fun s x =>
    (Quiet.of_eq rfl rfl rfl : Quiet s { s with streams := s.streams.push x }).incidents.trans
      (incidents_ensureStarted _ r)
  refine (quiet_newChannel s outputCapacity).incidents.trans (Incidents.trans ?_ (hpush _ _))
  split
  · exact (quiet_updateChannel _ _ _).incidents
  · refine (quiet_updateRunner _ r ?_).incidents
    exact fun _ => rfl

theorem incidents_dropStream (s : System) (id : StreamId) : Incidents s (s.dropStream id) := by
  unfold dropStream
  simp only
  split
  · exact .refl s
  · refine Incidents.trans ?_ (quiet_updateChannel _ _ _).incidents
    have hupdate := (quiet_updateStream s id fun x => { x with held := false }).incidents
    split
    · exact hupdate
    · exact hupdate.tail (.kill _ _)

/-! ## Turns -/

theorem quiet_captured (s : System) (r : RunnerId) (chunk : Chunk) :
    Quiet s (s.captured r chunk) := by
  have hcapture : Quiet s (if (s.runner r).options.capture then
      s.updateRunner r fun x => { x with chunks := x.chunks.push chunk } else s) := by
    split
    · exact quiet_updateRunner s r fun _ => rfl
    · exact .refl s
  have hdisplay : ∀ s' : System, Quiet s' (if (s.runner r).options.display then
      { s' with terminal := chunk :: s'.terminal } else s') := by
    intro s'
    split
    · exact .of_eq rfl rfl rfl
    · exact .refl s'
  exact (hcapture.trans (hdisplay _)).trans (.foldl (fun s id => quiet_updateChannel s id _) _ _)

theorem incidents_beginDelivery (s : System) (r : RunnerId) (chunk : Chunk) :
    Incidents s (s.beginDelivery r chunk).1 := by
  have hquiet := quiet_captured s r chunk
  cases hopen : (s.runner r).isFinished with
  | true => simpa [beginDelivery, hopen] using Incidents.refl s
  | false =>
    have hphase : ((s.captured r chunk).runner r).phase ≠ .finished := by
      rw [hquiet.phase]
      exact fun hf => Bool.false_ne_true (hopen ▸ Runner.isFinished_iff.mpr hf)
    rw [beginDelivery_eq hopen]
    exact hquiet.incidents.tail (.announce hphase chunk)

theorem incidents_concludeLine (s : System) (r : RunnerId) (run : LineRun) :
    Incidents s (s.concludeLine r run).1 := by
  unfold concludeLine
  split
  · refine Incidents.trans ?_ (.single (.finish r _))
    split
    · refine Quiet.incidents ?_
      exact .of_eq rfl rfl rfl
    · exact .refl s
  · exact .tail (.single (.fail r _)) (.finish r 1)
  · exact .refl s

theorem incidents_runLineWithin (r : RunnerId) (n : Nat) (run : LineRun) (s : System) :
    Incidents s (runLineWithin r n run s).1 := by
  induction n generalizing run s with
  | zero => exact .refl s
  | succ n ih =>
    unfold runLineWithin
    split
    · rename_i d _
      have hdeliver := (quiet_deliver s r d).incidents
      split
      · rename_i heq
        exact hdeliver.of_pair heq
      · rename_i heq
        exact (hdeliver.of_pair heq).trans (ih _ _)
    · split
      · exact incidents_concludeLine s r run
      split
      · exact (quiet_updateChannel s _ _).incidents
      split
      · rename_i machine chunk _
        have hmachine := (quiet_machine s machine).incidents
        exact (hmachine.trans (incidents_beginDelivery _ r chunk)).trans (ih _ _)
      · exact (quiet_machine s _).incidents.trans (ih _ _)
      · exact (quiet_machine s _).incidents

theorem incidents_endSource (s : System) (p : PipeRun) : Incidents s (s.endSource p).1 := by
  unfold endSource
  refine Incidents.trans ?_ (incidents_dropStream _ _)
  split
  · exact (quiet_closeWriter s _).incidents
  · exact .refl s

theorem incidents_runSource (r : RunnerId) (p : PipeRun) (n : Nat) (side : SideProgress)
    (s : System) : Incidents s (runSource r p n side s).1 := by
  induction n generalizing side s with
  | zero => exact .refl s
  | succ n ih =>
    unfold runSource
    split
    · exact .refl s
    · rename_i d
      have hdeliver := (quiet_deliver s r d).incidents
      split
      · rename_i heq
        exact hdeliver.of_pair heq
      · rename_i heq
        exact (hdeliver.of_pair heq).trans (ih _ _)
    · split
      · exact ih _ _
      · rename_i ticket data _ writer _
        have hfeed := (quiet_feed s writer ticket data).incidents
        split
        · rename_i heq
          exact (hfeed.of_pair heq).trans (incidents_endSource _ p)
        · rename_i heq
          exact hfeed.of_pair heq
        · rename_i heq
          exact (hfeed.of_pair heq).trans (ih _ _)
    · have hread := (quiet_readStream s p.sourceOutput).incidents
      split
      · rename_i heq
        exact hread.of_pair heq
      · rename_i heq
        exact (hread.of_pair heq).trans (incidents_endSource _ p)
      · rename_i s' chunk heq
        refine (hread.of_pair heq).trans ?_
        split
        · exact ih _ _
        · have hbegin := incidents_beginDelivery s' r chunk
          split
          · rename_i heq'
            exact (hbegin.of_pair heq').trans (ih _ _)
          · rename_i heq'
            exact (hbegin.of_pair heq').trans (ih _ _)

theorem incidents_runDest (r : RunnerId) (p : PipeRun) (n : Nat) (side : SideProgress)
    (s : System) : Incidents s (runDest r p n side s).1 := by
  induction n generalizing side s with
  | zero => exact .refl s
  | succ n ih =>
    unfold runDest
    split
    · exact .refl s
    · exact .refl s
    · rename_i d
      have hdeliver := (quiet_deliver s r d).incidents
      split
      · rename_i heq
        exact hdeliver.of_pair heq
      · rename_i heq
        exact (hdeliver.of_pair heq).trans (ih _ _)
    · have hread := (quiet_readStream s p.destOutput).incidents
      split
      · rename_i heq
        exact hread.of_pair heq
      · rename_i heq
        exact hread.of_pair heq
      · rename_i s' chunk heq
        have hbegin := incidents_beginDelivery s' r chunk
        refine (hread.of_pair heq).trans ?_
        split
        · rename_i heq'
          exact (hbegin.of_pair heq').trans (ih _ _)
        · rename_i heq'
          exact (hbegin.of_pair heq').trans (ih _ _)

theorem incidents_abortPipe (s : System) (p : PipeRun) : Incidents s (s.abortPipe p) :=
  (((quiet_abortSide s p p.source).trans (quiet_abortSide _ p p.dest)).incidents.trans
    (incidents_dropStream _ p.sourceOutput)).trans (incidents_dropStream _ p.destOutput)

theorem incidents_beginPipe (s : System) (r : RunnerId) : Incidents s (s.beginPipe r).1 := by
  unfold beginPipe
  split
  · exact .tail (.single (.fail r _)) (.finish r 1)
  · rename_i source dest _
    have hdest := incidents_openStream s dest
    cases hx : s.openStream dest with
    | mk destOutput s' =>
      rw [hx] at hdest
      have hsource := incidents_openStream s' source
      cases hy : s'.openStream source with
      | mk sourceOutput s'' =>
        rw [hy] at hsource
        simp only [hy]
        exact hdest.trans hsource

theorem incidents_concludePipe (s : System) (r : RunnerId) (p : PipeRun) :
    Incidents s (s.concludePipe r p).1 := by
  unfold concludePipe
  split
  · exact Incidents.trans (.single (.finish r _)) (incidents_dropStream _ _)
  · exact .refl s

theorem incidents_runSides (s : System) (r : RunnerId) (p : PipeRun) :
    Incidents s (s.runSides r p).1 := by
  unfold runSides
  -- as a number, the bound would be counted down whenever terms are compared
  generalize turnSteps = n
  split
  · have hdest := incidents_runDest r p n p.dest s
    cases hx : runDest r p n p.dest s with
    | mk s' dest =>
      rw [hx] at hdest
      have hsource := incidents_runSource r p n p.source s'
      cases hy : runSource r p n p.source s' with
      | mk s'' source =>
        rw [hy] at hsource
        simp only [hy]
        exact hdest.trans hsource
  · have hsource := incidents_runSource r p n p.source s
    cases hx : runSource r p n p.source s with
    | mk s' source =>
      rw [hx] at hsource
      have hdest := incidents_runDest r p n p.dest s'
      cases hy : runDest r p n p.dest s' with
      | mk s'' dest =>
        rw [hy] at hdest
        simp only [hy]
        exact hsource.trans hdest

theorem incidents_runPipe (s : System) (r : RunnerId) (p : PipeRun) :
    Incidents s (s.runPipe r p).1 := by
  unfold runPipe
  split
  · exact incidents_concludePipe s r p
  split
  · exact incidents_abortPipe s p
  · refine (incidents_runSides s r p).trans ?_
    generalize s.runSides r p = q
    obtain ⟨s', p'⟩ := q
    dsimp only
    split
    · exact incidents_concludePipe s' r p'
    split
    · exact incidents_abortPipe s' p'
    · exact .refl s'

theorem incidents_watch (s : System) (r : RunnerId) (token : TokenId) :
    Incidents s (s.watch r token).1 := by
  unfold watch
  split
  · exact .single (.kill .term r)
  split
  · exact .refl s
  · exact .refl s

theorem incidents_runRoutine (s : System) (routine : Routine) :
    Incidents s (s.runRoutine routine).1 := by
  cases routine with
  | ended => exact .refl s
  | work w io => exact (quiet_runWork s w io).incidents
  | beginLine r start =>
    have hline := (quiet_beginLine s r start).incidents
    rw [runRoutine]
    split
    · rename_i heq
      refine (hline.of_pair heq).trans ?_
      exact incidents_runLineWithin _ turnSteps _ _
    · rename_i heq
      exact hline.of_pair heq
  | runLine r run => exact incidents_runLineWithin r turnSteps run s
  | beginPipe r =>
    have hpipe := incidents_beginPipe s r
    rw [runRoutine]
    split
    · rename_i heq
      refine (hpipe.of_pair heq).trans ?_
      exact incidents_runPipe _ _ _
    · rename_i heq
      exact hpipe.of_pair heq
  | runPipe r run => exact incidents_runPipe s r run
  | watch r token => exact incidents_watch s r token
  | forward pieces channel ticket => exact (quiet_forward channel pieces ticket s).incidents
  | await token => exact .refl s

/-- Any turn of any task. -/
theorem incidents_takeTurn (s : System) (task : TaskId) : Incidents s (s.takeTurn task) := by
  unfold takeTurn
  split
  · exact .refl s
  · rename_i t _
    have hturn := (quiet_updateMachine s Machine.beginTurn).incidents.trans
      (incidents_runRoutine _ t.routine)
    refine hturn.trans (Quiet.incidents ?_)
    exact .of_eq rfl rfl rfl

theorem incidents_interrupt (s : System) : Incidents s s.interrupt.2 :=
  .foldl (fun _ r => .single (.kill .int r)) s _

end System
end Runnel
