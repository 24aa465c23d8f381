import Runnel.Proofs.Runner.Farewell
import Runnel.Proofs.Runner.Piping

/-!
# Runnel.Proofs.Runner.Courses

In which order listeners are told of all that becomes of a runner.

* `System.Course`: what can become of a runner at once; `Incident.courses`: nothing else can.
* `System.Untold`: nobody was told of the end of a run that has not ended. Every course keeps this,
  and with it the order of what is told: `Course.endsInOrder` and `Course.outputFirst` are the steps,
  `endsInOrder_of_reaches` and `outputFirst_of_calm` the runs.
* `System.outputFirst_iff_calm`: the order of all that is told of a runner.
-/

namespace Runnel.System

/-! ## What can become of a runner -/

section

variable {s s' : System} {r : RunnerId} {out pre post : List Event}

/-- What can become of a runner at once. -/
inductive Course (s s' : System) (r : RunnerId) : Prop where
  /-- It has not ended. It may have begun, and its listeners may have been told of something. -/
  | onward (out : List Event)
      (hphase : (s'.runner r).phase = .finished ↔ (s.runner r).phase = .finished)
      (hresult : (s'.runner r).result = (s.runner r).result)
      (hlisteners : (s'.runner r).listeners = (s.runner r).listeners)
      (hevents : s'.events r = s.events r ++ out)
      (hends : ∀ e ∈ out, e.topic.isEnd = false)
      (houtput : (s.runner r).phase = .finished → ∀ e ∈ out, e.topic.isOutput = false)
  /-- It has ended, perhaps while its listeners were told of something. -/
  | ended (pre post : List Event) (result : RunResult) (hopen : (s.runner r).phase ≠ .finished)
      (hstanding : (s'.runner r).standing = ⟨.finished, some result, false, []⟩)
      (hevents : s'.events r
        = s.events r ++ (pre ++ Listener.farewell (s.runner r).listeners result ++ post))
      (hends : ∀ e ∈ pre ++ post, e.topic.isEnd = false)
      (hcalm : (∀ kind, Listener.Calm (s.runner r).listeners kind) →
        Listener.farewell (s.runner r).listeners result = [] ∨
          ∀ e ∈ post, e.topic.isOutput = false)

theorem Parted.course (h : Parted s s' r) : Course s s' r := by
  cases h with
  | same hstanding hevents =>
    refine .onward [] ?_ (Runner.result_congr hstanding) (Runner.listeners_congr hstanding)
      (hevents.trans (List.append_nil _).symm) nofun fun _ => nofun
    rw [Runner.phase_congr hstanding]
  | ended result hopen hstanding hevents =>
    exact .ended [] [] result hopen hstanding (by simpa using hevents) nofun fun _ => .inr nofun

/-- What can become of all runners at once. -/
structure Courses (s s' : System) : Prop where
  size : s'.runners.size = s.runners.size
  course : ∀ r, Course s s' r

theorem Parts.courses (h : Parts s s') : Courses s s' :=
  ⟨h.size, fun r => (h.parted r).course⟩

theorem Speaks.courses (h : Speaks r out s s') (hends : ∀ e ∈ out, e.topic.isEnd = false)
    (houtput : (s.runner r).phase = .finished → ∀ e ∈ out, e.topic.isOutput = false) :
    Courses s s' := by
  refine ⟨h.size, fun r' => ?_⟩
  by_cases heq : r' = r
  · rw [heq]
    refine .onward out ?_ (Runner.result_congr h.standing) h.listeners h.events hends houtput
    rw [h.phase]
  · exact (h.others r' heq).course

theorem Breaks.courses (h : Breaks r pre post s s') (hends : ∀ e ∈ pre ++ post, e.topic.isEnd = false)
    (hcalm : (∀ kind, Listener.Calm (s.runner r).listeners kind) →
      ((∃ l ∈ (s.runner r).listeners, l.topic.isEnd = true) →
        ∀ e ∈ post, e.topic.isOutput = false)) : Courses s s' := by
  refine ⟨h.size, fun r' => ?_⟩
  by_cases heq : r' = r
  · obtain ⟨result, hstanding, hevents⟩ := h.ended
    rw [heq]
    refine .ended pre post result h.open_ hstanding hevents hends fun hall => ?_
    rw [Listener.farewell_eq_nil_iff]
    exact (Classical.em _).symm.imp_right (hcalm hall)
  · exact (h.others r' heq).course

theorem courses_announce (hc : s.Concluded) (hopen : (s.runner r).phase ≠ .finished)
    (chunk : Chunk) : Courses s (s.emitAll r (Event.ofChunk chunk)) := by
  rcases announce_cases hc hopen chunk with ⟨out, hout, -, hspeaks⟩ |
      ⟨pre, post, hout, hbreaks, hcalm⟩
  · exact hspeaks.courses (fun e he => Topic.isEnd_of_isOutput (hout e he))
      fun hf => absurd hf hopen
  · refine hbreaks.courses (fun e he => Topic.isEnd_of_isOutput (hout e he)) fun hall hend => ?_
    rw [hcalm.mp (hall chunk.kind) hend]
    nofun

/-- Of an error others may be told at any time. -/
theorem courses_fail (hc : s.Concluded) (r : RunnerId) (e : RunError) :
    Courses s (s.emit r (.error e)) := by
  have hs' : s.emit r (.error e) = _ := foldl_tell _ r (s.runner r).listeners [.error e] s
  have herror : ∀ x ∈ Listener.speeches (s.runner r).listeners [.error e],
      x.1.topic.isEnd = false ∧ x.1.topic.isOutput = false := by
    intro x hx
    rw [List.mem_singleton.mp (Listener.mem_speeches.mp hx).1]
    exact ⟨rfl, rfl⟩
  have hevents : ∀ list : List (Event × Listener),
      (∀ x ∈ list, x.1.topic.isEnd = false ∧ x.1.topic.isOutput = false) →
      (∀ e ∈ list.map Prod.fst, e.topic.isEnd = false) ∧
        ∀ e ∈ list.map Prod.fst, e.topic.isOutput = false := fun list hlist =>
    ⟨List.forall_mem_map.mpr fun x hx => (hlist x hx).1,
      List.forall_mem_map.mpr fun x hx => (hlist x hx).2⟩
  rw [hs']
  by_cases hf : (s.runner r).phase = .finished
  · have hspeaks := speaks_foldl (fun signal _ hc => parts_kill hc signal r) hc hf
      (Listener.speeches (s.runner r).listeners [.error e])
    exact hspeaks.courses (hevents _ herror).1 fun _ => (hevents _ herror).2
  · rcases foldl_say_of_open hc hf (Listener.speeches (s.runner r).listeners [.error e]) with
      ⟨-, hspeaks⟩ | ⟨before, x, after, hsplit, -, -, hbreaks⟩
    · exact hspeaks.courses (hevents _ herror).1 fun _ => (hevents _ herror).2
    · rw [hsplit, List.append_cons, List.forall_mem_append] at herror
      refine hbreaks.courses ?_ fun _ _ => (hevents _ herror.2).2
      exact List.forall_mem_append.mpr ⟨(hevents _ herror.1).1, (hevents _ herror.2).1⟩

theorem courses_launch (hpending : (s.runner r).phase = .pending) : Courses s (s.launch r) := by
  have hr : r < s.runners.size := lt_of_not_finished (by rw [hpending]; decide)
  refine ⟨size_updateRunner _ _ _, fun r' => ?_⟩
  by_cases heq : r' = r
  · have hself : (s.launch r).runner r = { s.runner r with
        phase := .running
        settings := s.shell.settings
        registered := (s.supervisor.register r).1 } := runner_updateRunner_self hr _
    rw [heq]
    refine .onward [] ?_ (by rw [hself]) (by rw [hself]) (List.append_nil _).symm nofun fun _ => nofun
    rw [hself, hpending]
    exact iff_of_false nofun nofun
  · have hother : (s.launch r).runner r' = s.runner r' := runner_updateRunner_of_ne _ heq _
    exact Parted.course (.same (by rw [hother]) rfl)

/-- All that can happen at once. -/
theorem Incident.courses (h : Incident s s') (hc : s.Concluded) : Courses s s' := by
  cases h with
  | quiet h => exact h.parts.courses
  | launch h => exact courses_launch h
  | finish r code => exact (parts_finish hc r code).courses
  | kill signal r => exact (parts_kill hc signal r).courses
  | fail r e => exact courses_fail hc r e
  | announce h chunk => exact courses_announce hc h chunk

end

/-! ## One thing after the other -/

section

variable {s s' : System} {r : RunnerId}

theorem Courses.concluded (h : Courses s s') (hc : s.Concluded) : s'.Concluded := by
  intro r hr
  rw [h.size] at hr
  cases h.course r with
  | onward out hphase hresult => rw [hphase, hresult, hc r hr]
  | ended pre post result hopen hstanding => exact concluded_of_ended hstanding

/-- Nobody was told of the end of a run that has not ended. -/
def Untold (s : System) (r : RunnerId) : Prop :=
  (s.runner r).phase ≠ .finished → ∀ e ∈ s.events r, e.topic.isEnd = false

theorem Inv.untold_events (hi : s.Inv) (r : RunnerId) : s.Untold r := fun hopen _ he =>
  isEnd_of_mem_events (hi.untold r (lt_of_not_finished hopen) hopen) he

theorem Course.untold (h : Course s s' r) (hu : s.Untold r) : s'.Untold r := by
  intro hopen
  cases h with
  | onward out hphase _ _ hevents hends =>
    rw [hevents]
    exact List.forall_mem_append.mpr ⟨hu fun hf => hopen (hphase.mpr hf), hends⟩
  | ended pre post result _ hstanding =>
    exact absurd (congrArg Runner.Standing.phase hstanding) hopen

/-- The end is told of in order. -/
theorem Course.endsInOrder (h : Course s s' r) (hu : s.Untold r)
    (ho : Event.EndsInOrder (s.events r)) : Event.EndsInOrder (s'.events r) := by
  cases h with
  | onward out _ _ _ hevents hends =>
    rw [hevents]
    exact Event.endsInOrder_append ho (Event.endsInOrder_of_noEnd hends) (.inr hends)
  | ended pre post result hopen _ hevents hends =>
    obtain ⟨hpre, hpost⟩ := List.forall_mem_append.mp hends
    have hbye := Listener.endsInOrder_farewell (s.runner r).listeners result
    have hfirst := Event.endsInOrder_append (Event.endsInOrder_of_noEnd hpre) hbye (.inl hpre)
    rw [hevents]
    exact Event.endsInOrder_append ho
      (Event.endsInOrder_append hfirst (Event.endsInOrder_of_noEnd hpost) (.inr hpost))
      (.inl (hu hopen))

/-- As long as everybody is calm, output is told of first. -/
theorem Course.outputFirst (h : Course s s' r) (hu : s.Untold r)
    (hcalm : ∀ kind, Listener.Calm (s.runner r).listeners kind)
    (ho : Event.OutputFirst (s.events r)) : Event.OutputFirst (s'.events r) := by
  cases h with
  | onward out _ _ _ hevents hends houtput =>
    rw [hevents]
    refine Event.outputFirst_append ho (Event.outputFirst_of_noEnd hends) ?_
    -- Either nothing about the end was told before, or no output is told of now.
    exact (Classical.em ((s.runner r).phase = .finished)).symm.imp hu houtput
  | ended pre post result hopen _ hevents hends hpost =>
    obtain ⟨hpre, hlast⟩ := List.forall_mem_append.mp hends
    have hbye : ∀ e ∈ Listener.farewell (s.runner r).listeners result, e.topic.isOutput = false :=
      fun e he => Topic.isOutput_of_isEnd (Listener.isEnd_of_mem_farewell he)
    have hfirst := Event.outputFirst_append (Event.outputFirst_of_noEnd hpre)
      (Event.outputFirst_of_noOutput hbye) (.inl hpre)
    rw [hevents]
    refine Event.outputFirst_append ho (Event.outputFirst_append hfirst
      (Event.outputFirst_of_noEnd hlast) ?_) (.inl (hu hopen))
    refine (hpost hcalm).imp_left fun hnone => ?_
    rwa [hnone, List.append_nil]

theorem Course.calm (h : Course s s' r)
    (hcalm : ∀ kind, Listener.Calm (s.runner r).listeners kind) (kind : ChunkKind) :
    Listener.Calm (s'.runner r).listeners kind := by
  cases h with
  | onward out _ _ hlisteners =>
    rw [hlisteners]
    exact hcalm kind
  | ended pre post result _ hstanding =>
    have hnobody : (s'.runner r).listeners = [] := congrArg Runner.Standing.listeners hstanding
    rw [hnobody]
    exact Listener.calm_of_forall nofun

/-- What each course keeps is kept whatever happens. -/
theorem Incidents.keep {P : System → Prop} (h : Incidents s s') (hc : s.Concluded)
    (hkeep : ∀ u v, Courses u v → P u → P v) (hs : P s) : P s' := by
  -- What can happen is a course only where each run that has ended has its result.
  have hboth : s'.Concluded ∧ P s' := by
    unfold Incidents at h
    induction h with
    | refl => exact ⟨hc, hs⟩
    | tail _ hincident ih =>
      have hcourses := hincident.courses ih.1
      exact ⟨hcourses.concluded ih.1, hkeep _ _ hcourses ih.2⟩
  exact hboth.2

/-- Whatever is done, it is made of such things, or nobody is told of anything. -/
theorem Step.incidents_or (h : Step s s') : Incidents s s' ∨ s'.journal = s.journal := by
  cases h with
  | newRunner text options => exact .inr rfl
  | @pipe source dest =>
    refine .inr ?_
    rcases pipe_cases s source dest with ⟨-, heq⟩ | ⟨-, -, heq⟩ | ⟨-, -, q, s', heq, hpiped⟩
    · rw [heq]
    · rw [heq]
    · rw [heq]
      exact hpiped.journal
  | configure r change => exact .inl (quiet_configure s r change).incidents
  | listen r l =>
    refine .inr ?_
    unfold System.listen
    split
    · rfl
    · rfl
  | start r => exact .inl (incidents_start s r)
  | ensureStarted r => exact .inl (incidents_ensureStarted s r)
  | openStream r => exact .inl (incidents_openStream s r)
  | dropStream id => exact .inl (incidents_dropStream s id)
  | beginDelivery chunk h => exact .inl (incidents_beginDelivery s _ chunk)
  | deliver r d => exact .inl (quiet_deliver s r d).incidents
  | emit r e => exact .inl (.single (.fail r e))
  | finish r code => exact .inl (.single (.finish r code))
  | kill signal r => exact .inl (.single (.kill signal r))
  | interrupt => exact .inl (incidents_interrupt s)
  | takeTurn task => exact .inl (incidents_takeTurn s task)
  | enqueueIf test => exact .inl (quiet_enqueueIf s test).incidents
  | spawn h => exact .inl (quiet_spawn s _).incidents
  | hold r held =>
    refine .inl (quiet_updateRunner s r ?_).incidents
    exact fun _ => rfl
  | aside h => exact .inr h.journal

/-! ## Whole runs -/

/-- The end of a run is told of in order, whatever happens. -/
theorem endsInOrder_of_reaches {machine : Machine} {shell : Shell}
    (h : (ofShell machine shell).Reaches s) (r : RunnerId) :
    Event.EndsInOrder (s.events r) := by
  induction h with
  | refl => exact .nil
  | @tail u v hreach hstep ih =>
    have hi := inv_of_reaches hreach (inv_ofShell machine shell)
    rcases hstep.incidents_or with hincidents | hjournal
    · refine (hincidents.keep (P := fun s => s.Untold r ∧ Event.EndsInOrder (s.events r))
        hi.concluded (fun _ _ hcourses hu => ?_) ⟨hi.untold_events r, ih⟩).2
      exact ⟨(hcourses.course r).untold hu.1, (hcourses.course r).endsInOrder hu.1 hu.2⟩
    · rwa [events_congr hjournal]

/-- A step before which those who listen to a runner are calm. -/
def CalmStep (r : RunnerId) (s s' : System) : Prop :=
  Step s s' ∧ ∀ kind, Listener.Calm (s.runner r).listeners kind

/-- As long as everybody has been calm, output was told of first. -/
theorem outputFirst_of_calm {machine : Machine} {shell : Shell}
    (h : Relation.ReflTransGen (CalmStep r) (ofShell machine shell) s) :
    Event.OutputFirst (s.events r) := by
  induction h with
  | refl => exact .nil
  | @tail u v hcalm hstep ih =>
    have hi := inv_of_reaches (Relation.ReflTransGen.mono (fun _ _ h => h.1) _ _ hcalm)
      (inv_ofShell machine shell)
    rcases hstep.1.incidents_or with hincidents | hjournal
    · refine (hincidents.keep (P := fun s => s.Untold r ∧ Event.OutputFirst (s.events r) ∧
        ∀ kind, Listener.Calm (s.runner r).listeners kind) hi.concluded
        (fun _ _ hcourses hu => ?_) ⟨hi.untold_events r, ih, hstep.2⟩).2.1
      have hcourse := hcourses.course r
      exact ⟨hcourse.untold hu.1, hcourse.outputFirst hu.1 hu.2.2 hu.2.1, hcourse.calm hu.2.2⟩
    · rwa [events_congr hjournal]

/-- A chunk makes no disorder if and only if those who listen are calm. -/
theorem outputFirst_beginDelivery_iff (hi : s.Inv) (hopen : (s.runner r).phase ≠ .finished)
    (chunk : Chunk) :
    Event.OutputFirst ((s.beginDelivery r chunk).1.events r)
      ↔ Listener.Calm (s.runner r).listeners chunk.kind := by
  have hquiet := quiet_captured s r chunk
  have hbegin : (s.beginDelivery r chunk).1
      = (s.captured r chunk).emitAll r (Event.ofChunk chunk) := by
    rw [beginDelivery_eq (Bool.eq_false_iff.mpr fun hf => hopen (Runner.isFinished_iff.mp hf))]
  have hbefore : ∀ e ∈ (s.captured r chunk).events r, e.topic.isEnd = false := by
    rw [events_congr hquiet.journal]
    exact hi.untold_events r hopen
  rw [hbegin, ← hquiet.listeners r]
  rcases announce_cases (hquiet.parts.concluded hi.concluded) (hquiet.phase r ▸ hopen) chunk with
    ⟨out, hout, hcalm, hspeaks⟩ | ⟨pre, post, hout, hbreaks, hcalm⟩
  · refine iff_of_true ?_ hcalm
    rw [hspeaks.events]
    exact Event.outputFirst_of_noEnd (List.forall_mem_append.mpr
      ⟨hbefore, fun e he => Topic.isEnd_of_isOutput (hout e he)⟩)
  · obtain ⟨hpre, hpost⟩ := List.forall_mem_append.mp hout
    obtain ⟨result, -, hevents⟩ := hbreaks.ended
    have hfirst : ∀ e ∈ (s.captured r chunk).events r ++ pre, e.topic.isEnd = false :=
      List.forall_mem_append.mpr ⟨hbefore, fun e he => Topic.isEnd_of_isOutput (hpre e he)⟩
    rw [hcalm, hevents, ← List.append_assoc, ← List.append_assoc, Event.outputFirst_broken_iff hfirst
      (fun e he => Listener.isEnd_of_mem_farewell he) hpost, ne_eq, Listener.farewell_eq_nil_iff,
      not_not]

end

/-- The order in which listeners are told, whatever they do and whatever happens. The end of a run is
told of in order: all results, then all exit codes, then all closes. A chunk of a runner that has not
ended is told of before all this if and only if those who listen are calm: nobody listens to the end,
or nobody who hears of the chunk kills the runner but the last one. So output is always told of first
if they have been calm all the time. -/
theorem outputFirst_iff_calm {machine : Machine} {shell : Shell} {s : System}
    (h : (ofShell machine shell).Reaches s) (r : RunnerId) :
    Event.EndsInOrder (s.events r) ∧
      ((s.runner r).phase ≠ .finished → ∀ chunk,
        (Event.OutputFirst ((s.beginDelivery r chunk).1.events r)
          ↔ Listener.Calm (s.runner r).listeners chunk.kind)) ∧
      (Relation.ReflTransGen (CalmStep r) (ofShell machine shell) s →
        Event.OutputFirst (s.events r)) :=
  ⟨endsInOrder_of_reaches h r, outputFirst_beginDelivery_iff (inv_of_reaches h
    (inv_ofShell machine shell)), outputFirst_of_calm⟩

/-- A listener that stops the run at the first chunk. -/
theorem outputFirst_iff_calm_stopped :
    let first := ofShell (Machine.ofDisk .empty .empty)
      ⟨.off, "/", [], ⟨"/bin/sh", ["-c"]⟩, true, true, true⟩
    let s := (((first.newRunner (.line "yes") .standard).2.listen 0 ⟨.exit, none⟩).listen 0
      ⟨.data, some .term⟩).start 0 |>.2
    let t := (s.beginDelivery 0 ⟨.stdout, [121, 10]⟩).1
    (first.Reaches t ∧ (s.runner 0).phase ≠ .finished ∧
      Relation.ReflTransGen (CalmStep 0) first t) ∧
      t.events 0 = [.data ⟨.stdout, [121, 10]⟩, .exit 143] ∧ Event.EndsInOrder (t.events 0) ∧
      (Event.OutputFirst (t.events 0) ↔ Listener.Calm (s.runner 0).listeners .stdout) ∧
      Event.OutputFirst (t.events 0) := by
  intro first s t
  have hcalm : Relation.ReflTransGen (CalmStep 0) first s :=
    (((Relation.ReflTransGen.single (show CalmStep 0 _ _ from
        ⟨.newRunner "yes" .standard, fun kind => by cases kind <;> decide⟩)).tail
      ⟨.listen 0 _, fun kind => by cases kind <;> decide⟩).tail
      ⟨.listen 0 _, fun kind => by cases kind <;> decide⟩).tail
      ⟨.start 0, fun kind => by cases kind <;> decide⟩
  have hcalm' : Relation.ReflTransGen (CalmStep 0) first t :=
    hcalm.tail ⟨.beginDelivery _ (by decide), fun kind => by cases kind <;> decide⟩
  have hreach : first.Reaches s := Relation.ReflTransGen.mono (fun _ _ h => h.1) _ _ hcalm
  have hreach' : first.Reaches t := Relation.ReflTransGen.mono (fun _ _ h => h.1) _ _ hcalm'
  have hopen : (s.runner 0).phase ≠ .finished := by decide
  obtain ⟨hends, -, hfirst⟩ := outputFirst_iff_calm hreach' 0
  exact ⟨⟨hreach', hopen, hcalm'⟩, by decide, hends, (outputFirst_iff_calm hreach 0).2.1 hopen _,
    hfirst hcalm'⟩

/-- A listener that stops the run at the first chunk, and another one that hears of the chunk, too. -/
theorem outputFirst_not_calm :
    let first := ofShell (Machine.ofDisk .empty .empty)
      ⟨.off, "/", [], ⟨"/bin/sh", ["-c"]⟩, true, true, true⟩
    let s := ((((first.newRunner (.line "yes") .standard).2.listen 0 ⟨.exit, none⟩).listen 0
      ⟨.data, some .term⟩).listen 0 ⟨.stdout, none⟩).start 0 |>.2
    let t := (s.beginDelivery 0 ⟨.stdout, [121, 10]⟩).1
    first.Reaches t ∧
      t.events 0 = [.data ⟨.stdout, [121, 10]⟩, .exit 143, .stdout [121, 10]] ∧
      ¬ Event.OutputFirst (t.events 0) := by
  intro first s t
  have hreach : first.Reaches t :=
    ((((Relation.ReflTransGen.single (.newRunner "yes" .standard)).tail (.listen 0 _)).tail
      (.listen 0 _)).tail (.listen 0 _)).tail (.start 0) |>.tail (.beginDelivery _ (by decide))
  exact ⟨hreach, by decide, by decide⟩

end Runnel.System
