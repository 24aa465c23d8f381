import Runnel.Proofs.Runner.LifeCycle
import Runnel.Proofs.Runner.TurnActs

/-!
# Runnel.Proofs.Runner.Moves

Turns of tasks and what is done from outside, one after the other, and what is true in between.

* `System.Move`: all that can happen to a system.
* `System.Stands`: what is true of a system between turns.
* `System.noStragglers`: the stages of a runner that is finished are finished, and so is the runner
  of a stream that has been dropped.
-/

namespace Runnel.System

section

variable {R : StreamId → Prop} {s s' : System} {x y : Loads × System}

/-! ## Tasks -/

/-- The routines of all tasks. -/
def routines (s : System) : List Routine :=
  s.tasks.toList.map Task.routine

theorem loads_eq (s : System) : s.loads = s.routines.flatMap Routine.load := by
  rw [loads, routines, List.flatMap_map]

theorem routines_congr (h : s'.tasks.map Task.routine = s.tasks.map Task.routine) :
    s'.routines = s.routines := by
  have hlist := congrArg Array.toList h
  rwa [Array.toList_map, Array.toList_map] at hlist

/-- A routine that has not begun. -/
structure Routine.Blank (routine : Routine) : Prop where
  load : routine.load = []
  inputs : routine.inputs = []

theorem blank_of_none {routine : Routine} (h : routine.driven? = none) :
    Routine.Blank routine := by
  cases routine with
  | beginLine r start | runLine r run | beginPipe r | runPipe r run => cases h
  | ended | work w io | watch r token | forward pieces channel ticket | await token =>
    exact ⟨rfl, rfl⟩

theorem tasks_record (s : System) (r : RunnerId) (code : Int) : (s.record r code).tasks = s.tasks := by
  rw [record, updateRunner]
  exact (ChannelsOnly.of_letGo s r).tasks

theorem tasks_forgetClosed (s : System) (r : RunnerId) : (s.forgetClosed r).tasks = s.tasks := by
  rw [forgetClosed, updateRunner]
  exact (ChannelsOnly.of_dropSubscribers s _).tasks

/-- All that happens to tasks in an act is that new ones come. -/
theorem Act.routines (h : Act R x y) :
    ∃ new, y.2.routines = x.2.routines ++ new ∧ ∀ routine ∈ new, Routine.Blank routine := by
  have hsame : ∀ {s s' : System}, s'.tasks = s.tasks →
      ∃ new, s'.routines = s.routines ++ new ∧ ∀ routine ∈ new, Routine.Blank routine := by
    intro s s' h
    exact ⟨[], by rw [System.routines, System.routines, h, List.append_nil], List.forall_mem_nil _⟩
  have hspawn : ∀ (s : System) (routine : Routine), Routine.Blank routine →
      ∃ new, (s.spawn routine).2.routines = s.routines ++ new ∧
        ∀ routine ∈ new, Routine.Blank routine := by
    intro s routine hblank
    refine ⟨[routine], ?_, fun x hx => List.mem_singleton.mp hx ▸ hblank⟩
    show (s.tasks.push ⟨routine, true⟩).toList.map Task.routine = _
    rw [Array.toList_push, List.map_append]
    rfl
  cases h with
  | aside h => exact ⟨[], by rw [routines_congr h.tasks, List.append_nil], List.forall_mem_nil _⟩
  | permute h => exact hsame rfl
  | @record D s r code hr hnot hstages hload => exact hsame (tasks_record s r code)
  | @capture D s r chunk hr hrun hline hkind =>
    refine hsame ?_
    rw [captured, (ChannelsOnly.of_addWriters _ _).tasks, (noted_noted s r chunk).tasks]
  | hand hrest hlive hoffer => exact hsame rfl
  | stall ticket => exact hsame rfl
  | @settle D s r d h => exact hsame (ChannelsOnly.of_endDelivery s d).tasks
  | @forget D s r => exact hsame (tasks_forgetClosed s r)
  | @read D s id h => exact hsame (frame_readStream s id).tasks
  | @join D s r hr => exact hsame (opened_opened s r).tasks
  | leave hid h => exact hsame rfl
  | newRunner options h => exact hsame rfl
  | spawn h hnone => exact hspawn _ _ (blank_of_none hnone)
  | drive h hb hbegins hnew =>
    rcases hbegins with rfl | ⟨start, rfl⟩
    · exact hspawn _ _ ⟨rfl, rfl⟩
    · exact hspawn _ _ ⟨rfl, rfl⟩

theorem Acts.routines (h : Acts R x y) :
    ∃ new, y.2.routines = x.2.routines ++ new ∧ ∀ routine ∈ new, Routine.Blank routine := by
  induction h with
  | refl => exact ⟨[], (List.append_nil _).symm, List.forall_mem_nil _⟩
  | tail _ hact ih =>
    obtain ⟨new, heq, hblank⟩ := ih
    obtain ⟨new', heq', hblank'⟩ := hact.routines
    refine ⟨new ++ new', by rw [heq', heq, List.append_assoc], fun routine hr => ?_⟩
    rcases List.mem_append.mp hr with hr | hr
    · exact hblank routine hr
    · exact hblank' routine hr

theorem flatMap_blank {new : List Routine} (h : ∀ routine ∈ new, Routine.Blank routine) :
    new.flatMap Routine.load = [] :=
  List.flatMap_eq_nil_iff.mpr fun routine hr => (h routine hr).load

/-- New tasks are not busy with deliveries. -/
theorem Acts.loads (h : Acts R x y) : y.2.loads = x.2.loads := by
  obtain ⟨new, heq, hblank⟩ := h.routines
  rw [loads_eq, loads_eq, heq, List.flatMap_append, flatMap_blank hblank, List.append_nil]

/-- All streams that tasks read satisfy `R`. -/
def ReadsOnly (R : StreamId → Prop) (s : System) : Prop :=
  ∀ routine ∈ s.routines, ∀ id ∈ routine.inputs, R id

theorem Acts.readsOnly {Q : StreamId → Prop} (h : Acts Q x y) (hx : ReadsOnly R x.2) :
    ReadsOnly R y.2 := by
  obtain ⟨new, heq, hblank⟩ := h.routines
  intro routine hr id hid
  rw [heq] at hr
  rcases List.mem_append.mp hr with hr | hr
  · exact hx routine hr id hid
  · rw [(hblank routine hr).inputs] at hid
    cases hid

/-! ## Between turns -/

/-- What is true of a system between turns. -/
def Stands (s : System) : Prop :=
  Sound s.loads s

/-- What is done between turns leads from one system that stands to another. -/
theorem Leads.stands (h : Leads R (s.loads, s) (s.loads, s')) (hs : s.Stands) :
    Acts R (s.loads, s) (s'.loads, s') ∧ s'.Stands := by
  have hacts := h hs
  have hloads : s'.loads = s.loads := hacts.loads
  rw [Stands, hloads]
  exact ⟨hacts, (hacts.sound hs).1⟩

/-- Tasks are replaced by others that are in good order. The shell is of no concern, nor is who
waits for a turn. -/
theorem sound_tasks {D : Loads} {tasks : Array Task} (hs : Sound D s)
    (h : ∀ t ∈ tasks, s.Proper t.routine ∧ s.RoutineBegun t.routine)
    (hdrivers : (tasks.toList.filterMap fun t => t.routine.driven?).Nodup) (shell : Shell)
    (ready : List TaskId) : Sound D { s with tasks, shell, ready } where
  inv := by
    have hframe : Frame { s with tasks, ready } { s with tasks, shell, ready } :=
      .of_eq rfl rfl rfl rfl
    exact (hframe.safe (safe_tasks (fun _ t ht => (h t ht).2) hs.inv).1).1
  scheduled := hs.scheduled
  attended := by
    have ha := hs.attended
    refine ⟨ha.lt, ha.injective, ha.owner, ha.subscribers, ha.nodup, ha.readers, ha.writers,
      fun e he => ?_⟩
    have hu := ha.underway e he
    exact ⟨⟨hu.begun.lt, hu.begun.phase⟩, hu.readers, hu.nodup, hu.remaining, hu.killed⟩
  closed := ⟨hs.closed.ended, hs.closed.dropped, hs.closed.stages⟩
  apart := by
    have ho : Onwards s { s with tasks, shell, ready } :=
      ⟨fun _ hc => ⟨hc.lt, hc.noTap⟩, Nat.le_refl _, fun _ _ => rfl, fun _ _ => Nat.le_refl _,
        Nat.le_refl _, fun _ _ => ⟨rfl, rfl⟩, Nat.le_refl _, fun _ _ => rfl, Nat.le_refl _⟩
    exact ⟨fun w hw => ho.plain _ (hs.apart.writers w hw),
      fun f hf => (hs.apart.feeds f hf).mono ho.plain,
      fun t ht => (h t ht).1.onwards (h t ht).2 ho, hdrivers⟩
  tokens := hs.tokens

theorem routines_split {task : TaskId} {t : Task} (h : s.tasks[task]? = some t) :
    ∃ before after, s.routines = before ++ t.routine :: after ∧ before.length = task := by
  obtain ⟨hlt, hget⟩ := Array.getElem?_eq_some_iff.mp h
  refine ⟨(s.tasks.toList.take task).map Task.routine,
    (s.tasks.toList.drop (task + 1)).map Task.routine, ?_, ?_⟩
  · have hsplit : s.tasks.toList = s.tasks.toList.take task ++ t :: s.tasks.toList.drop (task + 1) := by
      rw [← hget, ← Array.getElem_toList, ← List.drop_eq_getElem_cons, List.take_append_drop]
    rw [routines]
    conv => lhs; rw [hsplit]
    rw [List.map_append, List.map_cons]
  · rw [List.length_map, List.length_take, Array.length_toList]
    exact Nat.min_eq_left (Nat.le_of_lt hlt)

theorem routines_set {before after : List Routine} {routine : Routine}
    (h : s.routines = before ++ routine :: after) (t : Task) :
    routines { s with tasks := s.tasks.setIfInBounds before.length t } =
      before ++ t.routine :: after := by
  have hset : routines { s with tasks := s.tasks.setIfInBounds before.length t } =
      s.routines.set before.length t.routine := by
    rw [routines, routines, Array.toList_setIfInBounds, List.map_set]
  rw [hset, h, List.set_append_right _ _ (Nat.le_refl _), Nat.sub_self, List.set_cons_zero]

theorem mem_routines {routine : Routine} : routine ∈ s.routines ↔ ∃ t ∈ s.tasks, t.routine = routine := by
  rw [routines, List.mem_map]
  simp only [Array.mem_toList_iff]

theorem drivers_eq (s : System) :
    (s.tasks.toList.filterMap fun t => t.routine.driven?) = s.routines.filterMap Routine.driven? := by
  rw [routines, List.filterMap_map]
  rfl

/-- No other task is busy with a delivery of a runner that a task runs. -/
theorem load_ne {before after : List Routine} {routine : Routine} {r : RunnerId}
    (h : ((before ++ routine :: after).filterMap Routine.driven?).Nodup)
    (hdriven : routine.driven? = some r) :
    ∀ e ∈ (before ++ after).flatMap Routine.load, e.1 ≠ r := by
  have hperm : ((before ++ routine :: after).filterMap Routine.driven?).Perm
      (r :: (before ++ after).filterMap Routine.driven?) := by
    have hmiddle := (List.perm_middle : (before ++ routine :: after).Perm _).filterMap Routine.driven?
    rwa [List.filterMap_cons_some hdriven] at hmiddle
  have hnot := (List.nodup_cons.mp (hperm.nodup_iff.mp h)).1
  rintro e he rfl
  obtain ⟨other, hmem, hload⟩ := List.mem_flatMap.mp he
  exact hnot (List.mem_filterMap.mpr ⟨other, hmem, Routine.driven?_of_mem_load hload⟩)

/-- What a turn leads to: the acts are those of the turn, after which the task does what is left.
Acts leave the switches of the shell alone, but somebody outside may change it. -/
structure Strides (R : StreamId → Prop) (s s' : System) : Prop where
  acts : ∃ u, Acts R (s.loads, s) (s'.loads, u) ∧
    s' = { u with tasks := s'.tasks, shell := s'.shell, ready := s'.ready }
  stands : s'.Stands
  readsOnly : ReadsOnly R s'

theorem strides_takeTurn (hs : s.Stands) (task : TaskId) (hR : ReadsOnly R s)
    (hnew : ∀ id, s.streams.size ≤ id → R id) : Strides R s (s.takeTurn task) := by
  unfold takeTurn
  split
  · exact ⟨⟨s, .refl, rfl⟩, hs, hR⟩
  rename_i t htask
  obtain ⟨before, after, hsplit, rfl⟩ := routines_split htask
  have hmem := Array.mem_of_getElem? htask
  let E : Loads := (before ++ after).flatMap Routine.load
  have hloads : s.loads.Perm (t.routine.load ++ E) := by
    rw [loads_eq, hsplit]
    exact List.perm_middle.flatMap_right _
  have hdrivers := hs.apart.drivers
  rw [drivers_eq, hsplit] at hdrivers
  let u := s.updateMachine Machine.beginTurn
  have hbegin : Leads R (s.loads, s) (t.routine.load ++ E, u) :=
    (Leads.of_act (.permute hloads)).trans
      (leads_machine (P := fun _ => False) (.of_same rfl rfl rfl) nofun)
  obtain ⟨hs', ho⟩ := (hbegin hs).sound hs
  have hb : u.RoutineBegun t.routine := hs'.inv.tasks t hmem
  have hturned := becomes_runRoutine hb (hs'.apart.routines t hmem)
    (fun r hr => load_ne hdrivers hr) (fun id hid => hR t.routine (mem_routines.mpr ⟨t, hmem, rfl⟩) id hid)
    hnew hs'
  have hb' := (turns_runRoutine hb hs'.inv).2
  obtain ⟨hs'', ho'⟩ := hturned.acts.sound hs'
  obtain ⟨new, hroutines, hblank⟩ := hturned.acts.routines
  generalize u.runRoutine t.routine = p at hturned hb' hs'' ho' hroutines
  obtain ⟨v, routine⟩ := p
  have hall : v.routines = before ++ t.routine :: (after ++ new) := by
    rw [hroutines, show u.routines = s.routines from rfl, hsplit, List.append_assoc]
    rfl
  have hset := routines_set hall ⟨routine, false⟩
  have hfinal : (loads { v with tasks := v.tasks.setIfInBounds before.length ⟨routine, false⟩ }).Perm
      (routine.load ++ E) := by
    rw [loads_eq, hset]
    refine (List.perm_middle.flatMap_right _).trans ?_
    show (routine.load ++ (before ++ (after ++ new)).flatMap Routine.load).Perm _
    rw [← List.append_assoc, List.flatMap_append, flatMap_blank hblank, List.append_nil]
  refine ⟨⟨v, ((hbegin hs).trans hturned.acts).tail (.permute hfinal.symm), rfl⟩,
    (sound_tasks hs'' (fun t' ht' => ?_) ?_ v.shell v.ready).permute hfinal.symm,
    fun routine' hr id hid => ?_⟩
  · rcases Array.mem_or_eq_of_mem_setIfInBounds ht' with hold | rfl
    · exact ⟨hs''.apart.routines t' hold, hs''.inv.tasks t' hold⟩
    · exact ⟨hturned.proper, hb'⟩
  · have hnodup := hs''.apart.drivers
    rw [drivers_eq, hall, List.filterMap_append] at hnodup
    rw [show (v.tasks.setIfInBounds before.length ⟨routine, false⟩).toList.filterMap
      (fun t => t.routine.driven?) = _ from drivers_eq { v with
        tasks := v.tasks.setIfInBounds before.length ⟨routine, false⟩ }, hset, List.filterMap_append]
    rcases hturned.driven with hnone | hsame
    · refine hnodup.sublist (List.Sublist.append_left ?_ _)
      rw [List.filterMap_cons_none hnone]
      exact (List.sublist_cons_self _ _).filterMap _
    · rw [List.filterMap_cons, hsame, ← List.filterMap_cons]
      exact hnodup
  · rw [hset] at hr
    rcases List.mem_append.mp hr with hr | hr
    · exact hR routine' (hsplit ▸ List.mem_append_left _ hr) id hid
    rcases List.mem_cons.mp hr with rfl | hr
    · exact hturned.inputs id hid
    rcases List.mem_append.mp hr with hr | hr
    · exact hR routine' (hsplit ▸ List.mem_append_right _ (List.mem_cons_of_mem _ hr)) id hid
    · rw [(hblank routine' hr).inputs] at hid
      cases hid

/-! ## What is done from outside -/

/-- Standing in line or not, tasks do what they did. -/
theorem aside_tasks {tasks : Array Task} {ready : List TaskId}
    (h : tasks.map Task.routine = s.tasks.map Task.routine) : Aside s { s with tasks, ready } := by
  refine .of_rest (fun hi => (safe_tasks (fun _ t ht => ?_) hi).1) rfl rfl rfl rfl h rfl rfl
  have hmem : t.routine ∈ s.tasks.map Task.routine := h ▸ Array.mem_map_of_mem ht
  obtain ⟨t', ht', hsame⟩ := Array.mem_map.mp hmem
  rw [← hsame]
  exact hi.tasks t' ht'

theorem leads_enqueueIf (D : Loads) (s : System) (test : Routine → Bool) :
    Leads R (D, s) (D, s.enqueueIf test) := by
  refine Leads.foldl (P := fun _ => True) (fun _ _ _ _ => trivial)
    (fun task _ s _ => .of_act (.aside (aside_tasks ?_))) trivial
  refine Array.ext_getElem? fun i => ?_
  rw [Array.getElem?_map, Array.getElem?_modify, Array.getElem?_map]
  split
  · rename_i hit
    subst hit
    cases s.tasks[task]? with
    | none | some t => rfl
  · rfl

theorem leads_configure (D : Loads) (s : System) (r : RunnerId) (change : RunOptions → RunOptions) :
    Leads R (D, s) (D, (s.configure r change).2) := by
  have hsafe := safe_configure s r change
  unfold configure at hsafe ⊢
  split
  · exact .refl R _
  · rename_i hpending
    have hphase : (s.runner r).phase = .pending := by simpa using hpending
    rw [if_neg hpending] at hsafe
    exact .of_act (.aside (.of_runner hsafe
      (.of_phase rfl rfl rfl rfl rfl (fun hnot => absurd hphase hnot) rfl rfl)))

theorem leads_listen (D : Loads) (s : System) (r : RunnerId) (l : Listener) :
    Leads R (D, s) (D, s.listen r l) := by
  have hinv := fun hi : s.Inv => (inv_listen hi r l).1
  unfold listen at hinv ⊢
  split
  · exact .refl R _
  · rename_i hopen
    rw [if_neg hopen] at hinv
    refine .of_act (.aside (.of_runners hinv rfl rfl rfl rfl rfl rfl (size_updateRunner _ _ _)
      fun r' => ?_))
    rw [runner_updateRunner]
    split
    · rename_i hand
      rw [hand.1]
      exact .of_phase rfl rfl rfl rfl rfl (fun _ => rfl) rfl rfl
    · exact .refl _ _

theorem leads_hold (D : Loads) (s : System) (r : RunnerId) (held : Bool) :
    Leads R (D, s) (D, s.updateRunner r fun x => { x with held }) :=
  .of_act (.aside (.of_runner (safe_hold s r held)
    (.of_phase rfl rfl rfl rfl rfl (fun _ => rfl) rfl rfl)))

theorem leads_pipe (D : Loads) {source dest : RunnerId} (hs : source < s.runners.size)
    (hd : dest < s.runners.size) : Leads R (D, s) (D, (s.pipe source dest).2) := by
  have hdest := leads_configure (R := R) D s dest fun o => { o with stdin := .pipe, display := false }
  unfold pipe
  split
  · exact .refl R _
  simp only
  split
  · rename_i heq
    rw [heq] at hdest
    exact hdest
  · rename_i s' heq
    rw [heq] at hdest
    have hsource := leads_configure (R := R) D s' source fun o => { o with display := false }
    refine hdest.andThen fun _ ho => hsource.andThen fun _ ho' => ?_
    refine .of_act (.newRunner _ fun stage hstage => ?_)
    rcases List.mem_cons.mp hstage with rfl | hstage
    · exact Nat.lt_of_lt_of_le (Nat.lt_of_lt_of_le hs ho.size) ho'.size
    · rw [List.mem_singleton.mp hstage]
      exact Nat.lt_of_lt_of_le (Nat.lt_of_lt_of_le hd ho.size) ho'.size

theorem leads_interrupt (D : Loads) (s : System) : Leads R (D, s) (D, s.interrupt.2) :=
  Leads.foldl (P := fun _ => True) (fun _ _ _ _ => trivial) (fun r _ s _ => leads_kill s .int r) trivial

/-- A new token. -/
theorem aside_newToken (s : System) :
    Aside s (s.updateMachine fun m => m.newToken.2) where
  inv := fun hi => (safe_updateMachine s _ hi).1
  scheduled := rfl
  streams := rfl
  switches := rfl
  runner := fun r => .refl _ _
  channels := Nat.le_refl _
  taps := fun _ _ => ⟨rfl, rfl, rfl⟩
  tokens := fun t ht => isSet_newToken ht
  room := by
    show s.machine.tokens.size ≤ (s.machine.tokens.push false).size
    simp
  size := rfl
  tasks := rfl
  inputs := Nat.le_refl _
  writers := fun w hw => .inl ⟨hw, rfl⟩
  feeds := fun f hf => .inl hf

end

/-- Somebody outside may use the channel: it is that of a writer of live input, or somebody feeds a
child process from it. -/
def Outward (s : System) (c : ChannelId) : Prop :=
  (∃ w < s.writers.size, (s.writer w).channel = c) ∨ ∃ f ∈ s.machine.feeds, f.source = .channel c

/-- All that can happen to a system; the streams that are read satisfy `R`. -/
inductive Move (R : StreamId → Prop) (s : System) : System → Prop where
  /-- Somebody makes a runner for a command line. -/
  | newRunner (text : String) (options : RunOptions) : Move R s (s.newRunner (.line text) options).2
  /-- Somebody connects two runners. -/
  | pipe {source dest : RunnerId} (hs : source < s.runners.size) (hd : dest < s.runners.size) :
      Move R s (s.pipe source dest).2
  /-- Somebody changes the options of a runner. -/
  | configure (r : RunnerId) (change : RunOptions → RunOptions) : Move R s (s.configure r change).2
  /-- Somebody listens. -/
  | listen (r : RunnerId) (l : Listener) : Move R s (s.listen r l)
  /-- Somebody starts a runner. -/
  | start (r : RunnerId) : Move R s (s.start r).2
  /-- Somebody begins to wait for a runner, which is started if need be. -/
  | ensureStarted (r : RunnerId) : Move R s (s.ensureStarted r)
  /-- Somebody begins to read along. -/
  | openStream {r : RunnerId} (hr : r < s.runners.size) : Move R s (s.openStream r).2
  /-- Somebody reads a stream. -/
  | readStream {id : StreamId} (h : R id) : Move R s (s.readStream id).1
  /-- Somebody stops reading along. -/
  | dropStream (id : StreamId) : Move R s (s.dropStream id)
  /-- Somebody kills a runner. -/
  | kill (signal : Signal) (r : RunnerId) : Move R s (s.kill signal r)
  /-- The user interrupts. -/
  | interrupt : Move R s s.interrupt.2
  /-- A task takes its turn. -/
  | takeTurn (task : TaskId) : Move R s (s.takeTurn task)
  /-- Tasks stand in line. -/
  | enqueueIf (test : Routine → Bool) : Move R s (s.enqueueIf test)
  /-- Somebody outside forgets a runner, or remembers it. -/
  | hold (r : RunnerId) (held : Bool) : Move R s (s.updateRunner r fun x => { x with held })
  /-- Somebody closes a writer of live input. -/
  | closeWriter (w : WriterId) : Move R s (s.closeWriter w)
  /-- Live input is written, child processes go on, time passes, channels are made. -/
  | machine {m : Machine} (h : Machine.Touches s.Outward s.machine m) : Move R s { s with machine := m }
  /-- There is a new token. -/
  | newToken : Move R s (s.updateMachine fun m => m.newToken.2)
  /-- Somebody sets a token. -/
  | cancel (token : TokenId) : Move R s (s.cancel token).2
  /-- Something else is done side by side. -/
  | spawn {routine : Routine} (h : s.Proper routine) (hnone : routine.driven? = none) :
      Move R s (s.spawn routine).2
  /-- The shell changes, or somebody leaves the line. -/
  | rest (shell : Shell) (ready : List TaskId) : Move R s { s with shell, ready }

/-- One thing happens after the other. -/
abbrev Moves (R : StreamId → Prop) : System → System → Prop :=
  Relation.ReflTransGen (Move R)

section

variable {R : StreamId → Prop} {s s' : System}

theorem plain_of_outward (hs : s.Stands) {c : ChannelId} (h : s.Outward c) : s.Plain c := by
  rcases h with ⟨w, hw, rfl⟩ | ⟨f, hf, hsource⟩
  · exact hs.apart.writers w hw
  · have hwithin := hs.apart.feeds f hf
    rw [hsource] at hwithin
    exact hwithin

theorem strides_of_leads (h : Leads R (s.loads, s) (s.loads, s')) (hs : s.Stands)
    (hR : ReadsOnly R s) : Strides R s s' := by
  obtain ⟨hacts, hs'⟩ := h.stands hs
  exact ⟨⟨s', hacts, rfl⟩, hs', hacts.readsOnly hR⟩

/-- Whatever happens consists of acts. -/
theorem Move.strides (h : Move R s s') (hs : s.Stands) (hR : ReadsOnly R s)
    (hnew : ∀ id, s.streams.size ≤ id → R id) : Strides R s s' := by
  cases h with
  | takeTurn task => exact strides_takeTurn hs task hR hnew
  | newRunner text options => exact strides_of_leads (.of_act (.newRunner options nofun)) hs hR
  | pipe hs' hd => exact strides_of_leads (leads_pipe _ hs' hd) hs hR
  | configure r change => exact strides_of_leads (leads_configure _ s r change) hs hR
  | listen r l => exact strides_of_leads (leads_listen _ s r l) hs hR
  | start r => exact strides_of_leads (leads_start s r) hs hR
  | ensureStarted r => exact strides_of_leads (leads_ensureStarted s r) hs hR
  | openStream hr => exact strides_of_leads (leads_openStream hr) hs hR
  | readStream h => exact strides_of_leads (.of_act (.read h)) hs hR
  | dropStream id => exact strides_of_leads (leads_dropStream s id) hs hR
  | kill signal r => exact strides_of_leads (leads_kill s signal r) hs hR
  | interrupt => exact strides_of_leads (leads_interrupt _ s) hs hR
  | enqueueIf test => exact strides_of_leads (leads_enqueueIf _ s test) hs hR
  | hold r held => exact strides_of_leads (leads_hold _ s r held) hs hR
  | closeWriter w => exact strides_of_leads (leads_closeWriter s w) hs hR
  | machine h => exact strides_of_leads (leads_machine h fun _ => plain_of_outward hs) hs hR
  | newToken => exact strides_of_leads (.of_act (.aside (aside_newToken s))) hs hR
  | cancel token => exact strides_of_leads (.of_act (.aside (aside_setToken s token))) hs hR
  | spawn h hnone => exact strides_of_leads (.of_act (.spawn h hnone)) hs hR
  | rest shell ready =>
    refine ⟨⟨s, .refl, rfl⟩, ?_, hR⟩
    exact sound_tasks hs (fun t ht => ⟨hs.apart.routines t ht, hs.inv.tasks t ht⟩) hs.apart.drivers
      shell ready

/-- A system in which nothing runs yet stands. -/
theorem stands_ofShell {machine : Machine} (hfeeds : machine.feeds = #[]) (shell : Shell) :
    (ofShell machine shell).Stands where
  inv := inv_ofShell machine shell
  scheduled := rfl
  attended := ⟨nofun, nofun, nofun, nofun, nofun, nofun, nofun, nofun⟩
  closed := ⟨nofun, nofun, nofun⟩
  apart := ⟨nofun, fun f hf => absurd (hfeeds ▸ hf) (Array.not_mem_empty f),
    fun t ht => absurd ht (Array.not_mem_empty t), List.nodup_nil⟩
  tokens := nofun

/-- Whatever happens to a system in which nothing ran at first, it stands between turns. -/
theorem stands_of_moves {machine : Machine} (hfeeds : machine.feeds = #[]) {shell : Shell}
    (h : Moves (fun _ => True) (ofShell machine shell) s) : s.Stands := by
  induction h with
  | refl => exact stands_ofShell hfeeds shell
  | tail _ hmove ih =>
    exact (hmove.strides ih (fun _ _ _ _ => trivial) fun _ _ => trivial).stands

theorem Strides.onwards (h : Strides R s s') (hs : s.Stands) : Onwards s s' := by
  obtain ⟨u, hacts, heq⟩ := h.acts
  rw [heq]
  have ho := (hacts.sound hs).2
  exact ⟨fun c hc => ⟨(ho.plain c hc).lt, (ho.plain c hc).noTap⟩, ho.size, ho.jobs, ho.phases,
    ho.streams, ho.stream, ho.writers, ho.token, ho.tokens⟩

theorem onwards_of_moves {machine : Machine} (hfeeds : machine.feeds = #[]) {shell : Shell}
    (h : Moves (fun _ => True) (ofShell machine shell) s) (h' : Moves (fun _ => True) s s') :
    Onwards s s' := by
  induction h' with
  | refl => exact .refl s
  | tail hmoves hmove ih =>
    have hs := stands_of_moves hfeeds (h.trans hmoves)
    exact ih.trans
      ((hmove.strides hs (fun _ _ _ _ => trivial) fun _ _ => trivial).onwards hs)

/-! ## Nobody is left behind -/

/-- The first runner runs the second one, or runs something that does. -/
abbrev Contains (s : System) : RunnerId → RunnerId → Prop :=
  Relation.TransGen fun r stage => stage ∈ (s.runner r).job.stages

/-- Nothing goes on that should have come to an end. -/
structure NoStragglers (s : System) : Prop where
  /-- When a runner is finished, so is all that it runs. -/
  stages : ∀ r stage, s.Contains r stage → (s.runner r).phase = .finished →
    (s.runner stage).phase = .finished
  /-- The runner of a stream that nobody holds any more is finished. -/
  dropped : ∀ id < s.streams.size, (s.stream id).held = false →
    (s.runner (s.stream id).runner).phase = .finished
  /-- Whenever a stream is dropped, its runner is finished at once. -/
  drop : ∀ id < s.streams.size, ((s.dropStream id).stream id).held = false ∧
    ((s.dropStream id).runner (s.stream id).runner).phase = .finished

theorem Stands.finished_of_contains (hs : s.Stands) {r stage : RunnerId} (h : s.Contains r stage)
    (hf : (s.runner r).phase = .finished) : (s.runner stage).phase = .finished := by
  have hlt : ∀ {r stage}, stage ∈ (s.runner r).job.stages → r < s.runners.size := by
    intro r stage hstage
    refine Nat.lt_of_not_le fun hle => ?_
    rw [runner_of_le hle] at hstage
    cases hstage
  induction h with
  | single hstage => exact hs.closed.stages r (hlt hstage) hf _ hstage
  | tail _ hstage ih => exact hs.closed.stages _ (hlt hstage) ih _ hstage

theorem held_dropStream {id : StreamId} (hid : id < s.streams.size) :
    ((s.dropStream id).stream id).held = false := by
  have hmark : ((s.updateStream id fun x => { x with held := false }).stream id).held = false := by
    rw [stream_update, if_pos ⟨rfl, hid⟩]
  unfold dropStream
  simp only
  split
  · rename_i hheld
    simpa using hheld
  split
  · exact hmark
  · have hstreams := (blind_kill .term (s.stream id).runner).streams
      (s.updateStream id fun x => { x with held := false })
    rw [updateChannel, updateMachine, stream, hstreams]
    exact hmark

/-- Whatever happens to a system in which nothing ran at first, nobody is left behind. -/
theorem noStragglers {disk : Disk} {registry : Registry} {shell : Shell}
    (h : Moves (fun _ => True) (ofShell (Machine.ofDisk disk registry) shell) s) :
    s.NoStragglers := by
  have hs := stands_of_moves rfl h
  refine ⟨fun r stage hcontains => hs.finished_of_contains hcontains, hs.closed.dropped,
    fun id hid => ⟨held_dropStream hid, ?_⟩⟩
  -- the stream is still on the same runner when it has been dropped
  obtain ⟨hacts, hs'⟩ := (leads_dropStream (R := fun _ => True) s id).stands hs
  have ho := (hacts.sound hs).2
  rw [← (ho.stream id hid).2]
  exact hs'.closed.dropped id (Nat.lt_of_lt_of_le hid ho.streams) (held_dropStream hid)

/-- Who drops a stream on a pipe of pipes, the outer one of which has begun, leaves nothing behind. -/
theorem noStragglers_dropped :
    let first := ofShell (Machine.ofDisk .empty .empty)
      ⟨.off, "/", [], ⟨"/bin/sh", ["-c"]⟩, true, true, true⟩
    let lines := (((first.newRunner (.line "yes") .standard).2.newRunner (.line "head -n 1")
      .standard).2.newRunner (.line "cat") .standard).2
    let s := ((((lines.pipe 0 1).2.pipe 3 2).2.openStream 4).2.takeTurn 0).dropStream 0
    Moves (fun _ => True) first s ∧ s.Contains 4 1 ∧ (s.runner 1).phase = .finished ∧
      s.NoStragglers := by
  intro first lines s
  -- each step for any system, so that none of them is computed on the way
  have hlines : ∀ u : System, Moves (fun _ => True) u (((u.newRunner (.line "yes")
      .standard).2.newRunner (.line "head -n 1") .standard).2.newRunner (.line "cat") .standard).2 :=
    fun u => ((Relation.ReflTransGen.single (.newRunner "yes" .standard)).tail
      (.newRunner "head -n 1" .standard)).tail (.newRunner "cat" .standard)
  have hpipe : ∀ (u : System) (a b : RunnerId), a < u.runners.size → b < u.runners.size →
      Moves (fun _ => True) u (u.pipe a b).2 := fun u a b ha hb => .single (.pipe ha hb)
  have hdrop : ∀ u : System, 4 < u.runners.size →
      Moves (fun _ => True) u (((u.openStream 4).2.takeTurn 0).dropStream 0) := fun u h =>
    ((Relation.ReflTransGen.single (.openStream h)).tail (.takeTurn 0)).tail (.dropStream 0)
  have hcontains : ∀ u : System, 3 ∈ (u.runner 4).job.stages → 1 ∈ (u.runner 3).job.stages →
      u.Contains 4 1 := fun _ h h' => (Relation.TransGen.single h).tail h'
  have hmoves : Moves (fun _ => True) first s :=
    (((hlines first).trans (hpipe _ 0 1 (by decide +kernel) (by decide +kernel))).trans
      (hpipe _ 3 2 (by decide +kernel) (by decide +kernel))).trans (hdrop _ (by decide +kernel))
  exact ⟨hmoves, hcontains s (by decide +kernel) (by decide +kernel), by decide +kernel,
    noStragglers hmoves⟩

end

end Runnel.System
