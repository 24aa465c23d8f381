import Runnel.Proofs.Runner.Upkeep

/-!
# Runnel.Proofs.Runner.Handling

What is done to runners and streams consists of acts.

* `System.Leads`: from what is sound, one gets there by acts.
* `System.leads_kill`, `System.leads_finish`, `System.leads_emitAll`: how runs end.
* `System.leads_ensureStarted`: how they begin.
-/

namespace Runnel.System

/-- From what is sound, one gets there by acts. -/
def Leads (R : StreamId → Prop) (x y : Loads × System) : Prop :=
  Sound x.1 x.2 → Acts R x y

section

variable {R : StreamId → Prop} {D : Loads} {s s' : System}

namespace Leads

variable {x y z : Loads × System}

theorem refl (R : StreamId → Prop) (x : Loads × System) : Leads R x x :=
  fun _ => .refl

theorem of_act (h : Act R x y) : Leads R x y :=
  fun _ => .single h

/-- What comes next may use what is true in between. -/
theorem andThen (h : Leads R x y) (h' : Sound y.1 y.2 → Onwards x.2 y.2 → Leads R y z) :
    Leads R x z := by
  intro hs
  obtain ⟨hs', ho⟩ := (h hs).sound hs
  exact (h hs).trans (h' hs' ho hs')

theorem trans (h : Leads R x y) (h' : Leads R y z) : Leads R x z :=
  h.andThen fun _ _ => h'

/-- What is sound may be used. -/
theorem given (h : Sound x.1 x.2 → Leads R x y) : Leads R x y :=
  fun hs => h hs hs

theorem foldl {α : Type} {P : System → Prop} {step : System → α → System} {list : List α}
    (hP : ∀ s s', P s → Onwards s s' → P s')
    (h : ∀ a ∈ list, ∀ s, P s → Leads R (D, s) (D, step s a)) (hs : P s) :
    Leads R (D, s) (D, list.foldl step s) := by
  induction list generalizing s with
  | nil => exact .refl R _
  | cons a list ih =>
    refine (h a List.mem_cons_self s hs).andThen fun _ ho => ?_
    exact ih (fun b hb => h b (List.mem_cons_of_mem a hb)) (hP _ _ hs ho)

end Leads

/-! ## Changes aside -/

/-- No stream reads from a channel that the machine has just made. -/
theorem plain_of_orNew {P : ChannelId → Prop} {m : Machine} (ha : Attended D s)
    (h : Machine.Touches P s.machine m) (hP : ∀ c, P c → s.Plain c) {c : ChannelId}
    (hc : Machine.OrNew P s.machine m c) : Plain { s with machine := m } c := by
  rcases hc with hc | ⟨hle, hlt⟩
  · exact ⟨Nat.lt_of_lt_of_le (hP c hc).lt h.size, (hP c hc).noTap⟩
  · refine ⟨hlt, ?_⟩
    rintro ⟨id, hid, rfl⟩
    exact Nat.not_lt_of_le hle (ha.lt id hid)

/-- The machine may do what it likes with channels from which no stream reads. -/
theorem Aside.of_machine {P : ChannelId → Prop} {m : Machine} (ha : Attended D s)
    (h : Machine.Touches P s.machine m) (hP : ∀ c, P c → s.Plain c) :
    Aside s { s with machine := m } where
  inv := fun hi => ((frame_machine s m).safe hi).1
  scheduled := rfl
  streams := rfl
  switches := rfl
  runner := fun r => .refl _ _
  channels := h.size
  taps := by
    rintro c ⟨id, hid, rfl⟩
    rw [h.others _ (ha.lt id hid) fun hp => (hP _ hp).noTap ⟨id, hid, rfl⟩]
    exact ⟨rfl, rfl, rfl⟩
  tokens := fun t ht => by
    rw [Machine.isSet, h.tokens]
    exact ht
  room := Nat.le_of_eq (by rw [h.tokens])
  size := rfl
  tasks := rfl
  inputs := Nat.le_refl _
  writers := fun w hw => .inl ⟨hw, rfl⟩
  feeds := by
    intro f hf
    exact (h.feeds f hf).imp_right fun hw => hw.mono fun c hc => plain_of_orNew ha h hP hc

/-- The machine stays as it is, and so do all streams, writers and tasks. -/
theorem Aside.of_runners (hinv : s.Inv → s'.Inv) (hmachine : s'.machine = s.machine)
    (hstreams : s'.streams = s.streams) (hwriters : s'.writers = s.writers)
    (htasks : s'.tasks.map Task.routine = s.tasks.map Task.routine)
    (hscheduled : s'.scheduled = s.scheduled) (hshell : s'.shell.settings = s.shell.settings)
    (hsize : s'.runners.size = s.runners.size)
    (hrunner : ∀ r, Unmoved s.shell.settings (s.runner r) (s'.runner r)) : Aside s s' where
  inv := hinv
  scheduled := hscheduled
  streams := hstreams
  switches := hshell
  runner := hrunner
  channels := Nat.le_of_eq (by rw [hmachine])
  taps := fun _ _ => by
    rw [hmachine]
    exact ⟨rfl, rfl, rfl⟩
  tokens := fun _ ht => by
    rw [hmachine]
    exact ht
  room := Nat.le_of_eq (by rw [hmachine])
  size := hsize
  tasks := htasks
  inputs := Nat.le_of_eq (by rw [hwriters])
  writers := fun w hw => by
    rw [hwriters] at hw
    exact .inl ⟨hw, by rw [writer, hwriters]; rfl⟩
  feeds := fun f hf => by
    rw [hmachine] at hf
    exact .inl hf

/-- A change of a runner that is of no concern. -/
theorem Aside.of_runner {r : RunnerId} {change : Runner → Runner}
    (hsafe : Safe s (s.updateRunner r change))
    (h : Unmoved s.shell.settings (s.runner r) (change (s.runner r))) :
    Aside s (s.updateRunner r change) := by
  refine .of_runners (fun hi => (hsafe hi).1) rfl rfl rfl rfl rfl rfl (size_updateRunner s r change)
    fun r' => ?_
  rw [runner_updateRunner]
  split
  · rename_i hand
    rw [hand.1]
    exact h
  · exact .refl _ _

/-- A change of something else: the directory of the shell, the supervisor, the journal, the output
of this process, who waits for a turn. -/
theorem Aside.of_rest (hinv : s.Inv → s'.Inv) (hmachine : s'.machine = s.machine)
    (hrunners : s'.runners = s.runners) (hstreams : s'.streams = s.streams)
    (hwriters : s'.writers = s.writers)
    (htasks : s'.tasks.map Task.routine = s.tasks.map Task.routine)
    (hscheduled : s'.scheduled = s.scheduled) (hshell : s'.shell.settings = s.shell.settings) :
    Aside s s' := by
  refine .of_runners hinv hmachine hstreams hwriters htasks hscheduled hshell (by rw [hrunners])
    fun r => ?_
  rw [runner_congr hrunners]
  exact .refl _ _

theorem isSet_setToken (m : Machine) (token t : TokenId) :
    (m.setToken token).isSet t = (m.isSet t || (t == token && decide (token < m.tokens.size))) := by
  simp only [Machine.setToken, Machine.isSet, Array.getD_eq_getD_getElem?,
    Array.getElem?_setIfInBounds]
  by_cases h : token = t
  · subst h
    by_cases ht : token < m.tokens.size
    · simp [ht]
    · simp [ht]
  · simp [h, Ne.symm h]

theorem isSet_setToken_self {m : Machine} {token : TokenId} (h : token < m.tokens.size) :
    (m.setToken token).isSet token = true := by
  rw [isSet_setToken, beq_self_eq_true, decide_eq_true h, Bool.and_self, Bool.or_true]

/-- Setting a token. -/
theorem aside_setToken (s : System) (token : TokenId) :
    Aside s (s.updateMachine fun m => m.setToken token) where
  inv := fun hi => (safe_updateMachine s _ hi).1
  scheduled := rfl
  streams := rfl
  switches := rfl
  runner := fun r => .refl _ _
  channels := Nat.le_refl _
  taps := fun _ _ => ⟨rfl, rfl, rfl⟩
  tokens := fun t ht => by
    show (s.machine.setToken token).isSet t = true
    rw [isSet_setToken, ht]
    rfl
  room := Nat.le_of_eq (Array.size_setIfInBounds ..).symm
  size := rfl
  tasks := rfl
  inputs := Nat.le_refl _
  writers := fun w hw => .inl ⟨hw, rfl⟩
  feeds := fun f hf => .inl hf

theorem leads_machine {P : ChannelId → Prop} {m : Machine} (h : Machine.Touches P s.machine m)
    (hP : ∀ c, P c → s.Plain c) : Leads R (D, s) (D, { s with machine := m }) :=
  .given fun hs => .of_act (.aside (.of_machine hs.attended h hP))

theorem leads_updateChannel {c : ChannelId} (hc : s.Plain c) (change : Channel → Channel) :
    Leads R (D, s) (D, s.updateChannel c change) :=
  leads_machine (P := s.Plain) (Machine.updateChannel_touches s.machine hc change) fun _ h => h

theorem signalGroup_touches (P : ChannelId → Prop) (m : Machine) (group : GroupId) (signal : Nat) :
    Machine.Touches P m (m.signalGroup group signal) := by
  unfold Machine.signalGroup
  generalize m.members group = list
  induction list generalizing m with
  | nil => exact .refl P m
  | cons id list ih => exact (Machine.signal_touches m id signal).trans (ih _)

theorem leads_signalChildren (s : System) (r : RunnerId) (signal : Signal) :
    Leads R (D, s) (D, s.signalChildren r signal) :=
  leads_machine (P := fun _ => False) (signalGroup_touches _ _ _ _) nofun

/-! ## Telling and ending -/

section

variable {react : Signal → System → System}
  (h : ∀ signal s, Leads R (D, s) (D, react signal s))

include h

/-- Listeners may be told of the end of a run once it has ended, and of all else at any time. -/
theorem leads_tell {r : RunnerId} (listeners : List Listener) {e : Event}
    (hr : r < s.runners.size) (he : e.topic.isEnd = false ∨ (s.runner r).phase = .finished) :
    Leads R (D, s) (D, tell react r listeners s e) := by
  refine Leads.foldl
    (P := fun s => r < s.runners.size ∧ (e.topic.isEnd = false ∨ (s.runner r).phase = .finished))
    (fun s s' hP ho => ⟨Nat.lt_of_lt_of_le hP.1 ho.size, hP.2.imp_right (ho.finished hP.1)⟩)
    (fun l _ s hP => ?_) ⟨hr, he⟩
  have hjournal : Aside s { s with journal := (r, e) :: s.journal } := by
    refine .of_rest (fun hi => ?_) rfl rfl rfl rfl rfl rfl rfl
    rcases hP.2 with he | hf
    · exact (safe_journal hP.1 he hi).1
    · exact (tells_journal s r e hi hP.1 hf).1
  refine (Leads.of_act (.aside hjournal)).trans ?_
  cases l.reaction with
  | none => exact .refl R _
  | some signal => exact h signal _

theorem leads_tellAll {r : RunnerId} (listeners : List Listener) {events : List Event}
    (hr : r < s.runners.size)
    (he : ∀ e ∈ events, e.topic.isEnd = false ∨ (s.runner r).phase = .finished) :
    Leads R (D, s) (D, events.foldl (tell react r listeners) s) := by
  refine Leads.foldl
    (P := fun s => r < s.runners.size ∧
      ∀ e ∈ events, e.topic.isEnd = false ∨ (s.runner r).phase = .finished)
    (fun s s' hP ho => ⟨Nat.lt_of_lt_of_le hP.1 ho.size,
      fun e he => (hP.2 e he).imp_right (ho.finished hP.1)⟩)
    (fun e he s hP => leads_tell h listeners hP.1 (hP.2 e he)) ⟨hr, he⟩

/-- The end of a run. -/
theorem leads_finishWith {r : RunnerId} (code : Int)
    (hstages : (s.runner r).phase ≠ .finished →
      ∀ stage ∈ (s.runner r).job.stages, (s.runner stage).phase = .finished)
    (hload : s.machine.isSet (s.runner r).token = true ∨ ∀ e ∈ D, e.1 ≠ r)
    (hcode : s.machine.isSet (s.runner r).token = true ∨ s.Concludes r code) :
    Leads R (D, s) (D, finishWith react r code s) := by
  refine .given fun hs => ?_
  cases hx : (s.runner r).result with
  | some result =>
    rw [finishWith_of_some react code hx]
    exact .refl R _
  | none =>
    by_cases hr : r < s.runners.size
    · have hnot : (s.runner r).phase ≠ .finished := by
        intro hf
        have hsome := (hs.inv.runners r hr).result_iff.mpr hf
        rw [hx] at hsome
        cases hsome
      rw [finishWith_eq react code hx]
      refine (Leads.of_act (.record code hr hnot (hstages hnot) hload hcode)).trans
        (leads_tellAll h _ (size_record s r code ▸ hr) fun e _ => .inr ?_)
      rw [runner_record_self hr]
      rfl
    · have hnone : s.runner r = noRunner := runner_of_le (Nat.le_of_not_lt hr)
      have hsame : finishWith react r code s = s := by
        rw [finishWith_eq react code hx, record, updateRunner_of_le]
        · simp [hnone, letGo, noRunner, Runner.ofJob, tell, Event.ofResult, Listener.hearing,
            dropSubscribers]
        · rw [(frame_letGo s r).runners]
          exact Nat.le_of_not_lt hr
      rw [hsame]
      exact .refl R _

end

/-! ## Kills -/

/-- A runner that is killed is finished. -/
theorem finished_killWithin (hi : s.Inv) {r : RunnerId} (hr : r < s.runners.size) (depth : Nat)
    (signal : Signal) :
    ((killWithin (depth + 1) signal r s).runner r).phase = .finished := by
  have hreach := safe_reach (fun signal stage s => safe_killWithin depth signal stage s) r
  obtain ⟨hi', he⟩ := hreach signal s hi
  have hr' := Nat.lt_of_lt_of_le hr he.size
  rw [killWithin_succ]
  simp only
  split
  · rename_i hf
    exact Runner.isFinished_iff.mp hf
  · rename_i hf
    have htoken := safe_updateMachine (reach depth r signal s) fun m =>
      m.setToken ((reach depth r signal s).runner r).token
    obtain ⟨⟨hi'', he''⟩, hresult⟩ := finishWith_spec hreach (htoken hi').1 hr'
      (fun hfin => hf (Runner.isFinished_iff.mpr hfin)) signal.exitCode
    exact (hi''.runners r (Nat.lt_of_lt_of_le hr' he''.size)).result_iff.mp (by rw [hresult]; rfl)

theorem finished_foldl_kill {depth : Nat} {signal : Signal} {list : List RunnerId} (hi : s.Inv)
    (hlt : ∀ stage ∈ list, stage < s.runners.size) (hdepth : ∀ stage ∈ list, stage < depth) :
    ∀ stage ∈ list, ((list.foldl (fun s stage => killWithin depth signal stage s) s).runner
      stage).phase = .finished := by
  induction list generalizing s with
  | nil => nofun
  | cons a list ih =>
    obtain ⟨hi', he⟩ := safe_killWithin depth signal a s hi
    have hlt' : ∀ stage ∈ list, stage < (killWithin depth signal a s).runners.size :=
      fun stage hs => Nat.lt_of_lt_of_le (hlt stage (List.mem_cons_of_mem a hs)) he.size
    have hlater := (safe_foldl (P := fun _ => True) (fun _ _ _ _ => trivial)
      (fun s stage _ => safe_killWithin depth signal stage s) trivial list) hi'
    intro stage hstage
    rcases List.mem_cons.mp hstage with rfl | hstage
    · have hr := hlt stage List.mem_cons_self
      have hfirst : ((killWithin depth signal stage s).runner stage).phase = .finished := by
        cases depth with
        | zero => exact absurd (hdepth stage List.mem_cons_self) (Nat.not_lt_zero _)
        | succ depth => exact finished_killWithin hi hr depth signal
      exact (hlater.2.kept stage (Nat.lt_of_lt_of_le hr he.size)).finished hfirst
    · exact ih hi' hlt' (fun b hb => hdepth b (List.mem_cons_of_mem a hb)) stage hstage

/-- After a signal for all stages of a runner, they are finished. -/
theorem finished_reach (hi : s.Inv) {r : RunnerId} (hr : r < s.runners.size) {depth : Nat}
    (hdepth : r ≤ depth) (signal : Signal) :
    ∀ stage ∈ ((reach depth r signal s).runner r).job.stages,
      ((reach depth r signal s).runner stage).phase = .finished := by
  have hsignal := safe_updateMachine s fun m => m.signalGroup (s.runner r).group signal.number
  have hstages := (hi.runners r hr).stages
  have he := (safe_reach (fun signal stage s => safe_killWithin depth signal stage s) r signal s hi).2
  rw [(he.kept r hr).job]
  exact finished_foldl_kill (hsignal hi).1 (fun stage hs => Nat.lt_trans (hstages stage hs) hr)
    fun stage hs => Nat.lt_of_lt_of_le (hstages stage hs) hdepth

theorem leads_reach {depth : Nat}
    (h : ∀ signal stage s, stage < depth → Leads R (D, s) (D, killWithin depth signal stage s))
    {r : RunnerId} (hdepth : r ≤ depth) (signal : Signal) (s : System) :
    Leads R (D, s) (D, reach depth r signal s) := by
  refine .given fun hs => ?_
  refine (leads_signalChildren s r signal).trans (Leads.foldl (P := fun _ => True)
    (fun _ _ _ _ => trivial) (fun stage hstage s' _ => ?_) trivial)
  exact h signal stage s' (Nat.lt_of_lt_of_le (hs.inv.ordered r stage hstage) hdepth)

/-- A kill that is deep enough for all stages. -/
theorem leads_killWithin {depth : Nat} (signal : Signal) {r : RunnerId} (hdepth : r < depth)
    (s : System) : Leads R (D, s) (D, killWithin depth signal r s) := by
  induction depth generalizing signal r s with
  | zero => cases hdepth
  | succ depth ih =>
    have hle : r ≤ depth := Nat.le_of_lt_succ hdepth
    have hreach := leads_reach (fun signal stage s hstage => ih signal hstage s) hle
    refine .given fun hs => ?_
    rw [killWithin_succ]
    refine (hreach signal s).andThen fun hs' ho => ?_
    simp only
    split
    · exact .refl R _
    · rename_i hopen
      have hr : r < (reach depth r signal s).runners.size := by
        refine Nat.lt_of_not_le fun hle => hopen ?_
        rw [runner_of_le hle]
        rfl
      have hr' : r < s.runners.size := by
        rw [← (safe_reach (fun signal stage s => safe_killWithin depth signal stage s) r signal s
          hs.inv).2.added]
        exact hr
      refine (Leads.of_act (.aside (aside_setToken _ _))).trans
        (leads_finishWith (fun signal s => hreach signal s) _ (fun _ => ?_) (.inl ?_) (.inl ?_))
      · exact finished_reach hs.inv hr' hle signal
      · exact isSet_setToken_self (hs'.tokens r hr)
      · exact isSet_setToken_self (hs'.tokens r hr)

theorem leads_kill (s : System) (signal : Signal) (r : RunnerId) :
    Leads R (D, s) (D, s.kill signal r) :=
  leads_killWithin signal (Nat.lt_succ_self r) s

/-- A runner that has no deliveries under way may end once its stages have. -/
theorem leads_finish {r : RunnerId} (code : Int)
    (hstages : (s.runner r).phase ≠ .finished →
      ∀ stage ∈ (s.runner r).job.stages, (s.runner stage).phase = .finished)
    (hload : ∀ e ∈ D, e.1 ≠ r) (hcode : s.Concludes r code) :
    Leads R (D, s) (D, s.finish r code) :=
  leads_finishWith (fun signal s => leads_kill s signal r) code hstages (.inr hload) (.inr hcode)

theorem Begun.concludes {r : RunnerId} {text : String} (hb : s.Begun r)
    (h : (s.runner r).job = .line text) (code : Int) : s.Concludes r code := by
  refine ⟨hb, fun source dest hjob => ?_⟩
  rw [h] at hjob
  cases hjob

theorem leads_emitAll {r : RunnerId} {events : List Event} (hr : r < s.runners.size)
    (he : ∀ e ∈ events, e.topic.isEnd = false) : Leads R (D, s) (D, s.emitAll r events) :=
  leads_tellAll (fun signal s => leads_kill s signal r) _ hr fun e h => .inl (he e h)

theorem leads_emit {r : RunnerId} {e : Event} (hr : r < s.runners.size)
    (he : e.topic.isEnd = false) : Leads R (D, s) (D, s.emit r e) :=
  leads_tell (fun signal s => leads_kill s signal r) _ hr (.inl he)

/-! ## Beginnings -/

theorem leads_newChannel (s : System) (capacity : Nat) :
    Leads R (D, s) (D, (s.newChannel capacity).2) :=
  leads_machine (P := fun _ => False) (Machine.newChannel_touches s.machine _ capacity) nofun

/-- No stream reads from a new channel. -/
theorem plain_newChannel (ha : Attended D s) (capacity : Nat) :
    (s.newChannel capacity).2.Plain (s.newChannel capacity).1 := by
  refine ⟨?_, ?_⟩
  · show s.machine.channels.size < (s.machine.channels.push _).size
    simp
  · rintro ⟨id, hid, hc⟩
    exact Nat.ne_of_lt (ha.lt id hid) hc

theorem leads_pushWriter {w : InputWriter} (hw : s.Plain w.channel) :
    Leads R (D, s) (D, { s with writers := s.writers.push w }) := by
  refine .of_act (.aside
    { inv := fun hi => ((frame_pushWriter s w).safe hi).1
      scheduled := rfl
      streams := rfl
      switches := rfl
      runner := fun _ => .refl _ _
      channels := Nat.le_refl _
      taps := fun _ _ => ⟨rfl, rfl, rfl⟩
      tokens := fun _ ht => ht
      room := Nat.le_refl _
      size := rfl
      tasks := rfl
      inputs := ?_
      writers := fun id hid => ?_
      feeds := fun f hf => .inl hf })
  · simp
  · have hcases : id < s.writers.size ∨ id = s.writers.size := by
      have hsize : id < (s.writers.push w).size := hid
      rw [Array.size_push] at hsize
      exact Nat.lt_succ_iff_lt_or_eq.mp hsize
    simp only [writer, Array.getD_eq_getD_getElem?, Array.getElem?_push]
    rcases hcases with hlt | rfl
    · rw [if_neg (Nat.ne_of_lt hlt)]
      exact .inl ⟨hlt, rfl⟩
    · rw [if_pos rfl]
      exact .inr ⟨hw.lt, hw.noTap⟩

/-- The input of a runner that has just begun. -/
theorem leads_prepareInput {r : RunnerId} (hfresh : s.Fresh r)
    (hline : ∃ text, (s.runner r).job = .line text) (input : InputOption) :
    Leads R (D, s) (D, (s.prepareInput r input).2) := by
  refine .given fun hs => ?_
  have hplain := plain_newChannel hs.attended inputCapacity
  cases input with
  | inherit | ignore | bytes data | text text => exact .refl R _
  | stream data =>
    have hproper : (s.newChannel inputCapacity).2.Proper
        (.forward (pieces data) (s.newChannel inputCapacity).1 none) := hplain
    exact (leads_newChannel s inputCapacity).trans (.of_act (.spawn hproper rfl))
  | pipe =>
    have hchannel := frame_newChannel s inputCapacity
    have hpush := frame_pushWriter (s.newChannel inputCapacity).2
      ⟨(s.newChannel inputCapacity).1, true⟩
    have hgive := safe_giveWriter (hfresh.frame (hchannel.trans hpush)) hline (w := s.writers.size)
      (by show s.writers.size < (s.writers.push _).size; simp)
    refine ((leads_newChannel s inputCapacity).trans (leads_pushWriter hplain)).trans
      (.of_act (.aside (.of_runner hgive ?_)))
    exact .of_phase rfl rfl rfl rfl rfl (fun _ => rfl) rfl rfl

/-- No stream reads from it. -/
theorem within_prepareInput (ha : Attended D s) (r : RunnerId) (input : InputOption) :
    (s.prepareInput r input).1.Within (s.prepareInput r input).2.Plain := by
  have hplain := plain_newChannel ha inputCapacity
  cases input with
  | inherit | ignore | bytes data | text text => trivial
  | stream data | pipe => exact ⟨hplain.lt, hplain.noTap⟩

/-- New tasks for input do not run any runner. -/
theorem driven?_prepareInput {r : RunnerId} {input : InputOption} {t : Task}
    (ht : t ∈ (s.prepareInput r input).2.tasks) : t ∈ s.tasks ∨ t.routine.driven? = none := by
  cases input with
  | inherit | ignore | bytes data | text text | pipe => exact .inl ht
  | stream data =>
    rcases Array.mem_push.mp ht with ht | rfl
    · exact .inl ht
    · exact .inr rfl

theorem aside_launch {r : RunnerId} (h : (s.runner r).phase = .pending) :
    Aside s (s.launch r) := by
  refine .of_runners (fun hi => ((launch_spec h).1 hi).1) rfl rfl rfl rfl rfl rfl
    (size_updateRunner _ _ _) fun r' => ?_
  rw [launch, runner_updateRunner]
  split
  · rename_i hand
    rw [hand.1]
    refine ⟨rfl, ⟨fun hf => ?_, fun hf => ?_⟩, fun hp => ?_, rfl, rfl, rfl, fun _ => rfl, rfl,
      fun hbegun => absurd h hbegun, fun _ _ => rfl⟩
    · cases hf
    · rw [h] at hf
      cases hf
    · cases hp
  · exact .refl _ _

/-- What is prepared for a runner that has just begun is a task that runs it. -/
theorem leads_prepare {r : RunnerId} (hfresh : s.Fresh r)
    (hnew : ∀ t ∈ s.tasks, t.routine.driven? ≠ some r) :
    Leads R (D, s) (D, ((s.prepare r).2.spawn (s.prepare r).1).2) := by
  have hb := (prepare_spec hfresh).2
  unfold prepare at hb ⊢
  cases hjob : (s.runner r).job with
  | pipe source dest =>
    simp only [hjob] at hb ⊢
    exact .given fun hs => .of_act (.drive trivial (hb hs.inv) (.inl rfl) hnew)
  | line text =>
    simp only [hjob] at hb ⊢
    let u := s.updateRunner r fun x => { x with options := { x.options with stdin := .inherit } }
    have hself : u.runner r = { s.runner r with
        options := { (s.runner r).options with stdin := .inherit } } :=
      runner_updateRunner_self hfresh.lt _
    have hfresh' : u.Fresh r := by
      refine ⟨?_, ?_, ?_⟩
      · rw [size_updateRunner]
        exact hfresh.lt
      · rw [hself]
        exact hfresh.phase
      · rw [hself]
        exact hfresh.stdin
    have hoptions : Aside s u :=
      .of_runner (safe_options (fun o => { o with stdin := .inherit }) fun _ => .inl rfl)
        (.of_phase rfl rfl rfl rfl rfl (fun _ => rfl) rfl rfl)
    have hline : ∃ text, (u.runner r).job = .line text := by
      rw [hself]
      exact ⟨text, hjob⟩
    have hkept := safe_prepareInput hfresh' hline (s.runner r).options.stdin
    refine .given fun hs => ?_
    refine (Leads.of_act (.aside hoptions)).andThen fun hs' _ => ?_
    refine (leads_prepareInput hfresh' hline (s.runner r).options.stdin).trans ?_
    refine .of_act (.drive (r := r) ⟨within_prepareInput hs'.attended r _, text, ?_⟩ (hb hs.inv)
      (.inr ⟨_, rfl⟩) fun t ht => ?_)
    · rw [((hkept hs'.inv).2.kept r hfresh'.lt).job, hself]
      exact hjob
    · rcases driven?_prepareInput ht with ht | hnone
      · exact hnew t ht
      · rw [hnone]
        nofun

theorem leads_launchTask {r : RunnerId} (h : (s.runner r).phase = .pending) :
    Leads R (D, s) (D, s.launchTask r) := by
  obtain ⟨-, hfresh⟩ := launch_spec h
  refine .given fun hs => ?_
  refine (Leads.of_act (.aside (aside_launch h))).trans (leads_prepare (hfresh hs.inv) ?_)
  -- whoever runs a runner does so after it has begun
  intro t ht hdriven
  have hb := hs.inv.tasks t ht
  cases hx : t.routine with
  | beginLine r' start | runLine r' run | beginPipe r' | runPipe r' run =>
    rw [hx] at hdriven hb
    cases hdriven
    exact hb.phase h
  | ended | work w io | watch r' token | forward pieces channel ticket | await token =>
    rw [hx] at hdriven
    cases hdriven

theorem leads_start (s : System) (r : RunnerId) : Leads R (D, s) (D, (s.start r).2) := by
  rcases start_cases s r with heq | ⟨hpending, heq | ⟨token, heq⟩⟩
  · rw [heq]
    exact .refl R _
  · rw [heq]
    exact leads_launchTask hpending
  · rw [heq]
    exact (leads_launchTask hpending).trans (.of_act (.spawn trivial rfl))

/-- Where tasks can run, a run can begin. -/
theorem ensureStarted_eq (hscheduled : s.scheduled = true) (r : RunnerId) :
    s.ensureStarted r = (s.start r).2 := by
  have hok : (s.start r).1 = .ok () := by
    unfold start
    rw [if_neg (by simp [hscheduled])]
    split
    · rfl
    · dsimp only
      split
      · rfl
      · rfl
  unfold ensureStarted
  split
  · rename_i heq
    rw [heq]
  · rename_i heq
    rw [heq] at hok
    cases hok

theorem leads_ensureStarted (s : System) (r : RunnerId) :
    Leads R (D, s) (D, s.ensureStarted r) := by
  refine .given fun hs => ?_
  rw [ensureStarted_eq hs.scheduled]
  exact leads_start s r

end

end Runnel.System
