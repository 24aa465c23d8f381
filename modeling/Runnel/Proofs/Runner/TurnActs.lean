import Runnel.Proofs.Runner.Attending

/-!
# Runnel.Proofs.Runner.TurnActs

Whatever a task does in its turn consists of acts.

* `System.leads_beginDelivery`, `System.leads_deliver`: a chunk on its way.
* `System.Turned`: what comes of a turn, beside the deliveries that other tasks are busy with.
* `System.becomes_runRoutine`: the turn of any routine.
-/

namespace Runnel.System

/-- A delivery, if there is one. -/
def inHand (r : RunnerId) (d : Option Delivery) : Loads :=
  d.toList.map (r, ·)

section

variable {R : StreamId → Prop} {D E : Loads} {s s' : System} {r : RunnerId}

/-! ## Channels -/

/-- Only channels change, and those of streams hold what they held. -/
theorem Aside.of_channels (h : ChannelsOnly s s')
    (htaps : ∀ c, s.IsTap c → SameFlow (s.machine.channel c) (s'.machine.channel c)) :
    Aside s s' where
  inv := fun hi => (h.safe hi).1
  scheduled := h.scheduled
  streams := h.streams
  switches := by rw [h.shell]
  runner := fun r => by
    rw [h.runner]
    exact .refl _ _
  channels := Nat.le_of_eq h.channels.symm
  taps := htaps
  tokens := fun t ht => (h.isSet t).trans ht
  room := Nat.le_of_eq (by rw [h.tokens])
  size := by rw [h.runners]
  tasks := by rw [h.tasks]
  inputs := Nat.le_of_eq h.size.symm
  writers := fun w hw => .inl ⟨h.size ▸ hw, h.writer w⟩
  feeds := fun f hf => .inl (h.feeds ▸ hf)

/-- Closing a writer of input. -/
theorem leads_closeWriter (s : System) (w : WriterId) : Leads R (D, s) (D, s.closeWriter w) := by
  refine .given fun hs => .of_act (.aside (.of_channels (.of_closeWriter s w) fun c hc => ?_))
  rw [channel_closeWriter hs.apart.writers hc]
  exact ⟨rfl, rfl, rfl⟩

/-- Offering a chunk in vain. -/
theorem leads_held {c : ChannelId} {ticket ticket' : Option Ticket} {chunk : Chunk} {m : Machine}
    (h : s.machine.offer c ticket chunk = (m, .held ticket')) :
    Leads R (D, s) (D, { s with machine := m }) := by
  obtain ⟨hpassed, hc⟩ := Machine.offer_passes h
  refine .of_act (.aside (.of_channels (.of_passed hpassed) fun c _ => ⟨?_, (hc c).1, (hc c).2.1⟩))
  rw [(hc c).2.2, if_neg]
  rintro ⟨-, ⟨⟩, -⟩

theorem leads_offer {c : ChannelId} (hc : s.Plain c) (ticket : Option Ticket) (chunk : Chunk) :
    Leads R (D, s) (D, { s with machine := (s.machine.offer c ticket chunk).1 }) :=
  leads_machine (P := s.Plain) (Machine.offer_touches s.machine hc ticket chunk) fun _ h => h

theorem leads_take {c : ChannelId} (hc : s.Plain c) :
    Leads R (D, s) (D, { s with machine := (s.machine.take c).1 }) :=
  leads_machine (P := s.Plain) (Machine.take_touches s.machine hc) fun _ h => h

/-! ## Deliveries -/

theorem beginDelivery_eq (hopen : (s.runner r).isFinished = false) (chunk : Chunk) :
    s.beginDelivery r chunk =
      ((s.captured r chunk).emitAll r (Event.ofChunk chunk),
        some ⟨chunk, (s.runner r).subscribers, (s.runner r).subscribers, none⟩) := by
  unfold beginDelivery
  simp only [hopen, Bool.false_eq_true, if_false]
  rfl

/-- A chunk of a runner. -/
theorem leads_beginDelivery (hb : s.Begun r) (chunk : Chunk)
    (hline : ∀ text, (s.runner r).job = .line text → ∀ e ∈ D, e.1 ≠ r)
    (hkind : chunk.kind = .stdout → ∀ e ∈ D, e.1 = r → e.2.chunk.kind = .stderr) :
    Leads R (D, s) (inHand r (s.beginDelivery r chunk).2 ++ D, (s.beginDelivery r chunk).1) := by
  cases hopen : (s.runner r).isFinished with
  | true =>
    unfold beginDelivery
    simp only [hopen, if_true]
    exact .refl R _
  | false =>
    have hrun : (s.runner r).phase = .running := by
      cases hp : (s.runner r).phase with
      | running => rfl
      | pending => exact absurd hp hb.phase
      | finished =>
        rw [Runner.isFinished_iff.mpr hp] at hopen
        cases hopen
    rw [beginDelivery_eq hopen]
    refine (Leads.of_act (.capture chunk hb.lt hrun hline hkind)).andThen fun _ ho => ?_
    refine leads_emitAll (Nat.lt_of_lt_of_le hb.lt ho.size) fun e he => ?_
    rcases List.mem_cons.mp he with rfl | he
    · rfl
    · rw [List.mem_singleton.mp he]
      cases chunk.kind with
      | stdout | stderr => rfl

theorem chunk_beginDelivery {chunk : Chunk} {d : Delivery}
    (h : (s.beginDelivery r chunk).2 = some d) : d.chunk = chunk := by
  cases hopen : (s.runner r).isFinished with
  | true =>
    unfold beginDelivery at h
    simp only [hopen, if_true] at h
    cases h
  | false =>
    rw [beginDelivery_eq hopen] at h
    cases h
    rfl

/-- From one reader to the next. -/
theorem leads_deliverTo (r : RunnerId) (d : Delivery) (channels : List ChannelId)
    (ticket : Option Ticket) (s : System) :
    Leads R ((r, { d with remaining := channels, ticket }) :: D, s)
      (inHand r (deliverTo r d channels ticket s).2 ++ D, (deliverTo r d channels ticket s).1) := by
  induction channels generalizing ticket s with
  | nil =>
    have hend : s.endDelivery { d with remaining := [], ticket } =
        s.endDelivery { d with remaining := [] } := rfl
    refine (Leads.of_act (.settle (.inl rfl))).trans ?_
    rw [hend]
    exact .of_act (.forget r)
  | cons id rest ih =>
    unfold deliverTo
    split
    · rename_i hset
      exact .of_act (.settle (.inr hset))
    · rename_i hlive
      split
      · rename_i machine ok hoffer
        have hhand : Leads R ((r, { d with remaining := id :: rest, ticket }) :: D, s)
            ((r, { d with remaining := rest, ticket := none }) :: D, { s with machine }) :=
          .of_act (.hand (d := { d with remaining := id :: rest, ticket }) rfl (by simpa using hlive)
            hoffer)
        exact hhand.trans (ih none _)
      · rename_i machine ticket' hoffer
        exact (leads_held hoffer).trans (.of_act (.stall ticket'))

/-- Going on with a delivery. -/
theorem leads_deliver (s : System) (r : RunnerId) (d : Delivery) :
    Leads R ((r, d) :: D, s) (inHand r (s.deliver r d).2 ++ D, (s.deliver r d).1) :=
  leads_deliverTo r d d.remaining d.ticket s

theorem chunk_deliver {d d' : Delivery} (h : (s.deliver r d).2 = some d') : d'.chunk = d.chunk := by
  unfold deliver at h
  generalize d.remaining = channels at h
  generalize d.ticket = ticket at h
  induction channels generalizing ticket s with
  | nil => cases h
  | cons id rest ih =>
    unfold deliverTo at h
    split at h
    · cases h
    · split at h
      · exact ih _ h
      · cases h
        rfl

/-! ## Turns -/

/-- What comes of a turn, in which `r` may be run, while others are busy with the deliveries in `E`:
what the routine holds afterwards, it holds in good order. -/
structure Turned (R : StreamId → Prop) (r : Option RunnerId) (E : Loads) (x : Loads × System)
    (p : System × Routine) : Prop where
  acts : Acts R x (p.2.load ++ E, p.1)
  proper : p.1.Proper p.2
  driven : p.2.driven? = none ∨ p.2.driven? = r
  inputs : ∀ id ∈ p.2.inputs, R id

/-- From what is sound, such a turn comes of this. -/
def Becomes (R : StreamId → Prop) (r : Option RunnerId) (E : Loads) (x : Loads × System)
    (p : System × Routine) : Prop :=
  Sound x.1 x.2 → Turned R r E x p

variable {x y : Loads × System} {p : System × Routine} {r? : Option RunnerId}

theorem Leads.becomes (h : Leads R x y)
    (h' : Sound y.1 y.2 → Onwards x.2 y.2 → Becomes R r? E y p) : Becomes R r? E x p := by
  intro hs
  obtain ⟨hs', ho⟩ := (h hs).sound hs
  have hturned := h' hs' ho hs'
  exact ⟨(h hs).trans hturned.acts, hturned.proper, hturned.driven, hturned.inputs⟩

theorem Becomes.given (h : Sound x.1 x.2 → Becomes R r? E x p) : Becomes R r? E x p :=
  fun hs => h hs hs

/-- The turn ends in a routine that runs no runner. -/
theorem Leads.ends {routine : Routine} (h : Leads R x (E, s)) (hnone : routine.driven? = none)
    (hproper : Sound E s → Onwards x.2 s → s.Proper routine) : Becomes R r? E x (s, routine) := by
  intro hs
  obtain ⟨hs', ho⟩ := (h hs).sound hs
  have hload : routine.load = [] := by
    refine List.eq_nil_iff_forall_not_mem.mpr fun e he => ?_
    have hdriven := Routine.driven?_of_mem_load he
    rw [hnone] at hdriven
    cases hdriven
  refine ⟨?_, hproper hs' ho, .inl hnone, fun id hid => ?_⟩
  · show Acts R x (routine.load ++ E, s)
    rw [hload]
    exact h hs
  · cases routine with
    | runPipe r p => cases hnone
    | ended | work w io | beginLine r start | runLine r run | beginPipe r | watch r token
    | forward pieces c ticket | await token => cases hid

/-! ## Command lines -/

/-- The output of a command line that begins. -/
def lineOutput (s : System) : System :=
  (s.newChannel outputCapacity).2.updateChannel s.machine.channels.size Channel.addWriter

theorem leads_lineOutput (ha : Attended D s) : Leads R (D, s) (D, s.lineOutput) :=
  (leads_newChannel s outputCapacity).trans
    (leads_updateChannel (plain_newChannel ha outputCapacity) Channel.addWriter)

theorem plain_lineOutput (ha : Attended D s) : s.lineOutput.Plain s.machine.channels.size := by
  have hplain := plain_newChannel ha outputCapacity
  refine ⟨?_, hplain.noTap⟩
  rw [lineOutput, updateChannel, updateMachine, Machine.size_updateChannel]
  exact hplain.lt

/-- The work of a command line is a task of its own. -/
theorem leads_beginLine {start : LineStart} (hproper : s.Proper (.beginLine r start)) :
    Leads R (D, s) (D, (s.beginLine r start).1) := by
  refine .given fun hs => ?_
  have hplain := plain_lineOutput hs.attended
  refine (leads_lineOutput hs.attended).andThen fun _ ho => .of_act (.spawn ?_ rfl)
  have hio : Streams.Within s.lineOutput.Plain ⟨start.stdin,
      .channel s.machine.channels.size .stdout, .channel s.machine.channels.size .stderr⟩ :=
    ⟨hproper.1.mono ho.plain, hplain, hplain⟩
  refine ⟨lineActivity_confined start.text start.operators _ _ _ _ hio fun _ _ => ?_, hio⟩
  simp only [Work.Within]

theorem proper_beginLine {start : LineStart} (hs : Sound D s)
    (hproper : s.Proper (.beginLine r start)) (hb : s.Begun r) :
    (s.beginLine r start).1.Proper (s.beginLine r start).2 := by
  have hplain := plain_lineOutput hs.attended
  have hacts := (leads_beginLine (R := fun _ => True) hproper) hs
  obtain ⟨text, hjob⟩ := hproper.2
  refine ⟨⟨hplain.lt, hplain.noTap⟩, text, ?_⟩
  rw [(hacts.sound hs).2.jobs r hb.lt]
  exact hjob

section Line

variable (hE : ∀ e ∈ E, e.1 ≠ r)

include hE

theorem becomes_concludeLine {run : LineRun} (hb : s.Begun r) (hdelivery : run.delivery = none)
    (hproper : s.Proper (.runLine r run)) :
    Becomes R (some r) E (E, s) (s.concludeLine r run) := by
  obtain ⟨text, hjob⟩ := hproper.2
  -- a command line has no stages
  have hstages : ∀ {u : System}, Onwards s u → (u.runner r).phase ≠ .finished →
      ∀ stage ∈ (u.runner r).job.stages, (u.runner stage).phase = .finished := by
    intro u ho _ stage hstage
    rw [ho.jobs r hb.lt, hjob] at hstage
    cases hstage
  have hcode : ∀ {u : System}, Onwards s u → ∀ code, u.Concludes r code := fun ho =>
    (ho.begun hb).concludes ((ho.jobs r hb.lt).trans hjob)
  unfold concludeLine
  split
  · rename_i code ctx _
    have hshell : Leads R (E, s) (E, if (run.entersShell && !Path.isSame ctx.cwd run.cwd) = true then
        { s with shell := { s.shell with cwd := s.shell.resolve ctx.cwd } } else s) := by
      have hframe : ∀ shell, Frame s { s with shell } := fun _ => .of_eq rfl rfl rfl rfl
      split
      · exact .of_act (.aside (.of_rest (fun hi => ((hframe _).safe hi).1) rfl rfl rfl rfl rfl rfl rfl))
      · exact .refl R _
    exact (hshell.andThen fun _ ho => leads_finish code (hstages ho) hE (hcode ho code)).ends rfl
      fun _ _ => trivial
  · refine ((leads_emit hb.lt rfl).andThen fun _ ho =>
      leads_finish 1 (hstages ho) hE (hcode ho 1)).ends rfl fun _ _ => trivial
  · refine fun _ => ⟨?_, hproper, .inr rfl, List.forall_mem_nil _⟩
    show Acts R _ (run.delivery.toList.map _ ++ E, s)
    rw [hdelivery]
    exact .refl

theorem becomes_runLineWithin (n : Nat) (run : LineRun) (hb : s.Begun r)
    (hproper : s.Proper (.runLine r run)) :
    Becomes R (some r) E (inHand r run.delivery ++ E, s) (runLineWithin r n run s) := by
  induction n generalizing run s with
  | zero => exact fun _ => ⟨.refl, hproper, .inr rfl, List.forall_mem_nil _⟩
  | succ n ih =>
    -- whatever happens, the runner runs the same text with the same output
    have hlater : ∀ {u : System} (run' : LineRun), run'.output = run.output → Onwards s u →
        u.Proper (.runLine r run') := by
      intro u run' houtput ho
      obtain ⟨hplain, text, hjob⟩ := hproper
      exact ⟨houtput ▸ ho.plain _ hplain, text, (ho.jobs r hb.lt).trans hjob⟩
    unfold runLineWithin
    split
    · rename_i d hd
      have hdeliver := leads_deliver (R := R) (D := E) s r d
      rw [hd]
      split
      · rename_i s' d' heq
        rw [heq] at hdeliver
        exact hdeliver.becomes fun _ ho _ => ⟨.refl, hlater _ rfl ho, .inr rfl, List.forall_mem_nil _⟩
      · rename_i s' heq
        rw [heq] at hdeliver
        exact hdeliver.becomes fun _ ho =>
          ih { run with delivery := none } (ho.begun hb) (hlater _ rfl ho)
    · rename_i hd
      rw [hd]
      split
      · exact becomes_concludeLine hE hb hd hproper
      split
      · exact (leads_updateChannel hproper.1 Channel.hangUp).ends rfl fun _ _ => trivial
      have htake := leads_take (R := R) (D := E) hproper.1
      split
      · rename_i machine chunk heq
        rw [heq] at htake
        refine htake.becomes fun _ ho => ?_
        have hb' := ho.begun hb
        refine (leads_beginDelivery hb' chunk (fun _ _ => hE) fun _ e he hr =>
          absurd hr (hE e he)).becomes fun _ ho' => ?_
        exact ih { run with
            delivery := (({ s with machine } : System).beginDelivery r chunk).2 }
          (ho'.begun hb') (hlater _ rfl (ho.trans ho'))
      · rename_i machine heq
        rw [heq] at htake
        refine htake.becomes fun _ ho => ?_
        have hnext := ih { run with drained := true } (ho.begun hb) (hlater _ rfl ho)
        rw [show ({ run with drained := true } : LineRun).delivery = none from hd] at hnext
        exact hnext
      · rename_i machine heq
        rw [heq] at htake
        refine htake.becomes fun _ ho _ => ⟨?_, hlater _ rfl ho, .inr rfl, List.forall_mem_nil _⟩
        show Acts R _ (run.delivery.toList.map _ ++ E, _)
        rw [hd]
        exact .refl

end Line

/-! ## Pipes -/

theorem leads_endSource (s : System) (p : PipeRun) :
    Leads R (D, s) (D, (s.endSource p).1) := by
  unfold endSource
  refine Leads.trans ?_ (leads_dropStream _ _)
  split
  · exact leads_closeWriter s _
  · exact .refl R _

theorem leads_feed {w : WriterId} (hw : w < s.writers.size) (ticket : Option Ticket)
    (data : Bytes) : Leads R (D, s) (D, (s.feed w ticket data).1) := by
  refine .given fun hs => ?_
  have hoffer := leads_offer (R := R) (D := D) (hs.apart.writers w hw) ticket ⟨.stdout, data⟩
  unfold feed
  simp only
  split
  · exact .refl R _
  split
  · rename_i heq
    rw [heq] at hoffer
    exact hoffer
  · rename_i heq
    rw [heq] at hoffer
    exact hoffer

section Pipe

variable {p : PipeRun}

/-- Moving output of the first runner. -/
theorem leads_runSource (n : Nat) (side : SideProgress) (hb : s.Begun r)
    (hpipe : ∀ text, (s.runner r).job ≠ .line text) (hR : R p.sourceOutput)
    (hwriter : ∀ w, p.writer = some w → w < s.writers.size) :
    Leads R (side.load r ++ D, s)
      ((runSource r p n side s).2.load r ++ D, (runSource r p n side s).1) := by
  induction n generalizing side s with
  | zero => exact .refl R _
  | succ n ih =>
    -- nothing that these rest on is ever taken back
    have hlater : ∀ {u : System} (side : SideProgress), Onwards s u →
        Leads R (side.load r ++ D, u)
          ((runSource r p n side u).2.load r ++ D, (runSource r p n side u).1) := by
      intro u side ho
      refine ih side (ho.begun hb) (fun text hjob => hpipe text ?_) fun w hw =>
        Nat.lt_of_lt_of_le (hwriter w hw) ho.writers
      rw [← ho.jobs r hb.lt]
      exact hjob
    unfold runSource
    split
    · exact .refl R _
    · rename_i d
      have hdeliver := leads_deliver (R := R) (D := D) s r d
      split
      · rename_i heq
        rw [heq] at hdeliver
        exact hdeliver
      · rename_i heq
        rw [heq] at hdeliver
        exact hdeliver.andThen fun _ ho => hlater .reading ho
    · rename_i ticket data
      split
      · exact hlater .reading (.refl s)
      · rename_i writer hw
        have hfeed := leads_feed (R := R) (D := D) (hwriter writer hw) ticket data
        split
        · rename_i s' heq
          rw [heq] at hfeed
          exact hfeed.trans (leads_endSource s' p)
        · rename_i heq
          rw [heq] at hfeed
          exact hfeed
        · rename_i heq
          rw [heq] at hfeed
          exact hfeed.andThen fun _ ho => hlater .reading ho
    · have hread : Leads R (D, s) (D, (s.readStream p.sourceOutput).1) := .of_act (.read hR)
      split
      · rename_i heq
        rw [heq] at hread
        exact hread
      · rename_i s' heq
        rw [heq] at hread
        exact hread.trans (leads_endSource s' p)
      · rename_i s' chunk heq
        rw [heq] at hread
        refine hread.andThen fun _ ho => ?_
        split
        · exact hlater (.feeding none chunk.data) ho
        · rename_i hkind
          have hbegin : Leads R (D, s') (inHand r (s'.beginDelivery r chunk).2 ++ D,
              (s'.beginDelivery r chunk).1) := by
            refine leads_beginDelivery (ho.begun hb) chunk (fun text hjob => ?_) fun hout => ?_
            · rw [ho.jobs r hb.lt] at hjob
              exact absurd hjob (hpipe text)
            · rw [hkind] at hout
              cases hout
          split
          · rename_i d heq'
            rw [heq'] at hbegin
            exact hbegin.andThen fun _ ho' => hlater (.delivering d) (ho.trans ho')
          · rename_i heq'
            rw [heq'] at hbegin
            exact hbegin.andThen fun _ ho' => hlater .reading (ho.trans ho')

/-- The first runner's side only delivers errors. -/
theorem stderr_runSource (n : Nat) (side : SideProgress) (s : System)
    (h : ∀ e ∈ side.load r, e.2.chunk.kind = .stderr) :
    ∀ e ∈ (runSource r p n side s).2.load r, e.2.chunk.kind = .stderr := by
  induction n generalizing side s with
  | zero => exact h
  | succ n ih =>
    have hnone : ∀ e ∈ SideProgress.load r .reading, e.2.chunk.kind = .stderr :=
      List.forall_mem_nil _
    unfold runSource
    split
    · exact h
    · rename_i d
      split
      · rename_i heq
        intro e he
        rw [List.mem_singleton.mp he]
        show Chunk.kind _ = _
        rw [chunk_deliver (congrArg Prod.snd heq)]
        exact h (r, d) List.mem_cons_self
      · exact ih _ _ hnone
    · split
      · exact ih _ _ hnone
      · split
        · exact List.forall_mem_nil _
        · exact List.forall_mem_nil _
        · exact ih _ _ hnone
    · split
      · exact List.forall_mem_nil _
      · exact List.forall_mem_nil _
      · split
        · exact ih _ _ (List.forall_mem_nil _)
        · rename_i hkind
          split
          · rename_i heq
            refine ih _ _ fun e he => ?_
            rw [List.mem_singleton.mp he]
            show Chunk.kind _ = _
            rw [chunk_beginDelivery (congrArg Prod.snd heq)]
            exact hkind
          · exact ih _ _ hnone

/-- Moving output of the second runner, while the first runner's side delivers nothing but errors. -/
theorem leads_runDest (n : Nat) (side : SideProgress) (hb : s.Begun r)
    (hpipe : ∀ text, (s.runner r).job ≠ .line text) (hR : R p.destOutput)
    (hD : ∀ e ∈ D, e.1 = r → e.2.chunk.kind = .stderr) :
    Leads R (side.load r ++ D, s)
      ((runDest r p n side s).2.load r ++ D, (runDest r p n side s).1) := by
  induction n generalizing side s with
  | zero => exact .refl R _
  | succ n ih =>
    have hlater : ∀ {u : System} (side : SideProgress), Onwards s u →
        Leads R (side.load r ++ D, u)
          ((runDest r p n side u).2.load r ++ D, (runDest r p n side u).1) := by
      intro u side ho
      refine ih side (ho.begun hb) fun text hjob => hpipe text ?_
      rw [← ho.jobs r hb.lt]
      exact hjob
    unfold runDest
    split
    · exact .refl R _
    · exact .refl R _
    · rename_i d
      have hdeliver := leads_deliver (R := R) (D := D) s r d
      split
      · rename_i heq
        rw [heq] at hdeliver
        exact hdeliver
      · rename_i heq
        rw [heq] at hdeliver
        exact hdeliver.andThen fun _ ho => hlater .reading ho
    · have hread : Leads R (D, s) (D, (s.readStream p.destOutput).1) := .of_act (.read hR)
      split
      · rename_i heq
        rw [heq] at hread
        exact hread
      · rename_i heq
        rw [heq] at hread
        exact hread
      · rename_i s' chunk heq
        rw [heq] at hread
        refine hread.andThen fun _ ho => ?_
        have hbegin : Leads R (D, s') (inHand r (s'.beginDelivery r chunk).2 ++ D,
            (s'.beginDelivery r chunk).1) := by
          refine leads_beginDelivery (ho.begun hb) chunk (fun text hjob => ?_) fun _ => hD
          rw [ho.jobs r hb.lt] at hjob
          exact absurd hjob (hpipe text)
        split
        · rename_i d heq'
          rw [heq'] at hbegin
          exact hbegin.andThen fun _ ho' => hlater (.delivering d) (ho.trans ho')
        · rename_i heq'
          rw [heq'] at hbegin
          exact hbegin.andThen fun _ ho' => hlater .reading (ho.trans ho')

/-- A pipe that runs reads streams that it may read. -/
structure Piping (R : StreamId → Prop) (s : System) (r : RunnerId) (p : PipeRun) : Prop where
  proper : s.Proper (.runPipe r p)
  begun : s.Begun r
  source : R p.sourceOutput
  dest : R p.destOutput

theorem Piping.notLine (h : Piping R s r p) (text : String) : (s.runner r).job ≠ .line text := by
  rw [h.proper.1]
  nofun

theorem Piping.onwards (h : Piping R s r p) (ho : Onwards s s') : Piping R s' r p :=
  ⟨h.proper.onwards h.begun ho, ho.begun h.begun, h.source, h.dest⟩

/-- Both sides may get on, as long as the first delivers nothing but errors. -/
theorem Piping.replace (h : Piping R s r p) {source dest : SideProgress} {swapped : Bool}
    (hsource : ∀ e ∈ source.load r, e.2.chunk.kind = .stderr) :
    Piping R s r { p with source, dest, swapped } :=
  ⟨⟨h.proper.1, h.proper.2.1, h.proper.2.2.1, h.proper.2.2.2.1, hsource⟩, h.begun, h.source, h.dest⟩

theorem Piping.inputs (h : Piping R s r p) : ∀ id ∈ (Routine.runPipe r p).inputs, R id := by
  intro id hid
  rcases List.mem_cons.mp hid with rfl | hid
  · exact h.source
  · rw [List.mem_singleton.mp hid]
    exact h.dest

/-- The first side gets on beside the second. -/
theorem leads_source (h : Piping R s r p) (n : Nat) (dest : SideProgress) :
    Leads R (p.source.load r ++ (dest.load r ++ E), s)
      ((runSource r p n p.source s).2.load r ++ (dest.load r ++ E), (runSource r p n p.source s).1) :=
  leads_runSource n p.source h.begun h.notLine h.source fun w hw => (h.proper.2.2.2.1 w hw).lt

theorem load_of_isComplete (h : p.isComplete = true) : (Routine.runPipe r p).load = [] := by
  unfold PipeRun.isComplete at h
  split at h
  · rename_i hsource hdest
    simp only [Routine.load, hsource, hdest]
    rfl
  · cases h

end Pipe

section Pipe

variable {p : PipeRun} (hE : ∀ e ∈ E, e.1 ≠ r)

include hE

/-- The second side gets on beside the first. -/
theorem leads_dest (h : Piping R s r p) (n : Nat) {source : SideProgress}
    (hsource : ∀ e ∈ source.load r, e.2.chunk.kind = .stderr) :
    Leads R (source.load r ++ (p.dest.load r ++ E), s)
      (source.load r ++ ((runDest r p n p.dest s).2.load r ++ E), (runDest r p n p.dest s).1) := by
  have hswap : ∀ (a b : Loads), (a ++ (b ++ E)).Perm (b ++ (a ++ E)) := by
    intro a b
    rw [← List.append_assoc, ← List.append_assoc]
    exact List.perm_append_comm.append_right E
  refine ((Leads.of_act (.permute (hswap _ _))).trans (leads_runDest n p.dest h.begun h.notLine
    h.dest fun e he hr => ?_)).trans (.of_act (.permute (hswap _ _)))
  rcases List.mem_append.mp he with he | he
  · exact hsource e he
  · exact absurd hr (hE e he)

/-- Both sides get on, in whatever order. -/
theorem leads_runSides (h : Piping R s r p) :
    Leads R (p.source.load r ++ (p.dest.load r ++ E), s)
        ((s.runSides r p).2.source.load r ++ ((s.runSides r p).2.dest.load r ++ E),
          (s.runSides r p).1) ∧
      (Onwards s (s.runSides r p).1 → Piping R (s.runSides r p).1 r (s.runSides r p).2) := by
  have hkind := h.proper.2.2.2.2
  unfold runSides
  -- as a number, the bound would be counted down whenever terms are compared
  generalize turnSteps = n
  by_cases hsw : p.swapped = true
  · rw [if_pos hsw]
    have hdest := leads_dest (E := E) hE h n hkind
    cases hx : runDest r p n p.dest s with
    | mk s' dest =>
      rw [hx] at hdest
      have hsource := fun h' : Piping R s' r p => leads_source (E := E) h' n dest
      have hkind' := stderr_runSource (p := p) n p.source s' hkind
      cases hy : runSource r p n p.source s' with
      | mk s'' source =>
        simp only [hy] at hsource hkind' ⊢
        exact ⟨hdest.andThen fun _ ho => hsource (h.onwards ho),
          fun ho => (h.onwards ho).replace hkind'⟩
  · rw [if_neg hsw]
    have hsource := leads_source (E := E) h n p.dest
    have hkind' := stderr_runSource (p := p) n p.source s hkind
    cases hx : runSource r p n p.source s with
    | mk s' source =>
      rw [hx] at hsource hkind'
      have hdest := fun h' : Piping R s' r p => leads_dest (E := E) hE h' n hkind'
      cases hy : runDest r p n p.dest s' with
      | mk s'' dest =>
        simp only [hy] at hdest ⊢
        exact ⟨hsource.andThen fun _ ho => hdest (h.onwards ho),
          fun ho => (h.onwards ho).replace hkind'⟩

/-- Once both runners have results, the pipe has one. -/
theorem becomes_concludePipe (h : Piping R s r p) (hcomplete : p.isComplete = true) :
    Becomes R (some r) E (E, s) (s.concludePipe r p) := by
  refine .given fun hs => ?_
  obtain ⟨hjob, hsource, hdest, -, -⟩ := h.proper
  unfold concludePipe
  split
  · rename_i source dest hresult hresult'
    have hfinished : ∀ id < s.streams.size, (s.runner (s.stream id).runner).result.isSome = true →
        (s.runner (s.stream id).runner).phase = .finished :=
      fun id hid => (hs.inv.runners _ (hs.attended.owner id hid)).result_iff.mp
    refine ((leads_finish _ (fun _ stage hstage => ?_) hE ⟨h.begun, fun a b hab => ?_⟩).trans
      (leads_dropStream _ _)).ends rfl fun _ _ => trivial
    · rw [hjob] at hstage
      rcases List.mem_cons.mp hstage with rfl | hstage
      · exact hfinished _ hsource (by rw [hresult]; rfl)
      · rw [List.mem_singleton.mp hstage]
        exact hfinished _ hdest (by rw [hresult']; rfl)
    · rw [hjob] at hab
      cases hab
      exact ⟨source, dest, hresult, hresult', rfl⟩
  · refine fun _ => ⟨?_, h.proper, .inr rfl, h.inputs⟩
    show Acts R _ ((Routine.runPipe r p).load ++ E, s)
    rw [load_of_isComplete hcomplete]
    exact .refl

end Pipe

section Pipe

variable {p : PipeRun}

theorem isSet_abortSide (s : System) (p : PipeRun) (side : SideProgress) (t : TokenId) :
    (s.abortSide p side).machine.isSet t = s.machine.isSet t := by
  unfold abortSide
  split
  · exact (ChannelsOnly.of_endDelivery s _).isSet t
  · split
    · rfl
    · rfl
  · rfl

/-- A side of a pipe that has been killed lets go of what it holds. -/
theorem leads_abortSide (side : SideProgress) (hset : s.machine.isSet (s.runner r).token = true)
    (hwriter : ∀ w, p.writer = some w → w < s.writers.size) :
    Leads R (side.load r ++ D, s) (D, s.abortSide p side) := by
  unfold abortSide
  split
  · exact .of_act (.settle (.inr hset))
  · split
    · rename_i w hw
      exact .given fun hs => leads_updateChannel (hs.apart.writers w (hwriter w hw)) _
    · exact .refl R _
  · rename_i hnot _
    have hload : side.load r = [] := by
      cases side with
      | delivering d => exact absurd rfl (hnot d)
      | reading | feeding _ _ | complete => rfl
    rw [hload]
    exact .refl R _

/-- A pipe that has been killed lets go of everything. -/
theorem becomes_abortPipe (h : Piping R s r p)
    (hset : s.machine.isSet (s.runner r).token = true) :
    Becomes R (some r) E (p.source.load r ++ (p.dest.load r ++ E), s) (s.abortPipe p, .ended) := by
  obtain ⟨-, -, -, hwriter, -⟩ := h.proper
  have hfirst := leads_abortSide (R := R) (D := p.dest.load r ++ E) p.source hset
    fun w hw => (hwriter w hw).lt
  refine Leads.ends (.trans (.trans (hfirst.andThen fun _ ho => ?_) (leads_dropStream _ _))
    (leads_dropStream _ _)) rfl fun _ _ => trivial
  refine leads_abortSide p.dest ?_ fun w hw => Nat.lt_of_lt_of_le (hwriter w hw).lt ho.writers
  rw [isSet_abortSide, ho.token r h.begun.lt]
  exact hset

/-- Going on with a pipe. -/
theorem becomes_runPipe (hE : ∀ e ∈ E, e.1 ≠ r) (h : Piping R s r p) :
    Becomes R (some r) E ((Routine.runPipe r p).load ++ E, s) (s.runPipe r p) := by
  have happend : ∀ p : PipeRun, (Routine.runPipe r p).load ++ E =
      p.source.load r ++ (p.dest.load r ++ E) := fun p => List.append_assoc ..
  unfold runPipe
  split
  · rename_i hp
    rw [load_of_isComplete hp]
    exact becomes_concludePipe hE h hp
  split
  · rename_i hset
    rw [happend]
    exact becomes_abortPipe h hset
  · obtain ⟨hsides, hpiping⟩ := leads_runSides hE h
    rw [happend]
    cases hx : s.runSides r p with
    | mk s' p' =>
      rw [hx] at hsides hpiping
      refine hsides.becomes fun _ ho => ?_
      have h' := hpiping ho
      simp only
      rw [← happend]
      split
      · rename_i hp
        rw [load_of_isComplete hp]
        exact becomes_concludePipe hE h' hp
      split
      · rename_i hset
        rw [happend]
        exact becomes_abortPipe h' hset
      · exact fun _ => ⟨.refl, h'.proper, .inr rfl, h'.inputs⟩

end Pipe

theorem beginPipe_eq {source dest : RunnerId} (hjob : (s.runner r).job = .pipe source dest) :
    s.beginPipe r = (((s.openStream dest).2.openStream source).2,
      .runPipe r ⟨(s.openStream dest).2.streams.size, s.streams.size,
        ((s.openStream dest).2.runner dest).stdin, .reading, .reading, false⟩) := by
  have hid : ∀ (u : System) r, (u.openStream r).1 = u.streams.size :=
    fun u r => congrArg Prod.fst (openStream_eq u r)
  rw [← hid s dest, ← hid _ source]
  unfold beginPipe
  rw [hjob]

/-- Both runners of a pipe are started, the second one first. -/
theorem piping_beginPipe {source dest : RunnerId} (hs : Sound D s) (hb : s.Begun r)
    (hjob : (s.runner r).job = .pipe source dest) (hR : ∀ id, s.streams.size ≤ id → R id) :
    ∃ p, (s.beginPipe r).2 = .runPipe r p ∧ (Routine.runPipe r p).load = [] ∧
      Acts R (D, s) (D, (s.beginPipe r).1) ∧ Piping R (s.beginPipe r).1 r p := by
  have hstages := (hs.inv.runners r hb.lt).stages
  rw [hjob] at hstages
  have hsource : source < s.runners.size :=
    Nat.lt_trans (hstages source List.mem_cons_self) hb.lt
  have hdest : dest < s.runners.size :=
    Nat.lt_trans (hstages dest (List.mem_cons_of_mem _ List.mem_cons_self)) hb.lt
  have hacts := leads_openStream (R := R) hdest hs
  obtain ⟨hs', ho⟩ := hacts.sound hs
  obtain ⟨hlt, hrunner⟩ := opened_openStream hs hdest
  have hsource' := Nat.lt_of_lt_of_le hsource ho.size
  have hacts' := leads_openStream (R := R) hsource' hs'
  obtain ⟨hs'', ho'⟩ := hacts'.sound hs'
  obtain ⟨hlt', hrunner'⟩ := opened_openStream hs' hsource'
  have hdest' := Nat.lt_of_lt_of_le hdest ho.size
  have hwriter : ∀ w, ((s.openStream dest).2.runner dest).stdin = some w →
      ((s.openStream dest).2.openStream source).2.WriterOf w dest := fun w hw =>
    have hsound := (hs'.inv.runners dest hdest').writer w hw
    WriterOf.onwards ⟨hsound.1, hdest', hsound.2⟩ ho'
  rw [beginPipe_eq hjob]
  refine ⟨_, rfl, rfl, hacts.trans hacts', ⟨?_, hlt', Nat.lt_of_lt_of_le hlt ho'.streams,
    fun w hw => ?_, nofun⟩, (ho.trans ho').begun hb, hR _ ho.streams, hR _ (Nat.le_refl _)⟩
  · rw [(ho.trans ho').jobs r hb.lt, hjob, hrunner', (ho'.stream _ hlt).2, hrunner]
  · rw [(ho'.stream _ hlt).2, hrunner]
    exact hwriter w hw

/-! ## All routines -/

/-- Nobody writes any more to where a sink leads. -/
def abandonSink (s : System) : Sink → System
  | .channel id _ => s.updateChannel id fun c => { c with writers := 0 }
  | _ => s

theorem abandonWork_eq (s : System) (io : Streams) : s.abandonWork io =
    ((s.abandonSink io.stdout).abandonSink io.stderr).updateMachine fun m => m.abandon io.stdin := by
  unfold abandonWork abandonSink
  rfl

theorem leads_abandonSink {sink : Sink} (h : sink.Within s.Plain) :
    Leads R (D, s) (D, s.abandonSink sink) := by
  cases sink with
  | channel id kind => exact leads_updateChannel h _
  | file handle | discard => exact .refl R _

/-- Work that has broken down lets go of its streams. -/
theorem leads_abandonWork {io : Streams} (hio : io.Within s.Plain) :
    Leads R (D, s) (D, s.abandonWork io) := by
  rw [abandonWork_eq]
  refine (leads_abandonSink hio.stdout).andThen fun _ ho => ?_
  refine (leads_abandonSink (hio.stderr.mono ho.plain)).andThen fun _ ho' => ?_
  exact leads_machine (Machine.abandon_touches _ _
    ((hio.stdin.mono ho.plain).mono ho'.plain)) fun _ h => h

theorem becomes_runWork {w : Work} {io : Streams} (h : s.Proper (.work w io)) :
    Becomes R r? E (E, s) (s.runWork w io) := by
  refine .given fun hs => ?_
  obtain ⟨hw, hio⟩ := h
  unfold runWork
  split
  · exact (Leads.refl R _).ends rfl fun _ _ => ⟨hw, hio⟩
  have hstayed := Work.advance_stayed w hw s.machine
  cases hx : w.advance s.machine with
  | mk machine w' =>
    rw [hx] at hstayed
    have hmachine := leads_machine (R := R) (D := E) hstayed.touches fun _ h => h
    have hw' : w'.Within (Plain { s with machine }) :=
      hstayed.within.mono fun c => plain_of_orNew hs.attended hstayed.touches fun _ h => h
    simp only
    split
    · refine hmachine.becomes fun _ ho => ?_
      exact (leads_abandonWork (hio.mono ho.plain)).ends rfl fun _ ho' =>
        ⟨hw'.mono ho'.plain, (hio.mono ho.plain).mono ho'.plain⟩
    · exact hmachine.ends rfl fun _ ho => ⟨hw', hio.mono ho.plain⟩

theorem becomes_watch (r : RunnerId) (token : TokenId) :
    Becomes R r? E (E, s) (s.watch r token) := by
  unfold watch
  split
  · exact (leads_kill s .term r).ends rfl fun _ _ => trivial
  split
  · exact (Leads.refl R _).ends rfl fun _ _ => trivial
  · exact (Leads.refl R _).ends rfl fun _ _ => trivial

theorem becomes_forward {channel : ChannelId} (pieces : List Bytes) (ticket : Option Ticket)
    (h : s.Plain channel) : Becomes R r? E (E, s) (forward channel pieces ticket s) := by
  induction pieces generalizing ticket s with
  | nil => exact (leads_updateChannel h _).ends rfl fun _ _ => trivial
  | cons piece rest ih =>
    have hoffer := leads_offer (R := R) (D := E) h ticket ⟨.stdout, piece⟩
    unfold forward
    split
    · rename_i heq
      rw [heq] at hoffer
      exact hoffer.becomes fun _ ho => ih none (ho.plain _ h)
    · rename_i heq
      rw [heq] at hoffer
      exact (hoffer.andThen fun _ ho => leads_updateChannel (ho.plain _ h) _).ends rfl
        fun _ _ => trivial
    · rename_i heq
      rw [heq] at hoffer
      exact hoffer.ends rfl fun _ ho => ho.plain _ h

/-- Whatever a routine does in its turn consists of acts. -/
theorem becomes_runRoutine {routine : Routine} (hb : s.RoutineBegun routine)
    (hproper : s.Proper routine) (hE : ∀ r, routine.driven? = some r → ∀ e ∈ E, e.1 ≠ r)
    (hR : ∀ id ∈ routine.inputs, R id) (hnew : ∀ id, s.streams.size ≤ id → R id) :
    Becomes R routine.driven? E (routine.load ++ E, s) (s.runRoutine routine) := by
  cases routine with
  | ended => exact (Leads.refl R _).ends rfl fun _ _ => trivial
  | work w io => exact becomes_runWork hproper
  | beginLine r start =>
    refine .given fun hs => ?_
    have hline := leads_beginLine (R := R) (D := E) hproper
    have hproper' := proper_beginLine hs hproper hb
    exact hline.becomes fun _ ho => becomes_runLineWithin (hE r rfl) turnSteps _ (ho.begun hb) hproper'
  | runLine r run => exact becomes_runLineWithin (hE r rfl) turnSteps _ hb hproper
  | beginPipe r =>
    refine .given fun hs => ?_
    cases hjob : (s.runner r).job with
    | line text =>
      have hstages : ∀ {u : System}, Onwards s u → (u.runner r).phase ≠ .finished →
          ∀ stage ∈ (u.runner r).job.stages, (u.runner stage).phase = .finished := by
        intro u ho _ stage hstage
        rw [ho.jobs r hb.lt, hjob] at hstage
        cases hstage
      have hend : s.runRoutine (.beginPipe r) =
          ((s.emit r (.error (.broken "malformed pipe"))).finish r 1, .ended) := by
        rw [runRoutine, beginPipe, hjob]
      rw [hend]
      exact ((leads_emit hb.lt rfl).andThen fun _ ho => leads_finish 1 (hstages ho) (hE r rfl)
        ((ho.begun hb).concludes ((ho.jobs r hb.lt).trans hjob) 1)).ends rfl fun _ _ => trivial
    | pipe source dest =>
      obtain ⟨p, hrun, hload, hacts, hpiping⟩ := piping_beginPipe hs hb hjob hnew
      have hend : s.runRoutine (.beginPipe r) = (s.beginPipe r).1.runPipe r p := by
        rw [runRoutine]
        generalize s.beginPipe r = q at hrun
        obtain ⟨s', routine⟩ := q
        cases hrun
        rfl
      have hrunPipe := becomes_runPipe (hE r rfl) hpiping
      rw [hload] at hrunPipe
      rw [hend]
      exact Leads.becomes (fun _ => hacts) fun _ _ => hrunPipe
  | runPipe r p =>
    exact becomes_runPipe (hE r rfl) ⟨hproper, hb, hR _ List.mem_cons_self,
      hR _ (List.mem_cons_of_mem _ List.mem_cons_self)⟩
  | watch r token => exact becomes_watch r token
  | forward pieces channel ticket => exact becomes_forward pieces ticket hproper
  | await token =>
    rw [runRoutine]
    split
    · exact (Leads.refl R _).ends rfl fun _ _ => trivial
    · exact (Leads.refl R _).ends rfl fun _ _ => trivial

end

end Runnel.System
