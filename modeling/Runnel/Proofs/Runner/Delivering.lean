import Runnel.Proofs.Runner.Resemblance

/-!
# Runnel.Proofs.Runner.Delivering

Chunks are captured and handed out, until there is a result.

* `System.sound_capture`, `System.sound_hand`, `System.sound_settle`: a delivery from its begin to its
  end.
* `System.sound_record`: the result of a runner.
-/

namespace Runnel.System

theorem Aside.resembles {s s' : System} (h : Aside s s') : Resembles s s' where
  streams := by rw [h.streams]
  stream := fun id => by
    rw [stream, h.streams]
    exact ⟨rfl, rfl⟩
  size := h.size
  job := fun r => (h.runner r).job
  finished := fun r => (h.runner r).finished
  pending := fun r => (h.runner r).pending
  subscribers := fun r => (h.runner r).subscribers
  token := fun r => (h.runner r).token
  channels := h.channels
  readers := fun id hid _ => (h.taps _ ⟨id, hid, rfl⟩).hasReader
  tokens := h.tokens
  room := h.room

section

variable {D : Loads} {s s' : System}

theorem Aside.sound (h : Aside s s') (hs : Sound D s) : Sound D s' ∧ Onwards s s' := by
  have hr := h.resembles
  have ho := hr.onwards h.inputs
  refine ⟨⟨h.inv hs.inv, h.scheduled.trans hs.scheduled, hr.attended_same hs.attended fun id hid => ?_,
    hr.closed hs.closed fun id _ => ?_, hs.apart.onwards hs.inv ho h.tasks h.writers h.feeds,
    ho.token_lt h.size hs.tokens⟩, ho⟩
  · exact (h.taps _ ⟨id, hid, rfl⟩).writers
  · rw [stream, h.streams]
    exact ⟨fun he => he, fun hd => hd⟩

theorem Sound.permute {D' : Loads} (h : D.Perm D') (hs : Sound D s) : Sound D' s := by
  refine { hs with attended := { hs.attended with writers := ?_, underway := ?_ } }
  · intro id hid
    rw [hs.attended.writers id hid, writersOf, writersOf, h.countP_eq]
  · exact fun e he => hs.attended.underway e (h.mem_iff.mpr he)

/-- A stream of another runner. -/
theorem Attended.tap_ne {r : RunnerId} (ha : Attended D s) (hr : r < s.runners.size)
    (hnot : (s.runner r).phase ≠ .finished) {id : StreamId} (hid : id < s.streams.size)
    (hne : (s.stream id).runner ≠ r) : (s.stream id).channel ∉ (s.runner r).subscribers := by
  intro hc
  obtain ⟨id', hid', hrunner, hchannel⟩ := (ha.subscribers r hr hnot _).mp hc
  have hsame := ha.injective id' hid' id hid hchannel
  subst hsame
  exact hne hrunner

/-- How often a runner knows the channel of a stream. -/
theorem Attended.count_subscribers {r : RunnerId} (ha : Attended D s) (hr : r < s.runners.size)
    (hnot : (s.runner r).phase ≠ .finished) {id : StreamId} (hid : id < s.streams.size) :
    (s.runner r).subscribers.count (s.stream id).channel
      = if (s.stream id).runner = r then 1 else 0 := by
  split
  · rename_i heq
    exact List.count_eq_one_of_mem (ha.nodup r hr)
      ((ha.subscribers r hr hnot _).mpr ⟨id, hid, heq, rfl⟩)
  · rename_i hne
    exact List.count_eq_zero_of_not_mem (ha.tap_ne hr hnot hid hne)

/-- Closing a writer of input leaves all streams alone. -/
theorem channel_closeWriter {w : WriterId} (h : ∀ w < s.writers.size, s.Plain (s.writer w).channel)
    {c : ChannelId} (hc : s.IsTap c) :
    (s.closeWriter w).machine.channel c = s.machine.channel c := by
  unfold closeWriter
  simp only
  split
  · rename_i ho
    have hw : w < s.writers.size := by
      by_cases hw : w < s.writers.size
      · exact hw
      · rw [writer, Array.getD_eq_getD_getElem?, Array.getElem?_eq_none (Nat.le_of_not_lt hw)] at ho
        cases ho
    have hne : c ≠ (s.writer w).channel := fun heq => (h w hw).noTap (heq ▸ hc)
    show ((s.machine.updateChannel _ _).channel c) = _
    rw [Machine.channel_updateChannel, if_neg fun hand => hne hand.1]
  · rfl

theorem channel_letGo (hs : Apart s) (r : RunnerId) {c : ChannelId} (hc : s.IsTap c) :
    (s.letGo r).machine.channel c =
      { s.machine.channel c with
        writers := (s.machine.channel c).writers - (s.runner r).subscribers.count c } := by
  have hdrop := ChannelsOnly.of_dropSubscribers s (s.runner r).subscribers
  have hclose : ((s.dropSubscribers (s.runner r).subscribers).closeInput
      (s.runner r).stdin).machine.channel c =
      (s.dropSubscribers (s.runner r).subscribers).machine.channel c := by
    cases (s.runner r).stdin with
    | none => rfl
    | some writer =>
      have hr := hdrop.resembles fun _ _ _ => by rw [channel_dropSubscribers]
      refine channel_closeWriter (fun w hw => ?_) (hr.isTap.mpr hc)
      rw [hdrop.writer]
      exact hr.plain (hs.writers w (hdrop.size ▸ hw))
  rw [← channel_dropSubscribers, ← hclose, letGo_eq]
  split
  · rfl
  · rfl

theorem sound_record {r : RunnerId} (hs : Sound D s) (code : Int) (hr : r < s.runners.size)
    (hnot : (s.runner r).phase ≠ .finished)
    (hstages : ∀ stage ∈ (s.runner r).job.stages, (s.runner stage).phase = .finished)
    (hload : s.machine.isSet (s.runner r).token = true ∨ ∀ e ∈ D, e.1 ≠ r) :
    Sound D (s.record r code) ∧ Onwards s (s.record r code) := by
  have ha := hs.attended
  have hlet := ChannelsOnly.of_letGo s r
  have hself : (s.record r code).runner r = ended code (s.runner r) := runner_record_self hr code
  have hother : ∀ r', r' ≠ r → (s.record r code).runner r' = s.runner r' :=
    fun r' hne => runner_record_of_ne s hne code
  have hsize := size_record s r code
  have hstream : ∀ id, (s.record r code).stream id = s.stream id := fun id => hlet.stream id
  have hstreams : (s.record r code).streams.size = s.streams.size := congrArg Array.size hlet.streams
  have hsub : (s.record r code).writers.size = s.writers.size := hlet.size
  have htap : ∀ c, (s.record r code).IsTap c ↔ s.IsTap c := by
    intro c
    simp only [IsTap, hstreams, hstream]
  have hchannel : ∀ c, s.IsTap c → (s.record r code).machine.channel c =
      { s.machine.channel c with
        writers := (s.machine.channel c).writers - (s.runner r).subscribers.count c } :=
    fun c hc => channel_letGo hs.apart r hc
  have hjob : ∀ r', ((s.record r code).runner r').job = (s.runner r').job := by
    intro r'
    by_cases heq : r' = r
    · subst heq
      rw [hself]
      rfl
    · rw [hother r' heq]
  -- who is finished afterwards: this runner, and those that were
  have hfin : ∀ r', ((s.record r code).runner r').phase = .finished ↔
      r' = r ∨ (s.runner r').phase = .finished := by
    intro r'
    by_cases heq : r' = r
    · subst heq
      rw [hself]
      simp [ended]
    · rw [hother r' heq]
      simp [heq]
  have ho : Onwards s (s.record r code) := by
    refine ⟨fun c hc => ⟨?_, fun ht => hc.noTap ((htap c).mp ht)⟩, Nat.le_of_eq hsize.symm,
      fun r' _ => hjob r', fun r' hr' => ?_, Nat.le_of_eq hstreams.symm, fun id _ => ?_,
      Nat.le_of_eq hsub.symm, fun r' _ => ?_, Nat.le_of_eq ?_⟩
    · exact hlet.channels.symm ▸ hc.lt
    · exact ((inv_record hs.inv hr hnot code).2.kept r' hr').phase
    · rw [hstream]
      exact ⟨rfl, rfl⟩
    · by_cases heq : r' = r
      · subst heq
        rw [hself]
        rfl
      · rw [hother r' heq]
    · exact congrArg Array.size hlet.tokens.symm
  refine ⟨⟨(inv_record hs.inv hr hnot code).1, hlet.scheduled.trans hs.scheduled, ⟨?_, ?_, ?_, ?_,
    ?_, ?_, ?_, ?_⟩, ⟨?_, ?_, ?_⟩, hs.apart.onwards hs.inv ho ?_ ?_ ?_,
    ho.token_lt hsize hs.tokens⟩, ho⟩
  · intro id hid
    rw [hstream]
    exact hlet.channels.symm ▸ ha.lt id (hstreams ▸ hid)
  · intro id hid id' hid' hsame
    rw [hstream, hstream] at hsame
    exact ha.injective id (hstreams ▸ hid) id' (hstreams ▸ hid') hsame
  · intro id hid
    rw [hstream, hsize]
    exact ha.owner id (hstreams ▸ hid)
  · intro r' hr' hnot' c
    rw [ne_eq, hfin, not_or] at hnot'
    rw [hsize] at hr'
    rw [hother r' hnot'.1, hstreams]
    simp only [hstream]
    exact ha.subscribers r' hr' hnot'.2 c
  · intro r' hr'
    by_cases heq : r' = r
    · subst heq
      rw [hself]
      exact List.nodup_nil
    · rw [hother r' heq]
      exact ha.nodup r' (hsize ▸ hr')
  · intro id hid hnot'
    rw [hstreams] at hid
    rw [hstream, ne_eq, hfin, not_or] at hnot'
    rw [hstream, hchannel _ ⟨id, hid, rfl⟩]
    exact ha.readers id hid hnot'.2
  · intro id hid
    rw [hstreams] at hid
    rw [hstream, hchannel _ ⟨id, hid, rfl⟩]
    show (s.machine.channel _).writers - _ = _
    rw [ha.writers id hid, ha.count_subscribers hr hnot hid]
    simp only [writersOf, hstream, hfin]
    by_cases heq : (s.stream id).runner = r
    · simp only [heq, hnot, true_or, if_true, if_false]
      omega
    · simp only [heq, false_or, if_false, Nat.sub_zero]
  · intro e he
    have hu := ha.underway e he
    refine ⟨hu.begun.grows (inv_record hs.inv hr hnot code).2, fun c hc => ?_, hu.nodup,
      hu.remaining, fun _ => ?_⟩
    · simp only [hstreams, hstream]
      exact hu.readers c hc
    · have hset : ∀ t, (s.record r code).machine.isSet t = s.machine.isSet t := hlet.isSet
      rw [hset]
      by_cases heq : e.1 = r
      · rcases hload with hload | hload
        · rw [heq, hself]
          exact hload
        · exact absurd heq (hload e he)
      · rename_i hf
        rw [hfin] at hf
        rw [hother _ heq]
        exact hu.killed (hf.resolve_left heq)
  · intro id hid he
    rw [hstream] at he ⊢
    exact (hfin _).mpr (.inr (hs.closed.ended id (hstreams ▸ hid) he))
  · intro id hid hd
    rw [hstream] at hd ⊢
    exact (hfin _).mpr (.inr (hs.closed.dropped id (hstreams ▸ hid) hd))
  · intro r' hr' hf stage hstage
    rw [hjob] at hstage
    rw [hfin]
    rcases (hfin r').mp hf with rfl | hf
    · exact .inr (hstages stage hstage)
    · exact .inr (hs.closed.stages r' (hsize ▸ hr') hf stage hstage)
  · show (s.letGo r).tasks.map _ = _
    rw [hlet.tasks]
  · intro w hw
    exact .inl ⟨hsub ▸ hw, hlet.writer w⟩
  · intro f hf
    exact .inl (hlet.feeds ▸ hf)

/-- The channels that have changed hands are those of a machine that only passes chunks. -/
theorem ChannelsOnly.of_passed {m : Machine} (h : Machine.Passed s.machine m) :
    ChannelsOnly s { s with machine := m } :=
  ⟨(frame_machine s m).safe, rfl, rfl, rfl, rfl, rfl, fun _ => rfl, h.size, h.tokens, h.feeds, rfl⟩

/-- Nothing but output is noted. -/
theorem noted_cases (s : System) (r : RunnerId) (chunk : Chunk) :
    ∃ terminal, s.noted r chunk = { s with terminal } ∨
      (s.runner r).options.capture = true ∧ s.noted r chunk =
        { s.updateRunner r fun x => { x with chunks := x.chunks.push chunk } with terminal } := by
  have hcopy : ∀ u : System, ∃ terminal, (if (s.runner r).options.display then
      { u with terminal := chunk :: u.terminal } else u) = { u with terminal } := by
    intro u
    split
    · exact ⟨_, rfl⟩
    · exact ⟨u.terminal, rfl⟩
  by_cases hc : (s.runner r).options.capture = true
  · obtain ⟨terminal, heq⟩ :=
      hcopy (s.updateRunner r fun x => { x with chunks := x.chunks.push chunk })
    refine ⟨terminal, .inr ⟨hc, ?_⟩⟩
    rw [← heq, noted]
    simp only [hc, if_true]
  · obtain ⟨terminal, heq⟩ := hcopy s
    refine ⟨terminal, .inl ?_⟩
    rw [← heq, noted]
    simp only [hc, Bool.false_eq_true, if_false]

/-- What is noted changes the output of one runner. -/
structure Noted (s u : System) (r : RunnerId) : Prop where
  machine : u.machine = s.machine
  streams : u.streams = s.streams
  tasks : u.tasks = s.tasks
  scheduled : u.scheduled = s.scheduled
  writers : u.writers = s.writers
  size : u.runners.size = s.runners.size
  runner : ∀ r', ∃ chunks, u.runner r' = { s.runner r' with chunks }

theorem noted_noted (s : System) (r : RunnerId) (chunk : Chunk) : Noted s (s.noted r chunk) r := by
  obtain ⟨terminal, heq | ⟨-, heq⟩⟩ := noted_cases s r chunk
  · rw [heq]
    exact ⟨rfl, rfl, rfl, rfl, rfl, rfl, fun r' => ⟨(s.runner r').chunks, rfl⟩⟩
  · rw [heq]
    refine ⟨rfl, rfl, rfl, rfl, rfl, size_updateRunner _ _ _, fun r' => ?_⟩
    show ∃ chunks, (s.updateRunner r _).runner r' = _
    rw [runner_updateRunner]
    split
    · rename_i hand
      exact ⟨_, by rw [hand.1]⟩
    · exact ⟨(s.runner r').chunks, rfl⟩

theorem safe_captured {r : RunnerId} (hrun : (s.runner r).phase = .running) (chunk : Chunk) :
    Safe s (s.captured r chunk) := by
  refine Safe.trans ?_ (ChannelsOnly.of_addWriters _ _).safe
  obtain ⟨terminal, heq | ⟨hc, heq⟩⟩ := noted_cases s r chunk
  · rw [heq]
    exact Frame.safe (.of_eq rfl rfl rfl rfl)
  · rw [heq]
    exact (safe_capture hrun hc chunk).trans (Frame.safe (.of_eq rfl rfl rfl rfl))

theorem sound_capture {r : RunnerId} (hs : Sound D s) (chunk : Chunk) (hr : r < s.runners.size)
    (hrun : (s.runner r).phase = .running) :
    Sound ((r, ⟨chunk, (s.runner r).subscribers, (s.runner r).subscribers, none⟩) :: D)
      (s.captured r chunk) ∧ Onwards s (s.captured r chunk) := by
  have ha := hs.attended
  have hnot : (s.runner r).phase ≠ .finished := by
    rw [hrun]
    decide
  have hnoted := noted_noted s r chunk
  have hadd := ChannelsOnly.of_addWriters (s.noted r chunk) (s.runner r).subscribers
  have hrunner : ∀ r', ∃ chunks, (s.captured r chunk).runner r' = { s.runner r' with chunks } := by
    intro r'
    rw [captured, hadd.runner]
    exact hnoted.runner r'
  have hstream : ∀ id, (s.captured r chunk).stream id = s.stream id := by
    intro id
    rw [captured, hadd.stream, stream, hnoted.streams]
    rfl
  have hchannel : ∀ id < s.streams.size, (s.captured r chunk).machine.channel (s.stream id).channel =
      { s.machine.channel (s.stream id).channel with
        writers := (s.machine.channel (s.stream id).channel).writers +
          (s.runner r).subscribers.count (s.stream id).channel } := by
    intro id hid
    rw [captured, channel_addWriters _ _ (by rw [hnoted.machine]; exact ha.lt id hid),
      hnoted.machine]
  have hset : ∀ t, (s.captured r chunk).machine.isSet t = s.machine.isSet t := by
    intro t
    rw [captured, hadd.isSet, hnoted.machine]
  have hres : Resembles s (s.captured r chunk) := by
    refine ⟨?_, fun id => ?_, ?_, fun r' => ?_, fun r' => ?_, fun r' => ?_, fun r' => ?_,
      fun r' => ?_, ?_, fun id hid _ => ?_, fun t ht => (hset t).trans ht, ?_⟩
    · rw [captured, hadd.streams, hnoted.streams]
    · rw [hstream]
      exact ⟨rfl, rfl⟩
    · rw [captured, hadd.runners, hnoted.size]
    · obtain ⟨chunks, heq⟩ := hrunner r'
      rw [heq]
    · obtain ⟨chunks, heq⟩ := hrunner r'
      rw [heq]
    · obtain ⟨chunks, heq⟩ := hrunner r'
      rw [heq]
      exact fun h => h
    · obtain ⟨chunks, heq⟩ := hrunner r'
      rw [heq]
    · obtain ⟨chunks, heq⟩ := hrunner r'
      rw [heq]
    · exact Nat.le_of_eq (by rw [captured, hadd.channels, hnoted.machine])
    · rw [hchannel id hid]
    · exact Nat.le_of_eq (by rw [captured, hadd.tokens, hnoted.machine])
  obtain ⟨hi, he⟩ := safe_captured hrun chunk hs.inv
  have ho := hres.onwards he.writers
  refine ⟨⟨hi, ?_, hres.attended ha (fun id hid => ?_) fun e he => ?_,
    hres.closed hs.closed fun id _ => ?_, hs.apart.onwards hs.inv ho ?_ ?_ ?_,
    ho.token_lt hres.size hs.tokens⟩, ho⟩
  · rw [captured, hadd.scheduled, hnoted.scheduled]
    exact hs.scheduled
  · rw [hchannel id hid]
    show (s.machine.channel _).writers + _ = _
    rw [ha.writers id hid, ha.count_subscribers hr hnot hid]
    simp only [writersOf, List.countP_cons, decide_eq_true_eq]
    by_cases howner : (s.stream id).runner = r
    · rw [if_pos howner, if_pos ((ha.subscribers r hr hnot _).mpr ⟨id, hid, howner, rfl⟩)]
      omega
    · rw [if_neg howner, if_neg (ha.tap_ne hr hnot hid howner)]
      omega
  · rcases List.mem_cons.mp he with rfl | he
    · exact ⟨⟨hr, by rw [hrun]; decide⟩, fun c hc => (ha.subscribers r hr hnot c).mp hc,
        ha.nodup r hr, List.suffix_rfl, fun hf => absurd hf hnot⟩
    · exact ha.underway e he
  · rw [hstream]
    exact ⟨fun he => he, fun hd => hd⟩
  · rw [captured, hadd.tasks, hnoted.tasks]
  · intro w hw
    rw [captured, hadd.size, hnoted.writers] at hw
    rw [captured, hadd.writer, writer, hnoted.writers]
    exact .inl ⟨hw, rfl⟩
  · intro f hf
    rw [captured, hadd.feeds, hnoted.machine] at hf
    exact .inl hf

/-- The first of the deliveries changes, but not whom it goes to. -/
theorem Sound.replace {r : RunnerId} {d d' : Delivery} (hs : Sound ((r, d) :: D) s)
    (hsub : d'.subscribers = d.subscribers) (hrest : d'.remaining <:+ d.remaining) :
    Sound ((r, d') :: D) s := by
  refine { hs with attended := { hs.attended with writers := ?_, underway := ?_ } }
  · intro id hid
    rw [hs.attended.writers id hid]
    simp only [writersOf, List.countP_cons, hsub]
  · intro e he
    rcases List.mem_cons.mp he with rfl | he
    · have hu := hs.attended.underway (r, d) List.mem_cons_self
      exact ⟨hu.begun, hsub ▸ hu.readers, hsub ▸ hu.nodup,
        hsub ▸ hrest.trans hu.remaining, hu.killed⟩
    · exact hs.attended.underway e (List.mem_cons_of_mem _ he)

/-- A machine that only passes chunks keeps all readers and writers. -/
theorem sound_passed {m : Machine} (hs : Sound D s) (h : Machine.Passed s.machine m)
    (hc : ∀ c, (m.channel c).writers = (s.machine.channel c).writers ∧
      (m.channel c).hasReader = (s.machine.channel c).hasReader) :
    Sound D { s with machine := m } ∧ Onwards s { s with machine := m } :=
  (ChannelsOnly.of_passed h).sound hs (fun _ _ _ => (hc _).2)
    (fun id hid => (hc _).1.trans (hs.attended.writers id hid)) hs.attended.underway

theorem sound_hand {r : RunnerId} {d : Delivery} {c : ChannelId} {rest : List ChannelId}
    {m : Machine} {written : Machine.Written} (hs : Sound ((r, d) :: D) s)
    (hrest : d.remaining = c :: rest)
    (hoffer : s.machine.offer c d.ticket d.chunk = (m, written)) :
    Sound ((r, { d with remaining := rest, ticket := none }) :: D) { s with machine := m } ∧
      Onwards s { s with machine := m } := by
  obtain ⟨hpassed, hc⟩ := Machine.offer_passes hoffer
  obtain ⟨hs', ho⟩ := sound_passed hs hpassed fun c => ⟨(hc c).1, (hc c).2.1⟩
  refine ⟨hs'.replace rfl ?_, ho⟩
  rw [hrest]
  exact List.suffix_cons c rest

theorem channel_endDelivery (s : System) (d : Delivery) (c : ChannelId) :
    ((s.endDelivery d).machine.channel c).writers =
        (s.machine.channel c).writers - d.subscribers.count c ∧
      ((s.endDelivery d).machine.channel c).hasReader = (s.machine.channel c).hasReader ∧
      ((s.endDelivery d).machine.channel c).queue = (s.machine.channel c).queue := by
  have hwithdraw : ∀ (x : Channel) (t : Ticket), (x.withdraw t).writers = x.writers ∧
      (x.withdraw t).hasReader = x.hasReader ∧ (x.withdraw t).queue = x.queue := by
    intro x t
    unfold Channel.withdraw
    simp only
    split
    · split
      all_goals exact ⟨rfl, rfl, rfl⟩
    · exact ⟨rfl, rfl, rfl⟩
  unfold endDelivery
  simp only [channel_dropSubscribers]
  split
  · rename_i id _ ticket _ _
    simp only [updateChannel, updateMachine, Machine.channel_updateChannel]
    split
    · rename_i hand
      obtain ⟨hw, hr, hq⟩ := hwithdraw (s.machine.channel id) ticket
      rw [hw, hr, hq, hand.1]
      exact ⟨rfl, rfl, rfl⟩
    · exact ⟨rfl, rfl, rfl⟩
  · exact ⟨rfl, rfl, rfl⟩

theorem sound_settle {r : RunnerId} {d : Delivery} (hs : Sound ((r, d) :: D) s) :
    Sound D (s.endDelivery d) ∧ Onwards s (s.endDelivery d) := by
  have hu := hs.attended.underway (r, d) List.mem_cons_self
  refine (ChannelsOnly.of_endDelivery s d).sound hs (fun id _ _ => ?_) (fun id hid => ?_)
    fun e he => hs.attended.underway e (List.mem_cons_of_mem _ he)
  · exact (channel_endDelivery s d _).2.1
  · rw [(channel_endDelivery s d _).1, hs.attended.writers id hid]
    simp only [writersOf, List.countP_cons, decide_eq_true_eq]
    by_cases hmem : (s.stream id).channel ∈ d.subscribers
    · rw [if_pos hmem, List.count_eq_one_of_mem hu.nodup hmem]
      omega
    · rw [if_neg hmem, List.count_eq_zero_of_not_mem hmem]
      omega

/-- All who read along while a runner is not finished go on to do so. -/
theorem forgetClosed_eq (hs : Sound D s) (r : RunnerId) : s.forgetClosed r = s := by
  have hall : ∀ c ∈ (s.runner r).subscribers, (s.machine.channel c).hasReader = true := by
    intro c hc
    by_cases hr : r < s.runners.size
    · by_cases hf : (s.runner r).phase = .finished
      · rw [((hs.inv.runners r hr).cleared hf).2.1] at hc
        cases hc
      · obtain ⟨id, hid, rfl, rfl⟩ := (hs.attended.subscribers r hr hf c).mp hc
        exact hs.attended.readers id hid hf
    · rw [runner_of_le (Nat.le_of_not_lt hr)] at hc
      cases hc
  have hclosed : ((s.runner r).subscribers.filter fun id =>
      !(s.machine.channel id).hasReader) = [] := by
    rw [List.filter_eq_nil_iff]
    intro c hc
    rw [hall c hc]
    decide
  have hopen : ((s.runner r).subscribers.filter fun id => (s.machine.channel id).hasReader) =
      (s.runner r).subscribers := List.filter_eq_self.mpr hall
  unfold forgetClosed
  simp only [hclosed, hopen]
  have hsame : ∀ s : System, s.updateRunner r (fun x => x) = s := by
    intro s
    have hmodify : s.runners.modify r (fun x => x) = s.runners := by
      refine Array.ext_getElem? fun i => ?_
      rw [Array.getElem?_modify]
      split
      · simp
      · rfl
    rw [updateRunner, hmodify]
  rw [show s.dropSubscribers [] = s from rfl,
    updateRunner_congr (g := fun x => x) (s := s) (r := r) rfl, hsame]

end

end Runnel.System
