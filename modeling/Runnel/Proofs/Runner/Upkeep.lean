import Runnel.Proofs.Runner.Delivering

/-!
# Runnel.Proofs.Runner.Upkeep

Every act keeps what is true of a system and the deliveries in it.

* `System.sound_read`, `System.sound_leave`: reading a stream, and stopping to read it.
* `System.Opened`, `System.sound_join`: what it means for a stream to be opened on a runner.
* `System.sound_newRunner`, `System.sound_spawn`: new runners and tasks.
* `System.Act.sound`, `System.Acts.sound`: acts keep `System.Sound`.
-/

namespace Runnel.System

section

variable {D : Loads} {s s' : System}

/-! ## Changes of a stream -/

theorem stream_update (s : System) (id id' : StreamId) (change : ChunkStream → ChunkStream) :
    (s.updateStream id change).stream id' =
      if id' = id ∧ id < s.streams.size then change (s.stream id) else s.stream id' := by
  simp only [updateStream, stream, Array.getD_eq_getD_getElem?, Array.getElem?_modify]
  by_cases h : id' = id
  · subst h
    by_cases hlt : id' < s.streams.size
    · simp [hlt]
    · simp [hlt]
  · simp [h, Ne.symm h]

/-- A stream may end, or be dropped, once its runner is finished. -/
theorem sound_updateStream (hs : Sound D s) (id : StreamId) (change : ChunkStream → ChunkStream)
    (hchannel : (change (s.stream id)).channel = (s.stream id).channel)
    (hrunner : (change (s.stream id)).runner = (s.stream id).runner)
    (hfin : id < s.streams.size → (change (s.stream id)).ended = true ∨
      (change (s.stream id)).held = false → (s.runner (s.stream id).runner).phase = .finished) :
    Sound D (s.updateStream id change) ∧ Onwards s (s.updateStream id change) := by
  have hsize : (s.updateStream id change).streams.size = s.streams.size := by
    simp [updateStream]
  have hres : Resembles s (s.updateStream id change) := by
    refine ⟨hsize, fun id' => ?_, rfl, fun _ => rfl, fun _ => .rfl, fun _ hp => hp, fun _ => rfl,
      fun _ => rfl, Nat.le_refl _, fun _ _ _ => rfl, fun _ ht => ht, Nat.le_refl _⟩
    rw [stream_update]
    split
    · rename_i hand
      rw [hand.1]
      exact ⟨hchannel, hrunner⟩
    · exact ⟨rfl, rfl⟩
  have hclosed : Closed (s.updateStream id change) := by
    refine ⟨fun id' hid he => ?_, fun id' hid hd => ?_, hs.closed.stages⟩
    · rw [(hres.stream id').2]
      rw [stream_update] at he
      split at he
      · rename_i hand
        rw [hand.1]
        exact hfin hand.2 (.inl he)
      · exact hs.closed.ended id' (hsize ▸ hid) he
    · rw [(hres.stream id').2]
      rw [stream_update] at hd
      split at hd
      · rename_i hand
        rw [hand.1]
        exact hfin hand.2 (.inr hd)
      · exact hs.closed.dropped id' (hsize ▸ hid) hd
  have ho := hres.onwards (Nat.le_refl _)
  refine ⟨⟨((frame_updateStream s id change).safe hs.inv).1, hs.scheduled,
    hres.attended_same hs.attended fun _ _ => rfl, hclosed, hs.apart.onwards hs.inv ho rfl
    (fun w hw => .inl ⟨hw, rfl⟩) (fun f hf => .inl hf), hs.tokens⟩, ho⟩

/-- What reading a stream does. -/
theorem readStream_cases (s : System) (id : StreamId) :
    (s.stream id).ended = true ∧ s.readStream id = (s, .ended) ∨
    (s.stream id).ended = false ∧
      ((∃ chunk replay, (s.stream id).replay = chunk :: replay ∧
        s.readStream id = (s.updateStream id fun x => { x with replay }, .chunk chunk)) ∨
      (s.stream id).replay = [] ∧ ∃ machine taken,
        s.machine.take (s.stream id).channel = (machine, taken) ∧
        s.readStream id =
          (if taken = .ended then
            ({ s with machine } : System).updateStream id fun x => { x with ended := true }
          else { s with machine }, taken)) := by
  unfold readStream
  cases he : (s.stream id).ended with
  | true => exact .inl ⟨rfl, by simp only [he, if_true]⟩
  | false =>
    refine .inr ⟨rfl, ?_⟩
    simp only [he, Bool.false_eq_true, if_false]
    cases hx : (s.stream id).replay with
    | cons chunk replay => exact .inl ⟨chunk, replay, rfl, rfl⟩
    | nil =>
      refine .inr ⟨rfl, ?_⟩
      rcases s.machine.take (s.stream id).channel with ⟨machine, taken⟩
      refine ⟨machine, taken, rfl, ?_⟩
      cases taken with
      | chunk c | ended | nothing => simp

theorem sound_read (hs : Sound D s) (id : StreamId) :
    Sound D (s.readStream id).1 ∧ Onwards s (s.readStream id).1 := by
  rcases readStream_cases s id with ⟨-, heq⟩ | ⟨hopen, ⟨chunk, replay, -, heq⟩ |
    ⟨-, machine, taken, htake, heq⟩⟩
  · rw [heq]
    exact ⟨hs, .refl s⟩
  · rw [heq]
    refine sound_updateStream hs _ _ rfl rfl fun hid hor => ?_
    rcases hor with he | hd
    · rw [show (s.stream id).ended = true from he] at hopen
      cases hopen
    · exact hs.closed.dropped id hid hd
  · rw [heq]
    obtain ⟨hpassed, hsame, htaken⟩ := Machine.take_passes htake
    obtain ⟨hs', ho⟩ := sound_passed hs hpassed fun c => ⟨(hsame c).1, (hsame c).2.1⟩
    simp only
    split
    · rename_i hended
      subst hended
      -- nobody writes there any more, not even the runner
      have hfin : id < s.streams.size → (s.runner (s.stream id).runner).phase = .finished := by
        intro hid
        have hwriters := hs.attended.writers id hid
        have hnone := htaken.1
        simp only [Channel.isEnded, Bool.and_eq_true, beq_iff_eq] at hnone
        rw [hnone.2, writersOf] at hwriters
        by_cases hf : (s.runner (s.stream id).runner).phase = .finished
        · exact hf
        · rw [if_neg hf] at hwriters
          omega
      obtain ⟨hs'', ho'⟩ := sound_updateStream hs' id
        (fun x => { x with ended := true }) rfl rfl fun hid _ => hfin hid
      exact ⟨hs'', ho.trans ho'⟩
    · exact ⟨hs', ho⟩

theorem sound_leave {id : StreamId} (hs : Sound D s) (hid : id < s.streams.size)
    (hf : (s.runner (s.stream id).runner).phase = .finished) :
    Sound D (s.left id) ∧ Onwards s (s.left id) := by
  obtain ⟨hs', ho⟩ := sound_updateStream hs id (fun x => { x with held := false })
    rfl rfl fun _ _ => hf
  have hstream : ∀ id', ((s.updateStream id fun x => { x with held := false }).stream id').channel =
      (s.stream id').channel ∧
      ((s.updateStream id fun x => { x with held := false }).stream id').runner =
      (s.stream id').runner := by
    intro id'
    rw [stream_update]
    split
    · rename_i hand
      rw [hand.1]
      exact ⟨rfl, rfl⟩
    · exact ⟨rfl, rfl⟩
  have hhang := ChannelsOnly.of_updateChannel (s.updateStream id fun x => { x with held := false })
    (s.stream id).channel Channel.hangUp
  have hsize : (s.updateStream id fun x => { x with held := false }).streams.size
      = s.streams.size := by
    simp [updateStream]
  have hleft : Sound D (s.left id) ∧
      Onwards (s.updateStream id fun x => { x with held := false }) (s.left id) := by
    refine hhang.sound hs' (fun id' hid' hnot => ?_) (fun id' hid' => ?_) hs'.attended.underway
    · rw [(hstream id').2] at hnot
      rw [(hstream id').1]
      show ((s.machine.updateChannel _ _).channel _).hasReader = _
      rw [Machine.channel_updateChannel, if_neg]
      · rfl
      · rintro ⟨hsame, -⟩
        have heq := hs.attended.injective id' (hsize ▸ hid') id hid hsame
        subst heq
        exact hnot hf
    · rw [← hs'.attended.writers id' hid', (hstream id').1]
      show ((s.machine.updateChannel _ _).channel _).writers = (s.machine.channel _).writers
      rw [Machine.channel_updateChannel]
      split
      · rename_i hand
        rw [hand.1]
        rfl
      · rfl
  exact ⟨hleft.1, ho.trans hleft.2⟩

/-- A stream has been opened on a runner. -/
structure Opened (s s' : System) (r : RunnerId) : Prop where
  safe : Safe s s'
  scheduled : s'.scheduled = s.scheduled
  tasks : s'.tasks = s.tasks
  writers : s'.writers = s.writers
  tokens : s'.machine.tokens = s.machine.tokens
  feeds : s'.machine.feeds = s.machine.feeds
  size : s'.streams.size = s.streams.size + 1
  old : ∀ id < s.streams.size, s'.stream id = s.stream id
  new : s'.stream s.streams.size =
    ⟨if (s.runner r).options.capture then (s.runner r).chunks.toList else [],
      s.machine.channels.size, r, false, true⟩
  channels : s'.machine.channels.size = s.machine.channels.size + 1
  others : ∀ c < s.machine.channels.size, s'.machine.channel c = s.machine.channel c
  tap : s'.machine.channel s.machine.channels.size =
    ⟨outputCapacity, [], [], [], if (s.runner r).isFinished then 0 else 1, true⟩
  runners : s'.runners.size = s.runners.size
  /-- Only a runner that is not finished has to know of the stream. -/
  runner : ∀ r' < s.runners.size, s'.runner r' = { s.runner r' with
    subscribers := if r' = r ∧ (s.runner r).isFinished = false then
      (s.runner r').subscribers ++ [s.machine.channels.size] else (s.runner r').subscribers }

theorem opened_opened (s : System) (r : RunnerId) : Opened s (s.opened r) r := by
  have hchannel := frame_newChannel s outputCapacity
  have hlt : s.machine.channels.size < (s.newChannel outputCapacity).2.machine.channels.size := by
    simp [newChannel, Machine.newChannel]
  have hsize : (s.newChannel outputCapacity).2.machine.channels.size
      = s.machine.channels.size + 1 := by
    simp [newChannel, Machine.newChannel]
  have hothers : ∀ c < s.machine.channels.size,
      (s.newChannel outputCapacity).2.machine.channel c = s.machine.channel c :=
    fun c hc => (Machine.newChannel_touches s.machine (fun _ => False) outputCapacity).others c hc
      fun hfalse => hfalse
  have hnew : (s.newChannel outputCapacity).2.machine.channel s.machine.channels.size
      = .ofCapacity outputCapacity := by
    simp [newChannel, Machine.newChannel, Machine.channel, Array.getD_eq_getD_getElem?]
  have hpush : ∀ (u : System) (x : ChunkStream), Frame u { u with streams := u.streams.push x } :=
    fun u x => .of_eq rfl rfl rfl rfl
  have hold : ∀ (u : System) (x : ChunkStream), ∀ id < u.streams.size,
      ({ u with streams := u.streams.push x } : System).stream id = u.stream id := by
    intro u x id hid
    simp only [stream, Array.getD_eq_getD_getElem?, Array.getElem?_push, if_neg (Nat.ne_of_lt hid)]
  unfold opened
  simp only
  cases hf : (s.runner r).isFinished with
  | true =>
    have hrunner : ((s.newChannel outputCapacity).2.runner r).isFinished = true := hf
    simp only [hrunner, if_true]
    refine ⟨(hchannel.trans (frame_updateChannel _ _ _)).safe.trans (hpush _ _).safe, rfl, rfl, rfl,
      rfl, rfl, Array.size_push _, hold _ _, stream_push _ _,
      (Machine.size_updateChannel _ _ _).trans hsize, fun c hc => ?_, ?_, rfl, fun r' _ => ?_⟩
    · show (Machine.updateChannel _ _ _).channel c = _
      rw [Machine.channel_updateChannel, if_neg fun hand => Nat.ne_of_lt hc hand.1]
      exact hothers c hc
    · show (Machine.updateChannel _ _ _).channel _ = _
      rw [Machine.channel_updateChannel, if_pos ⟨rfl, hlt⟩]
      show Channel.dropWriter
        ((s.newChannel outputCapacity).2.machine.channel s.machine.channels.size) = _
      rw [hnew, hf]
      rfl
    · have hnone : ¬ (r' = r ∧ (s.runner r).isFinished = false) := by
        rintro ⟨-, hopen⟩
        rw [hf] at hopen
        cases hopen
      rw [if_neg hnone]
      rfl
  | false =>
    have hrunner : ((s.newChannel outputCapacity).2.runner r).isFinished = false := hf
    have hphase : ((s.newChannel outputCapacity).2.runner r).phase ≠ .finished := by
      intro hfin
      rw [Runner.isFinished_iff.mpr hfin] at hrunner
      cases hrunner
    simp only [hrunner, Bool.false_eq_true, if_false]
    refine ⟨(hchannel.safe.trans (safe_subscribe hphase _)).trans (hpush _ _).safe, rfl, rfl, rfl,
      rfl, rfl, Array.size_push _, hold _ _, stream_push _ _, hsize, hothers, ?_,
      size_updateRunner _ _ _, fun r' hr' => ?_⟩
    · rw [hf]
      exact hnew
    · show ((s.newChannel outputCapacity).2.updateRunner r _).runner r' = _
      rw [runner_updateRunner]
      by_cases heq : r' = r
      · subst heq
        rw [if_pos ⟨rfl, hr'⟩, if_pos ⟨rfl, hf⟩]
        rfl
      · rw [if_neg fun hand => heq hand.1, if_neg fun hand => heq hand.1]
        rfl

theorem Opened.onwards {r : RunnerId} (h : Opened s s' r) : Onwards s s' := by
  have hnew : ∀ c, s'.IsTap c → s.IsTap c ∨ c = s.machine.channels.size := by
    rintro c ⟨id, hid, rfl⟩
    rcases Nat.lt_succ_iff_lt_or_eq.mp (h.size ▸ hid) with hlt | rfl
    · rw [h.old id hlt]
      exact .inl ⟨id, hlt, rfl⟩
    · rw [h.new]
      exact .inr rfl
  refine ⟨fun c hc => ⟨?_, fun ht => ?_⟩, Nat.le_of_eq h.runners.symm, fun r' hr' => ?_,
    fun r' hr' => ?_, ?_, fun id hid => ?_, Nat.le_of_eq (by rw [h.writers]), fun r' hr' => ?_,
    Nat.le_of_eq (by rw [h.tokens])⟩
  · rw [h.channels]
    exact Nat.lt_succ_of_lt hc.lt
  · rcases hnew c ht with ht | rfl
    · exact hc.noTap ht
    · exact Nat.lt_irrefl _ hc.lt
  · rw [h.runner r' hr']
  · exact Nat.le_of_eq (by rw [h.runner r' hr'])
  · rw [h.size]
    exact Nat.le_succ _
  · rw [h.old id hid]
    exact ⟨rfl, rfl⟩
  · rw [h.runner r' hr']

/-- The runner of a new stream has it among its readers, unless it is finished. -/
theorem Opened.attended {r : RunnerId} (h : Opened s s' r) (hs : Sound D s)
    (hr : r < s.runners.size) : Attended D s' := by
  have ha := hs.attended
  have hphase : ∀ r' < s.runners.size, (s'.runner r').phase = (s.runner r').phase := by
    intro r' hr'
    rw [h.runner r' hr']
  have hstream : ∀ id < s'.streams.size, (id < s.streams.size ∧ s'.stream id = s.stream id) ∨
      (id = s.streams.size ∧ (s'.stream id).channel = s.machine.channels.size ∧
        (s'.stream id).runner = r) := by
    intro id hid
    rcases Nat.lt_succ_iff_lt_or_eq.mp (h.size ▸ hid) with hlt | rfl
    · exact .inl ⟨hlt, h.old id hlt⟩
    · exact .inr ⟨rfl, by rw [h.new], by rw [h.new]⟩
  have hlt : ∀ id < s.streams.size, id < s'.streams.size := by
    intro id hid
    rw [h.size]
    exact Nat.lt_succ_of_lt hid
  refine ⟨fun id hid => ?_, fun id hid id' hid' hsame => ?_, fun id hid => ?_,
    fun r' hr' hnot c => ?_, fun r' hr' => ?_, fun id hid hnot => ?_, fun id hid => ?_,
    fun e he => ?_⟩
  · rw [h.channels]
    rcases hstream id hid with ⟨hold, heq⟩ | ⟨-, hchannel, -⟩
    · rw [heq]
      exact Nat.lt_succ_of_lt (ha.lt id hold)
    · rw [hchannel]
      exact Nat.lt_succ_self _
  · rcases hstream id hid with ⟨hold, heq⟩ | ⟨rfl, hchannel, -⟩
    · rcases hstream id' hid' with ⟨hold', heq'⟩ | ⟨rfl, hchannel', -⟩
      · rw [heq, heq'] at hsame
        exact ha.injective id hold id' hold' hsame
      · rw [heq, hchannel'] at hsame
        exact absurd hsame (Nat.ne_of_lt (ha.lt id hold))
    · rcases hstream id' hid' with ⟨hold', heq'⟩ | ⟨rfl, -, -⟩
      · rw [hchannel, heq'] at hsame
        exact absurd hsame.symm (Nat.ne_of_lt (ha.lt id' hold'))
      · rfl
  · rw [h.runners]
    rcases hstream id hid with ⟨hold, heq⟩ | ⟨-, -, howner⟩
    · rw [heq]
      exact ha.owner id hold
    · rw [howner]
      exact hr
  · rw [h.runners] at hr'
    rw [ne_eq, hphase r' hr'] at hnot
    have hsub := ha.subscribers r' hr' hnot c
    rw [h.runner r' hr']
    constructor
    · intro hc
      have hcases : c ∈ (s.runner r').subscribers ∨ r' = r ∧ c = s.machine.channels.size := by
        split at hc
        · rename_i hand
          exact (List.mem_append.mp hc).imp_right fun hc => ⟨hand.1, List.mem_singleton.mp hc⟩
        · exact .inl hc
      rcases hcases with hc | ⟨rfl, rfl⟩
      · obtain ⟨id, hid, howner, hchannel⟩ := hsub.mp hc
        exact ⟨id, hlt id hid, by rw [h.old id hid]; exact howner, by rw [h.old id hid]; exact hchannel⟩
      · refine ⟨s.streams.size, ?_, by rw [h.new], by rw [h.new]⟩
        rw [h.size]
        exact Nat.lt_succ_self _
    · rintro ⟨id, hid, howner, hchannel⟩
      rcases hstream id hid with ⟨hold, heq⟩ | ⟨-, hchannel', howner'⟩
      · rw [heq] at howner hchannel
        have hc := hsub.mpr ⟨id, hold, howner, hchannel⟩
        split
        · exact List.mem_append_left _ hc
        · exact hc
      · have hopen : (s.runner r).isFinished = false := by
          rw [← howner', howner]
          exact Bool.eq_false_iff.mpr fun hf => hnot (Runner.isFinished_iff.mp hf)
        rw [if_pos ⟨howner.symm.trans howner', hopen⟩, ← hchannel, hchannel']
        exact List.mem_append_right _ List.mem_cons_self
  · rw [h.runners] at hr'
    rw [h.runner r' hr']
    show List.Nodup (if _ then _ else _)
    split
    · rename_i hand
      refine List.nodup_append.mpr ⟨ha.nodup r' hr', List.nodup_singleton _, fun c hc c' hc' => ?_⟩
      have hopen : (s.runner r').phase ≠ .finished := by
        intro hf
        rw [hand.1] at hf
        rw [Runner.isFinished_iff.mpr hf] at hand
        cases hand.2
      obtain ⟨id, hid, -, hchannel⟩ := (ha.subscribers r' hr' hopen c).mp hc
      rw [List.mem_singleton.mp hc', ← hchannel]
      exact Nat.ne_of_lt (ha.lt id hid)
    · exact ha.nodup r' hr'
  · rcases hstream id hid with ⟨hold, heq⟩ | ⟨-, hchannel, -⟩
    · rw [heq, ne_eq, hphase _ (ha.owner id hold)] at hnot
      rw [heq, h.others _ (ha.lt id hold)]
      exact ha.readers id hold hnot
    · rw [hchannel, h.tap]
  · rcases hstream id hid with ⟨hold, heq⟩ | ⟨-, hchannel, howner⟩
    · rw [writersOf, heq, h.others _ (ha.lt id hold), hphase _ (ha.owner id hold)]
      exact ha.writers id hold
    · -- no delivery that is under way goes to the new stream
      have hnone : D.countP (fun e => decide (s.machine.channels.size ∈ e.2.subscribers)) = 0 := by
        refine List.countP_eq_zero.mpr fun e he hc => ?_
        obtain ⟨id', hid', -, hsame⟩ := (ha.underway e he).readers _ (of_decide_eq_true hc)
        exact Nat.ne_of_lt (ha.lt id' hid') hsame
      rw [writersOf, howner, hchannel, h.tap, hphase r hr, hnone]
      by_cases hf : (s.runner r).phase = .finished
      · rw [if_pos hf, Runner.isFinished_iff.mpr hf]
        rfl
      · rw [if_neg hf, Bool.eq_false_iff.mpr fun h => hf (Runner.isFinished_iff.mp h)]
        rfl
  · have hu := ha.underway e he
    refine ⟨⟨h.runners ▸ hu.begun.lt, ?_⟩, fun c hc => ?_, hu.nodup, hu.remaining, fun hf => ?_⟩
    · rw [hphase _ hu.begun.lt]
      exact hu.begun.phase
    · obtain ⟨id, hid, howner, hchannel⟩ := hu.readers c hc
      exact ⟨id, hlt id hid, by rw [h.old id hid]; exact howner, by rw [h.old id hid]; exact hchannel⟩
    · rw [hphase _ hu.begun.lt] at hf
      rw [h.runner _ hu.begun.lt, Machine.isSet, h.tokens]
      exact hu.killed hf

theorem sound_join {r : RunnerId} (hs : Sound D s) (hr : r < s.runners.size) :
    Sound D (s.opened r) ∧ Onwards s (s.opened r) := by
  have h := opened_opened s r
  have ho := h.onwards
  have hphase : ∀ r' < s.runners.size, ((s.opened r).runner r').phase = (s.runner r').phase := by
    intro r' hr'
    rw [h.runner r' hr']
  refine ⟨⟨(h.safe hs.inv).1, h.scheduled.trans hs.scheduled, h.attended hs hr,
    ⟨fun id hid he => ?_, fun id hid hd => ?_, fun r' hr' hf stage hstage => ?_⟩,
    hs.apart.onwards hs.inv ho (by rw [h.tasks]) (fun w hw => .inl ?_) (fun f hf => .inl ?_),
    ho.token_lt h.runners hs.tokens⟩, ho⟩
  · rcases Nat.lt_succ_iff_lt_or_eq.mp (h.size ▸ hid) with hlt | rfl
    · rw [h.old id hlt] at he ⊢
      rw [hphase _ (hs.attended.owner id hlt)]
      exact hs.closed.ended id hlt he
    · rw [h.new] at he
      cases he
  · rcases Nat.lt_succ_iff_lt_or_eq.mp (h.size ▸ hid) with hlt | rfl
    · rw [h.old id hlt] at hd ⊢
      rw [hphase _ (hs.attended.owner id hlt)]
      exact hs.closed.dropped id hlt hd
    · rw [h.new] at hd
      cases hd
  · rw [h.runners] at hr'
    rw [h.runner r' hr'] at hstage
    rw [hphase r' hr'] at hf
    have hlt : stage < s.runners.size := Nat.lt_trans ((hs.inv.runners r' hr').stages stage hstage) hr'
    rw [hphase stage hlt]
    exact hs.closed.stages r' hr' hf stage hstage
  · rw [writer, h.writers]
    exact ⟨h.writers ▸ hw, rfl⟩
  · rw [h.feeds] at hf
    exact hf

/-! ## New runners and tasks -/

theorem isSet_newToken {m : Machine} {t : TokenId} (h : m.isSet t = true) :
    m.newToken.2.isSet t = true := by
  show (m.tokens.push false).getD t false = true
  have hget : m.tokens.getD t false = true := h
  rw [Array.getD_eq_getD_getElem?] at hget ⊢
  rw [Array.getElem?_push]
  split
  · rename_i heq
    rw [heq, Array.getElem?_eq_none (Nat.le_refl _)] at hget
    cases hget
  · exact hget

theorem token_newRunner (s : System) (job : Job) (options : RunOptions) :
    ((s.newRunner job options).2.runner s.runners.size).token = s.machine.tokens.size := by
  rw [runner, Array.getD_eq_getD_getElem?]
  show ((s.runners.push _)[s.runners.size]?.getD noRunner).token = _
  rw [Array.getElem?_push, if_pos rfl]
  rfl

theorem sound_newRunner {job : Job} (hs : Sound D s) (options : RunOptions)
    (h : ∀ stage ∈ job.stages, stage < s.runners.size) :
    Sound D (s.newRunner job options).2 ∧ Onwards s (s.newRunner job options).2 := by
  have ha := hs.attended
  have hsize := size_newRunner s job options
  have hold : ∀ r < s.runners.size, (s.newRunner job options).2.runner r = s.runner r :=
    fun r hr => runner_newRunner s job options hr
  obtain ⟨token, group, hnew⟩ := runner_newRunner_size s job options
  have hset : ∀ t, s.machine.isSet t = true → (s.newRunner job options).2.machine.isSet t = true :=
    fun t ht => isSet_newToken ht
  have ho : Onwards s (s.newRunner job options).2 := by
    refine ⟨fun _ hc => ⟨hc.lt, hc.noTap⟩, hsize ▸ Nat.le_succ _, fun r hr => by rw [hold r hr],
      fun r hr => Nat.le_of_eq (by rw [hold r hr]), Nat.le_refl _, fun _ _ => ⟨rfl, rfl⟩,
      Nat.le_refl _, fun r hr => by rw [hold r hr], ?_⟩
    show s.machine.tokens.size ≤ (s.machine.tokens.push false).size
    simp
  refine ⟨⟨(inv_newRunner hs.inv h options).1, hs.scheduled, ⟨ha.lt, ha.injective, fun id hid => ?_,
    fun r hr hnot c => ?_, fun r hr => ?_, fun id hid hnot => ?_, fun id hid => ?_,
    fun e he => ?_⟩, ⟨fun id hid he => ?_, fun id hid hd => ?_, fun r hr hf stage hstage => ?_⟩,
    hs.apart.onwards hs.inv ho rfl (fun w hw => .inl ⟨hw, rfl⟩) (fun f hf => .inl hf),
    fun r hr => ?_⟩, ho⟩
  · rw [hsize]
    exact Nat.lt_succ_of_lt (ha.owner id hid)
  · rcases Nat.lt_succ_iff_lt_or_eq.mp (hsize ▸ hr) with hlt | rfl
    · rw [hold r hlt] at hnot ⊢
      exact ha.subscribers r hlt hnot c
    · rw [hnew]
      refine ⟨fun hc => (by cases hc), ?_⟩
      rintro ⟨id, hid, howner, -⟩
      exact absurd howner (Nat.ne_of_lt (ha.owner id hid))
  · rcases Nat.lt_succ_iff_lt_or_eq.mp (hsize ▸ hr) with hlt | rfl
    · rw [hold r hlt]
      exact ha.nodup r hlt
    · rw [hnew]
      exact List.nodup_nil
  · have hstill : (s.runner (s.stream id).runner).phase ≠ .finished := by
      rw [← hold _ (ha.owner id hid)]
      exact hnot
    exact ha.readers id hid hstill
  · show (s.machine.channel _).writers = _
    have hstill : ((s.newRunner job options).2.runner
        ((s.newRunner job options).2.stream id).runner).phase
          = (s.runner (s.stream id).runner).phase :=
      congrArg Runner.phase (hold _ (ha.owner id hid))
    rw [writersOf, hstill]
    exact ha.writers id hid
  · have hu := ha.underway e he
    refine ⟨⟨hsize ▸ Nat.lt_succ_of_lt hu.begun.lt, ?_⟩, hu.readers, hu.nodup, hu.remaining,
      fun hf => ?_⟩
    · rw [hold _ hu.begun.lt]
      exact hu.begun.phase
    · rw [hold _ hu.begun.lt] at hf ⊢
      exact hset _ (hu.killed hf)
  · have hlt := ha.owner id hid
    show ((s.newRunner job options).2.runner (s.stream id).runner).phase = _
    rw [hold _ hlt]
    exact hs.closed.ended id hid he
  · have hlt := ha.owner id hid
    show ((s.newRunner job options).2.runner (s.stream id).runner).phase = _
    rw [hold _ hlt]
    exact hs.closed.dropped id hid hd
  · rcases Nat.lt_succ_iff_lt_or_eq.mp (hsize ▸ hr) with hlt | rfl
    · rw [hold r hlt] at hf hstage
      have hstage' := Nat.lt_trans ((hs.inv.runners r hlt).stages stage hstage) hlt
      rw [hold stage hstage']
      exact hs.closed.stages r hlt hf stage hstage
    · rw [hnew] at hf
      cases hf
  · have hroom : (s.newRunner job options).2.machine.tokens.size = s.machine.tokens.size + 1 :=
      Array.size_push _
    rw [hroom]
    rcases Nat.lt_succ_iff_lt_or_eq.mp (hsize ▸ hr) with hlt | rfl
    · rw [hold r hlt]
      exact Nat.lt_succ_of_lt (hs.tokens r hlt)
    · rw [token_newRunner]
      exact Nat.lt_succ_self _

/-- A task is added. If it runs a runner, no other task does. -/
theorem sound_spawn {routine : Routine} (hs : Sound D s) (h : s.Proper routine)
    (hb : s.RoutineBegun routine)
    (hnew : ∀ r, routine.driven? = some r → ∀ t ∈ s.tasks, t.routine.driven? ≠ some r) :
    Sound D (s.spawn routine).2 ∧ Onwards s (s.spawn routine).2 := by
  have ho : Onwards s (s.spawn routine).2 :=
    ⟨fun _ hc => ⟨hc.lt, hc.noTap⟩, Nat.le_refl _, fun _ _ => rfl, fun _ _ => Nat.le_refl _,
      Nat.le_refl _, fun _ _ => ⟨rfl, rfl⟩, Nat.le_refl _, fun _ _ => rfl, Nat.le_refl _⟩
  have ha := hs.attended
  refine ⟨⟨(safe_spawn hb hs.inv).1, hs.scheduled, ⟨ha.lt, ha.injective, ha.owner, ha.subscribers,
    ha.nodup, ha.readers, ha.writers, ?_⟩, ⟨hs.closed.ended, hs.closed.dropped, hs.closed.stages⟩,
    ⟨fun w hw => ho.plain _ (hs.apart.writers w hw), fun f hf => (hs.apart.feeds f hf).mono ho.plain,
      fun t ht => ?_, ?_⟩, hs.tokens⟩, ho⟩
  · intro e he
    have hu := ha.underway e he
    exact ⟨⟨hu.begun.lt, hu.begun.phase⟩, hu.readers, hu.nodup, hu.remaining, hu.killed⟩
  · rcases Array.mem_push.mp ht with ht | rfl
    · exact (hs.apart.routines t ht).onwards (hs.inv.tasks t ht) ho
    · exact h.onwards hb ho
  · show List.Nodup ((s.tasks.push ⟨routine, true⟩).toList.filterMap _)
    rw [Array.toList_push, List.filterMap_append]
    cases hd : routine.driven? with
    | none =>
      simp only [List.filterMap_cons, hd, List.filterMap_nil, List.append_nil]
      exact hs.apart.drivers
    | some r =>
      simp only [List.filterMap_cons, hd, List.filterMap_nil]
      refine List.nodup_append.mpr ⟨hs.apart.drivers, List.nodup_singleton _, fun r' hr' c hc => ?_⟩
      rw [List.mem_singleton.mp hc]
      rintro rfl
      obtain ⟨t, ht, hdriven⟩ := List.mem_filterMap.mp hr'
      exact hnew r' hd t (Array.mem_toList_iff.mp ht) hdriven

theorem routineBegun_of_none {routine : Routine} (h : routine.driven? = none) :
    s.RoutineBegun routine := by
  cases routine with
  | beginLine r start | runLine r run | beginPipe r | runPipe r run => cases h
  | ended | work w io | watch r token | forward pieces channel ticket | await token => trivial

end

/-! ## All acts -/

/-- Every act keeps what is true at all times. -/
theorem Act.sound {R : StreamId → Prop} {x y : Loads × System} (h : Act R x y)
    (hs : Sound x.1 x.2) : Sound y.1 y.2 ∧ Onwards x.2 y.2 := by
  cases h with
  | aside h => exact h.sound hs
  | permute h => exact ⟨hs.permute h, .refl _⟩
  | record code hr hnot hstages hload => exact sound_record hs code hr hnot hstages hload
  | capture chunk hr hrun hline hkind => exact sound_capture hs chunk hr hrun
  | hand hrest hlive hoffer => exact sound_hand hs hrest hoffer
  | stall ticket => exact ⟨hs.replace rfl List.suffix_rfl, .refl _⟩
  | settle h => exact sound_settle hs
  | forget r =>
    rw [forgetClosed_eq hs]
    exact ⟨hs, .refl _⟩
  | read h => exact sound_read hs _
  | join hr => exact sound_join hs hr
  | leave hid h => exact sound_leave hs hid h
  | newRunner options h => exact sound_newRunner hs options h
  | spawn h hnone =>
    exact sound_spawn hs h (routineBegun_of_none hnone) fun r hr => by
      rw [hnone] at hr
      cases hr
  | drive h hb hbegins hnew =>
    refine sound_spawn hs h hb fun r hr => ?_
    rcases hbegins with rfl | ⟨start, rfl⟩
    · cases hr
      exact hnew
    · cases hr
      exact hnew

/-- So do many acts. -/
theorem Acts.sound {R : StreamId → Prop} {x y : Loads × System} (h : Acts R x y)
    (hs : Sound x.1 x.2) : Sound y.1 y.2 ∧ Onwards x.2 y.2 := by
  induction h with
  | refl => exact ⟨hs, .refl _⟩
  | tail _ hact ih =>
    obtain ⟨hs', ho⟩ := ih
    obtain ⟨hs'', ho'⟩ := hact.sound hs'
    exact ⟨hs'', ho.trans ho'⟩

end Runnel.System
