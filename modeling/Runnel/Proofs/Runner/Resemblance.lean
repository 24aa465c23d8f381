import Runnel.Proofs.Runner.Readers

/-!
# Runnel.Proofs.Runner.Resemblance

Changes that leave those who read along where they are.

* `System.Resembles`: a change of a system after which the same channels are read by the same
  readers on behalf of the same runners, and runs have ended that had ended.
* `System.ChannelsOnly`: a change of channels alone, and of which writers of input are open.
-/

namespace Runnel.System

/-! ## Changes of channels -/

theorem channel_dropSubscribers (s : System) (channels : List ChannelId) (c : ChannelId) :
    (s.dropSubscribers channels).machine.channel c =
      { s.machine.channel c with
        writers := (s.machine.channel c).writers - channels.count c } := by
  induction channels generalizing s with
  | nil => rfl
  | cons id rest ih =>
    show ((s.updateChannel id Channel.dropWriter).dropSubscribers rest).machine.channel c = _
    rw [ih]
    show Channel.mk _ _ _ _ _ _ = _
    simp only [updateChannel, updateMachine, Machine.channel_updateChannel, List.count_cons]
    by_cases hc : c = id
    · subst hc
      by_cases hlt : c < s.machine.channels.size
      · simp [hlt, Channel.dropWriter, Nat.sub_sub, Nat.add_comm]
      · have hdefault : s.machine.channel c = ⟨0, [], [], [], 0, false⟩ := by
          rw [Machine.channel, Array.getD_eq_getD_getElem?, Array.getElem?_eq_none (Nat.le_of_not_lt hlt)]
          rfl
        simp [hlt, hdefault]
    · have hne : ¬ id = c := fun h => hc h.symm
      simp [hc, hne]

theorem channel_addWriters (s : System) (channels : List ChannelId) {c : ChannelId}
    (hc : c < s.machine.channels.size) :
    (s.addWriters channels).machine.channel c =
      { s.machine.channel c with
        writers := (s.machine.channel c).writers + channels.count c } := by
  induction channels generalizing s with
  | nil => rfl
  | cons id rest ih =>
    have hsize := Machine.size_updateChannel s.machine id Channel.addWriter
    show ((s.updateChannel id Channel.addWriter).addWriters rest).machine.channel c = _
    rw [ih _ (by exact hsize ▸ hc)]
    simp only [updateChannel, updateMachine, Machine.channel_updateChannel, List.count_cons]
    by_cases hid : c = id
    · subst hid
      simp [hc, Channel.addWriter, Nat.add_assoc, Nat.add_comm]
    · have hne : ¬ id = c := fun h => hid h.symm
      simp [hid, hne]

/-! ## Resemblance -/

/-- The same channels are read by the same readers on behalf of the same runners, and runs have
ended that had ended. -/
structure Resembles (s s' : System) : Prop where
  streams : s'.streams.size = s.streams.size
  stream : ∀ id, (s'.stream id).channel = (s.stream id).channel ∧
    (s'.stream id).runner = (s.stream id).runner
  size : s'.runners.size = s.runners.size
  job : ∀ r, (s'.runner r).job = (s.runner r).job
  finished : ∀ r, (s'.runner r).phase = .finished ↔ (s.runner r).phase = .finished
  pending : ∀ r, (s'.runner r).phase = .pending → (s.runner r).phase = .pending
  subscribers : ∀ r, (s'.runner r).subscribers = (s.runner r).subscribers
  token : ∀ r, (s'.runner r).token = (s.runner r).token
  channels : s.machine.channels.size ≤ s'.machine.channels.size
  /-- Only a stream whose runner is finished may be left. -/
  readers : ∀ id < s.streams.size, (s.runner (s.stream id).runner).phase ≠ .finished →
    (s'.machine.channel (s.stream id).channel).hasReader =
      (s.machine.channel (s.stream id).channel).hasReader
  tokens : ∀ t, s.machine.isSet t = true → s'.machine.isSet t = true
  room : s.machine.tokens.size ≤ s'.machine.tokens.size

namespace Resembles

variable {s s' : System} (h : Resembles s s')

include h

theorem isTap {c : ChannelId} : s'.IsTap c ↔ s.IsTap c := by
  simp only [IsTap, h.streams, (h.stream _).1]

theorem plain {c : ChannelId} (hc : s.Plain c) : s'.Plain c :=
  ⟨Nat.lt_of_lt_of_le hc.lt h.channels, fun ht => hc.noTap (h.isTap.mp ht)⟩

theorem underway {r : RunnerId} {d : Delivery} (hu : s.Underway r d) : s'.Underway r d where
  begun := ⟨h.size ▸ hu.begun.lt, fun hp => hu.begun.phase (h.pending r hp)⟩
  readers := by
    intro c hc
    obtain ⟨id, hid, hrunner, hchannel⟩ := hu.readers c hc
    exact ⟨id, h.streams ▸ hid, (h.stream id).2.trans hrunner, (h.stream id).1.trans hchannel⟩
  nodup := hu.nodup
  remaining := hu.remaining
  killed := by
    intro hf
    rw [h.token]
    exact h.tokens _ (hu.killed ((h.finished r).mp hf))

theorem attended {D D' : Loads} (ha : Attended D s)
    (hw : ∀ id < s.streams.size,
      (s'.machine.channel (s.stream id).channel).writers = writersOf D' s id)
    (hu : ∀ e ∈ D', s.Underway e.1 e.2) : Attended D' s' where
  lt := by
    intro id hid
    rw [(h.stream id).1]
    exact Nat.lt_of_lt_of_le (ha.lt id (h.streams ▸ hid)) h.channels
  injective := by
    intro id hid id' hid' hsame
    rw [(h.stream id).1, (h.stream id').1] at hsame
    exact ha.injective id (h.streams ▸ hid) id' (h.streams ▸ hid') hsame
  owner := by
    intro id hid
    rw [(h.stream id).2, h.size]
    exact ha.owner id (h.streams ▸ hid)
  subscribers := by
    intro r hr hnot c
    rw [h.size] at hr
    rw [ne_eq, h.finished] at hnot
    simp only [h.subscribers, h.streams, (h.stream _).1, (h.stream _).2]
    exact ha.subscribers r hr hnot c
  nodup := by
    intro r hr
    rw [h.subscribers]
    exact ha.nodup r (h.size ▸ hr)
  readers := by
    intro id hid hnot
    rw [h.streams] at hid
    rw [(h.stream id).2, ne_eq, h.finished] at hnot
    rw [(h.stream id).1, h.readers id hid hnot]
    exact ha.readers id hid hnot
  writers := by
    intro id hid
    rw [h.streams] at hid
    rw [(h.stream id).1, hw id hid]
    simp only [writersOf, (h.stream id).1, (h.stream id).2, h.finished]
  underway := fun e he => h.underway (hu e he)

/-- The writers that there were are still there, and the deliveries as well. -/
theorem attended_same {D : Loads} (ha : Attended D s)
    (hw : ∀ id < s.streams.size, (s'.machine.channel (s.stream id).channel).writers =
      (s.machine.channel (s.stream id).channel).writers) : Attended D s' :=
  h.attended ha (fun id hid => (hw id hid).trans (ha.writers id hid)) ha.underway

theorem closed (hc : Closed s)
    (hstream : ∀ id < s.streams.size, ((s'.stream id).ended = true → (s.stream id).ended = true) ∧
      ((s'.stream id).held = false → (s.stream id).held = false)) : Closed s' where
  ended := by
    intro id hid he
    rw [h.streams] at hid
    rw [(h.stream id).2, h.finished]
    exact hc.ended id hid ((hstream id hid).1 he)
  dropped := by
    intro id hid hd
    rw [h.streams] at hid
    rw [(h.stream id).2, h.finished]
    exact hc.dropped id hid ((hstream id hid).2 hd)
  stages := by
    intro r hr hf stage hs
    rw [h.job] at hs
    rw [h.finished] at hf ⊢
    exact hc.stages r (h.size ▸ hr) hf stage hs

theorem phase_le (r : RunnerId) : (s.runner r).phase.rank ≤ (s'.runner r).phase.rank := by
  have hf := h.finished r
  have hp := h.pending r
  cases hx : (s.runner r).phase with
  | pending => exact Nat.zero_le _
  | running =>
    rw [hx] at hp
    cases hy : (s'.runner r).phase with
    | pending => exact absurd (hp hy) (by decide)
    | running | finished => decide
  | finished => exact Nat.le_of_eq (by rw [hf.mpr hx])

theorem onwards (hwriters : s.writers.size ≤ s'.writers.size) : Onwards s s' where
  plain := fun _ hc => h.plain hc
  size := Nat.le_of_eq h.size.symm
  jobs := fun r _ => h.job r
  phases := fun r _ => h.phase_le r
  streams := Nat.le_of_eq h.streams.symm
  stream := fun id _ => h.stream id
  writers := hwriters
  token := fun r _ => h.token r
  tokens := h.room

end Resembles

theorem Onwards.token_lt {s s' : System} (ho : Onwards s s')
    (hsize : s'.runners.size = s.runners.size)
    (h : ∀ r < s.runners.size, (s.runner r).token < s.machine.tokens.size) :
    ∀ r < s'.runners.size, (s'.runner r).token < s'.machine.tokens.size := by
  intro r hr
  rw [hsize] at hr
  rw [ho.token r hr]
  exact Nat.lt_of_lt_of_le (h r hr) ho.tokens

theorem Apart.onwards {s s' : System} (h : Apart s) (hi : s.Inv) (ho : Onwards s s')
    (htasks : s'.tasks.map Task.routine = s.tasks.map Task.routine)
    (hwriters : ∀ w < s'.writers.size,
      (w < s.writers.size ∧ (s'.writer w).channel = (s.writer w).channel) ∨
        s'.Plain (s'.writer w).channel)
    (hfeeds : ∀ f ∈ s'.machine.feeds, f ∈ s.machine.feeds ∨ f.source.Within s'.Plain) :
    Apart s' where
  writers := by
    intro w hw
    rcases hwriters w hw with ⟨hlt, hsame⟩ | hplain
    · rw [hsame]
      exact ho.plain _ (h.writers w hlt)
    · exact hplain
  feeds := fun f hf => (hfeeds f hf).elim (fun hf => (h.feeds f hf).mono ho.plain) id
  routines := by
    intro t ht
    have hmem : t.routine ∈ s.tasks.map Task.routine := htasks ▸ Array.mem_map_of_mem ht
    obtain ⟨t', ht', hsame⟩ := Array.mem_map.mp hmem
    rw [← hsame]
    exact (h.routines t' ht').onwards (hi.tasks t' ht') ho
  drivers := by
    have hlist : s'.tasks.toList.filterMap (fun t => t.routine.driven?) =
        s.tasks.toList.filterMap fun t => t.routine.driven? := by
      have hmap := congrArg (fun a => a.toList.filterMap Routine.driven?) htasks
      simp only [Array.toList_map, List.filterMap_map] at hmap
      exact hmap
    rw [hlist]
    exact h.drivers

/-! ## Changes of channels alone -/

/-- The writer of the input of a runner is closed, if there is one. -/
def closeInput (s : System) : Option WriterId → System
  | some writer => s.closeWriter writer
  | none => s

theorem letGo_eq (s : System) (r : RunnerId) : s.letGo r =
    if (s.runner r).registered then
      ((s.dropSubscribers (s.runner r).subscribers).closeInput (s.runner r).stdin).unregister r
    else (s.dropSubscribers (s.runner r).subscribers).closeInput (s.runner r).stdin := by
  unfold letGo closeInput
  rfl

/-- Only channels change, and which writers of input are open. -/
structure ChannelsOnly (s s' : System) : Prop where
  safe : Safe s s'
  runners : s'.runners = s.runners
  streams : s'.streams = s.streams
  tasks : s'.tasks = s.tasks
  scheduled : s'.scheduled = s.scheduled
  size : s'.writers.size = s.writers.size
  writer : ∀ w, (s'.writer w).channel = (s.writer w).channel
  channels : s'.machine.channels.size = s.machine.channels.size
  tokens : s'.machine.tokens = s.machine.tokens
  feeds : s'.machine.feeds = s.machine.feeds
  shell : s'.shell = s.shell

namespace ChannelsOnly

variable {s s' s'' : System}

theorem refl (s : System) : ChannelsOnly s s :=
  ⟨.refl s, rfl, rfl, rfl, rfl, rfl, fun _ => rfl, rfl, rfl, rfl, rfl⟩

theorem trans (h : ChannelsOnly s s') (h' : ChannelsOnly s' s'') : ChannelsOnly s s'' where
  safe := h.safe.trans h'.safe
  runners := h'.runners.trans h.runners
  streams := h'.streams.trans h.streams
  tasks := h'.tasks.trans h.tasks
  scheduled := h'.scheduled.trans h.scheduled
  size := h'.size.trans h.size
  writer := fun w => (h'.writer w).trans (h.writer w)
  channels := h'.channels.trans h.channels
  tokens := h'.tokens.trans h.tokens
  feeds := h'.feeds.trans h.feeds
  shell := h'.shell.trans h.shell

theorem of_updateChannel (s : System) (id : ChannelId) (change : Channel → Channel) :
    ChannelsOnly s (s.updateChannel id change) :=
  ⟨safe_updateChannel s id change, rfl, rfl, rfl, rfl, rfl, fun _ => rfl,
    Machine.size_updateChannel _ _ _, rfl, rfl, rfl⟩

theorem of_foldl {α : Type} {step : System → α → System} (h : ∀ s a, ChannelsOnly s (step s a))
    (s : System) (list : List α) : ChannelsOnly s (list.foldl step s) := by
  induction list generalizing s with
  | nil => exact refl s
  | cons a list ih => exact (h s a).trans (ih _)

theorem of_dropSubscribers (s : System) (channels : List ChannelId) :
    ChannelsOnly s (s.dropSubscribers channels) :=
  of_foldl (fun s id => of_updateChannel s id _) s channels

theorem of_addWriters (s : System) (channels : List ChannelId) :
    ChannelsOnly s (s.addWriters channels) :=
  of_foldl (fun s id => of_updateChannel s id _) s channels

theorem of_closeWriter (s : System) (w : WriterId) : ChannelsOnly s (s.closeWriter w) := by
  unfold closeWriter
  simp only
  split
  · rename_i ho
    have hsafe := (frame_closeWriter s w).safe
    unfold closeWriter at hsafe
    simp only [ho, if_true] at hsafe
    refine ⟨hsafe, rfl, rfl, rfl, rfl, ?_, fun w' => ?_, Machine.size_updateChannel _ _ _, rfl, rfl,
      rfl⟩
    · simp [updateChannel, updateMachine]
    · simp only [updateChannel, updateMachine, System.writer, Array.getD_eq_getD_getElem?,
        Array.getElem?_setIfInBounds]
      by_cases hw : w = w'
      · subst hw
        by_cases hlt : w < s.writers.size
        · simp [hlt]
        · simp [hlt]
      · simp [hw]
  · exact refl s

theorem of_unregister (s : System) (r : RunnerId) : ChannelsOnly s (s.unregister r) :=
  ⟨(frame_unregister s r).safe, rfl, rfl, rfl, rfl, rfl, fun _ => rfl, rfl, rfl, rfl, rfl⟩

theorem of_closeInput (s : System) (stdin : Option WriterId) :
    ChannelsOnly s (s.closeInput stdin) := by
  cases stdin with
  | none => exact refl s
  | some writer => exact of_closeWriter s writer

theorem of_letGo (s : System) (r : RunnerId) : ChannelsOnly s (s.letGo r) := by
  have hclose := (of_dropSubscribers s (s.runner r).subscribers).trans
    (of_closeInput _ (s.runner r).stdin)
  rw [letGo_eq]
  split
  · exact hclose.trans (of_unregister _ r)
  · exact hclose

theorem of_endDelivery (s : System) (d : Delivery) : ChannelsOnly s (s.endDelivery d) := by
  unfold endDelivery
  simp only
  refine trans ?_ (of_dropSubscribers _ _)
  split
  · exact of_updateChannel s _ _
  · exact refl s

section

variable (h : ChannelsOnly s s')

include h

theorem runner (r : RunnerId) : s'.runner r = s.runner r :=
  runner_congr h.runners r

theorem stream (id : StreamId) : s'.stream id = s.stream id := by
  rw [System.stream, System.stream, h.streams]

theorem isSet (t : TokenId) : s'.machine.isSet t = s.machine.isSet t := by
  rw [Machine.isSet, Machine.isSet, h.tokens]

theorem resembles (hreaders : ∀ id < s.streams.size,
    (s.runner (s.stream id).runner).phase ≠ .finished →
      (s'.machine.channel (s.stream id).channel).hasReader =
        (s.machine.channel (s.stream id).channel).hasReader) : Resembles s s' where
  streams := by rw [h.streams]
  stream := fun id => by rw [h.stream]; exact ⟨rfl, rfl⟩
  size := by rw [h.runners]
  job := fun r => by rw [h.runner]
  finished := fun r => by rw [h.runner]
  pending := fun r => by rw [h.runner]; exact id
  subscribers := fun r => by rw [h.runner]
  token := fun r => by rw [h.runner]
  channels := Nat.le_of_eq h.channels.symm
  readers := hreaders
  tokens := fun t ht => by rw [h.isSet]; exact ht
  room := Nat.le_of_eq (by rw [h.tokens])

/-- If all who read are still there, and all writers that should be. -/
theorem sound {D D' : Loads} (hs : Sound D s)
    (hreaders : ∀ id < s.streams.size, (s.runner (s.stream id).runner).phase ≠ .finished →
      (s'.machine.channel (s.stream id).channel).hasReader =
        (s.machine.channel (s.stream id).channel).hasReader)
    (hwriters : ∀ id < s.streams.size,
      (s'.machine.channel (s.stream id).channel).writers = writersOf D' s id)
    (hu : ∀ e ∈ D', s.Underway e.1 e.2) : Sound D' s' ∧ Onwards s s' := by
  have hr := h.resembles hreaders
  have ho := hr.onwards (Nat.le_of_eq h.size.symm)
  refine ⟨⟨(h.safe hs.inv).1, h.scheduled.trans hs.scheduled, hr.attended hs.attended hwriters hu,
    hr.closed hs.closed fun id _ => ?_, hs.apart.onwards hs.inv ho (by rw [h.tasks]) ?_ ?_,
    ho.token_lt hr.size hs.tokens⟩, ho⟩
  · rw [h.stream]
    exact ⟨fun he => he, fun hd => hd⟩
  · intro w hw
    exact .inl ⟨h.size ▸ hw, h.writer w⟩
  · intro f hf
    exact .inl (h.feeds ▸ hf)

end

end ChannelsOnly

end Runnel.System
