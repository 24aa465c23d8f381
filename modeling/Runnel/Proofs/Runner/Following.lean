import Runnel.Proofs.Runner.Moves

/-!
# Runnel.Proofs.Runner.Following

What becomes of the chunks of a runner on the way to somebody who reads a stream.

* `System.Alone`: the chunks of some kind never overtake one another.
* `System.Follows`: what has been read of a stream, and what is left, is what was captured.
* `System.Act.follows`: every act keeps this, as long as nobody else reads the stream.
-/

namespace Runnel

/-- What was found is a chunk, or nothing. -/
def Machine.Taken.chunks : Machine.Taken → List Chunk
  | .chunk c => [c]
  | _ => []

namespace System

/-! ## Lists of equal elements -/

/-- All elements of a list are the same. -/
def AllSame {α : Type} (l : List α) : Prop :=
  ∀ a ∈ l, ∀ b ∈ l, a = b

/-- If all elements are the same, their order is of no account. -/
theorem AllSame.eq_of_perm {α : Type} {l l' : List α} (h : AllSame l) (hp : l.Perm l') : l = l' := by
  cases l with
  | nil => exact hp.nil_eq
  | cons a l =>
    have hall : ∀ b ∈ a :: l, b = a := fun b hb => h b hb a List.mem_cons_self
    have hall' : ∀ b ∈ l', b = a := fun b hb => hall b (hp.mem_iff.mpr hb)
    rw [List.eq_replicate_iff.mpr ⟨rfl, hall⟩, List.eq_replicate_iff.mpr ⟨rfl, hall'⟩, hp.length_eq]

/-! ## Deliveries that cannot overtake one another -/

/-- Chunks of this kind are captured one at a time by a runner with this job, or they are all the
same. -/
inductive InTurn (k : Chunk → Bool) (job : Job) : Prop where
  /-- They are all the same. -/
  | same (h : ∀ x y, k x = true → k y = true → x = y)
  /-- They belong to the output proper. -/
  | stdout (h : ∀ x, k x = true → x.kind = .stdout)
  /-- The runner runs a command line. -/
  | line (text : String) (h : job = .line text)

/-- Deliveries of a runner that are under way at the same time, of chunks of this kind, are of equal
chunks. -/
def Alone (k : Chunk → Bool) (D : Loads) (r : RunnerId) : Prop :=
  ∀ e ∈ D, ∀ e' ∈ D, e.1 = r → e'.1 = r → k e.2.chunk = true → k e'.2.chunk = true →
    e.2.chunk = e'.2.chunk

/-- This is so of all runners. -/
def NoOvertaking (k : Chunk → Bool) (D : Loads) (s : System) : Prop :=
  ∀ r < s.runners.size, InTurn k (s.runner r).job → Alone k D r

theorem Alone.sub {k : Chunk → Bool} {D D' : Loads} {r : RunnerId} (h : Alone k D r)
    (hsub : ∀ e ∈ D', ∃ e' ∈ D, e'.1 = e.1 ∧ e'.2.chunk = e.2.chunk) : Alone k D' r := by
  intro e he e' he' hr hr' hk hk'
  obtain ⟨f, hf, hfr, hfc⟩ := hsub e he
  obtain ⟨f', hf', hfr', hfc'⟩ := hsub e' he'
  rw [← hfc] at hk ⊢
  rw [← hfc'] at hk' ⊢
  exact h f hf f' hf' (hfr.trans hr) (hfr'.trans hr') hk hk'

section

variable {R : StreamId → Prop} {k : Chunk → Bool} {x y : Loads × System}

/-- What is true of the deliveries of older runners is all that matters. -/
theorem NoOvertaking.onwards {D : Loads} {s s' : System} (h : NoOvertaking k D s) (hs : Sound D s)
    (ho : Onwards s s') : NoOvertaking k D s' := by
  intro r _ hturn
  by_cases hr : r < s.runners.size
  · rw [ho.jobs r hr] at hturn
    exact h r hr hturn
  · intro e he _ _ her
    exact absurd (her ▸ (hs.attended.underway e he).begun.lt) hr

theorem Act.noOvertaking (hact : Act R x y) (hs : Sound x.1 x.2) (h : NoOvertaking k x.1 x.2) :
    NoOvertaking k y.1 y.2 := by
  have ho := (hact.sound hs).2
  have hlater := h.onwards hs ho
  cases hact with
  | @capture D s r chunk hr hrun hline hkind =>
    intro r' hr' hturn
    have halone := hlater r' hr' hturn
    by_cases heq : r = r'
    · subst heq
      rw [ho.jobs r hr] at hturn
      -- a chunk that is under way with the new one, if both are of the kind, is the same
      have hnew : ∀ e ∈ D, e.1 = r → k e.2.chunk = true → k chunk = true → e.2.chunk = chunk := by
        intro e he her hk hk'
        cases hturn with
        | same hsame => exact hsame _ _ hk hk'
        | stdout hout =>
          have herr := hkind (hout _ hk') e he her
          rw [hout _ hk] at herr
          cases herr
        | line text hjob => exact absurd her (hline text hjob e he)
      intro e he e' he' her her' hk hk'
      rcases List.mem_cons.mp he with rfl | he
      · rcases List.mem_cons.mp he' with rfl | he'
        · rfl
        · exact (hnew e' he' her' hk' hk).symm
      · rcases List.mem_cons.mp he' with rfl | he'
        · exact hnew e he her hk hk'
        · exact halone e he e' he' her her' hk hk'
    · intro e he e' he' her her' hk hk'
      rcases List.mem_cons.mp he with rfl | he
      · exact absurd her heq
      rcases List.mem_cons.mp he' with rfl | he'
      · exact absurd her' heq
      exact halone e he e' he' her her' hk hk'
  | permute hp =>
    exact fun r hr hturn => (hlater r hr hturn).sub fun e he => ⟨e, hp.mem_iff.mpr he, rfl, rfl⟩
  | @hand D s r d c rest machine ok hrest hlive hoffer =>
    refine fun r' hr' hturn => (hlater r' hr' hturn).sub fun e he => ?_
    rcases List.mem_cons.mp he with rfl | he
    · exact ⟨(r, d), List.mem_cons_self, rfl, rfl⟩
    · exact ⟨e, List.mem_cons_of_mem _ he, rfl, rfl⟩
  | @stall D s r d ticket =>
    refine fun r' hr' hturn => (hlater r' hr' hturn).sub fun e he => ?_
    rcases List.mem_cons.mp he with rfl | he
    · exact ⟨(r, d), List.mem_cons_self, rfl, rfl⟩
    · exact ⟨e, List.mem_cons_of_mem _ he, rfl, rfl⟩
  | settle hd =>
    exact fun r hr hturn => (hlater r hr hturn).sub fun e he =>
      ⟨e, List.mem_cons_of_mem _ he, rfl, rfl⟩
  | aside h => exact hlater
  | record code hr hnot hstages hload => exact hlater
  | forget r => exact hlater
  | read h => exact hlater
  | join hr => exact hlater
  | leave hid h => exact hlater
  | newRunner options h => exact hlater
  | spawn h hnone => exact hlater
  | drive h hb hbegins hnew => exact hlater

end

/-! ## Following a runner -/

/-- The chunks that are on their way to a channel. -/
def inFlight (D : Loads) (c : ChannelId) : List Chunk :=
  (D.filter fun e => c ∈ e.2.remaining).map fun e => e.2.chunk

/-- All output of the runner is kept, and the runner has not been killed. -/
structure Recording (s : System) (r : RunnerId) : Prop where
  live : s.machine.isSet (s.runner r).token = false
  capture : (s.runner r).phase = .pending ∨ (s.runner r).options.capture = true

/-- Of the chunks of this kind, those that were read of a stream and those that are left are those
that were captured, in the same order. -/
structure Follows (k : Chunk → Bool) (D : Loads) (s : System) (id : StreamId) (read : List Chunk) :
    Prop where
  held : Recording s (s.stream id).runner → (s.stream id).held = true →
    (read ++ (s.stream id).replay ++ (s.machine.channel (s.stream id).channel).queue ++
      inFlight D (s.stream id).channel).filter k =
        (s.runner (s.stream id).runner).chunks.toList.filter k
  ended : Recording s (s.stream id).runner → (s.stream id).ended = true →
    read.filter k = (s.runner (s.stream id).runner).chunks.toList.filter k

section

variable {R : StreamId → Prop} {k : Chunk → Bool} {D D' : Loads} {s s' : System} {id : StreamId}
  {read : List Chunk}

/-- Whoever gets a delivery is a stream of the runner whose output it is. -/
theorem Attended.owner_of_remaining (ha : Attended D s) (hid : id < s.streams.size)
    {e : RunnerId × Delivery} (he : e ∈ D) (hc : (s.stream id).channel ∈ e.2.remaining) :
    (s.stream id).runner = e.1 := by
  have hu := ha.underway e he
  obtain ⟨id', hid', howner, hchannel⟩ := hu.readers _ (hu.remaining.subset hc)
  have heq := ha.injective id' hid' id hid hchannel
  subst heq
  exact howner

/-- The chunks of a kind that are on their way to a stream are all the same. -/
theorem Alone.allSame (h : Alone k D (s.stream id).runner) (ha : Attended D s)
    (hid : id < s.streams.size) : AllSame ((inFlight D (s.stream id).channel).filter k) := by
  intro a hmem b hmem'
  obtain ⟨hmem, hk⟩ := List.mem_filter.mp hmem
  obtain ⟨hmem', hk'⟩ := List.mem_filter.mp hmem'
  obtain ⟨e, he, rfl⟩ := List.mem_map.mp hmem
  obtain ⟨e', he', rfl⟩ := List.mem_map.mp hmem'
  obtain ⟨he, hc⟩ := List.mem_filter.mp he
  obtain ⟨he', hc'⟩ := List.mem_filter.mp he'
  exact h e he e' he' (ha.owner_of_remaining hid he (of_decide_eq_true hc)).symm
    (ha.owner_of_remaining hid he' (of_decide_eq_true hc')).symm hk hk'

/-- The stream stays as it is, and so do the chunks on their way to it and those that were captured. -/
theorem Follows.same (h : Follows k D s id read) (hstream : s'.stream id = s.stream id)
    (hrecording : Recording s' (s.stream id).runner → Recording s (s.stream id).runner)
    (hqueue : Recording s' (s.stream id).runner → (s.stream id).held = true →
      (s'.machine.channel (s.stream id).channel).queue =
        (s.machine.channel (s.stream id).channel).queue)
    (hflight : Recording s' (s.stream id).runner →
      (inFlight D' (s.stream id).channel).filter k = (inFlight D (s.stream id).channel).filter k)
    (hchunks : (s'.runner (s.stream id).runner).chunks = (s.runner (s.stream id).runner).chunks) :
    Follows k D' s' id read := by
  refine ⟨fun hrec hheld => ?_, fun hrec hended => ?_⟩
  · rw [hstream] at hrec hheld ⊢
    rw [hqueue hrec hheld, hchunks, List.filter_append, hflight hrec, ← List.filter_append]
    exact h.held (hrecording hrec) hheld
  · rw [hstream] at hrec hended ⊢
    rw [hchunks]
    exact h.ended (hrecording hrec) hended

theorem Recording.before {r : RunnerId} (h : Recording s' r) (ho : Onwards s s')
    (hr : r < s.runners.size)
    (hset : ∀ t, s.machine.isSet t = true → s'.machine.isSet t = true)
    (hcapture : (s'.runner r).phase ≠ .pending →
      (s'.runner r).options.capture = (s.runner r).options.capture) : Recording s r := by
  refine ⟨Bool.eq_false_iff.mpr fun hs => ?_, ?_⟩
  · have hlive := h.live
    rw [ho.token r hr, hset _ hs] at hlive
    cases hlive
  · by_cases hp : (s.runner r).phase = .pending
    · exact .inl hp
    · have hp' := Phase.begun_of_rank (ho.phases r hr) hp
      rw [← hcapture hp']
      exact .inr (h.capture.resolve_left hp')

theorem inFlight_cons (e : RunnerId × Delivery) (D : Loads) (c : ChannelId) :
    inFlight (e :: D) c =
      if c ∈ e.2.remaining then e.2.chunk :: inFlight D c else inFlight D c := by
  unfold inFlight
  by_cases hc : c ∈ e.2.remaining
  · rw [if_pos hc, List.filter_cons_of_pos (by simpa using hc), List.map_cons]
  · rw [if_neg hc, List.filter_cons_of_neg (by simpa using hc)]

theorem lt_of_not_ended {s : System} {id : StreamId} (h : (s.stream id).ended = false) :
    id < s.streams.size := by
  refine Nat.lt_of_not_le fun hle => ?_
  rw [stream, Array.getD_eq_getD_getElem?, Array.getElem?_eq_none hle] at h
  cases h

/-- Once a stream ends, nothing is on its way to it. -/
theorem inFlight_of_isEnded (hs : Sound D s) (hid : id < s.streams.size)
    (hended : (s.machine.channel (s.stream id).channel).isEnded = true) :
    inFlight D (s.stream id).channel = [] := by
  have hwriters := hs.attended.writers id hid
  simp only [Channel.isEnded, Bool.and_eq_true, beq_iff_eq] at hended
  rw [hended.2, writersOf] at hwriters
  have hnone := List.countP_eq_zero.mp (Nat.eq_zero_of_add_eq_zero_left hwriters.symm)
  unfold inFlight
  rw [List.map_eq_nil_iff, List.filter_eq_nil_iff]
  intro e he hc
  have hsub := (hs.attended.underway e he).remaining.subset (of_decide_eq_true hc)
  exact hnone e he (decide_eq_true hsub)

/-! ### Single acts -/

section

variable (h : Follows k D s id read) (hs : Sound D s) (hid : id < s.streams.size)

include h

theorem follows_permute (hs : Sound D s) (hid : id < s.streams.size)
    (halone : Alone k D (s.stream id).runner) (hp : D.Perm D') : Follows k D' s id read := by
  refine h.same rfl (fun hrec => hrec) (fun _ _ => rfl) (fun _ => ?_) rfl
  exact ((halone.allSame hs.attended hid).eq_of_perm
    (((hp.filter _).map _).filter k)).symm

include hs hid

theorem follows_aside (ha : Aside s s') : Follows k D s' id read := by
  have ho := (ha.sound hs).2
  refine h.same (by rw [stream, ha.streams]; rfl)
    (fun hrec => hrec.before ho (hs.attended.owner id hid) ha.tokens (ha.runner _).capture)
    (fun _ _ => (ha.taps _ ⟨id, hid, rfl⟩).queue) (fun _ => rfl) (ha.runner _).chunks

theorem follows_record {r : RunnerId} (code : Int) (hr : r < s.runners.size)
    (ho : Onwards s (s.record r code)) : Follows k D (s.record r code) id read := by
  have hlet := ChannelsOnly.of_letGo s r
  have hother : ∀ r', ((s.record r code).runner r').chunks = (s.runner r').chunks ∧
      ((s.record r code).runner r').options = (s.runner r').options := by
    intro r'
    by_cases heq : r' = r
    · subst heq
      rw [runner_record_self hr]
      exact ⟨rfl, rfl⟩
    · rw [runner_record_of_ne s heq]
      exact ⟨rfl, rfl⟩
  refine h.same (hlet.stream id) (fun hrec => hrec.before ho (hs.attended.owner id hid)
    (fun t ht => (hlet.isSet t).trans ht) fun _ => by rw [(hother _).2]) (fun _ _ => ?_)
    (fun _ => rfl) (hother _).1
  show ((s.letGo r).machine.channel _).queue = _
  rw [channel_letGo hs.apart r ⟨id, hid, rfl⟩]

theorem follows_capture {r : RunnerId} (chunk : Chunk) (hr : r < s.runners.size)
    (hrun : (s.runner r).phase = .running)
    (halone : Alone k ((r, ⟨chunk, (s.runner r).subscribers, (s.runner r).subscribers, none⟩) :: D)
      (s.stream id).runner) :
    Follows k ((r, ⟨chunk, (s.runner r).subscribers, (s.runner r).subscribers, none⟩) :: D)
      (s.captured r chunk) id read := by
  have hnot : (s.runner r).phase ≠ .finished := by
    rw [hrun]
    decide
  obtain ⟨hs', ho⟩ := sound_capture hs chunk hr hrun
  have hadd := ChannelsOnly.of_addWriters (s.noted r chunk) (s.runner r).subscribers
  have hnoted := noted_noted s r chunk
  have hstream : (s.captured r chunk).stream id = s.stream id := by
    rw [captured, hadd.stream, stream, hnoted.streams]
    rfl
  have hqueue : ((s.captured r chunk).machine.channel (s.stream id).channel).queue =
      (s.machine.channel (s.stream id).channel).queue := by
    rw [captured, channel_addWriters _ _ (by rw [hnoted.machine]; exact hs.attended.lt id hid),
      hnoted.machine]
  have hset : ∀ t, (s.captured r chunk).machine.isSet t = s.machine.isSet t := by
    intro t
    rw [captured, hadd.isSet, hnoted.machine]
  have hoptions : ∀ r', ((s.captured r chunk).runner r').options = (s.runner r').options := by
    intro r'
    rw [captured, hadd.runner]
    obtain ⟨chunks, heq⟩ := hnoted.runner r'
    rw [heq]
  have hbefore : Recording (s.captured r chunk) (s.stream id).runner →
      Recording s (s.stream id).runner := fun hrec =>
    hrec.before ho (hs.attended.owner id hid) (fun t ht => (hset t).trans ht)
      fun _ => by rw [hoptions]
  by_cases hrunner : (s.stream id).runner = r
  · -- the stream gets the chunk, behind those that are on their way to it already
    have hmem : (s.stream id).channel ∈ (s.runner r).subscribers :=
      (hs.attended.subscribers r hr hnot _).mpr ⟨id, hid, hrunner, rfl⟩
    have hsame := halone
    rw [← congrArg ChunkStream.runner hstream] at hsame
    have hid' : id < (s.captured r chunk).streams.size := Nat.lt_of_lt_of_le hid ho.streams
    have hall := hsame.allSame hs'.attended hid'
    rw [hstream, inFlight_cons, if_pos hmem] at hall
    refine ⟨fun hrec hheld => ?_, fun _ hended => ?_⟩
    · rw [hstream] at hrec hheld ⊢
      have hrec' := hbefore hrec
      have hcapture : (s.runner r).options.capture = true := by
        rw [← hrunner]
        refine hrec'.capture.resolve_left fun hp => ?_
        rw [hrunner, hrun] at hp
        cases hp
      have hchunks : ((s.captured r chunk).runner r).chunks = (s.runner r).chunks.push chunk := by
        rw [captured, hadd.runner, noted]
        simp only [hcapture, if_true]
        split
        · show ((s.updateRunner r _).runner r).chunks = _
          rw [runner_updateRunner_self hr]
        · rw [runner_updateRunner_self hr]
      have hheld' := h.held hrec' hheld
      rw [hrunner] at hheld' ⊢
      rw [hqueue, hchunks, Array.toList_push, inFlight_cons, if_pos hmem]
      generalize read ++ (s.stream id).replay ++
        (s.machine.channel (s.stream id).channel).queue = front at hheld'
      generalize inFlight D (s.stream id).channel = old at hall hheld'
      have hlast : (chunk :: old).filter k = (old ++ [chunk]).filter k :=
        hall.eq_of_perm ((List.perm_append_singleton chunk old).symm.filter k)
      calc (front ++ chunk :: old).filter k
          = front.filter k ++ (old ++ [chunk]).filter k := by rw [List.filter_append, hlast]
        _ = (front ++ old).filter k ++ [chunk].filter k := by
          simp only [List.filter_append, List.append_assoc]
        _ = ((s.runner r).chunks.toList ++ [chunk]).filter k := by
          rw [hheld', List.filter_append]
    · rw [hstream] at hended
      exact absurd (hrunner ▸ hs.closed.ended id hid hended) hnot
  · have hmem := hs.attended.tap_ne hr hnot hid hrunner
    refine h.same hstream hbefore (fun _ _ => hqueue) (fun _ => ?_) ?_
    · rw [inFlight_cons, if_neg hmem]
    · rw [captured, hadd.runner, noted]
      have hcases : ∀ u : System, (if (s.runner r).options.display then
          { u with terminal := chunk :: u.terminal } else u).runner (s.stream id).runner =
          u.runner (s.stream id).runner := by
        intro u
        split
        · rfl
        · rfl
      rw [hcases]
      split
      · rw [runner_updateRunner_of_ne s hrunner]
      · rfl

theorem follows_hand {r : RunnerId} {d : Delivery} {c : ChannelId} {rest : List ChannelId}
    {m : Machine} {ok : Bool} {E : Loads} (hD : D = (r, d) :: E) (hrest : d.remaining = c :: rest)
    (hlive : s.machine.isSet (s.runner r).token = false)
    (hoffer : s.machine.offer c d.ticket d.chunk = (m, .delivered ok)) :
    Follows k ((r, { d with remaining := rest, ticket := none }) :: E) { s with machine := m } id
      read := by
  subst hD
  obtain ⟨hpassed, hflow⟩ := Machine.offer_passes hoffer
  have hset : ∀ t, Machine.isSet m t = s.machine.isSet t := by
    intro t
    rw [Machine.isSet, hpassed.tokens]
    rfl
  have hbefore : Recording { s with machine := m } (s.stream id).runner →
      Recording s (s.stream id).runner :=
    fun hrec => ⟨(hset _).symm.trans hrec.live, hrec.capture⟩
  have hu := hs.attended.underway (r, d) List.mem_cons_self
  have hnodup : (c :: rest).Nodup := hrest ▸ hu.remaining.sublist.nodup hu.nodup
  by_cases hc : (s.stream id).channel = c
  · -- the chunk is on its way no longer, but in the channel
    have hmem : (s.stream id).channel ∈ d.remaining := by
      rw [hrest, hc]
      exact List.mem_cons_self
    have hgone : (s.stream id).channel ∉ rest := by
      rw [hc]
      exact (List.nodup_cons.mp hnodup).1
    have howner : (s.stream id).runner = r :=
      hs.attended.owner_of_remaining hid List.mem_cons_self hmem
    have hopen : (s.runner (s.stream id).runner).phase ≠ .finished := by
      rw [howner]
      intro hf
      rw [hu.killed hf] at hlive
      cases hlive
    have hreader := hs.attended.readers id hid hopen
    rw [hc] at hreader
    have hok := Machine.delivered_of_hasReader hoffer hreader
    have hqueue : (m.channel (s.stream id).channel).queue =
        (s.machine.channel (s.stream id).channel).queue ++ [d.chunk] := by
      rw [(hflow _).2.2, if_pos ⟨hc, by rw [hok], hreader⟩]
    refine ⟨fun hrec hheld => ?_, fun hrec hended => h.ended (hbefore hrec) hended⟩
    have hheld' := h.held (hbefore hrec) hheld
    rw [inFlight_cons, if_pos hmem] at hheld'
    refine Eq.trans ?_ hheld'
    show ((read ++ (s.stream id).replay ++ (m.channel (s.stream id).channel).queue ++
      inFlight _ (s.stream id).channel).filter k) = _
    rw [inFlight_cons, if_neg hgone, hqueue]
    simp only [List.append_assoc, List.singleton_append]
  · refine h.same rfl hbefore (fun _ _ => ?_) (fun _ => ?_) rfl
    · show (m.channel _).queue = _
      rw [(hflow _).2.2, if_neg fun hand => hc hand.1]
    · rw [inFlight_cons, inFlight_cons]
      simp only [hrest, List.mem_cons, hc, false_or]

theorem follows_settle {r : RunnerId} {d : Delivery} {E : Loads} (hD : D = (r, d) :: E)
    (hend : d.remaining = [] ∨ s.machine.isSet (s.runner r).token = true) :
    Follows k E (s.endDelivery d) id read := by
  subst hD
  have hend' := ChannelsOnly.of_endDelivery s d
  have hbefore : Recording (s.endDelivery d) (s.stream id).runner →
      Recording s (s.stream id).runner := by
    rintro ⟨hlive, hcapture⟩
    rw [hend'.runner] at hlive hcapture
    exact ⟨(hend'.isSet _).symm.trans hlive, hcapture⟩
  refine h.same (hend'.stream id) hbefore (fun _ _ => (channel_endDelivery s d _).2.2)
    (fun hrec => ?_) (by rw [hend'.runner])
  rw [inFlight_cons, if_neg]
  intro hmem
  -- somebody who is still to get the chunk would be left out only if the runner had been killed
  have howner := hs.attended.owner_of_remaining hid List.mem_cons_self hmem
  rcases hend with hnil | hset
  · rw [hnil] at hmem
    cases hmem
  · rw [← show (s.stream id).runner = r from howner, (hbefore hrec).live] at hset
    cases hset

theorem follows_join (r : RunnerId) : Follows k D (s.opened r) id read := by
  have hopened := opened_opened s r
  have howner := hs.attended.owner id hid
  have hrunner := hopened.runner _ howner
  refine h.same (hopened.old id hid) (fun hrec => ?_)
    (fun _ _ => by rw [hopened.others _ (hs.attended.lt id hid)]) (fun _ => rfl) (by rw [hrunner])
  obtain ⟨hlive, hcapture⟩ := hrec
  rw [hrunner] at hlive hcapture
  rw [Machine.isSet, hopened.tokens] at hlive
  exact ⟨hlive, hcapture⟩

theorem follows_leave {id' : StreamId} (hid' : id' < s.streams.size) :
    Follows k D (s.left id') id read := by
  by_cases heq : id' = id
  · subst heq
    have hstream : (s.left id').stream id' = { s.stream id' with held := false } :=
      (stream_update s id' id' _).trans (if_pos ⟨rfl, hid'⟩)
    refine ⟨fun _ hheld => ?_, fun hrec hended => ?_⟩
    · rw [hstream] at hheld
      cases hheld
    · rw [hstream] at hrec hended ⊢
      exact h.ended ⟨hrec.live, hrec.capture⟩ hended
  · have hstream : (s.left id').stream id = s.stream id :=
      (stream_update s id' id _).trans (if_neg fun hand => heq hand.1.symm)
    refine h.same hstream (fun hrec => ⟨hrec.live, hrec.capture⟩) (fun _ _ => ?_) (fun _ => rfl) rfl
    show ((s.machine.updateChannel _ _).channel _).queue = _
    rw [Machine.channel_updateChannel, if_neg]
    rintro ⟨hsame, -⟩
    exact heq (hs.attended.injective id' hid' id hid hsame.symm)

theorem follows_newRunner {job : Job} (options : RunOptions)
    (ho : Onwards s (s.newRunner job options).2) :
    Follows k D (s.newRunner job options).2 id read := by
  have howner := hs.attended.owner id hid
  have hrunner : (s.newRunner job options).2.runner (s.stream id).runner =
      s.runner (s.stream id).runner := runner_newRunner s job options howner
  refine h.same rfl (fun hrec => hrec.before ho howner (fun t ht => ?_) fun _ => by rw [hrunner])
    (fun _ _ => rfl) (fun _ => rfl) (by rw [hrunner])
  exact isSet_newToken ht

/-- Somebody reads another stream. -/
theorem follows_other {id' : StreamId} (hne : id' ≠ id) :
    Follows k D (s.readStream id').1 id read := by
  have hupdate : ∀ (u : System) (change : ChunkStream → ChunkStream),
      (u.updateStream id' change).stream id = u.stream id := fun u change =>
    (stream_update u id' id change).trans (if_neg fun hand => hne hand.1.symm)
  rcases readStream_cases s id' with ⟨-, heq⟩ | ⟨hopen, ⟨chunk, replay, -, heq⟩ |
    ⟨-, machine, taken, htake, heq⟩⟩
  · rw [heq]
    exact h
  · rw [heq]
    exact h.same (hupdate s _) (fun hrec => ⟨hrec.live, hrec.capture⟩) (fun _ _ => rfl)
      (fun _ => rfl) rfl
  · obtain ⟨hpassed, hflow, -⟩ := Machine.take_passes htake
    have hsame : (s.stream id).channel ≠ (s.stream id').channel := fun hc =>
      hne (hs.attended.injective id hid id' (lt_of_not_ended hopen) hc).symm
    have hmachine : Follows k D { s with machine } id read := by
      refine h.same rfl (fun hrec => ⟨?_, hrec.capture⟩) (fun _ _ => (hflow _).2.2 hsame)
        (fun _ => rfl) rfl
      rw [Machine.isSet, ← hpassed.tokens]
      exact hrec.live
    rw [heq]
    dsimp only
    split
    · exact hmachine.same (hupdate _ _) (fun hrec => ⟨hrec.live, hrec.capture⟩) (fun _ _ => rfl)
        (fun _ => rfl) rfl
    · exact hmachine

/-- What is read of a stream moves from what is left to what has been read. -/
theorem follows_read (hheld : (s.stream id).held = true) :
    Follows k D (s.readStream id).1 id (read ++ (s.readStream id).2.chunks) := by
  rcases readStream_cases s id with ⟨-, heq⟩ | ⟨hopen, ⟨chunk, replay, hreplay, heq⟩ |
    ⟨hreplay, machine, taken, htake, heq⟩⟩
  · rw [heq]
    simpa [Machine.Taken.chunks] using h
  · have hstream : (s.updateStream id fun x => { x with replay }).stream id =
        { s.stream id with replay } := (stream_update s id id _).trans (if_pos ⟨rfl, hid⟩)
    rw [heq]
    refine ⟨fun hrec _ => ?_, fun _ hended => ?_⟩
    · have hheld' := h.held ⟨by rw [hstream] at hrec; exact hrec.live,
        by rw [hstream] at hrec; exact hrec.capture⟩ hheld
      rw [hstream]
      refine Eq.trans ?_ hheld'
      rw [hreplay]
      simp only [Machine.Taken.chunks, List.append_assoc, List.singleton_append]
      rfl
    · rw [hstream, show ({ s.stream id with replay } : ChunkStream).ended = false from hopen] at hended
      cases hended
  · obtain ⟨hpassed, -, htaken⟩ := Machine.take_passes htake
    have hbefore : Recording { s with machine } (s.stream id).runner →
        Recording s (s.stream id).runner := by
      refine fun hrec => ⟨?_, hrec.capture⟩
      rw [Machine.isSet, ← hpassed.tokens]
      exact hrec.live
    -- the stream has not ended, so that what is left is what the equation says
    have hleft : Recording { s with machine } (s.stream id).runner →
        (read ++ (s.machine.channel (s.stream id).channel).queue ++
          inFlight D (s.stream id).channel).filter k =
            (s.runner (s.stream id).runner).chunks.toList.filter k := by
      intro hrec
      have hheld' := h.held (hbefore hrec) hheld
      rwa [hreplay, List.append_nil] at hheld'
    rw [heq]
    cases taken with
    | chunk chunk =>
      rw [if_neg Machine.Taken.noConfusion]
      refine ⟨fun hrec _ => ?_, fun _ hended => ?_⟩
      · refine Eq.trans ?_ (hleft hrec)
        show ((read ++ [chunk] ++ (s.stream id).replay ++
          (machine.channel (s.stream id).channel).queue ++ _).filter k) = _
        rw [hreplay, htaken]
        simp only [List.append_assoc, List.singleton_append]
        rfl
      · rw [show (({ s with machine } : System).stream id).ended = false from hopen] at hended
        cases hended
    | ended =>
      obtain ⟨hended, hqueue⟩ := htaken
      have hstream : (({ s with machine } : System).updateStream id fun x =>
          { x with ended := true }).stream id = { s.stream id with ended := true } :=
        (stream_update _ id id _).trans (if_pos ⟨rfl, hid⟩)
      have hempty : (s.machine.channel (s.stream id).channel).queue = [] := by
        simp only [Channel.isEnded, Bool.and_eq_true, List.isEmpty_iff] at hended
        exact hended.1.1
      have hflight := inFlight_of_isEnded hs hid hended
      have hread : Recording { s with machine } (s.stream id).runner → read.filter k =
          (s.runner (s.stream id).runner).chunks.toList.filter k := by
        intro hrec
        have hall := hleft hrec
        rwa [hempty, hflight, List.append_nil, List.append_nil] at hall
      rw [if_pos rfl]
      refine ⟨fun hrec _ => ?_, fun hrec _ => ?_⟩
      · rw [hstream] at hrec ⊢
        refine Eq.trans ?_ (hread ⟨hrec.live, hrec.capture⟩)
        show ((read ++ [] ++ (s.stream id).replay ++
          (machine.channel (s.stream id).channel).queue ++ inFlight D (s.stream id).channel).filter k)
            = _
        rw [hreplay, hqueue, hempty, hflight]
        simp only [List.append_nil]
      · rw [hstream] at hrec ⊢
        rw [show read ++ Machine.Taken.chunks .ended = read from List.append_nil _]
        exact hread ⟨hrec.live, hrec.capture⟩
    | nothing =>
      rw [if_neg Machine.Taken.noConfusion]
      refine ⟨fun hrec _ => ?_, fun _ hended => ?_⟩
      · refine Eq.trans ?_ (hleft hrec)
        show ((read ++ [] ++ (s.stream id).replay ++
          (machine.channel (s.stream id).channel).queue ++ _).filter k) = _
        rw [hreplay, htaken]
        simp only [List.append_nil]
        rfl
      · rw [show (({ s with machine } : System).stream id).ended = false from hopen] at hended
        cases hended

end

/-- Every act keeps what has been read of a stream in step with what was captured, as long as nobody
else reads it. -/
theorem Act.follows {x y : Loads × System} (hact : Act R x y) (hs : Sound x.1 x.2)
    (hid : id < x.2.streams.size) (hR : ∀ id', R id' → id' ≠ id) (hk : NoOvertaking k x.1 x.2)
    (hturn : InTurn k (x.2.runner (x.2.stream id).runner).job) (h : Follows k x.1 x.2 id read) :
    Follows k y.1 y.2 id read := by
  have howner := hs.attended.owner id hid
  have ho := (hact.sound hs).2
  have hk' := hact.noOvertaking hs hk
  cases hact with
  | aside ha => exact follows_aside h hs hid ha
  | permute hp => exact follows_permute h hs hid (hk _ howner hturn) hp
  | record code hr hnot hstages hload => exact follows_record h hs hid code hr ho
  | capture chunk hr hrun hline hkind =>
    refine follows_capture h hs hid chunk hr hrun
      (hk' _ (Nat.lt_of_lt_of_le howner ho.size) ?_)
    rw [ho.jobs _ howner]
    exact hturn
  | hand hrest hlive hoffer => exact follows_hand h hs hid rfl hrest hlive hoffer
  | stall ticket =>
    refine h.same rfl (fun hrec => hrec) (fun _ _ => rfl) (fun _ => ?_) rfl
    rw [inFlight_cons, inFlight_cons]
  | settle hend => exact follows_settle h hs hid rfl hend
  | forget r =>
    rw [forgetClosed_eq hs]
    exact h
  | read hread => exact follows_other h hs hid (hR _ hread)
  | join hr => exact follows_join h hs hid _
  | leave hid' hfin => exact follows_leave h hs hid hid'
  | newRunner options hstages => exact follows_newRunner h hs hid options ho
  | spawn hproper hnone =>
    exact h.same rfl (fun hrec => ⟨hrec.live, hrec.capture⟩) (fun _ _ => rfl) (fun _ => rfl) rfl
  | drive hproper hb hbegins hnew =>
    exact h.same rfl (fun hrec => ⟨hrec.live, hrec.capture⟩) (fun _ _ => rfl) (fun _ => rfl) rfl

end

end System
end Runnel
