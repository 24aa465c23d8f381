import Runnel.Proofs.Flow.Confined

/-!
# Runnel.Proofs.Flow.Passing

What passes through a channel: a chunk that is handed over is the last one in the queue, and the one
that is taken was the first.

* `Machine.offer_passes`: a writer hands over a chunk.
* `Machine.take_passes`: the reader takes one.
-/

namespace Runnel

namespace Channel

theorem push_of_hasReader {c : Channel} (h : c.hasReader = true) (chunk : Chunk) :
    c.push chunk = { c with queue := c.queue ++ [chunk] } := by
  rw [push, if_pos h]

theorem push_of_left {c : Channel} (h : c.hasReader = false) (chunk : Chunk) :
    c.push chunk = c := by
  rw [push, h]
  rfl

/-- What becomes of a channel when a chunk is handed over. -/
structure Offered (c c' : Channel) (chunk : Chunk) (o : Offer) : Prop where
  writers : c'.writers = c.writers
  hasReader : c'.hasReader = c.hasReader
  /-- As long as there is a reader, a chunk that is accepted can be read. -/
  queue : c'.queue = if o = .accepted ∧ c.hasReader = true then c.queue ++ [chunk] else c.queue
  /-- Nobody is refused as long as there is a reader. -/
  refused : o = .refused → c.hasReader = false

theorem offered_push {c d : Channel} (hwriters : d.writers = c.writers)
    (hreader : d.hasReader = c.hasReader) (hqueue : d.queue = c.queue) (chunk : Chunk) :
    Offered c (d.push chunk) chunk .accepted := by
  cases h : c.hasReader with
  | true =>
    rw [push_of_hasReader (hreader.trans h)]
    exact ⟨hwriters, hreader, by simp [hqueue, h], nofun⟩
  | false =>
    rw [push_of_left (hreader.trans h)]
    exact ⟨hwriters, hreader, by simp [hqueue, h], nofun⟩

theorem offer_offered (c : Channel) (ticket : Ticket) (chunk : Chunk) :
    Offered c (c.offer ticket chunk).2 chunk (c.offer ticket chunk).1 := by
  have hsame : ∀ d : Channel, d.writers = c.writers → d.hasReader = c.hasReader →
      d.queue = c.queue → Offered c d chunk .full := by
    intro d hwriters hreader hqueue
    exact ⟨hwriters, hreader, by rw [if_neg (by rintro ⟨⟨⟩, -⟩), hqueue], nofun⟩
  unfold offer
  split
  · refine offered_push ?_ ?_ ?_ chunk
    all_goals rfl
  split
  · rename_i hleft
    exact ⟨rfl, rfl, by rw [if_neg (by rintro ⟨⟨⟩, -⟩)], fun _ => by simpa using hleft⟩
  split
  · exact hsame c rfl rfl rfl
  split
  · refine offered_push ?_ ?_ ?_ chunk
    all_goals rfl
  · exact hsame _ rfl rfl rfl

end Channel

namespace Machine

/-- Nothing but channels, tickets and the budget have changed. -/
structure Passed (m m' : Machine) : Prop where
  size : m'.channels.size = m.channels.size
  tokens : m'.tokens = m.tokens
  feeds : m'.feeds = m.feeds

section

variable {m m' : Machine} {id : ChannelId} {chunk : Chunk}

theorem channel_of_le (h : m.channels.size ≤ id) : m.channel id = ⟨0, [], [], [], 0, false⟩ := by
  rw [channel, Array.getD_eq_getD_getElem?, Array.getElem?_eq_none h]
  rfl

/-- A channel that does not exist is offered to in vain. -/
theorem offered_updateChannel {c : Channel} {o : Offer} (h : (m.channel id).Offered c chunk o)
    (c' : ChannelId) :
    ((m.updateChannel id fun _ => c).channel c').writers = (m.channel c').writers ∧
    ((m.updateChannel id fun _ => c).channel c').hasReader = (m.channel c').hasReader ∧
    ((m.updateChannel id fun _ => c).channel c').queue =
      if c' = id ∧ o = .accepted ∧ (m.channel id).hasReader = true then
        (m.channel c').queue ++ [chunk] else (m.channel c').queue := by
  rw [channel_updateChannel]
  by_cases hid : c' = id
  · subst hid
    by_cases hlt : c' < m.channels.size
    · simp only [hlt, and_self, if_true, true_and]
      exact ⟨h.writers, h.hasReader, h.queue⟩
    · simp [hlt, channel_of_le (Nat.le_of_not_lt hlt)]
  · simp [hid]

/-- What a writer with this ticket hears of an offer. -/
def Written.ofOffer (t : Ticket) : Offer → Written
  | .accepted => .delivered true
  | .refused => .delivered false
  | .full => .held (some t)

/-- Either nothing happens, since the turn is over, or a channel is offered the chunk. -/
theorem offer_cases {ticket : Option Ticket} {written : Written}
    (h : m.offer id ticket chunk = (m', written)) :
    m' = m ∧ written = .held ticket ∨
    ∃ t, m'.channels = (m.updateChannel id fun _ => ((m.channel id).offer t chunk).2).channels ∧
      m'.tokens = m.tokens ∧ m'.feeds = m.feeds ∧
      written = .ofOffer t ((m.channel id).offer t chunk).1 := by
  unfold offer at h
  split at h
  · cases h
    exact .inl ⟨rfl, rfl⟩
  · refine .inr ⟨ticket.getD m.ticket, ?_⟩
    cases ticket with
    | some t =>
      simp only at h
      split at h
      all_goals
        rename_i heq
        cases h
        exact ⟨rfl, rfl, rfl, by simp [heq, Written.ofOffer]⟩
    | none =>
      simp only at h
      split at h
      all_goals
        rename_i heq
        have heq' : ((m.channel id).offer m.ticket chunk).1 = _ := heq
        cases h
        exact ⟨rfl, rfl, rfl, by simp [heq', Written.ofOffer]⟩

theorem channel_congr (h : m'.channels = m.channels) (id : ChannelId) :
    m'.channel id = m.channel id := by
  rw [channel, channel, h]

/-- What becomes of all channels when a writer hands over a chunk. -/
theorem offer_passes {ticket : Option Ticket} {written : Written}
    (h : m.offer id ticket chunk = (m', written)) :
    Passed m m' ∧ ∀ c, (m'.channel c).writers = (m.channel c).writers ∧
      (m'.channel c).hasReader = (m.channel c).hasReader ∧
      (m'.channel c).queue =
        if c = id ∧ written = .delivered true ∧ (m.channel id).hasReader = true then
          (m.channel c).queue ++ [chunk] else (m.channel c).queue := by
  rcases offer_cases h with ⟨rfl, rfl⟩ | ⟨t, hchannels, htokens, hfeeds, rfl⟩
  · exact ⟨⟨rfl, rfl, rfl⟩, fun c => ⟨rfl, rfl, by simp⟩⟩
  · refine ⟨⟨?_, htokens, hfeeds⟩, fun c => ?_⟩
    · rw [hchannels]
      exact size_updateChannel _ _ _
    · have hiff : Written.ofOffer t ((m.channel id).offer t chunk).1 = .delivered true ↔
          ((m.channel id).offer t chunk).1 = .accepted := by
        cases ((m.channel id).offer t chunk).1 <;> simp [Written.ofOffer]
      rw [channel_congr hchannels]
      simp only [hiff]
      exact offered_updateChannel ((m.channel id).offer_offered t chunk) c

/-- As long as there is a reader, nobody is told that there is none. -/
theorem delivered_of_hasReader {ticket : Option Ticket} {ok : Bool}
    (h : m.offer id ticket chunk = (m', .delivered ok)) (hreader : (m.channel id).hasReader = true) :
    ok = true := by
  rcases offer_cases h with ⟨-, ⟨⟩⟩ | ⟨t, -, -, -, hwritten⟩
  have hrefused := ((m.channel id).offer_offered t chunk).refused
  cases ho : ((m.channel id).offer t chunk).1 with
  | accepted =>
    rw [ho] at hwritten
    cases hwritten
    rfl
  | refused =>
    rw [hrefused ho] at hreader
    cases hreader
  | full =>
    rw [ho] at hwritten
    cases hwritten

/-- What becomes of all channels when the reader of one takes a chunk, or finds none. -/
theorem take_passes {taken : Taken} (h : m.take id = (m', taken)) :
    Passed m m' ∧ (∀ c, (m'.channel c).writers = (m.channel c).writers ∧
      (m'.channel c).hasReader = (m.channel c).hasReader ∧
      (c ≠ id → (m'.channel c).queue = (m.channel c).queue)) ∧
    match taken with
    | .chunk chunk => (m.channel id).queue = chunk :: (m'.channel id).queue
    | .ended => (m.channel id).isEnded = true ∧ (m'.channel id).queue = (m.channel id).queue
    | .nothing => (m'.channel id).queue = (m.channel id).queue := by
  unfold take at h
  split at h
  · cases h
    exact ⟨⟨rfl, rfl, rfl⟩, fun c => ⟨rfl, rfl, fun _ => rfl⟩, rfl⟩
  · simp only at h
    split at h
    · rename_i chunk c heq
      cases h
      -- the queue was not empty, so the channel exists
      have hlt : id < m.channels.size := by
        by_cases hlt : id < m.channels.size
        · exact hlt
        · rw [channel_of_le (Nat.le_of_not_lt hlt)] at heq
          cases heq
      have hc : c.writers = (m.channel id).writers ∧ c.hasReader = (m.channel id).hasReader ∧
          (m.channel id).queue = chunk :: c.queue := by
        unfold Channel.take at heq
        split at heq
        · cases heq
        · rename_i hqueue
          split at heq
          · cases heq
            exact ⟨rfl, rfl, hqueue⟩
          · cases heq
            exact ⟨rfl, rfl, hqueue⟩
      have hchannel : ∀ c', (m.updateChannel id fun _ => c).spend.channel c' =
          if c' = id then c else m.channel c' := by
        intro c'
        show (m.updateChannel id fun _ => c).channel c' = _
        rw [channel_updateChannel]
        simp only [hlt, and_true]
      refine ⟨⟨size_updateChannel _ _ _, rfl, rfl⟩, fun c' => ?_, ?_⟩
      · rw [hchannel]
        by_cases hid : c' = id
        · subst hid
          rw [if_pos rfl]
          exact ⟨hc.1, hc.2.1, fun hne => absurd rfl hne⟩
        · rw [if_neg hid]
          exact ⟨rfl, rfl, fun _ => rfl⟩
      · show (m.channel id).queue = chunk :: _
        rw [hchannel, if_pos rfl]
        exact hc.2.2
    · split at h
      · rename_i hended
        cases h
        exact ⟨⟨rfl, rfl, rfl⟩, fun c => ⟨rfl, rfl, fun _ => rfl⟩, hended, rfl⟩
      · cases h
        exact ⟨⟨rfl, rfl, rfl⟩, fun c => ⟨rfl, rfl, fun _ => rfl⟩, rfl⟩

end

end Machine
end Runnel
