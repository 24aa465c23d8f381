import Runnel.Proofs.Flow.Happenings
import Runnel.Proofs.Flow.Passing

/-!
# Runnel.Proofs.Flow.Linking

A channel between two stages of a pipeline. One of them hands over at most one chunk and leaves, the
other one reads until nothing comes any more.

* `Standing`: how far a stage is with its input and with its output.
* `Link`: what holds of the channel, wherever the two stages stand.
* `Handles`: what a stage does with its streams in one step.
* `Handles.link_writer`, `Handles.link_reader`: whatever one of the two stages does, this goes on to
  hold.
-/

namespace Runnel

/-- How far a stage is with its input and with its output. -/
structure Standing where
  /-- What it has handed over. -/
  sent : Bytes
  /-- It has not let go of its output. -/
  writing : Bool
  /-- What it has read. -/
  taken : Bytes
  /-- Its input has not ended. -/
  reading : Bool
  deriving Repr, DecidableEq

/-- A channel between a writer and a reader. As long as the reader reads, nobody has ever had to
wait for a place, and what was handed over is what was read and what is in the channel. The reader
is done only when the writer has left and nothing is in the channel any more. -/
inductive Link (writer reader : Standing) (c : Channel) : Prop where
  | reading (hreader : reader.reading = true) (hasReader : c.hasReader = true)
      (waiting : c.waiting = []) (granted : c.granted = [])
      (writers : c.writers = if writer.writing then 1 else 0)
      (contents : reader.taken ++ c.contents = writer.sent) (short : c.queue.length ≤ 1)
      (room : writer.sent = [] → c.queue = [] ∧ 0 < c.room)
  | read (hreader : reader.reading = false) (hwriter : writer.writing = false)
      (htaken : reader.taken = writer.sent)

namespace Link

variable {writer reader : Standing} {c : Channel}

/-- It does not matter what the writer reads and what the reader writes. -/
theorem congr {writer' reader' : Standing} (h : Link writer reader c)
    (hsent : writer'.sent = writer.sent) (hwriting : writer'.writing = writer.writing)
    (htaken : reader'.taken = reader.taken) (hreading : reader'.reading = reader.reading) :
    Link writer' reader' c := by
  cases h with
  | reading hreader hasReader waiting granted writers contents short room =>
    refine .reading (hreading.trans hreader) hasReader waiting granted ?_ ?_ short ?_
    · rwa [hwriting]
    · rwa [htaken, hsent]
    · rwa [hsent]
  | read hreader hwriter h =>
    exact .read (hreading.trans hreader) (hwriting.trans hwriter)
      (htaken.trans (h.trans hsent.symm))

/-- Neither of the stages has done anything yet. -/
theorem ofCapacity {n : Nat} (hn : 0 < n) (hsent : writer.sent = [])
    (hwriting : writer.writing = true) (htaken : reader.taken = [])
    (hreader : reader.reading = true) :
    Link writer reader (.ofCapacity n) := by
  refine .reading hreader rfl rfl rfl ?_ ?_ (Nat.zero_le 1) fun _ => ⟨rfl, hn⟩
  · rw [hwriting]
    rfl
  · rw [htaken, hsent]
    rfl

theorem taken_eq (h : Link writer reader c) (hreader : reader.reading = false) :
    writer.writing = false ∧ reader.taken = writer.sent := by
  cases h with
  | reading hreading => rw [hreader] at hreading; cases hreading
  | read _ hwriter htaken => exact ⟨hwriter, htaken⟩

/-- The only chunk always finds a place and a reader. -/
theorem offer (h : Link writer reader c) (hwriting : writer.writing = true)
    (hsent : writer.sent = []) (ticket : Ticket) (chunk : Chunk) (hdata : chunk.data ≠ []) :
    (c.offer ticket chunk).1 = .accepted ∧
      Link { writer with sent := chunk.data } reader (c.offer ticket chunk).2 := by
  cases h with
  | read _ hwriter => rw [hwriting] at hwriter; cases hwriter
  | reading hreader hasReader waiting granted writers contents short room =>
    obtain ⟨hqueue, hroom⟩ := room hsent
    obtain ⟨room', hroom'⟩ := Nat.exists_eq_add_of_lt hroom
    rw [Nat.zero_add] at hroom'
    have hoffer : c.offer ticket chunk =
        (.accepted, { c with room := room', queue := [chunk] }) := by
      simp [Channel.offer, granted, hasReader, waiting, hroom', hqueue, Channel.push]
    rw [hoffer]
    refine ⟨rfl, .reading hreader hasReader waiting granted writers ?_ (Nat.le_refl 1)
      fun h => absurd h hdata⟩
    rw [hsent, List.append_eq_nil_iff] at contents
    simp [contents.1, Channel.contents]

/-- The writer leaves. -/
theorem dropWriter (h : Link writer reader c) (hwriting : writer.writing = true) :
    Link { writer with writing := false } reader c.dropWriter := by
  cases h with
  | read _ hwriter => rw [hwriting] at hwriter; cases hwriter
  | reading hreader hasReader waiting granted writers contents short room =>
    refine .reading hreader hasReader waiting granted ?_ contents short room
    simp [Channel.dropWriter, writers, hwriting]

/-- The reader takes a chunk. -/
theorem take {c' : Channel} {chunk : Chunk} (h : Link writer reader c)
    (hreader : reader.reading = true) (ht : c.take = (some chunk, c')) :
    Link writer { reader with taken := reader.taken ++ chunk.data } c' := by
  cases h with
  | read hread => rw [hreader] at hread; cases hread
  | reading _ hasReader waiting granted writers contents short room =>
    cases hqueue : c.queue with
    | nil => simp [Channel.take, hqueue] at ht
    | cons first queue =>
      simp only [Channel.take, hqueue, waiting, Prod.mk.injEq, Option.some.injEq] at ht
      obtain ⟨rfl, rfl⟩ := ht
      rw [hqueue, List.length_cons] at short
      have hnil : queue = [] := List.eq_nil_of_length_eq_zero (by omega)
      refine .reading hreader hasReader rfl granted writers ?_ (by simp [hnil])
        fun _ => ⟨hnil, Nat.succ_pos _⟩
      rw [← contents]
      simp [Channel.contents, hqueue]

/-- The reader is done once the channel has ended. -/
theorem ended {c' : Channel} (h : Link writer reader c) (hreader : reader.reading = true)
    (hended : c.isEnded = true) : Link writer { reader with reading := false } c' := by
  cases h with
  | read hread => rw [hreader] at hread; cases hread
  | reading _ _ _ _ writers contents =>
    simp only [Channel.isEnded, Bool.and_eq_true, List.isEmpty_iff, beq_iff_eq] at hended
    refine .read rfl ?_ ?_
    · cases hw : writer.writing with
      | false => rfl
      | true => rw [hended.2, hw] at writers; cases writers
    · rw [← contents]
      simp [Channel.contents, hended.1.1]

end Link

namespace Machine

variable {m m' : Machine} {id : ChannelId} {writer reader : Standing}

section

variable {kind : ChunkKind} {ticket : Option Ticket} {data : Bytes} (hid : id < m.channels.size)
  (h : Link writer reader (m.channel id)) (hwriting : writer.writing = true)
  (hsent : writer.sent = [])

include hid h hwriting hsent

/-- The writer hands over its only bytes, unless it has no turn left. -/
theorem write_link {written : Written}
    (heq : m.write (.channel id kind) ticket data = (m', written)) :
    (∃ ok, written = .delivered ok ∧ Link { writer with sent := data } reader (m'.channel id)) ∨
      (∃ t, written = .held t) ∧ Link writer reader (m'.channel id) := by
  unfold write at heq
  split at heq
  · rename_i hempty
    cases heq
    refine .inl ⟨true, rfl, ?_⟩
    rw [List.isEmpty_iff.mp hempty, ← hsent]
    exact h
  · rename_i hdata
    rcases offer_cases heq with ⟨rfl, rfl⟩ | ⟨t, hchannels, -, -, rfl⟩
    · exact .inr ⟨⟨ticket, rfl⟩, h⟩
    · obtain ⟨haccepted, hlink⟩ := h.offer hwriting hsent t ⟨kind, data⟩
        fun hnil => hdata (List.isEmpty_iff.mpr hnil)
      refine .inl ⟨true, by rw [haccepted]; rfl, ?_⟩
      rw [channel_congr hchannels, channel_updateChannel, if_pos ⟨rfl, hid⟩]
      exact hlink

theorem write_link_delivered {ok : Bool}
    (heq : m.write (.channel id kind) ticket data = (m', .delivered ok)) :
    Link { writer with sent := data } reader (m'.channel id) := by
  rcases write_link hid h hwriting hsent heq with ⟨-, -, hlink⟩ | ⟨⟨t, ⟨⟩⟩, -⟩
  exact hlink

theorem write_link_held {held : Option Ticket}
    (heq : m.write (.channel id kind) ticket data = (m', .held held)) :
    Link writer reader (m'.channel id) := by
  rcases write_link hid h hwriting hsent heq with ⟨_, ⟨⟩, -⟩ | ⟨-, hlink⟩
  exact hlink

end

/-- The writer leaves. -/
theorem release_link (kind : ChunkKind) (hid : id < m.channels.size)
    (h : Link writer reader (m.channel id)) (hwriting : writer.writing = true) :
    Link { writer with writing := false } reader ((m.release (.channel id kind)).channel id) := by
  show Link _ _ ((m.updateChannel id Channel.dropWriter).channel id)
  rw [channel_updateChannel, if_pos ⟨rfl, hid⟩]
  exact h.dropWriter hwriting

/-- The reader tries once. -/
theorem take_link {taken : Taken} (hid : id < m.channels.size)
    (h : Link writer reader (m.channel id)) (hreader : reader.reading = true)
    (heq : m.take id = (m', taken)) :
    match taken with
    | .chunk chunk =>
      Link writer { reader with taken := reader.taken ++ chunk.data } (m'.channel id)
    | .ended => ∀ c, Link writer { reader with reading := false } c
    | .nothing => Link writer reader (m'.channel id) := by
  unfold take at heq
  split at heq
  · cases heq
    exact h
  · simp only at heq
    split at heq
    · rename_i chunk c htake
      cases heq
      show Link _ _ ((m.updateChannel id fun _ => c).channel id)
      rw [channel_updateChannel, if_pos ⟨rfl, hid⟩]
      exact h.take hreader htake
    · split at heq
      · rename_i hended
        cases heq
        exact fun c => h.ended hreader hended
      · cases heq
        exact h

/-- A turn of the reader, who gets on with its input or to its end. -/
theorem gatherChunks_link {n : Nat} {pieces pieces' : List Bytes} {seen : Nat} {enough : Bool}
    {before : Bytes} (hid : id < m.channels.size) (h : Link writer reader (m.channel id))
    (hreader : reader.reading = true) (htaken : reader.taken = before ++ pieces.reverse.flatten)
    (heq : gatherChunks id none n m pieces seen = (m', pieces', enough)) :
    (enough = false →
      Link writer { reader with taken := before ++ pieces'.reverse.flatten } (m'.channel id)) ∧
    (enough = true → ∀ c, Link writer
      { reader with taken := before ++ pieces'.reverse.flatten, reading := false } c) := by
  induction n generalizing m pieces seen reader with
  | zero =>
    cases heq
    rw [← htaken]
    exact ⟨fun _ => h, by simp⟩
  | succ n ih =>
    simp only [gatherChunks, Option.any_none, Bool.false_eq_true, if_false] at heq
    split at heq
    · rename_i m₁ chunk htake
      have hsize := ((take_touches (P := fun _ => True) m trivial).of_pair htake).size
      have hnext : Link writer { reader with taken := reader.taken ++ chunk.data }
          (m₁.channel id) := take_link hid h hreader htake
      have hrest := ih (Nat.lt_of_lt_of_le hid hsize) hnext hreader (by simp [htaken]) heq
      exact hrest
    · rename_i m₁ htake
      cases heq
      rw [← htaken]
      exact ⟨by simp, fun _ => take_link hid h hreader htake⟩
    · rename_i m₁ htake
      cases heq
      rw [← htaken]
      exact ⟨fun _ => take_link hid h hreader htake, by simp⟩

/-- A turn of the reader, who has gathered what it has taken. -/
theorem gather_link {bytes : Bytes} {enough : Bool} (hid : id < m.channels.size)
    (h : Link writer reader (m.channel id)) (hreader : reader.reading = true)
    (heq : m.gather (.channel id) none reader.taken = (m', bytes, enough)) :
    Link writer { reader with taken := bytes, reading := !enough } (m'.channel id) := by
  simp only [gather] at heq
  generalize hg : gatherChunks id none (turnBudget + 1) m [] (reader.taken.count 10) = g at heq
  obtain ⟨m₁, pieces, stopped⟩ := g
  obtain ⟨hmore, hend⟩ := gatherChunks_link hid h hreader (List.append_nil _).symm hg
  cases stopped with
  | true =>
    cases heq
    exact hend rfl _
  | false =>
    cases heq
    have hlink := hmore rfl
    rw [hreader] at hlink
    exact hlink

/-! ### Nothing is lost on the way to the reader -/

theorem take_contents {taken : Taken} (heq : m.take id = (m', taken)) :
    (m.channel id).contents =
      match taken with
      | .chunk chunk => chunk.data ++ (m'.channel id).contents
      | _ => (m'.channel id).contents := by
  unfold take at heq
  split at heq
  · cases heq
    rfl
  · by_cases hid : id < m.channels.size
    · simp only at heq
      split at heq
      · rename_i chunk c htake
        cases heq
        show _ = chunk.data ++ ((m.updateChannel id fun _ => c).channel id).contents
        rw [channel_updateChannel, if_pos ⟨rfl, hid⟩]
        cases hqueue : (m.channel id).queue with
        | nil => simp [Channel.take, hqueue] at htake
        | cons first queue =>
          simp only [Channel.take, hqueue] at htake
          split at htake
          all_goals
            cases htake
            simp [Channel.contents, hqueue]
      · split at heq
        all_goals
          cases heq
          rfl
    · -- there is no such channel
      have hchannel := channel_of_le (Nat.le_of_not_lt hid)
      simp only [hchannel, Channel.take, Channel.isEnded] at heq
      cases heq
      rfl

theorem isEnded_of_take (heq : m.take id = (m', .ended)) : (m'.channel id).isEnded = true := by
  unfold take at heq
  split at heq
  · cases heq
  · simp only at heq
    split at heq
    · cases heq
    · split at heq
      · rename_i hended
        cases heq
        exact hended
      · cases heq

/-- What is gathered is what has left the channel. -/
theorem gatherChunks_contents {lines : Option Nat} {n : Nat} {pieces pieces' : List Bytes}
    {seen : Nat} {enough : Bool}
    (heq : gatherChunks id lines n m pieces seen = (m', pieces', enough)) :
    pieces.reverse.flatten ++ (m.channel id).contents =
      pieces'.reverse.flatten ++ (m'.channel id).contents := by
  induction n generalizing m pieces seen with
  | zero =>
    cases heq
    rfl
  | succ n ih =>
    rw [gatherChunks] at heq
    split at heq
    · cases heq
      rfl
    · split at heq
      · rename_i m₁ chunk htake
        rw [take_contents htake, ← ih heq]
        simp
      all_goals
        rename_i htake
        cases heq
        rw [take_contents htake]

/-- Whoever wants all there is gets to the end only where nothing is left. -/
theorem contents_of_enough {n : Nat} {pieces pieces' : List Bytes} {seen : Nat}
    (heq : gatherChunks id none n m pieces seen = (m', pieces', true)) :
    (m'.channel id).contents = [] := by
  induction n generalizing m pieces seen with
  | zero => cases heq
  | succ n ih =>
    simp only [gatherChunks, Option.any_none, Bool.false_eq_true, if_false] at heq
    split at heq
    · exact ih heq
    · rename_i htake
      cases heq
      have hended := isEnded_of_take htake
      simp only [Channel.isEnded, Bool.and_eq_true, List.isEmpty_iff] at hended
      simp [Channel.contents, hended.1.1]
    · cases heq

/-- What a reader gathers in a turn is what it takes from the channel. -/
theorem gather_drawn {gathered bytes : Bytes} {enough : Bool}
    (heq : m.gather (.channel id) none gathered = (m', bytes, enough)) :
    bytes = gathered ++
      (⟨m, .read (.channel id) none gathered, m'⟩ : Work.Exchange).drawn (.channel id) := by
  simp only [gather] at heq
  generalize hg : gatherChunks id none (turnBudget + 1) m [] (gathered.count 10) = g at heq
  obtain ⟨m₁, pieces, stopped⟩ := g
  have hcontents := gatherChunks_contents hg
  have hafter : (m'.channel id).contents = (m₁.channel id).contents := by
    cases stopped with
    | false => cases heq; rfl
    | true =>
      cases heq
      rw [contents_of_enough hg]
      show ((m₁.updateChannel id Channel.hangUp).channel id).contents = []
      rw [channel_updateChannel]
      split
      · rfl
      · exact contents_of_enough hg
  cases heq
  simp only [List.reverse_nil, List.flatten_nil, List.nil_append] at hcontents
  simp [Work.Exchange.drawn, hafter, hcontents]

end Machine

/-- So far a reader who stands here has read what was drawn from the source, or all there was. -/
def Source.Yields (source : Source) (v : Standing) (drawn : Bytes) : Prop :=
  match source with
  | .channel _ => v.taken = drawn
  | .bytes data => v.reading = false → v.taken = data
  | .empty | .inherited => v.taken = []

theorem Source.Yields.congr {source : Source} {v v' : Standing} {drawn : Bytes}
    (h : source.Yields v drawn) (htaken : v'.taken = v.taken) (hreading : v'.reading = v.reading) :
    source.Yields v' drawn := by
  cases source with
  | channel | empty | inherited => exact htaken.trans h
  | bytes data => exact fun hv => htaken.trans (h (hreading.symm.trans hv))

/-- All input there is, when this has been drawn. -/
def Source.input (source : Source) (drawn : Bytes) : Bytes :=
  match source with
  | .channel _ => drawn
  | .bytes data => data
  | .empty | .inherited => []

theorem Source.Yields.taken_eq {source : Source} {v : Standing} {drawn : Bytes}
    (h : source.Yields v drawn) (hv : v.reading = false) : v.taken = source.input drawn := by
  cases source with
  | channel | empty | inherited => exact h
  | bytes data => exact h hv

namespace Machine

variable {m m' : Machine} {id : ChannelId} {writer reader : Standing}

theorem gather_yields {source : Source} {v : Standing} {drawn bytes : Bytes} {enough : Bool}
    (heq : m.gather source none v.taken = (m', bytes, enough)) (h : source.Yields v drawn) :
    source.Yields { v with taken := bytes, reading := !enough }
      (drawn ++ (⟨m, .read source none v.taken, m'⟩ : Work.Exchange).drawn source) := by
  cases source with
  | channel id =>
    have hbytes := gather_drawn heq
    rw [show v.taken = drawn from h] at hbytes ⊢
    exact hbytes
  | bytes data =>
    cases heq
    exact fun _ => rfl
  | empty | inherited =>
    cases heq
    rfl

/-! ### Nobody waits for long -/

/-- A writer who has a turn left hears what becomes of the chunk. -/
theorem snd_offer {ticket : Option Ticket} {chunk : Chunk} (hbudget : m.budget ≠ 0) :
    ∃ t, (m.offer id ticket chunk).2 = .ofOffer t ((m.channel id).offer t chunk).1 := by
  refine ⟨ticket.getD m.ticket, ?_⟩
  unfold offer
  rw [if_neg hbudget]
  cases ticket with
  | some t =>
    simp only [Option.getD_some]
    split
    all_goals
      rename_i h
      simp [h, Written.ofOffer]
  | none =>
    simp only [Option.getD_none]
    split
    all_goals
      rename_i h
      replace h : ((m.channel id).offer m.ticket chunk).1 = _ := h
      simp [h, Written.ofOffer]

/-- The output finds a place at once. -/
theorem exists_delivered_of_link {kind : ChunkKind} {ticket : Option Ticket} {data : Bytes}
    (hbudget : m.budget ≠ 0) (h : Link writer reader (m.channel id))
    (hwriting : writer.writing = true) (hsent : writer.sent = []) :
    ∃ ok, (m.write (.channel id kind) ticket data).2 = .delivered ok := by
  unfold write
  split
  · exact ⟨true, rfl⟩
  · rename_i hdata
    obtain ⟨t, ht⟩ := @snd_offer m id ticket ⟨kind, data⟩ hbudget
    have haccepted := (h.offer hwriting hsent t ⟨kind, data⟩ fun hnil =>
      hdata (List.isEmpty_iff.mpr hnil)).1
    exact ⟨true, by rw [ht, haccepted]; rfl⟩

theorem take_of_isEnded (hbudget : m.budget ≠ 0) (hended : (m.channel id).isEnded = true) :
    m.take id = (m.spend, .ended) := by
  have hqueue : (m.channel id).queue = [] := by
    simp only [Channel.isEnded, Bool.and_eq_true, List.isEmpty_iff] at hended
    exact hended.1.1
  have htake : (m.channel id).take = (none, m.channel id) := by
    unfold Channel.take
    rw [hqueue]
  rw [take, if_neg hbudget]
  simp [htake, hended]

theorem enough_of_isEnded (hbudget : m.budget ≠ 0) (hended : (m.channel id).isEnded = true)
    (n : Nat) (pieces : List Bytes) (seen : Nat) :
    (gatherChunks id none (n + 1) m pieces seen).2.2 = true := by
  rw [gatherChunks, if_neg (by simp), take_of_isEnded hbudget hended]

/-- Once the writer has left, the reader gets to the end of its input in one turn. -/
theorem enough_of_link {gathered : Bytes} (hbudget : 2 ≤ m.budget) (hid : id < m.channels.size)
    (h : Link writer reader (m.channel id)) (hreader : reader.reading = true)
    (hwriting : writer.writing = false) :
    (m.gather (.channel id) none gathered).2.2 = true := by
  cases h with
  | read hread => rw [hreader] at hread; cases hread
  | reading _ hasReader waiting granted writers contents short room =>
    simp only [hwriting, Bool.false_eq_true, if_false] at writers
    have hended : ∀ c : Channel, c.queue = [] → c.granted = [] → c.writers = 0 →
        c.isEnded = true := fun c hq hg hw => by simp [Channel.isEnded, hq, hg, hw]
    show (gatherChunks id none (turnBudget + 1) m [] _).2.2 = true
    match hqueue : (m.channel id).queue with
    | [] => exact enough_of_isEnded (by omega) (hended _ hqueue granted writers) ..
    | [chunk] =>
      let c : Channel := { m.channel id with queue := [], room := (m.channel id).room + 1 }
      have htake : m.take id = ((m.updateChannel id fun _ => c).spend, .chunk chunk) := by
        rw [take, if_neg (by omega)]
        simp [Channel.take, hqueue, waiting, c]
      have hchannel : (m.updateChannel id fun _ => c).spend.channel id = c := by
        show (m.updateChannel id fun _ => c).channel id = c
        rw [channel_updateChannel, if_pos ⟨rfl, hid⟩]
      have hbudget' : (m.updateChannel id fun _ => c).spend.budget ≠ 0 := by
        show m.budget - 1 ≠ 0
        omega
      rw [gatherChunks, if_neg (by simp), htake]
      exact enough_of_isEnded hbudget' (by rw [hchannel]; exact hended c rfl granted writers) 127 ..
    | _ :: _ :: _ => simp [hqueue] at short

/-- A channel that nobody uses any more. -/
def deserted : Channel := ⟨0, [], [], [], 0, false⟩

theorem exists_delivered_of_deserted {sink : Sink} (hbudget : m.budget ≠ 0)
    (h : sink.Within fun id => m.channel id = deserted) (ticket : Option Ticket) (data : Bytes) :
    ∃ ok, (m.write sink ticket data).2 = .delivered ok := by
  unfold write
  split
  · exact ⟨true, rfl⟩
  · cases sink with
    | channel id kind =>
      obtain ⟨t, ht⟩ := @snd_offer m id ticket ⟨kind, data⟩ hbudget
      exact ⟨false, by rw [ht, show m.channel id = deserted from h]; rfl⟩
    | file handle | discard => exact ⟨true, rfl⟩

theorem enough_of_deserted {source : Source} (hbudget : m.budget ≠ 0)
    (h : source.Within fun id => m.channel id = deserted) (gathered : Bytes) :
    (m.gather source none gathered).2.2 = true := by
  cases source with
  | channel id =>
    show (gatherChunks id none (turnBudget + 1) m [] _).2.2 = true
    exact enough_of_isEnded hbudget (by rw [show m.channel id = deserted from h]; rfl) ..
  | empty | inherited | bytes data => rfl

end Machine

/-! ## What a stage does with its streams -/

/-- The channel that a sink writes to. -/
def Sink.channel? : Sink → Option ChannelId
  | .channel id _ => some id
  | _ => none

/-- The channel that a source reads from. -/
def Source.channel? : Source → Option ChannelId
  | .channel id => some id
  | _ => none

theorem Sink.within_channel? (sink : Sink) : sink.Within fun id => sink.channel? = some id := by
  cases sink with
  | channel id kind => rfl
  | file handle | discard => trivial

theorem Source.within_channel? (source : Source) :
    source.Within fun id => source.channel? = some id := by
  cases source with
  | channel id => rfl
  | empty | inherited | bytes data => trivial

/-- The streams read from this channel or write to it. -/
def Streams.Uses (io : Streams) (id : ChannelId) : Prop :=
  io.stdin.channel? = some id ∨ io.stdout.channel? = some id ∨ io.stderr.channel? = some id

open Machine (Touches Written)

/-- What a stage with these streams does in one step, wherever it stands. -/
inductive Handles (io : Streams) : Standing → Machine → Standing → Machine → Prop where
  /-- It does nothing with its input and its output. -/
  | aside {v : Standing} {m m' : Machine}
      (h : Touches (fun id => io.stderr.channel? = some id) m m') : Handles io v m v m'
  /-- It hands over its output. -/
  | writes {v : Standing} {m m' : Machine} {ticket : Option Ticket} {data : Bytes} {ok : Bool}
      (hwriting : v.writing = true) (hsent : v.sent = [])
      (h : m.write io.stdout ticket data = (m', .delivered ok)) :
      Handles io v m { v with sent := data } m'
  /-- It cannot hand over its output yet. -/
  | waits {v : Standing} {m m' : Machine} {ticket held : Option Ticket} {data : Bytes}
      (hwriting : v.writing = true) (hsent : v.sent = [])
      (h : m.write io.stdout ticket data = (m', .held held)) : Handles io v m v m'
  /-- It lets go of its output. -/
  | leaves {v : Standing} {m : Machine} (hwriting : v.writing = true) :
      Handles io v m { v with writing := false } (m.release io.stdout)
  /-- It gets on with its input. -/
  | reads {v : Standing} {m m' : Machine} {bytes : Bytes} {enough : Bool}
      (hreading : v.reading = true) (h : m.gather io.stdin none v.taken = (m', bytes, enough)) :
      Handles io v m { v with taken := bytes, reading := !enough } m'

namespace Handles

variable {io : Streams} {v v' other : Standing} {m m' : Machine} {id : ChannelId}

theorem touches (h : Handles io v m v' m') : Touches io.Uses m m' := by
  have hout := io.stdout.within_channel?
  cases h with
  | aside h => exact h.mono fun id hid => .inr (.inr hid)
  | writes _ _ h | waits _ _ h =>
    exact ((Machine.write_touches m hout _ _).of_pair h).mono fun id hid => .inr (.inl hid)
  | leaves => exact (Machine.release_touches m hout).mono fun id hid => .inr (.inl hid)
  | reads _ h =>
    exact ((Machine.gather_touches m io.stdin.within_channel? _ _).of_pair h).mono fun id => .inl

/-- The link behind a stage. -/
theorem link_writer (h : Handles io v m v' m') {kind : ChunkKind}
    (hout : io.stdout = .channel id kind) (hin : io.stdin.channel? ≠ some id)
    (herr : io.stderr.channel? ≠ some id) (hid : id < m.channels.size)
    (hlink : Link v other (m.channel id)) : Link v' other (m'.channel id) := by
  cases h with
  | aside h => rwa [h.others id hid herr]
  | writes hwriting hsent h =>
    rw [hout] at h
    exact Machine.write_link_delivered hid hlink hwriting hsent h
  | waits hwriting hsent h =>
    rw [hout] at h
    exact Machine.write_link_held hid hlink hwriting hsent h
  | leaves hwriting =>
    rw [hout]
    exact Machine.release_link kind hid hlink hwriting
  | reads _ h =>
    have hothers := ((Machine.gather_touches m io.stdin.within_channel? _ _).of_pair h).others
    rw [hothers id hid hin]
    exact hlink.congr rfl rfl rfl rfl

/-- The link in front of a stage. -/
theorem link_reader (h : Handles io v m v' m') (hin : io.stdin = .channel id)
    (hout : io.stdout.channel? ≠ some id) (herr : io.stderr.channel? ≠ some id)
    (hid : id < m.channels.size) (hlink : Link other v (m.channel id)) :
    Link other v' (m'.channel id) := by
  have hwithin := io.stdout.within_channel?
  cases h with
  | aside h => rwa [h.others id hid herr]
  | writes _ _ h | waits _ _ h =>
    rw [((Machine.write_touches m hwithin _ _).of_pair h).others id hid hout]
    exact hlink.congr rfl rfl rfl rfl
  | leaves =>
    rw [(Machine.release_touches m hwithin).others id hid hout]
    exact hlink.congr rfl rfl rfl rfl
  | reads hreading h =>
    rw [hin] at h
    exact Machine.gather_link hid hlink hreading h

end Handles
end Runnel
