import Runnel.Proofs.Flow.Passing

/-!
# Runnel.Proofs.Flow.Gathering

What a reader of a channel has in the end, who takes chunks until there are so many newlines or
until nothing comes any more.

* `Machine.readThrough`: the bytes that the reader ends with, from the pieces that come.
* `Reading`: the turns of a reader. What happens between them is left open, as long as the same
  pieces are still to come.
* `reading_iff`: however often the reader has to wait, it ends with the same bytes.
-/

namespace Runnel

/-- What is still to come out of a channel: the chunks in its queue, and what is handed over later.
Once there is no writer any more, that is nothing. -/
structure Supplies (c : Channel) (later chunks : List Bytes) : Prop where
  chunks : c.queue.map Chunk.data ++ later = chunks
  last : c.writers = 0 → c.granted = [] → later = []

/-- Whoever takes a chunk takes the first piece that was to come. -/
theorem Supplies.of_take {c c' : Channel} {chunk : Chunk} {later chunks : List Bytes}
    (h : Supplies c later chunks) (ht : c.take = (some chunk, c')) :
    ∃ rest, chunks = chunk.data :: rest ∧ Supplies c' later rest := by
  obtain ⟨rfl, hlast⟩ := h
  unfold Channel.take at ht
  split at ht
  · cases ht
  · rename_i queue hqueue
    refine ⟨queue.map Chunk.data ++ later, ?_, ?_⟩
    · rw [hqueue]
      split at ht
      all_goals
        cases ht
        rfl
    · split at ht
      · cases ht
        exact ⟨rfl, fun _ hgranted => by simp at hgranted⟩
      · cases ht
        exact ⟨rfl, hlast⟩

/-- Nothing is to come out of a channel that has ended. -/
theorem Supplies.of_isEnded {c : Channel} {later chunks : List Bytes}
    (h : Supplies c later chunks) (he : c.isEnded = true) : chunks = [] := by
  simp only [Channel.isEnded, Bool.and_eq_true, List.isEmpty_iff, beq_iff_eq] at he
  rw [← h.chunks, he.1.1, h.last he.2 he.1.2]
  rfl

namespace Machine

/-- What a reader has in the end who has `seen` so far, and to whom these pieces come: it takes one
after the other until it has enough. -/
def readThrough (lines : Option Nat) : Bytes → List Bytes → Bytes
  | seen, [] => seen
  | seen, piece :: rest =>
    if isEnough lines seen then seen else readThrough lines (seen ++ piece) rest

theorem isEnough_eq_any (lines : Option Nat) (gathered : Bytes) :
    isEnough lines gathered = lines.any (· ≤ gathered.count 10) := by
  cases lines <;> rfl

/-- Whoever has enough takes nothing more. -/
theorem readThrough_of_isEnough {lines : Option Nat} {seen : Bytes}
    (h : isEnough lines seen = true) (pieces : List Bytes) :
    readThrough lines seen pieces = seen := by
  cases pieces with
  | nil => rfl
  | cons piece rest => rw [readThrough, if_pos h]

theorem readThrough_cons {lines : Option Nat} {seen : Bytes} (h : ¬ isEnough lines seen = true)
    (piece : Bytes) (rest : List Bytes) :
    readThrough lines seen (piece :: rest) = readThrough lines (seen ++ piece) rest := by
  rw [readThrough, if_neg h]

/-- Whoever wants everything gets everything. -/
theorem readThrough_none (seen : Bytes) (pieces : List Bytes) :
    readThrough none seen pieces = seen ++ pieces.flatten := by
  induction pieces generalizing seen with
  | nil => simp [readThrough]
  | cons piece rest ih => simp [readThrough, isEnough, ih]

/-- A reader ends with the front of all that comes, and only then without the rest if it has
enough. -/
theorem readThrough_split (lines : Option Nat) (seen : Bytes) (pieces : List Bytes) :
    ∃ rest, seen ++ pieces.flatten = readThrough lines seen pieces ++ rest ∧
      (isEnough lines (readThrough lines seen pieces) = true ∨ rest = []) := by
  induction pieces generalizing seen with
  | nil => exact ⟨[], rfl, .inr rfl⟩
  | cons piece more ih =>
    by_cases h : isEnough lines seen = true
    · rw [readThrough_of_isEnough h]
      exact ⟨_, rfl, .inl h⟩
    · rw [readThrough_cons h]
      obtain ⟨rest, hrest, hend⟩ := ih (seen ++ piece)
      exact ⟨rest, by rw [← hrest]; simp, hend⟩

section

variable {m m' : Machine} {id : ChannelId} {lines : Option Nat} {later chunks : List Bytes}

/-- What the reader finds in one try, and what is to come after it. -/
theorem take_supplies {taken : Taken} (hs : Supplies (m.channel id) later chunks)
    (h : m.take id = (m', taken)) :
    match taken with
    | .chunk chunk => ∃ rest, chunks = chunk.data :: rest ∧ Supplies (m'.channel id) later rest
    | .ended => chunks = [] ∧ Supplies (m'.channel id) later chunks
    | .nothing => Supplies (m'.channel id) later chunks := by
  unfold take at h
  split at h
  · cases h
    exact hs
  · simp only at h
    split at h
    · rename_i chunk c heq
      cases h
      -- a channel that does not exist has no chunks
      have hlt : id < m.channels.size := by
        refine Nat.lt_of_not_le fun hle => ?_
        rw [channel_of_le hle] at heq
        cases heq
      obtain ⟨rest, hchunks, hrest⟩ := hs.of_take heq
      refine ⟨rest, hchunks, ?_⟩
      show Supplies ((m.updateChannel id fun _ => c).channel id) later rest
      rwa [channel_updateChannel, if_pos ⟨rfl, hlt⟩]
    · split at h
      · rename_i hended
        cases h
        exact ⟨hs.of_isEnded hended, hs⟩
      · cases h
        exact hs

/-- What a reader has taken by the time it stops: some of the pieces that were to come, in their
order, and all that it wants if it says so. -/
theorem gatherChunks_supplies {n : Nat} {pieces pieces' : List Bytes} {gathered : Bytes}
    {enough : Bool} (hs : Supplies (m.channel id) later chunks)
    (h : gatherChunks id lines n m pieces (gathered.count 10) = (m', pieces', enough)) :
    ∃ taken rest : List Bytes, pieces' = taken.reverse ++ pieces ∧
      Supplies (m'.channel id) later rest ∧
      readThrough lines gathered chunks = readThrough lines (gathered ++ taken.flatten) rest ∧
      (enough = true →
        readThrough lines (gathered ++ taken.flatten) rest = gathered ++ taken.flatten) := by
  induction n generalizing m pieces gathered chunks with
  | zero =>
    cases h
    exact ⟨[], chunks, rfl, hs, by simp, nofun⟩
  | succ n ih =>
    rw [gatherChunks, ← isEnough_eq_any] at h
    split at h
    · rename_i henough
      cases h
      exact ⟨[], chunks, rfl, hs, by simp, fun _ => by simp [readThrough_of_isEnough henough]⟩
    · rename_i hmore
      split at h
      · rename_i m₁ chunk heq
        obtain ⟨rest, rfl, hs₁⟩ := take_supplies hs heq
        rw [← List.count_append] at h
        obtain ⟨taken, rest, rfl, hs', hread, hend⟩ := ih hs₁ h
        refine ⟨chunk.data :: taken, rest, by simp, hs', ?_, ?_⟩
        · rw [readThrough_cons hmore, hread]
          simp
        · simpa using hend
      · rename_i m₁ heq
        cases h
        obtain ⟨rfl, hs'⟩ := take_supplies hs heq
        exact ⟨[], [], rfl, hs', by simp, fun _ => by simp [readThrough]⟩
      · rename_i m₁ heq
        cases h
        exact ⟨[], chunks, rfl, take_supplies hs heq, by simp, nofun⟩

/-- One turn of a reader does not change what it will have in the end. -/
theorem gather_supplies {gathered bytes : Bytes} {enough : Bool}
    (hs : Supplies (m.channel id) later chunks)
    (h : m.gather (.channel id) lines gathered = (m', bytes, enough)) :
    if enough then readThrough lines gathered chunks = bytes
    else ∃ rest, Supplies (m'.channel id) later rest ∧
      readThrough lines gathered chunks = readThrough lines bytes rest := by
  simp only [gather] at h
  generalize heq : gatherChunks id lines (turnBudget + 1) m [] (gathered.count 10) = g at h
  obtain ⟨m₁, pieces, stopped⟩ := g
  obtain ⟨taken, rest, rfl, hs', hread, hend⟩ := gatherChunks_supplies hs heq
  simp only [List.append_nil, List.reverse_reverse] at h
  cases h
  rw [hread]
  split
  · rename_i henough
    exact hend henough
  · exact ⟨rest, hs', rfl⟩

end

end Machine

/-- A reader of a channel who wants so many newlines, or everything, and who has gathered some bytes
so far: it has its turns until it stops. Every turn may find another machine, as long as the pieces
that were still to come after the one before are still to come. -/
inductive Reading (id : ChannelId) (lines : Option Nat) : List Bytes → Bytes → Bytes → Prop
  /-- It stops in this turn. -/
  | stops {m m' : Machine} {later chunks : List Bytes} {gathered bytes : Bytes}
      (hs : Supplies (m.channel id) later chunks)
      (h : m.gather (.channel id) lines gathered = (m', bytes, true)) :
      Reading id lines chunks gathered bytes
  /-- It has to wait for another turn. -/
  | waits {m m' : Machine} {later chunks rest : List Bytes} {gathered more bytes : Bytes}
      (hs : Supplies (m.channel id) later chunks)
      (h : m.gather (.channel id) lines gathered = (m', more, false))
      (hs' : Supplies (m'.channel id) later rest)
      (hrest : Reading id lines rest more bytes) :
      Reading id lines chunks gathered bytes

namespace Reading

variable {id : ChannelId} {lines : Option Nat} {chunks : List Bytes} {gathered bytes : Bytes}

/-- However its turns fall, a reader ends with what it ends with when it reads in one go. -/
theorem eq_readThrough (h : Reading id lines chunks gathered bytes) :
    bytes = Machine.readThrough lines gathered chunks := by
  induction h with
  | stops hs h =>
    have hread := Machine.gather_supplies hs h
    rw [if_pos rfl] at hread
    exact hread.symm
  | waits hs h hs' hrest ih =>
    have hread := Machine.gather_supplies hs h
    rw [if_neg Bool.false_ne_true] at hread
    obtain ⟨rest, hs'', hread⟩ := hread
    rw [ih, hread, ← hs'.chunks, ← hs''.chunks]

/-- A machine whose channels up to this one are all alike, and in which channels may be used
once. -/
def machine (id : ChannelId) (c : Channel) : Machine :=
  { Machine.ofDisk .empty .empty with channels := Array.replicate (id + 1) c, budget := 1 }

theorem channel_machine (id : ChannelId) (c : Channel) : (machine id c).channel id = c := by
  simp [machine, Machine.channel]

/-- A channel that no one writes to any more. -/
def ended : Channel := ⟨16, [], [], [], 0, true⟩

/-- A channel with one chunk, and a writer who is still there. -/
def holding (data : Bytes) : Channel := ⟨15, [⟨.stdout, data⟩], [], [], 1, true⟩

section

variable (m : Machine)

/-- What a reader finds who is content from the start. -/
theorem gather_of_isEnough (h : Machine.isEnough lines gathered = true) :
    ∃ m', m.gather (.channel id) lines gathered = (m', gathered, true) := by
  rw [Machine.isEnough_eq_any] at h
  simp [Machine.gather, Machine.gatherChunks, h]

theorem take_ended : (machine id ended).take id = ((machine id ended).spend, .ended) := by
  simp only [Machine.take, channel_machine]
  rfl

theorem gather_ended : ∃ m',
    (machine id ended).gather (.channel id) lines gathered = (m', gathered, true) := by
  cases h : lines.any (· ≤ gathered.count 10) with
  | true => exact gather_of_isEnough _ (Machine.isEnough_eq_any _ _ ▸ h)
  | false => simp [Machine.gather, Machine.gatherChunks, h, take_ended]

/-- The machine after its one chunk was taken. -/
def taken (id : ChannelId) (data : Bytes) : Machine :=
  ((machine id (holding data)).updateChannel id fun _ => ⟨16, [], [], [], 1, true⟩).spend

theorem take_holding (data : Bytes) :
    (machine id (holding data)).take id = (taken id data, .chunk ⟨.stdout, data⟩) := by
  simp only [Machine.take, channel_machine]
  rfl

theorem take_taken (data : Bytes) : (taken id data).take id = (taken id data, .nothing) := rfl

theorem channel_taken (data : Bytes) : (taken id data).channel id = ⟨16, [], [], [], 1, true⟩ := by
  show ((machine id (holding data)).updateChannel id _).channel id = _
  rw [Machine.channel_updateChannel, if_pos ⟨rfl, by simp [machine]⟩]

/-- The only chunk is taken, and then the turn is over. -/
theorem gatherChunks_holding {data : Bytes} (n : Nat)
    (h : ¬ Machine.isEnough lines gathered = true) :
    Machine.gatherChunks id lines (n + 2) (machine id (holding data)) [] (gathered.count 10) =
      (taken id data, [data], Machine.isEnough lines (gathered ++ data)) := by
  rw [Machine.isEnough_eq_any] at h ⊢
  rw [Machine.gatherChunks, if_neg h, take_holding]
  show Machine.gatherChunks id lines (n + 1) (taken id data) [data] (gathered.count 10 + _) = _
  rw [← List.count_append, Machine.gatherChunks, take_taken]
  split
  · rename_i henough
    rw [henough]
  · rename_i hmore
    rw [Bool.eq_false_iff.2 hmore]

theorem gather_holding {data : Bytes} (h : ¬ Machine.isEnough lines gathered = true) :
    (machine id (holding data)).gather (.channel id) lines gathered =
      (if Machine.isEnough lines (gathered ++ data) then (taken id data).abandon (.channel id)
        else taken id data, gathered ++ data, Machine.isEnough lines (gathered ++ data)) := by
  rw [Machine.gather, Machine.turnBudget, gatherChunks_holding 127 h]
  simp

end

/-- Any pieces can be read. -/
theorem exists_readThrough (id : ChannelId) (lines : Option Nat) (chunks : List Bytes)
    (gathered : Bytes) :
    Reading id lines chunks gathered (Machine.readThrough lines gathered chunks) := by
  induction chunks generalizing gathered with
  | nil =>
    have hs : Supplies ((machine id ended).channel id) [] [] := by
      rw [channel_machine]
      exact ⟨rfl, fun _ _ => rfl⟩
    obtain ⟨m', hm'⟩ : ∃ m', (machine id ended).gather (.channel id) lines gathered =
        (m', gathered, true) := gather_ended
    exact .stops hs hm'
  | cons piece rest ih =>
    have hs : Supplies ((machine id (holding piece)).channel id) rest (piece :: rest) := by
      rw [channel_machine]
      exact ⟨rfl, nofun⟩
    by_cases h : Machine.isEnough lines gathered = true
    · rw [Machine.readThrough_of_isEnough h]
      obtain ⟨m', hm'⟩ : ∃ m', (machine id (holding piece)).gather (.channel id) lines gathered =
          (m', gathered, true) := gather_of_isEnough _ h
      exact .stops hs hm'
    · rw [Machine.readThrough_cons h]
      have hm' := @gather_holding id lines gathered piece h
      cases hmore : Machine.isEnough lines (gathered ++ piece) with
      | true =>
        rw [hmore, if_pos rfl] at hm'
        rw [Machine.readThrough_of_isEnough hmore]
        exact .stops hs hm'
      | false =>
        rw [hmore, if_neg Bool.false_ne_true] at hm'
        have hs' : Supplies ((taken id piece).channel id) rest rest := by
          rw [channel_taken]
          exact ⟨rfl, nofun⟩
        exact .waits hs hm' hs' (ih (gathered ++ piece))

end Reading

/-- However its turns fall, a reader ends with what it ends with when it reads in one go. -/
theorem reading_iff {id : ChannelId} {lines : Option Nat} {chunks : List Bytes}
    {gathered bytes : Bytes} :
    Reading id lines chunks gathered bytes ↔
      bytes = Machine.readThrough lines gathered chunks := by
  constructor
  · exact Reading.eq_readThrough
  · rintro rfl
    exact Reading.exists_readThrough id lines chunks gathered

end Runnel
