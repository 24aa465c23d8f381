import Runnel.Proofs.Stream.Hearing
import Runnel.Stream.Batch

/-!
# Runnel.Proofs.Stream.Batching

Batches lose nothing. Whatever the source answers and whenever the timer of a batch goes off, the
batches are the chunks in order, cut into pieces that are neither empty nor too large.

* `BatchState.Fills`: what the batches so far and the one that is being filled have to do with the
  chunks that came; every chunk and every timer keep it.
* `Batched`: what the batches of a source that has ended are.
* `batches_keep_every_chunk`: so they are for every source.
-/

namespace Runnel

namespace BatchState

variable {size : Nat} {timeout : Option Nat} {chunks : List Chunk} {s : BatchState}
  {out : List (List Chunk)} {c : Chunk} {now : Nat}

theorem hear_item_of_full (h : size ≤ s.data.length + 1) :
    s.hear size timeout (.item c now) = (.empty, [s.data ++ [c]]) := by
  have hfull : size ≤ (s.data ++ [c]).length := by simpa using h
  simp only [hear, if_pos hfull]

theorem hear_item_of_lt (h : s.data.length + 1 < size) :
    s.hear size timeout (.item c now)
      = (⟨s.data ++ [c], if s.data.isEmpty then timeout.map (now + ·) else s.deadline, s.isOver⟩,
          []) := by
  have hopen : ¬ size ≤ (s.data ++ [c]).length := by simpa using h
  simp only [hear, if_neg hopen]

/-- The batches that were handed out and the one that is being filled hold the chunks that came.
Only a batch with a chunk in it has a deadline, and none has one without a timeout. -/
structure Fills (size : Nat) (timeout : Option Nat) (chunks : List Chunk) (s : BatchState)
    (out : List (List Chunk)) : Prop where
  flatten : out.flatten ++ s.data = chunks
  sizes : ∀ b ∈ out, b ≠ [] ∧ b.length ≤ size ∧ (timeout = none → b.length = size)
  lt_size : s.data.length < size
  data_ne_nil : s.deadline ≠ none → s.data ≠ []
  timeout_ne_none : s.deadline ≠ none → timeout ≠ none
  isOver : s.isOver = false

theorem fills_empty (h : 0 < size) : Fills size timeout [] .empty [] :=
  ⟨rfl, nofun, h, nofun, nofun, rfl⟩

/-- One more chunk waits in its batch, or it fills it. -/
theorem Fills.item (h : Fills size timeout chunks s out) (c : Chunk) (now : Nat) :
    Fills size timeout (chunks ++ [c]) (s.hear size timeout (.item c now)).1
      (out ++ (s.hear size timeout (.item c now)).2) := by
  have hlt := h.lt_size
  by_cases hfull : size ≤ s.data.length + 1
  · have hlength : (s.data ++ [c]).length = size := by
      rw [List.length_append, List.length_singleton]
      omega
    rw [hear_item_of_full hfull]
    refine ⟨?_, ?_, Nat.zero_lt_of_lt hlt, nofun, nofun, rfl⟩
    · simp [← h.flatten, empty]
    · rw [List.forall_mem_append, List.forall_mem_singleton]
      exact ⟨h.sizes, by simp, Nat.le_of_eq hlength, fun _ => hlength⟩
  · rw [hear_item_of_lt (Nat.lt_of_not_le hfull), List.append_nil]
    refine ⟨?_, h.sizes, ?_, fun _ => by simp, fun hset ht => ?_, h.isOver⟩
    · simp [← h.flatten]
    · rw [List.length_append, List.length_singleton]
      exact Nat.lt_of_not_le hfull
    · -- a deadline comes from the timeout, now or when the batch was begun
      rw [ht] at hset
      by_cases hempty : s.data.isEmpty
      · simp [hempty] at hset
      · exact h.timeout_ne_none (by simpa [hempty] using hset) ht

/-- What was held back is a batch like the others, unless there is nothing. -/
theorem Fills.flush (h : Fills size timeout chunks s out) :
    (out ++ s.flush).flatten = chunks ∧ ∀ b ∈ s.flush, b ≠ [] ∧ b.length ≤ size := by
  have hlt := h.lt_size
  cases hdata : s.data with
  | nil => simp [BatchState.flush, hdata, ← h.flatten]
  | cons c data =>
    rw [hdata] at hlt
    simpa [BatchState.flush, hdata, ← h.flatten] using Nat.le_of_lt hlt

/-- The timer hands out what there is. -/
theorem Fills.late (h : Fills size timeout chunks s out) (hset : s.deadline ≠ none) :
    Fills size timeout chunks (s.hear size timeout .late).1
      (out ++ (s.hear size timeout .late).2) := by
  refine ⟨?_, ?_, Nat.zero_lt_of_lt h.lt_size, nofun, nofun, rfl⟩
  · simpa [hear, empty] using h.flush.1
  · rw [List.forall_mem_append]
    exact ⟨h.sizes, fun b hb => ⟨(h.flush.2 b hb).1, (h.flush.2 b hb).2,
      fun ht => absurd ht (h.timeout_ne_none hset)⟩⟩

end BatchState

/-- These batches are the chunks, cut into pieces. Without a timeout only the last one may be smaller
than the rest. -/
structure Batched (size : Nat) (timeout : Option Nat) (chunks : List Chunk) (found : List Batch) :
    Prop where
  flatten : found.flatMap Batch.data = chunks
  sizes : ∀ b ∈ found, b.data ≠ [] ∧ b.data.length ≤ max size 1 ∧ b.size = b.data.length
  full : timeout = none → ∀ b ∈ found.dropLast, b.size = max size 1

section

variable {size : Nat} {timeout : Option Nat} {chunks : List Chunk} {s : BatchState}
  {out : List (List Chunk)}

open BatchState

theorem wants_of_fills (h : Fills (max size 1) timeout chunks s out) :
    (batches size timeout).wants s = true := by
  simp [h.isOver]

/-- Until the source ends, everything that is heard keeps the batches in order. -/
theorem fills_heedAll (h : Fills (max size 1) timeout chunks s out) {history : List (Heard Chunk)}
    (hends : .ended ∉ history) :
    Fills (max size 1) timeout (chunks ++ Heard.items history)
      ((batches size timeout).heedAll s history).1
      (out ++ ((batches size timeout).heedAll s history).2) := by
  induction history generalizing chunks s out with
  | nil => simpa [Heard.items] using h
  | cons x history ih =>
    rw [List.mem_cons, not_or] at hends
    have hwants := wants_of_fills h
    rw [Operator.heedAll_cons, ← List.append_assoc]
    cases x with
    | item c now =>
      rw [Operator.heed_item hwants, Heard.items, List.append_cons]
      exact ih (h.item c now) hends.2
    | late =>
      rw [Heard.items]
      by_cases hset : s.deadline = none
      · rw [Operator.heed_late_of_none hset, List.append_nil]
        exact ih h hends.2
      · rw [Operator.heed_late hwants hset]
        exact ih (h.late hset) hends.2
    | ended => exact absurd rfl hends.1

/-- Once the source has ended, all of its chunks are in batches and the batches have ended, too. -/
theorem batched_heedAll (h : Fills (max size 1) timeout chunks s out)
    (more : List (Heard Chunk)) :
    let last := (batches size timeout).heedAll s (.ended :: more)
    (batches size timeout).wants last.1 = false ∧
      Batched size timeout chunks ((out ++ last.2).map Batch.ofData) := by
  have hlast : (batches size timeout).heedAll s (.ended :: more)
      = ({ empty with isOver := true }, s.flush) := by
    have hrest := (batches size timeout).heedAll_of_not_wants
      (s := { empty with isOver := true }) rfl more
    rw [Operator.heedAll_cons, Operator.heed_ended (wants_of_fills h)]
    simp only [hear, hrest, List.append_nil]
  rw [hlast]
  obtain ⟨hflatten, hflush⟩ := h.flush
  refine ⟨rfl, ?_, ?_, fun ht => ?_⟩
  · rw [List.flatMap_map, ← hflatten]
    exact List.flatMap_id'
  · rw [List.forall_mem_map, List.forall_mem_append]
    exact ⟨fun b hb => ⟨(h.sizes b hb).1, (h.sizes b hb).2.1, rfl⟩,
      fun b hb => ⟨(hflush b hb).1, (hflush b hb).2, rfl⟩⟩
  · -- only what was held back until the end may be smaller, and it comes last
    have hlast : ∀ b ∈ (out ++ s.flush).dropLast, b ∈ out := by
      intro b hb
      unfold BatchState.flush at hb
      split at hb
      · rw [List.append_nil] at hb
        exact List.dropLast_subset out hb
      · rwa [List.dropLast_concat] at hb
    rw [← List.map_dropLast, List.forall_mem_map]
    exact fun b hb => (h.sizes b (hlast b hb)).2.2 ht

end

end Runnel
