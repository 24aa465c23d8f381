import Runnel.Proofs.Runner.Beginning
import Runnel.Runner.Request

/-!
# Runnel.Proofs.Runner.Replay

Reading the output of a run that is over.

* `System.Replaying`: what is left to be read of a stream, to which nothing will be added.
* `System.collect_openStream`: who opens a stream on a runner that is finished reads what was
  captured, and then the end.
-/

namespace Runnel.System

/-- Nothing but these chunks is left to be read of a stream. -/
structure Replaying (s : System) (id : StreamId) (chunks : List Chunk) : Prop where
  /-- The stream exists. -/
  lt : id < s.streams.size
  /-- The chunks are there. -/
  replay : (s.stream id).replay = chunks
  /-- The end has not been seen. -/
  ended : (s.stream id).ended = false
  /-- Nothing will be added. -/
  channel : (s.machine.channel (s.stream id).channel).isEnded = true

/-! ## Opening -/

section Finished

variable {s : System} (hi : s.Inv) {r : RunnerId} (hr : r < s.runners.size)
  (hf : (s.runner r).phase = .finished)

include hi hr hf

theorem finish_of_finished (code : Int) : s.finish r code = s := by
  have hsome := (hi.runners r hr).result_iff.mpr hf
  unfold finish finishWith
  rw [if_pos hsome]

theorem emit_of_finished (e : Event) : s.emit r e = s := by
  obtain ⟨hl, -, -⟩ := (hi.runners r hr).cleared hf
  unfold emit
  rw [hl]
  rfl

theorem ensureStarted_of_finished : s.ensureStarted r = s := by
  unfold ensureStarted start
  by_cases hs : s.scheduled = true
  · simp [hs, hf]
  · simp [hs, emit_of_finished hi hr hf, finish_of_finished hi hr hf]

end Finished

theorem stream_push (s : System) (x : ChunkStream) :
    ({ s with streams := s.streams.push x } : System).stream s.streams.size = x := by
  rw [stream, Array.getD_eq_getD_getElem?, Array.getElem?_push, if_pos rfl]
  rfl

theorem isEnded_dropWriter (m : Machine) (capacity : Nat) :
    (((m.newChannel capacity).2.updateChannel m.channels.size Channel.dropWriter).channel
      m.channels.size).isEnded = true := by
  unfold Machine.channel Machine.updateChannel Machine.newChannel
  rw [Array.getD_eq_getD_getElem?, Array.getElem?_modify, if_pos rfl, Array.getElem?_push,
    if_pos rfl]
  rfl

/-- A stream on a runner that is finished holds what was captured. -/
theorem replaying_openStream {s : System} (hi : s.Inv) {r : RunnerId} (hr : r < s.runners.size)
    (hf : (s.runner r).phase = .finished) :
    (s.openStream r).2.Replaying (s.openStream r).1 (s.runner r).chunks.toList := by
  have hfin : (s.runner r).isFinished = true := Runner.isFinished_iff.mpr hf
  let x : ChunkStream := ⟨if (s.runner r).options.capture then (s.runner r).chunks.toList else [],
    s.machine.channels.size, r, false, true⟩
  let u : System := (s.newChannel outputCapacity).2.updateChannel s.machine.channels.size
    Channel.dropWriter
  have hframe : Frame s { u with streams := u.streams.push x } := .of_eq rfl rfl rfl rfl
  have hopen : s.openStream r = (s.streams.size, { u with streams := u.streams.push x }) := by
    have hstart := ensureStarted_of_finished (hframe.safe hi).1 (r := r) (hframe.runners ▸ hr)
      (by rw [hframe.runner]; exact hf)
    have hcond : (({ s with machine := (s.machine.newChannel outputCapacity).2 } : System).runner
        r).isFinished = true := hfin
    unfold openStream
    simp only [newChannel, hcond, if_true]
    exact congrArg (Prod.mk s.streams.size) hstart
  have hx : ({ u with streams := u.streams.push x } : System).stream s.streams.size = x :=
    stream_push u x
  rw [hopen]
  refine ⟨?_, ?_, ?_, ?_⟩
  · show s.streams.size < (s.streams.push x).size
    simp
  · rw [hx]
    show (if (s.runner r).options.capture then (s.runner r).chunks.toList else []) = _
    split
    · rfl
    · rename_i hc
      rw [(hi.runners r hr).uncaptured (by simpa using hc)]
  · rw [hx]
  · rw [hx]
    exact isEnded_dropWriter s.machine outputCapacity

/-! ## Reading -/

theorem ask_eq {α : Type} {s s' : System} {request : System → System × Option α} {answer : α}
    (h : request (s.updateMachine Machine.beginTurn) = (s', some answer)) :
    s.ask request = (s', some answer) := by
  unfold ask
  rw [show patience = 9999999 + 1 from rfl, askWithin, h]

theorem stream_updateMachine (s : System) (change : Machine → Machine) (id : StreamId) :
    (s.updateMachine change).stream id = s.stream id :=
  rfl

theorem stream_updateStream {s : System} {id : StreamId} (h : id < s.streams.size)
    (change : ChunkStream → ChunkStream) :
    (s.updateStream id change).stream id = change (s.stream id) := by
  unfold stream updateStream
  rw [Array.getD_eq_getD_getElem?, Array.getD_eq_getD_getElem?, Array.getElem?_modify, if_pos rfl,
    Array.getElem?_eq_getElem h]
  rfl

theorem nextChunk_cons {s : System} {id : StreamId} {c : Chunk} {chunks : List Chunk}
    (h : s.Replaying id (c :: chunks)) :
    ∃ s', s.nextChunk id = (s', some (some c)) ∧ s'.Replaying id chunks := by
  have hread : (s.updateMachine Machine.beginTurn).readStream id =
      ((s.updateMachine Machine.beginTurn).updateStream id fun x => { x with replay := chunks },
        .chunk c) := by
    unfold readStream
    simp only [stream_updateMachine, h.ended, h.replay, Bool.false_eq_true, if_false]
  refine ⟨_, ask_eq (by rw [hread]), ?_⟩
  have hx := stream_updateStream (s := s.updateMachine Machine.beginTurn) h.lt
    fun x => { x with replay := chunks }
  refine ⟨?_, ?_, ?_, ?_⟩
  · show id < (s.streams.modify _ _).size
    rw [Array.size_modify]
    exact h.lt
  · rw [hx]
  · rw [hx]
    exact h.ended
  · rw [hx]
    exact h.channel

theorem take_of_isEnded {m : Machine} {id : ChannelId} (h : (m.channel id).isEnded = true)
    (hb : m.budget ≠ 0) : m.take id = (m.spend, .ended) := by
  have hqueue : (m.channel id).queue = [] := by
    simp only [Channel.isEnded, Bool.and_eq_true, List.isEmpty_iff] at h
    exact h.1.1
  unfold Machine.take
  rw [if_neg hb]
  simp only [Channel.take, hqueue, h, if_true]

theorem nextChunk_nil {s : System} {id : StreamId} (h : s.Replaying id []) :
    ∃ s', s.nextChunk id = (s', some none) := by
  have hbudget : s.machine.beginTurn.budget ≠ 0 := by
    show Machine.turnBudget ≠ 0
    decide
  have htake : s.machine.beginTurn.take (s.stream id).channel
      = (s.machine.beginTurn.spend, .ended) := take_of_isEnded h.channel hbudget
  have hread : ∃ s', (s.updateMachine Machine.beginTurn).readStream id = (s', .ended) := by
    unfold readStream
    simp only [stream_updateMachine, h.ended, h.replay, Bool.false_eq_true, if_false]
    rw [show (s.updateMachine Machine.beginTurn).machine = s.machine.beginTurn from rfl, htake]
    exact ⟨_, rfl⟩
  obtain ⟨s', hread⟩ := hread
  exact ⟨s', ask_eq (by rw [hread])⟩

theorem readChunks_replaying {s : System} {id : StreamId} {chunks : List Chunk}
    (h : s.Replaying id chunks) {n : Nat} (hn : chunks.length < n) (read : List Chunk) :
    (readChunks id n s read).2 = some (read.reverse ++ chunks) := by
  induction chunks generalizing s n read with
  | nil =>
    cases n with
    | zero => cases hn
    | succ n =>
      obtain ⟨s', heq⟩ := nextChunk_nil h
      simp [readChunks, heq]
  | cons c chunks ih =>
    cases n with
    | zero => cases hn
    | succ n =>
      obtain ⟨s', heq, h'⟩ := nextChunk_cons h
      have hread := ih h' (Nat.lt_of_succ_lt_succ hn) (c :: read)
      simp only [readChunks, heq]
      rw [hread]
      simp

/-- A stream that is opened on a runner that is finished hands out what was captured, and ends. -/
theorem collect_openStream {s : System} (hi : s.Inv) {r : RunnerId} (hr : r < s.runners.size)
    (hf : (s.runner r).phase = .finished) {n : Nat} (hn : (s.runner r).chunks.size < n) :
    ((s.openStream r).2.collect (s.openStream r).1 (some n)).2
      = some (s.runner r).chunks.toList := by
  have hread := readChunks_replaying (replaying_openStream hi hr hf) (n := n)
    (by rwa [Array.length_toList]) []
  unfold collect
  rw [Option.getD_some]
  exact hread

end Runnel.System
