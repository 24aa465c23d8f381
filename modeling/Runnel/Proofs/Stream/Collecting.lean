import Runnel.Proofs.Utility.HangingUp
import Runnel.Runner.Result
import Runnel.Stream.Stage

/-!
# Runnel.Proofs.Stream.Collecting

The text of a stream is decoded chunk by chunk, that of a result all at once. The two differ as soon
as one chunk goes on with a character that the chunks before it have begun, and only then.

* `Text.cutsCharacter`: a cut between two parts of some bytes falls into a character.
* `Text.Decoder.Ahead`: a decoder that has once started again in the middle of a character has read
  more characters from then on, whatever comes.
* `Chunk.collectText_eq_iff`: when the text of a stream is the text of its result.
-/

namespace Runnel
namespace Text

namespace Decoder

/-- The byte goes on with the character that is being read. -/
def continues (d : Decoder) (b : UInt8) : Bool :=
  match d.pending with
  | none => false
  | some p => p.least ≤ b && b ≤ p.greatest

/-- The characters if nothing more comes, last one first. -/
def closed (d : Decoder) : List Char :=
  match d.pending with
  | none => d.output
  | some _ => replacement :: d.output

/-- Reads bytes on their own, behind what was read before. -/
def feedApart (d : Decoder) (bytes : Bytes) : Decoder :=
  bytes.foldl feed ⟨none, d.closed⟩

theorem finish_eq (d : Decoder) : d.finish = d.closed.reverse := by
  unfold finish closed
  cases d.pending <;> rfl

theorem finish_feedApart (d : Decoder) (bytes : Bytes) :
    (d.feedApart bytes).finish = d.finish ++ (decodeLossy bytes).toList := by
  rw [feedApart, finish_append, finish_eq d, decodeLossy, String.toList_ofList]

theorem finish_foldl_feedApart (d : Decoder) (pieces : List Bytes) :
    (pieces.foldl feedApart d).finish =
      d.finish ++ (pieces.flatMap fun piece => (decodeLossy piece).toList) := by
  induction pieces generalizing d with
  | nil => simp
  | cons piece pieces ih =>
    rw [List.foldl_cons, ih, finish_feedApart, List.flatMap_cons, List.append_assoc]

/-! ## Bytes within a character -/

theorem start_of_continuation {b : UInt8} (hlow : 0x80 ≤ b) (hhigh : b ≤ 0xBF) :
    start b = (some replacement, none) := by
  have hlow : 0x80 ≤ b.toNat := hlow
  have hhigh : b.toNat ≤ 0xBF := hhigh
  unfold start
  grind

/-- A byte that does not go on with a character closes it. -/
theorem feed_of_not_continues {d : Decoder} {b : UInt8} (h : d.continues b = false) :
    d.feed b = begin d.closed b := by
  obtain ⟨p, output⟩ := d
  cases p with
  | none => rfl
  | some p =>
    simp only [continues] at h
    simp only [feed, closed, h, Bool.false_eq_true, if_false]

/-- A byte that goes on with a character adds none. -/
theorem length_closed_of_continues {d : Decoder} {b : UInt8} (h : d.continues b = true) :
    (d.feed b).closed.length = d.closed.length := by
  obtain ⟨p, output⟩ := d
  cases p with
  | none => cases h
  | some p =>
    simp only [continues] at h
    simp only [feed, h, if_true]
    split <;> simp only [closed, List.length_cons]

/-- On its own, a byte that goes on with a character is none. -/
theorem begin_of_continues {d : Decoder} {b : UInt8} (hd : d.Narrow) (h : d.continues b = true)
    (output : List Char) : begin output b = ⟨none, replacement :: output⟩ := by
  obtain ⟨p, out⟩ := d
  cases p with
  | none => cases h
  | some p =>
    simp only [continues, Bool.and_eq_true, decide_eq_true_eq] at h
    obtain ⟨hleast, hgreatest⟩ := hd p rfl
    have hstart := start_of_continuation (UInt8.le_trans hleast h.1)
      (UInt8.le_trans h.2 hgreatest)
    simp only [begin, hstart]

/-! ## Starting again in the middle of a character -/

/-- The second decoder has read more characters than the first, and it is in the middle of the same
character as the first or of none. -/
structure Ahead (d e : Decoder) : Prop where
  more : d.closed.length < e.closed.length
  pending : e.pending = none ∨ e.pending = d.pending

theorem begin_eq (output : List Char) (b : UInt8) :
    begin output b = ⟨(start b).2, (start b).1.toList ++ output⟩ := by
  unfold begin
  split
  all_goals
    rename_i h
    rw [h]
    rfl

theorem ahead_begin {output output' : List Char} (h : output.length < output'.length) (b : UInt8) :
    Ahead (begin output b) (begin output' b) := by
  rw [begin_eq, begin_eq]
  refine ⟨?_, .inr rfl⟩
  unfold closed
  cases (start b).2 <;> simp [h]

theorem Ahead.feed {d e : Decoder} (h : Ahead d e) (hd : d.Narrow) (b : UInt8) :
    Ahead (d.feed b) (e.feed b) := by
  cases hb : d.continues b with
  | false =>
    have hb' : e.continues b = false := by
      rcases h.pending with hp | hp
      · simp only [continues, hp]
      · rw [← hb]
        simp only [continues, hp]
    rw [feed_of_not_continues hb, feed_of_not_continues hb']
    exact ahead_begin h.more b
  | true =>
    rcases h.pending with hp | hp
    · -- the second one is between two characters, where this byte is a fault
      have hb' : e.continues b = false := by simp only [continues, hp]
      rw [feed_of_not_continues hb', begin_of_continues hd hb]
      refine ⟨?_, .inl rfl⟩
      rw [length_closed_of_continues hb]
      exact Nat.lt_succ_of_lt h.more
    · have hb' : e.continues b = true := by
        rw [← hb]
        simp only [continues, hp]
      refine ⟨?_, ?_⟩
      · rw [length_closed_of_continues hb, length_closed_of_continues hb']
        exact h.more
      · obtain ⟨p, output⟩ := d
        obtain ⟨p', output'⟩ := e
        obtain rfl : p' = p := hp
        cases p' with
        | none => cases hb
        | some p =>
          simp only [continues] at hb
          simp only [Decoder.feed, hb, if_true]
          split
          · exact .inl rfl
          · exact .inr rfl

theorem Ahead.foldl {d e : Decoder} (h : Ahead d e) (hd : d.Narrow) (bytes : Bytes) :
    Ahead (bytes.foldl Decoder.feed d) (bytes.foldl Decoder.feed e) := by
  induction bytes generalizing d e with
  | nil => exact h
  | cons b bytes ih => exact ih (h.feed hd b) (narrow_feed d b)

/-- Whoever is ahead stays ahead when it starts again with each piece. -/
theorem Ahead.foldl_feedApart {d e : Decoder} (h : Ahead d e) (hd : d.Narrow)
    (pieces : List Bytes) :
    Ahead (pieces.flatten.foldl Decoder.feed d) (pieces.foldl feedApart e) := by
  induction pieces generalizing d e with
  | nil => exact h
  | cons piece pieces ih =>
    have hrestart : Ahead d ⟨none, e.closed⟩ := ⟨h.more, .inl rfl⟩
    rw [List.flatten_cons, List.foldl_append, List.foldl_cons]
    exact ih (hrestart.foldl hd piece) (narrow_foldl hd piece)

/-- No piece begins in the middle of a character. -/
def Unbroken (d : Decoder) (pieces : List Bytes) : Prop :=
  ∀ front rest b more, pieces = front ++ rest → rest.flatten = b :: more →
    (front.flatten.foldl feed d).continues b = false

theorem unbroken_cons {d : Decoder} {piece : Bytes} {pieces : List Bytes} :
    Unbroken d (piece :: pieces) ↔
      (∀ b more, (piece :: pieces).flatten = b :: more → d.continues b = false) ∧
        Unbroken (piece.foldl feed d) pieces := by
  refine ⟨fun h => ⟨fun b more hb => h [] _ b more rfl hb, fun front rest b more hsplit hb => ?_⟩,
    fun h front rest b more hsplit hb => ?_⟩
  · have h' := h (piece :: front) rest b more (by rw [hsplit, List.cons_append]) hb
    rwa [List.flatten_cons, List.foldl_append] at h'
  · cases front with
    | nil =>
      obtain rfl : piece :: pieces = rest := hsplit
      exact h.1 b more hb
    | cons p front =>
      obtain ⟨rfl, rfl⟩ := List.cons.inj hsplit
      rw [List.flatten_cons, List.foldl_append]
      exact h.2 front rest b more rfl hb

/-- Who starts again with each piece ends with the same characters as who does not, if and only if
no piece begins in the middle of a character. -/
theorem closed_foldl_feedApart {d e : Decoder} (hd : d.Narrow) (hclosed : e.closed = d.closed)
    (pieces : List Bytes) :
    (pieces.foldl feedApart e).closed = (pieces.flatten.foldl feed d).closed ↔
      Unbroken d pieces := by
  induction pieces generalizing d e with
  | nil =>
    refine iff_of_true hclosed fun front rest b more hsplit hb => ?_
    obtain ⟨rfl, rfl⟩ := List.append_eq_nil_iff.mp hsplit.symm
    cases hb
  | cons piece pieces ih =>
    rw [unbroken_cons, List.foldl_cons, List.flatten_cons, List.foldl_append]
    cases piece with
    | nil =>
      have hrest := ih (e := e.feedApart []) hd hclosed
      exact hrest.trans ⟨fun h => ⟨fun b more hb => h [] pieces b more rfl hb, h⟩, And.right⟩
    | cons b piece =>
      have hfirst : (∀ c more, (b :: piece) ++ pieces.flatten = c :: more →
          d.continues c = false) ↔ d.continues b = false :=
        ⟨fun h => h b _ rfl, fun h c more hc => (List.cons.inj hc).1 ▸ h⟩
      rw [hfirst, feedApart, hclosed]
      cases hb : d.continues b with
      | false =>
        -- both go on from here with the same characters
        have hsame : d.feed b = feed ⟨none, d.closed⟩ b := feed_of_not_continues hb
        rw [List.foldl_cons, List.foldl_cons, ← hsame]
        exact (ih (narrow_foldl (narrow_feed d b) piece) rfl).trans (by simp)
      | true =>
        have hahead : Ahead (d.feed b) (feed ⟨none, d.closed⟩ b) := by
          have hfault : feed ⟨none, d.closed⟩ b = ⟨none, replacement :: d.closed⟩ :=
            begin_of_continues hd hb d.closed
          rw [hfault]
          refine ⟨?_, .inl rfl⟩
          rw [length_closed_of_continues hb]
          exact Nat.lt_succ_self _
        have hpiece := hahead.foldl (narrow_feed d b) piece
        have hend := hpiece.foldl_feedApart (narrow_foldl (narrow_feed d b) piece) pieces
        refine iff_of_false (fun heq => ?_) (by simp)
        exact absurd (congrArg List.length heq) (Nat.ne_of_gt hend.more)

end Decoder

/-- A cut between these bytes falls into a character: the second part goes on with a character that
the first one has begun. -/
def cutsCharacter (front rest : Bytes) : Bool :=
  match rest with
  | [] => false
  | b :: _ => (front.foldl Decoder.feed .empty).continues b

/-- The texts of pieces make up the text of the whole if and only if no cut falls into a
character. -/
theorem join_decodeLossy_eq_iff (pieces : List Bytes) :
    String.join (pieces.map decodeLossy) = decodeLossy pieces.flatten ↔
      ∀ front rest, pieces = front ++ rest → cutsCharacter front.flatten rest.flatten = false := by
  have hjoin : (String.join (pieces.map decodeLossy)).toList =
      (pieces.foldl Decoder.feedApart .empty).finish := by
    rw [Decoder.finish_foldl_feedApart]
    simp [List.flatMap_map, Decoder.finish, Decoder.empty]
  have hunbroken : Decoder.Unbroken .empty pieces ↔
      ∀ front rest, pieces = front ++ rest →
        cutsCharacter front.flatten rest.flatten = false := by
    refine forall_congr' fun front => forall_congr' fun rest => ?_
    unfold cutsCharacter
    cases rest.flatten <;> grind
  rw [← hunbroken, ← Decoder.closed_foldl_feedApart Decoder.narrow_empty rfl pieces,
    ← String.toList_inj, hjoin, decodeLossy, String.toList_ofList, Decoder.finish_eq,
    Decoder.finish_eq, List.reverse_inj]

end Text

namespace Chunk

/-- The pieces of output among some chunks. -/
def pieces (chunks : List Chunk) : List Bytes :=
  (chunks.filter isStdout).map data

theorem flatten_pieces (chunks : List Chunk) : (pieces chunks).flatten = gather .stdout chunks :=
  rfl

theorem collectText_eq (chunks : List Chunk) :
    collectText chunks = String.join ((pieces chunks).map Text.decodeLossy) := by
  rw [collectText, pieces, List.map_map]
  rfl

theorem pieces_append (before after : List Chunk) :
    pieces (before ++ after) = pieces before ++ pieces after := by
  simp [pieces]

/-- Where the pieces are cut, so are the chunks. -/
theorem exists_of_pieces {chunks : List Chunk} {front rest : List Bytes}
    (h : pieces chunks = front ++ rest) :
    ∃ before after, chunks = before ++ after ∧ pieces before = front ∧ pieces after = rest := by
  obtain ⟨left, right, hfilter, rfl, rfl⟩ := List.map_eq_append_iff.mp h
  obtain ⟨before, after, rfl, rfl, rfl⟩ := List.filter_eq_append_iff.mp hfilter
  exact ⟨before, after, rfl, rfl, rfl⟩

/-- The text of a stream is the text of the result of the same chunks if and only if no chunk goes on
with a character that the output before it has begun. Messages in between make no difference. -/
theorem collectText_eq_iff (code : Int) (chunks : List Chunk) :
    collectText chunks = Text.decodeLossy (RunResult.ofChunks code chunks).stdout ↔
      ∀ before after, chunks = before ++ after →
        Text.cutsCharacter (gather .stdout before) (gather .stdout after) = false := by
  have hpieces := Text.join_decodeLossy_eq_iff (pieces chunks)
  rw [flatten_pieces, ← collectText_eq] at hpieces
  refine hpieces.trans ⟨fun h before after hsplit => ?_, fun h front rest hsplit => ?_⟩
  · exact h (pieces before) (pieces after) (by rw [hsplit, pieces_append])
  · obtain ⟨before, after, rfl, rfl, rfl⟩ := exists_of_pieces hsplit
    exact h before after rfl

/-- A character in two chunks is no character in either of them. -/
theorem collectText_of_halves :
    let chunks : List Chunk := [⟨.stdout, [0xC3]⟩, ⟨.stdout, [0xA9]⟩]
    Text.cutsCharacter [0xC3] [0xA9] = true ∧ collectText chunks = "\uFFFD\uFFFD" ∧
      Text.decodeLossy (RunResult.ofChunks 0 chunks).stdout = "é" := by
  decide

end Chunk
end Runnel
