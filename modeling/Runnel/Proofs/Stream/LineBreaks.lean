import Mathlib.Data.List.DropRight
import Runnel.Proofs.Stream.Collecting
import Runnel.Proofs.Stream.Hearing
import Runnel.Stream.Lines

/-!
# Runnel.Proofs.Stream.LineBreaks

Lines take no notice of chunks. What the operator holds back between two chunks is the part of the
text that no newline has ended yet, so it makes the lines of the whole text wherever the chunks begin
and end, also between a carriage return and its newline.

* `Text.lineTexts`: the lines that are to be handed out of a text.
* `LineState.splitFrom_append`, `LineState.splitFrom_lineTexts`: the step from one chunk to the next,
  and what comes of all of them.
* `Text.Decoder.pending_of_isValid`: text that is complete leaves nothing behind in its reader.
* `lines_ignore_chunks`: the lines of every stream whose chunks hold complete text.
-/

namespace Runnel

namespace Text

/-- The lines that are handed out of a text: each part that a newline ends, without the carriage
returns at its end, and then what follows the last newline, as it is, unless there is nothing. -/
def lineTexts (text : List Char) : List String :=
  let parts := text.splitOn '\n'
  let last := parts.getLast?.toList.filter (· ≠ [])
  ((parts.dropLast.map fun part => part.rdropWhile (· == '\r')) ++ last).map String.ofList

theorem lineTexts_of_not_mem {part : List Char} (h : '\n' ∉ part) :
    lineTexts part = if part = [] then [] else [String.ofList part] := by
  rw [lineTexts, List.splitOn_eq_singleton h]
  by_cases hempty : part = [] <;> simp [hempty]

theorem lineTexts_append_newline {part : List Char} (h : '\n' ∉ part) (rest : List Char) :
    lineTexts (part ++ '\n' :: rest)
      = String.ofList (part.rdropWhile (· == '\r')) :: lineTexts rest := by
  have hrest : rest.splitOn '\n' ≠ [] := List.splitOn_ne_nil _ _
  rw [lineTexts, List.splitOn_append_cons_self_of_not_mem h]
  simp only [List.dropLast_cons_of_ne_nil hrest, List.getLast?_cons_of_ne_nil hrest]
  rfl

/-! ## Complete text -/

theorem encode_append (before after : List Char) :
    encode (String.ofList (before ++ after))
      = encode (String.ofList before) ++ encode (String.ofList after) := by
  simp [encode]

namespace Decoder

/-- A replacement character that is read itself, and not for something else, is complete. -/
theorem pending_replacement {d : Decoder} (hd : d.Narrow) :
    ((encode (String.ofList [replacement])).foldl feed d).pending = none := by
  have hbegins : d.continues 0xEF = false := by
    obtain ⟨p, output⟩ := d
    cases p with
    | none => rfl
    | some p =>
      refine Bool.eq_false_iff.mpr fun hcontinues => ?_
      simp only [continues, Bool.and_eq_true, decide_eq_true_eq] at hcontinues
      exact absurd (UInt8.le_trans hcontinues.2 (hd p rfl).2) (by decide)
  have hcode : encode (String.ofList [replacement]) = [0xEF, 0xBF, 0xBD] := by decide
  rw [hcode, List.foldl_cons, feed_of_not_continues hbegins]
  rfl

/-- Who has read the encoding of a text is between two characters. If bytes were still owed, the text
would end with a replacement character, and so would the bytes. -/
theorem pending_of_isValid {bytes : Bytes} (h : isValid bytes = true) :
    (bytes.foldl feed .empty).pending = none := by
  cases hp : (bytes.foldl feed .empty).pending with
  | none => rfl
  | some p =>
    have htext : decodeLossy bytes
        = String.ofList ((bytes.foldl feed .empty).output.reverse ++ [replacement]) := by
      rw [decodeLossy, finish, hp, List.reverse_cons]
    have hbytes : encode (decodeLossy bytes) = bytes := by simpa [isValid] using h
    rw [htext, encode_append] at hbytes
    rw [← hbytes, List.foldl_append, pending_replacement (narrow_foldl narrow_empty _)] at hp
    cases hp

/-- So it is for some such pieces, one after the other. -/
theorem pending_flatten {pieces : List Bytes} (h : ∀ piece ∈ pieces, isValid piece = true) :
    (pieces.flatten.foldl feed .empty).pending = none := by
  induction pieces with
  | nil => rfl
  | cons piece pieces ih =>
    rw [List.forall_mem_cons] at h
    have hpiece : piece.foldl feed .empty = ⟨none, (piece.foldl feed .empty).output⟩ := by
      rw [← pending_of_isValid h.1]
    have hrest := foldl_feed_append none [] (piece.foldl feed .empty).output pieces.flatten
    rw [List.flatten_cons, List.foldl_append, hpiece]
    rw [List.nil_append] at hrest
    rw [hrest]
    exact ih h.2

end Decoder

/-- No cut between complete pieces falls into a character. -/
theorem cutsCharacter_flatten {pieces : List Bytes} (h : ∀ piece ∈ pieces, isValid piece = true)
    (rest : Bytes) : cutsCharacter pieces.flatten rest = false := by
  unfold cutsCharacter
  cases rest with
  | nil => rfl
  | cons b rest => simp only [Decoder.continues, Decoder.pending_flatten h]

end Text

namespace Chunk

/-- The text of a stream whose chunks hold complete text is that of all its output. -/
theorem collectText_of_isValid {chunks : List Chunk}
    (h : ∀ c ∈ chunks, c.isStdout = true → Text.isValid c.data = true) :
    collectText chunks = Text.decodeLossy (gather .stdout chunks) := by
  refine (collectText_eq_iff 0 chunks).mpr fun before after hsplit => ?_
  have hpieces : ∀ piece ∈ pieces before, Text.isValid piece = true := by
    intro piece hpiece
    obtain ⟨c, hc, rfl⟩ := List.mem_map.mp hpiece
    obtain ⟨hmem, hkind⟩ := List.mem_filter.mp hc
    exact h c (by rw [hsplit]; exact List.mem_append_left after hmem) hkind
  exact Text.cutsCharacter_flatten hpieces _

theorem toList_collectText (chunks : List Chunk) :
    (collectText chunks).toList = (chunks.filter isStdout).flatMap fun c => c.text.toList := by
  simp [collectText, List.flatMap_map]

end Chunk

/-! ## Lines -/

namespace LineState

theorem splitFrom_newline (line rest : List Char) :
    splitFrom line ('\n' :: rest)
      = (String.ofList (line.dropWhile (· == '\r')).reverse :: (splitFrom [] rest).1,
          (splitFrom [] rest).2) := by
  simp [splitFrom]

theorem splitFrom_of_ne {c : Char} (h : c ≠ '\n') (line rest : List Char) :
    splitFrom line (c :: rest) = splitFrom (c :: line) rest := by
  simp [splitFrom, h]

/-- What is held back of one piece of text goes before the next one. -/
theorem splitFrom_append (line before after : List Char) :
    splitFrom line (before ++ after)
      = ((splitFrom line before).1 ++ (splitFrom (splitFrom line before).2 after).1,
          (splitFrom (splitFrom line before).2 after).2) := by
  induction before generalizing line with
  | nil => rfl
  | cons c before ih =>
    by_cases hc : c = '\n'
    · subst hc
      rw [List.cons_append, splitFrom_newline, splitFrom_newline, ih, List.cons_append]
    · rw [List.cons_append, splitFrom_of_ne hc, splitFrom_of_ne hc, ih]

/-- What is held back when there is no more, if there is anything. -/
def leftOver (line : List Char) : List String :=
  if line.isEmpty then [] else [String.ofList line.reverse]

/-- The lines of a text of which the beginning of the first line has been read. -/
theorem splitFrom_lineTexts {line : List Char} (h : '\n' ∉ line) (text : List Char) :
    (splitFrom line text).1 ++ leftOver (splitFrom line text).2
      = Text.lineTexts (line.reverse ++ text) := by
  induction text generalizing line with
  | nil =>
    rw [List.append_nil, Text.lineTexts_of_not_mem (by simpa using h)]
    simp [splitFrom, leftOver]
  | cons c text ih =>
    by_cases hc : c = '\n'
    · subst hc
      rw [splitFrom_newline, List.cons_append, ih List.not_mem_nil,
        Text.lineTexts_append_newline (by simpa using h), List.rdropWhile_reverse]
      rfl
    · have hline : '\n' ∉ c :: line := by simp [h, Ne.symm hc]
      rw [splitFrom_of_ne hc, ih hline, List.reverse_cons, List.append_assoc,
        List.singleton_append]

end LineState

namespace LineState

theorem hear_stdout {c : Chunk} (h : c.isStdout = true) (line : List Char) (now : Nat) :
    hear ⟨line, false⟩ (.item c now)
      = (⟨(splitFrom line c.text.toList).2, false⟩, (splitFrom line c.text.toList).1) := by
  simp [hear, h]

theorem hear_stderr {c : Chunk} (h : c.isStdout = false) (s : LineState) (now : Nat) :
    s.hear (.item c now) = (s, []) := by
  simp [hear, h]

/-- Until the source ends, the operator has split the text of all output that came. -/
theorem heedAll_splitFrom (line : List Char) {history : List (Heard Chunk)}
    (hends : .ended ∉ history) :
    let split := splitFrom line (Chunk.collectText (Heard.items history)).toList
    lineOperator.heedAll ⟨line, false⟩ history = (⟨split.2, false⟩, split.1) := by
  induction history generalizing line with
  | nil => rfl
  | cons x history ih =>
    rw [List.mem_cons, not_or] at hends
    rw [Operator.heedAll_cons]
    cases x with
    | item c now =>
      have hheed : lineOperator.heed ⟨line, false⟩ (.item c now) = hear ⟨line, false⟩ (.item c now) :=
        Operator.heed_item rfl c now
      rw [hheed, Heard.items, Chunk.toList_collectText]
      cases hkind : c.isStdout with
      | true =>
        rw [hear_stdout hkind, List.filter_cons_of_pos hkind, List.flatMap_cons, splitFrom_append,
          ← Chunk.toList_collectText, ih _ hends.2]
      | false =>
        rw [hear_stderr hkind, List.filter_cons_of_neg (by simp [hkind]),
          ← Chunk.toList_collectText, ih _ hends.2]
        rfl
    | late =>
      rw [Operator.heed_late_of_none rfl]
      exact ih line hends.2
    | ended => exact absurd rfl hends.1

/-- The lines over everything that is heard of a source that has ended. -/
theorem heedAll_lineTexts {history : List (Heard Chunk)} (hends : .ended ∉ history)
    (more : List (Heard Chunk)) :
    let heard := lineOperator.heedAll lineOperator.start (history ++ .ended :: more)
    lineOperator.wants heard.1 = false ∧
      heard.2 = Text.lineTexts (Chunk.collectText (Heard.items history)).toList := by
  have hlines := heedAll_splitFrom [] hends
  have hlast : ∀ line, lineOperator.heedAll ⟨line, false⟩ (.ended :: more)
      = (⟨[], true⟩, leftOver line) := by
    intro line
    have hheed : lineOperator.heed ⟨line, false⟩ .ended = (⟨[], true⟩, leftOver line) :=
      Operator.heed_ended rfl
    rw [Operator.heedAll_cons, hheed, Operator.heedAll_of_not_wants rfl, List.append_nil]
  have htexts := splitFrom_lineTexts List.not_mem_nil
    (Chunk.collectText (Heard.items history)).toList
  have hstart : lineOperator.start = ⟨[], false⟩ := rfl
  rw [Operator.heedAll_append, hstart]
  simp only [hlines, hlast]
  exact ⟨rfl, htexts⟩

end LineState

/-- The lines of a stream take no notice of its chunks, wherever they begin and end and whatever
messages come between them: they are those of the text of all output, as long as each chunk of output
holds complete text. So they are the same if the same output is cut in another way. However long the
source takes for its chunks, and whatever is heard of it after its end, the lines have ended, too. -/
theorem lines_ignore_chunks (items : List (Timed Chunk)) (rest : Nat)
    (h : ∀ t ∈ items, t.item.isStdout = true → Text.isValid t.item.data = true) :
    let chunks := items.map Timed.item
    let output := Chunk.gather .stdout chunks
    lineOperator.run items rest = Text.lineTexts (Text.decodeLossy output).toList ∧
      (∀ (items' : List (Timed Chunk)) (rest' : Nat),
        (∀ t ∈ items', t.item.isStdout = true → Text.isValid t.item.data = true) →
        Chunk.gather .stdout (items'.map Timed.item) = output →
        lineOperator.run items' rest' = lineOperator.run items rest) ∧
      ∀ history more : List (Heard Chunk), .ended ∉ history → Heard.items history = chunks →
        let heard := lineOperator.heedAll lineOperator.start (history ++ .ended :: more)
        heard.2 = Text.lineTexts (Text.decodeLossy output).toList ∧
          lineOperator.wants heard.1 = false := by
  have hrun : ∀ (items : List (Timed Chunk)) (rest : Nat),
      (∀ t ∈ items, t.item.isStdout = true → Text.isValid t.item.data = true) →
      lineOperator.run items rest = Text.lineTexts
        (Text.decodeLossy (Chunk.gather .stdout (items.map Timed.item))).toList := by
    intro items rest h
    obtain ⟨history, hends, hitems, hrun⟩ := Operator.exists_history (o := lineOperator) items rest
    rw [hrun, Operator.endings, List.replicate_succ, (LineState.heedAll_lineTexts hends _).2, hitems,
      Chunk.collectText_of_isValid (by simpa using h)]
  intro chunks output
  refine ⟨hrun items rest h, fun items' rest' h' hsame => ?_, fun history more hends hitems => ?_⟩
  · rw [hrun items rest h, hrun items' rest' h', hsame]
  · obtain ⟨hover, htexts⟩ := LineState.heedAll_lineTexts hends more
    rw [hitems, Chunk.collectText_of_isValid (by simpa [chunks] using h)] at htexts
    exact ⟨htexts, hover⟩

/-- A character and the end of a line in two chunks each, messages between them, and a last line that
nothing ends. -/
theorem lines_ignore_chunks_cut :
    let items := [Timed.mk 0 (Chunk.mk .stdout [97, 13, 13]), ⟨3, ⟨.stderr, [0xC3, 10]⟩⟩,
      ⟨0, ⟨.stdout, [10, 10, 0xC3, 0xA9]⟩⟩, ⟨0, ⟨.stdout, []⟩⟩, ⟨5, ⟨.stdout, [13]⟩⟩]
    (∀ t ∈ items, t.item.isStdout = true → Text.isValid t.item.data = true) ∧
      lineOperator.run items 0 = ["a", "", "é\r"] := by
  intro items
  have hvalid : ∀ t ∈ items, t.item.isStdout = true → Text.isValid t.item.data = true := by decide
  refine ⟨hvalid, ?_⟩
  rw [(lines_ignore_chunks items 0 hvalid).1]
  decide

end Runnel
