import Runnel.Text.Lines

/-!
# Runnel.Proofs.Text.Cutting

Texts that are cut into lines, and what the first and the last of them are.

* `Text.Cut`: lines as they come one behind the other in a text.
* `Text.cut_segments`, `Text.flatten_segments`, `Text.segments_flatten`: a text has exactly one such
  cut.
* `Text.lineTotal`: how many lines a text has, told from its newlines.
* `Text.head_append_tail`: the first lines and the others are the text.
* `Text.lines_join`: texts that are written on lines of their own are read back.
-/

namespace Runnel.Text

/-- Lines of a text, in order. All of them but perhaps the last one end with a newline. -/
inductive Cut : List (List Char) → Prop where
  /-- There is no line. -/
  | nil : Cut []
  /-- The last line lacks its newline. -/
  | last {line : List Char} (hne : line ≠ []) (hline : '\n' ∉ line) : Cut [line]
  /-- A line, and more of them. -/
  | cons {line : List Char} {lines : List (List Char)} (hline : '\n' ∉ line) (h : Cut lines) :
    Cut ((line ++ ['\n']) :: lines)

/-- How many lines a text has: one for each newline, and one more for what stands behind the last
newline, unless that is nothing. -/
def lineTotal (text : String) : Nat :=
  text.toList.count '\n' + if text.toList.getLast?.all (· == '\n') then 0 else 1

section

variable {line rest : List Char} {lines : List (List Char)}

/-! ## There is one cut -/

theorem flatten_segmentsFrom (line rest : List Char) :
    (segmentsFrom line rest).flatten = line.reverse ++ rest := by
  fun_induction segmentsFrom line rest with
  | case1 line hempty => simp [List.isEmpty_iff.mp hempty]
  | case2 line hempty => simp
  | case3 line c rest hnewline ih => simp [ih, beq_iff_eq.mp hnewline]
  | case4 line c rest hnewline ih => simp [ih]

theorem flatten_segments (text : List Char) : (segments text).flatten = text :=
  flatten_segmentsFrom [] text

theorem cut_segmentsFrom (hline : '\n' ∉ line) (rest : List Char) :
    Cut (segmentsFrom line rest) := by
  fun_induction segmentsFrom line rest with
  | case1 line hempty => exact .nil
  | case2 line hempty =>
    refine .last (fun heq => hempty ?_) (by simpa using hline)
    rw [List.reverse_eq_nil_iff.mp heq]
    rfl
  | case3 line c rest hnewline ih =>
    rw [List.reverse_cons]
    exact .cons (by simpa using hline) (ih (List.not_mem_nil))
  | case4 line c rest hnewline ih =>
    refine ih fun hmem => ?_
    rcases List.mem_cons.mp hmem with heq | hmem
    · exact hnewline (beq_iff_eq.mpr heq.symm)
    · exact hline hmem

theorem cut_segments (text : List Char) : Cut (segments text) :=
  cut_segmentsFrom List.not_mem_nil text

theorem segmentsFrom_line (seen : List Char) (hline : '\n' ∉ line) (rest : List Char) :
    segmentsFrom seen (line ++ rest) = segmentsFrom (line.reverse ++ seen) rest := by
  induction line generalizing seen with
  | nil => rfl
  | cons c line ih =>
    rw [List.mem_cons, not_or] at hline
    rw [List.cons_append, segmentsFrom, if_neg (fun h => hline.1 (beq_iff_eq.mp h).symm),
      ih (c :: seen) hline.2, List.reverse_cons, List.append_assoc, List.singleton_append]

theorem segments_newline (hline : '\n' ∉ line) (rest : List Char) :
    segments (line ++ '\n' :: rest) = (line ++ ['\n']) :: segments rest := by
  rw [segments, segmentsFrom_line [] hline]
  simp [segmentsFrom, segments]

theorem segments_last (hne : line ≠ []) (hline : '\n' ∉ line) : segments line = [line] := by
  have hfrom := segmentsFrom_line [] hline []
  rw [List.append_nil, List.append_nil] at hfrom
  rw [segments, hfrom, segmentsFrom, if_neg (by simpa using hne), List.reverse_reverse]

theorem segments_flatten (h : Cut lines) : segments lines.flatten = lines := by
  induction h with
  | nil => rfl
  | last hne hline => rw [List.flatten_singleton, segments_last hne hline]
  | cons hline _ ih =>
    rw [List.flatten_cons, List.append_assoc, List.singleton_append, segments_newline hline, ih]

/-! ## Parts of a cut -/

namespace Cut

theorem take (h : Cut lines) (n : Nat) : Cut (lines.take n) := by
  induction h generalizing n with
  | nil =>
    rw [List.take_nil]
    exact .nil
  | last hne hline =>
    cases n with
    | zero => exact .nil
    | succ n =>
      rw [List.take_succ_cons, List.take_nil]
      exact .last hne hline
  | cons hline _ ih =>
    cases n with
    | zero => exact .nil
    | succ n => exact .cons hline (ih n)

theorem drop (h : Cut lines) (n : Nat) : Cut (lines.drop n) := by
  induction h generalizing n with
  | nil =>
    rw [List.drop_nil]
    exact .nil
  | last hne hline =>
    cases n with
    | zero => exact .last hne hline
    | succ n =>
      rw [List.drop_succ_cons, List.drop_nil]
      exact .nil
  | cons hline h ih =>
    cases n with
    | zero => exact .cons hline h
    | succ n => exact ih n

theorem length_eq (h : Cut lines) :
    lines.length = lineTotal (String.ofList lines.flatten) := by
  rw [lineTotal, String.toList_ofList]
  induction h with
  | nil => rfl
  | @last line hne hline =>
    have hlast : line.getLast hne ≠ '\n' := fun heq => hline (heq ▸ List.getLast_mem hne)
    simp [List.getLast?_eq_some_getLast hne, hlast, List.count_eq_zero_of_not_mem hline]
  | @cons line lines hline _ ih =>
    rw [List.length_cons, ih, List.flatten_cons, List.append_assoc, List.singleton_append,
      List.count_append, List.count_eq_zero_of_not_mem hline, List.count_cons_self,
      List.getLast?_append, List.getLast?_cons]
    cases lines.flatten.getLast? with
    | none => simp
    | some c =>
      rw [Option.some_or, Nat.zero_add]
      exact Nat.add_right_comm _ _ _

end Cut

theorem length_segments (text : String) : (segments text.toList).length = lineTotal text := by
  rw [(cut_segments text.toList).length_eq, flatten_segments, String.ofList_toList]

/-! ## Lines that are written one by one -/

theorem withoutEnding_newline (hreturn : '\r' ∉ line) : withoutEnding (line ++ ['\n']) = line := by
  rw [withoutEnding, List.reverse_append, List.reverse_singleton, List.singleton_append]
  split
  · rename_i before heq
    have hmem : '\r' ∈ line.reverse := by simp [(List.cons.inj heq).2]
    exact absurd (List.mem_reverse.mp hmem) hreturn
  · rename_i heq
    rw [← (List.cons.inj heq).2, List.reverse_reverse]
  · rename_i hno
    exact absurd rfl (hno _)

end

/-- Texts on lines of their own are cut into these lines. -/
theorem segments_join {texts : List String} (h : ∀ text ∈ texts, '\n' ∉ text.toList) :
    segments (String.join (texts.map (· ++ "\n"))).toList =
      texts.map fun text => text.toList ++ ['\n'] := by
  induction texts with
  | nil => rfl
  | cons text texts ih =>
    rw [List.forall_mem_cons] at h
    have htext : (String.join ((text :: texts).map (· ++ "\n"))).toList =
        text.toList ++ '\n' :: (String.join (texts.map (· ++ "\n"))).toList := by
      simp
    rw [htext, segments_newline h.1, ih h.2, List.map_cons]

/-- Texts on lines of their own are read back. -/
theorem lines_join {texts : List String}
    (h : ∀ text ∈ texts, '\n' ∉ text.toList ∧ '\r' ∉ text.toList) :
    lines (String.join (texts.map (· ++ "\n"))) = texts := by
  rw [lines, segments_join fun text htext => (h text htext).1, List.map_map]
  refine (List.map_congr_left fun text htext => ?_).trans (List.map_id texts)
  rw [Function.comp_apply, withoutEnding_newline (h text htext).2, String.ofList_toList, id]

/-! ## The first and the last lines -/

/-- The first lines of a text and its other lines are the whole text. There are as many of them as
were asked for, unless the text has not so many. -/
theorem head_append_tail (text : String) (n : Nat) :
    (n ≤ lineTotal text → head text n ++ tail text (lineTotal text - n) = text) ∧
      lineTotal (head text n) = min n (lineTotal text) ∧
      lineTotal (tail text n) = min n (lineTotal text) ∧
      (lineTotal text < n → head text n = text ∧ tail text n = text) := by
  have hcut := cut_segments text.toList
  have htotal := length_segments text
  refine ⟨fun hle => ?_, ?_, ?_, fun hlt => ⟨?_, ?_⟩⟩
  · rw [head, tail, htotal, Nat.sub_sub_self hle, ← String.ofList_append, ← List.flatten_append,
      List.take_append_drop, flatten_segments, String.ofList_toList]
  · rw [head, ← (hcut.take n).length_eq, List.length_take, htotal]
  · rw [tail, ← (hcut.drop _).length_eq, List.length_drop, htotal]
    omega
  · rw [head, List.take_of_length_le (by omega), flatten_segments, String.ofList_toList]
  · rw [tail, htotal, Nat.sub_eq_zero_of_le (Nat.le_of_lt hlt), List.drop_zero, flatten_segments,
      String.ofList_toList]

/-- Three lines, an empty one among them and the last one without its newline. -/
theorem head_append_tail_open :
    (2 ≤ lineTotal "a\n\nb" ∧ lineTotal "a\n\nb" < 4) ∧
      head "a\n\nb" 2 ++ tail "a\n\nb" (lineTotal "a\n\nb" - 2) = "a\n\nb" ∧
      head "a\n\nb" 4 = "a\n\nb" ∧ tail "a\n\nb" 4 = "a\n\nb" :=
  ⟨by decide, (head_append_tail "a\n\nb" 2).1 (by decide),
    (head_append_tail "a\n\nb" 4).2.2.2 (by decide)⟩

end Runnel.Text
