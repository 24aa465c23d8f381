import Runnel.Command.Quote
import Runnel.Command.Word

/-!
# Runnel.Proofs.Command.Quoting

The shape of quoted values. A quoted value is either the value itself, when that is a plain word, or
its text in single quotes (`quoteChars_eq`): a value that the caller wrapped in single quotes is
such a text already, without the caller's quotes.

* `unwrapped`, `received`: the text that a quoted value stands for.
* `Word.ofValue`: the word that a quoted value is read back as.
-/

namespace Runnel

/-- The text without the single quotes around it, if it is wrapped in them and has none inside. -/
def unwrapped (chars : List Char) : List Char :=
  if isQuoted chars then (chars.drop 1).dropLast else chars

/-- The text that a quoted value stands for. -/
def received (value : String) : String :=
  String.ofList (unwrapped value.toList)

/-- The word that a quoted value is read back as: literal text, with quotes unless it is plain. -/
def Word.ofValue (value : String) : Word :=
  ⟨[.literal (received value)], needsQuoting value⟩

theorem received_of_not_quoted {value : String} (h : isQuoted value.toList = false) :
    received value = value := by
  simp [received, unwrapped, h]

/-! ## Characters -/

theorem not_blank_of_safe {c : Char} (h : isWordSafe c = true) : Text.isBlank c = false := by
  simp only [isWordSafe, Bool.not_eq_true', Bool.or_eq_false_iff] at h
  exact h.1.1

theorem ne_of_safe {c d : Char} (h : isWordSafe c = true) (hd : isShellSpecial d = true) :
    (c == d) = false := by
  rw [beq_eq_false_iff_ne]
  rintro rfl
  simp [isWordSafe, hd] at h

theorem ne_of_blank {c d : Char} (h : Text.isBlank c = true) (hd : Text.isBlank d = false) :
    (c == d) = false := by
  rw [beq_eq_false_iff_ne]
  rintro rfl
  simp [h] at hd

/-! ## Wrapped text -/

theorem exists_of_wrapped {mark : Char} {chars : List Char} (h : isWrapped mark chars = true) :
    ∃ inner, chars = mark :: (inner ++ [mark]) := by
  simp only [isWrapped, Bool.and_eq_true, decide_eq_true_eq, beq_iff_eq] at h
  obtain ⟨⟨hlen, hhead⟩, hlast⟩ := h
  cases chars with
  | nil => simp at hhead
  | cons c rest =>
    have hc : c = mark := by simpa using hhead
    subst hc
    rcases List.eq_nil_or_concat rest with rfl | ⟨inner, d, rfl⟩
    · simp at hlen
    · rw [List.concat_eq_append] at hlast ⊢
      have hd : d = c := by
        rw [← List.cons_append, List.getLast?_concat] at hlast
        exact Option.some.inj hlast
      exact ⟨inner, by rw [hd]⟩

theorem not_plain_of_wrapped {mark : Char} {chars : List Char} (hm : isShellSpecial mark = true)
    (h : isWrapped mark chars = true) : isPlainWord chars = false := by
  obtain ⟨inner, rfl⟩ := exists_of_wrapped h
  simp [isPlainWord, isWordSafe, hm]

theorem escapeQuotes_of_no_quote {chars : List Char} (h : '\'' ∉ chars) :
    escapeQuotes chars = chars := by
  induction chars with
  | nil => rfl
  | cons c rest ih =>
    simp only [List.mem_cons, not_or] at h
    have hc : (c == '\'') = false := by simpa using Ne.symm h.1
    simp only [escapeQuotes, hc, ih h.2]
    rfl

/-- A value in single quotes of its own is the quoted form of what it holds. -/
theorem singleQuoted_unwrapped {chars : List Char} (h : isQuoted chars = true) :
    singleQuoted (unwrapped chars) = chars := by
  have hu : unwrapped chars = (chars.drop 1).dropLast := by simp [unwrapped, h]
  simp only [isQuoted, Bool.and_eq_true, Bool.not_eq_true', List.contains_eq_mem] at h
  obtain ⟨inner, rfl⟩ := exists_of_wrapped h.1
  have hin : ((('\'' :: (inner ++ ['\''])).drop 1).dropLast) = inner := by simp
  rw [hin] at hu h
  rw [hu, singleQuoted, escapeQuotes_of_no_quote (by simpa using h.2)]

theorem quoteChars_eq (chars : List Char) :
    quoteChars chars = if isPlainWord chars then chars else singleQuoted (unwrapped chars) := by
  unfold quoteChars
  split
  · rename_i he
    obtain rfl : chars = [] := by simpa using he
    rfl
  · split
    · rename_i hq
      have hw : isWrapped '\'' chars = true := by
        simp only [isQuoted, Bool.and_eq_true] at hq
        exact hq.1
      rw [not_plain_of_wrapped (by decide) hw, singleQuoted_unwrapped hq]
      rfl
    · rename_i hq
      have hu : unwrapped chars = chars := by simp [unwrapped, hq]
      rw [hu]
      split
      · rename_i hw
        rw [not_plain_of_wrapped (by decide) hw]
        rfl
      · rfl

theorem unwrapped_of_plain {chars : List Char} (h : isPlainWord chars = true) :
    unwrapped chars = chars := by
  have hq : isQuoted chars = false := by
    cases hw : isWrapped '\'' chars with
    | false => simp [isQuoted, hw]
    | true => simp [not_plain_of_wrapped (by decide) hw] at h
  simp [unwrapped, hq]

/-! ## Several values -/

/-- The characters of several quoted values on one line. -/
def quoteAllChars (values : List String) : List Char :=
  [' '].intercalate (values.map fun v => quoteChars v.toList)

theorem toList_quoteAll (values : List String) : (quoteAll values).toList = quoteAllChars values := by
  have hmap : values.map (String.toList ∘ quote) = values.map fun v => quoteChars v.toList :=
    List.map_congr_left fun v _ => by simp [quote]
  simp [quoteAll, Text.joinWith, quoteAllChars, String.toList_intercalate, hmap]

theorem quoteAllChars_singleton (v : String) : quoteAllChars [v] = quoteChars v.toList := by
  simp [quoteAllChars]

theorem quoteAllChars_cons {v : String} {rest : List String} (h : rest ≠ []) :
    quoteAllChars (v :: rest) = quoteChars v.toList ++ ' ' :: quoteAllChars rest := by
  have hr : rest.map (fun v => quoteChars v.toList) ≠ [] := by simpa using h
  simp [quoteAllChars, List.intercalate_cons_of_ne_nil hr]

end Runnel
