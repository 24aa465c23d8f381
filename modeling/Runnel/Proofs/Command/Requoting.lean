import Runnel.Proofs.Command.Reading

/-!
# Runnel.Proofs.Command.Requoting

Values that are quoted twice, and values that quoting leaves alone.

* `InSingleQuotes`: the value stands in single quotes already.
* `quoteChars_eq_self_iff`: quoting leaves such values alone, and plain words.
* `quote_quote_eq_iff`: quoting twice is quoting once unless there is a single quote that has to be
  escaped.
* `needsQuoting_iff`: the question whether a value needs quotes is answered as quoting answers it,
  unless the value stands in single quotes.
-/

namespace Runnel

/-- The value stands in single quotes, and there are none between them. -/
def InSingleQuotes (value : String) : Prop :=
  ∃ inner : List Char, '\'' ∉ inner ∧ value.toList = '\'' :: (inner ++ ['\''])

section

variable {chars : List Char}

/-! ## Text in single quotes -/

theorem isQuoted_cons_concat (inner : List Char) :
    isQuoted ('\'' :: (inner ++ ['\''])) = true ↔ '\'' ∉ inner := by
  have hlast : ('\'' :: (inner ++ ['\''])).getLast? = some '\'' := by
    rw [← List.cons_append, List.getLast?_concat]
  simp [isQuoted, isWrapped, hlast]

theorem inSingleQuotes_iff (value : String) :
    InSingleQuotes value ↔ isQuoted value.toList = true := by
  constructor
  · rintro ⟨inner, hinner, heq⟩
    rw [heq]
    exact (isQuoted_cons_concat inner).mpr hinner
  · intro h
    have hwrapped : isWrapped '\'' value.toList = true := (Bool.and_eq_true_iff.mp h).1
    obtain ⟨inner, heq⟩ := exists_of_wrapped hwrapped
    rw [heq] at h
    exact ⟨inner, (isQuoted_cons_concat inner).mp h, heq⟩

theorem not_plain_of_quoted (h : isQuoted chars = true) : isPlainWord chars = false :=
  not_plain_of_wrapped (by decide) (Bool.and_eq_true_iff.mp h).1

theorem not_mem_of_plain (h : isPlainWord chars = true) : '\'' ∉ chars := by
  intro hmem
  have hsafe := List.all_eq_true.mp (Bool.and_eq_true_iff.mp h).2 _ hmem
  exact absurd hsafe (by decide)

theorem mem_escapeQuotes : '\'' ∈ escapeQuotes chars ↔ '\'' ∈ chars := by
  induction chars with
  | nil => rfl
  | cons c rest ih =>
    rw [escapeQuotes]
    split
    · rename_i hc
      simp [beq_iff_eq.mp hc]
    · simp [ih]

theorem length_le_escapeQuotes (chars : List Char) :
    chars.length ≤ (escapeQuotes chars).length := by
  induction chars with
  | nil => exact Nat.le_refl 0
  | cons c rest ih =>
    rw [escapeQuotes]
    split
    · simp only [List.length_cons]
      omega
    · simp only [List.length_cons]
      omega

theorem length_lt_singleQuoted (chars : List Char) :
    chars.length < (singleQuoted chars).length := by
  have hlength := length_le_escapeQuotes chars
  simp only [singleQuoted, List.length_cons, List.length_append, List.length_nil]
  omega

theorem isQuoted_singleQuoted : isQuoted (singleQuoted chars) = true ↔ '\'' ∉ chars := by
  rw [singleQuoted, isQuoted_cons_concat, mem_escapeQuotes]

theorem not_plain_singleQuoted (chars : List Char) : isPlainWord (singleQuoted chars) = false := by
  simp [singleQuoted, isPlainWord, isWordSafe, isShellSpecial]

/-- Without the quotes around it, a text has single quotes only where they have to be escaped. -/
theorem not_mem_unwrapped_iff :
    '\'' ∉ unwrapped chars ↔ '\'' ∉ chars ∨ isQuoted chars = true := by
  cases h : isQuoted chars with
  | false => simp [unwrapped, h]
  | true =>
    have hinner : '\'' ∉ unwrapped chars := by
      rw [← isQuoted_singleQuoted, singleQuoted_unwrapped h, h]
    exact iff_of_true hinner (.inr rfl)

/-! ## What is left alone -/

theorem quoteChars_of_not (hplain : isPlainWord chars = false) (hquoted : isQuoted chars = false) :
    quoteChars chars = singleQuoted chars := by
  have hunwrapped : unwrapped chars = chars := by simp [unwrapped, hquoted]
  rw [quoteChars_eq, hplain, hunwrapped]
  exact if_neg Bool.false_ne_true

/-- What quoting leaves alone: plain words, and what stands in single quotes. -/
theorem quoteChars_eq_self_iff :
    quoteChars chars = chars ↔ isPlainWord chars = true ∨ isQuoted chars = true := by
  constructor
  · intro heq
    cases hplain : isPlainWord chars with
    | true => exact .inl rfl
    | false =>
      cases hquoted : isQuoted chars with
      | true => exact .inr rfl
      | false =>
        have hlength := length_lt_singleQuoted chars
        rw [← quoteChars_of_not hplain hquoted, heq] at hlength
        exact absurd hlength (Nat.lt_irrefl _)
  · rintro (hplain | hquoted)
    · rw [quoteChars_eq, if_pos hplain]
    · rw [quoteChars_eq, not_plain_of_quoted hquoted, singleQuoted_unwrapped hquoted]
      exact if_neg Bool.false_ne_true

/-- What is quoted is left alone unless a single quote in it had to be escaped. -/
theorem quoteChars_quoteChars_iff :
    quoteChars (quoteChars chars) = quoteChars chars ↔ '\'' ∉ chars ∨ isQuoted chars = true := by
  rw [quoteChars_eq_self_iff, quoteChars_eq]
  cases hplain : isPlainWord chars with
  | true =>
    rw [if_pos rfl]
    exact iff_of_true (.inl hplain) (.inl (not_mem_of_plain hplain))
  | false =>
    rw [if_neg Bool.false_ne_true, not_plain_singleQuoted, isQuoted_singleQuoted,
      not_mem_unwrapped_iff]
    simp

end

theorem quote_eq_iff {value result : String} :
    quote value = result ↔ quoteChars value.toList = result.toList := by
  rw [quote, ← String.toList_inj, String.toList_ofList]

theorem quote_eq_self_iff (value : String) :
    quote value = value ↔ needsQuoting value = false ∨ InSingleQuotes value := by
  rw [quote_eq_iff, quoteChars_eq_self_iff, inSingleQuotes_iff, needsQuoting,
    Bool.not_eq_eq_eq_not, Bool.not_false]

/-- A value that quoting does not leave alone becomes longer, and is read back as it was. -/
theorem scan_quote_of_ne {value : String} (h : quote value ≠ value) :
    value.length < (quote value).length ∧
      scan (quote value).toList = .ok [.word ⟨[.literal value], true⟩, .eof] := by
  have hchars : (quote value).toList = quoteChars value.toList := (quote_eq_iff.mp rfl).symm
  rw [Ne, quote_eq_iff, quoteChars_eq_self_iff, not_or, Bool.not_eq_true, Bool.not_eq_true] at h
  obtain ⟨hplain, hquoted⟩ := h
  refine ⟨?_, ?_⟩
  · rw [← String.length_toList, ← String.length_toList, hchars, quoteChars_of_not hplain hquoted]
    exact length_lt_singleQuoted value.toList
  · have hscan := scan_quoteAll (List.cons_ne_nil value [])
    have hword : Word.ofValue value = ⟨[.literal value], true⟩ := by
      rw [Word.ofValue, received_of_not_quoted hquoted, needsQuoting, hplain, Bool.not_false]
    rw [toList_quoteAll, quoteAllChars_singleton, ← hchars, wordsOf, List.map_singleton, hword]
      at hscan
    exact hscan

/-- Quoting twice is quoting once if the value has no single quote, or stands in single quotes with
none between them. In all other cases the text becomes longer each time, and what is read back is
what was quoted last. -/
theorem quote_quote_eq_iff (value : String) :
    (quote (quote value) = quote value ↔ '\'' ∉ value.toList ∨ InSingleQuotes value) ∧
      (¬ ('\'' ∉ value.toList ∨ InSingleQuotes value) →
        (quote value).length < (quote (quote value)).length ∧
          scan (quote (quote value)).toList =
            .ok [.word ⟨[.literal (quote value)], true⟩, .eof]) := by
  have hiff : quote (quote value) = quote value ↔
      '\'' ∉ value.toList ∨ InSingleQuotes value := by
    rw [quote_eq_iff, quote, String.toList_ofList, quoteChars_quoteChars_iff, inSingleQuotes_iff]
  exact ⟨hiff, fun h => scan_quote_of_ne (mt hiff.mp h)⟩

/-- A single quote in double quotes has to be escaped. -/
theorem quote_quote_eq_iff_double :
    ¬ ('\'' ∉ "\"it's\"".toList ∨ InSingleQuotes "\"it's\"") ∧
      (quote "\"it's\"").length < (quote (quote "\"it's\"")).length ∧
      scan (quote (quote "\"it's\"")).toList =
        .ok [.word ⟨[.literal "'\"it'\\''s\"'"], true⟩, .eof] := by
  have hother : ¬ ('\'' ∉ "\"it's\"".toList ∨ InSingleQuotes "\"it's\"") := by
    rw [inSingleQuotes_iff]
    decide
  exact ⟨hother, (quote_quote_eq_iff "\"it's\"").2 hother⟩

/-- A value needs quotes if quoting changes it, and only then, unless it stands in single quotes:
then it is said to need them, and is left alone. -/
theorem needsQuoting_iff (value : String) :
    (needsQuoting value = true ↔ quote value ≠ value) ↔ ¬ InSingleQuotes value := by
  rw [Ne, quote_eq_self_iff, not_or, Bool.not_eq_false]
  refine ⟨fun h hquotes => ?_, fun h => (and_iff_left h).symm⟩
  have hneeds : needsQuoting value = true := by
    rw [needsQuoting, not_plain_of_quoted ((inSingleQuotes_iff value).mp hquotes), Bool.not_false]
  exact (h.mp hneeds).2 hquotes

theorem needsQuoting_in_quotes : needsQuoting "'a'" = true ∧ quote "'a'" = "'a'" :=
  ⟨by decide, by decide⟩

end Runnel
