import Runnel.Command.Parse
import Runnel.Proofs.Command.Scanning

/-!
# Runnel.Proofs.Command.Reading

How quoted values are read back.

* `Scanner.run_quoteChars`: a quoted value is read as one word, which holds the value as it is.
* `Scanner.readAll_quoteAll`: several of them are read as one word each, behind any tokens and before
  any text that starts with a blank.
* `parse_quoteAll`: a line of them is a simple command without redirects, unless its first value
  looks like an assignment.
* `Word.expandAll_ofValue`: the words stand for the values, whatever the variables are.
-/

namespace Runnel

/-- A word that is being read and holds no reference. -/
def WordDraft.literal (text : List Char) (quoted : Bool) : WordDraft :=
  ⟨[], text.reverse, quoted, true⟩

/-- Values as words of their own. -/
def wordsOf (values : List String) : List Token :=
  values.map fun v => .word (.ofValue v)

/-- Text before which a word ends: it is empty or starts with a blank. -/
def Parted (text : List Char) : Prop :=
  ∀ c ∈ text.head?, Text.isBlank c = true

instance (text : List Char) : Decidable (Parted text) :=
  decidable_of_iff (text.head?.all Text.isBlank = true) (by
    rw [Parted, Option.all_eq_true]
    rfl)

theorem parted_nil : Parted [] := by
  simp [Parted]

theorem parted_cons {c : Char} (h : Text.isBlank c = true) (text : List Char) :
    Parted (c :: text) := by
  simpa [Parted] using h

namespace WordDraft

theorem literal_push (text : List Char) (quoted : Bool) (c : Char) :
    (literal text quoted).push c = literal (text ++ [c]) quoted := by
  simp [literal, push]

theorem empty_push (c : Char) : empty.push c = literal [c] false := rfl

theorem finish_literal (text : List Char) (quoted : Bool) :
    (literal text quoted).finish = some ⟨[.literal (String.ofList text)], quoted⟩ := by
  cases text with
  | nil => rfl
  | cons c text => simp [literal, finish, flushed]

end WordDraft

namespace Scanner

theorem emitWord_literal (ts : List Token) (text : List Char) (quoted : Bool) :
    emitWord ts (.literal text quoted) = .word ⟨[.literal (String.ofList text)], quoted⟩ :: ts := by
  rw [emitWord, WordDraft.finish_literal]

/-! ## Plain words -/

theorem not_operator_of_safe {c : Char} (h : isWordSafe c = true) : isOperatorChar c = false := by
  have hs : ∀ d, isShellSpecial d = true → (c == d) = false := fun d hd => ne_of_safe h hd
  simp only [isOperatorChar, hs '&' (by decide), hs '|' (by decide), hs ';' (by decide),
    hs '(' (by decide), hs ')' (by decide), hs '<' (by decide), hs '>' (by decide), Bool.or_self]

theorem wordChar_safe {c : Char} (h : isWordSafe c = true) (ts : List Token) (d : WordDraft) :
    wordChar ts d c = .ok ⟨ts, .word (d.push c)⟩ := by
  have hs : ∀ d, isShellSpecial d = true → (c == d) = false := fun d hd => ne_of_safe h hd
  simp only [wordChar, hs '\\' (by decide), hs '\'' (by decide), hs '"' (by decide),
    hs '$' (by decide), hs '\x60' (by decide)]
  rfl

theorem step_word_safe {c : Char} (h : isWordSafe c = true) (ts : List Token) (d : WordDraft) :
    step ⟨ts, .word d⟩ c = .ok ⟨ts, .word (d.push c)⟩ := by
  simp only [step, bareChar, not_blank_of_safe h, not_operator_of_safe h]
  exact wordChar_safe h ts d

theorem betweenChar_ordinary {c : Char} (hb : Text.isBlank c = false) (hc : (c == '#') = false)
    (ho : isOperatorChar c = false) (ts : List Token) :
    betweenChar ts c = wordChar ts .empty c := by
  have hn : (c == '\n') = false := by
    rw [beq_eq_false_iff_ne]
    rintro rfl
    exact absurd hb (by decide)
  simp only [isOperatorChar, Bool.or_eq_false_iff] at ho
  obtain ⟨⟨⟨⟨⟨⟨h1, h2⟩, h3⟩, h4⟩, h5⟩, h6⟩, h7⟩ := ho
  simp only [betweenChar, hn, hb, hc, h1, h2, h3, h4, h5, h6, h7]
  rfl

/-- Where a reader stands behind a character that ends words. -/
inductive Separated (ts : List Token) : Scanner → Prop where
  | newline : Separated ts ⟨newline ts, .between⟩
  | blank : Separated ts ⟨ts, .between⟩
  | token {t : Token} (h : ∀ w, t ≠ .word w) : Separated ts ⟨t :: ts, .between⟩
  | ampersand : Separated ts ⟨ts, .ampersand⟩
  | bar : Separated ts ⟨ts, .bar⟩
  | greater : Separated ts ⟨ts, .greater⟩
  | less : Separated ts ⟨ts, .less⟩

theorem betweenChar_separator {ts : List Token} {c : Char} {s : Scanner}
    (hc : (Text.isBlank c || isOperatorChar c) = true) (h : betweenChar ts c = .ok s) :
    Separated ts s := by
  cases hb : Text.isBlank c with
  | true =>
    by_cases hn : c = '\n'
    · simp only [betweenChar, hn, beq_self_eq_true, if_true] at h
      cases h
      exact .newline
    · simp only [betweenChar, beq_eq_false_iff_ne.mpr hn, hb, Bool.false_eq_true, if_false,
        if_true] at h
      cases h
      exact .blank
  | false =>
    rw [hb, Bool.false_or] at hc
    simp only [isOperatorChar, Bool.or_eq_true, beq_iff_eq] at hc
    rcases hc with (((((rfl | rfl) | rfl) | rfl) | rfl) | rfl) | rfl
    · cases h; exact .ampersand
    · cases h; exact .bar
    · cases h; exact .token nofun
    · cases h; exact .token nofun
    · cases h; exact .token nofun
    · cases h; exact .less
    · cases h; exact .greater

theorem step_between_safe {c : Char} (h : isWordSafe c = true) (ts : List Token) :
    step ⟨ts, .between⟩ c = .ok ⟨ts, .word (.literal [c] false)⟩ := by
  have hc : (c == '#') = false := ne_of_safe h (by decide)
  show betweenChar ts c = _
  rw [betweenChar_ordinary (not_blank_of_safe h) hc (not_operator_of_safe h), wordChar_safe h,
    WordDraft.empty_push]

theorem run_safe {chars : List Char} (h : chars.all isWordSafe = true) (ts : List Token)
    (text : List Char) (quoted : Bool) :
    run ⟨ts, .word (.literal text quoted)⟩ chars
      = .ok ⟨ts, .word (.literal (text ++ chars) quoted)⟩ := by
  induction chars generalizing text with
  | nil => simp [run]
  | cons c chars ih =>
    simp only [List.all_cons, Bool.and_eq_true] at h
    simp only [run, step_word_safe h.1, WordDraft.literal_push]
    rw [ih h.2, List.append_assoc]
    rfl

theorem run_plain {chars : List Char} (h : isPlainWord chars = true) (ts : List Token) :
    run ⟨ts, .between⟩ chars = .ok ⟨ts, .word (.literal chars false)⟩ := by
  cases chars with
  | nil => simp [isPlainWord] at h
  | cons c chars =>
    simp only [isPlainWord, List.isEmpty_cons, Bool.not_false, Bool.true_and, List.all_cons,
      Bool.and_eq_true] at h
    simp only [run, step_between_safe h.1]
    exact run_safe h.2 ts [c] false

/-! ## Text in single quotes -/

theorem run_escapeQuotes (ts : List Token) (text chars : List Char) :
    run ⟨ts, .single (.literal text true)⟩ (escapeQuotes chars)
      = .ok ⟨ts, .single (.literal (text ++ chars) true)⟩ := by
  induction chars generalizing text with
  | nil => simp [run, escapeQuotes]
  | cons c chars ih =>
    by_cases hc : (c == '\'') = true
    · -- the word is left, continued with an escaped quote, and its quotes opened again
      obtain rfl : c = '\'' := by simpa using hc
      have hread : run ⟨ts, .single (.literal text true)⟩ ['\'', '\\', '\'', '\'']
          = .ok ⟨ts, .single (.literal (text ++ ['\'']) true)⟩ := by
        rw [← WordDraft.literal_push]
        rfl
      show run _ (['\'', '\\', '\'', '\''] ++ escapeQuotes chars) = _
      rw [run_append_of_ok hread, ih, List.append_assoc]
      rfl
    · simp only [escapeQuotes, hc, run, step, Bool.false_eq_true, if_false, WordDraft.literal_push]
      rw [ih, List.append_assoc]
      rfl

theorem run_singleQuoted (ts : List Token) (chars : List Char) :
    run ⟨ts, .between⟩ (singleQuoted chars) = .ok ⟨ts, .word (.literal chars true)⟩ := by
  have hopen : run ⟨ts, .between⟩ ['\''] = .ok ⟨ts, .single (.literal [] true)⟩ := rfl
  show run _ (['\''] ++ (escapeQuotes chars ++ ['\''])) = _
  rw [run_append_of_ok hopen, run_append_of_ok (run_escapeQuotes ts [] chars)]
  rfl

/-! ## Values -/

/-- A quoted value is read as one word. -/
theorem run_quoteChars (ts : List Token) (chars : List Char) :
    run ⟨ts, .between⟩ (quoteChars chars)
      = .ok ⟨ts, .word (.literal (unwrapped chars) (!isPlainWord chars))⟩ := by
  rw [quoteChars_eq]
  cases h : isPlainWord chars with
  | true => simpa [unwrapped_of_plain h] using run_plain h ts
  | false => exact run_singleQuoted ts (unwrapped chars)

theorem readAll_word {q : List Char} (h : Parted q) (ts : List Token) (d : WordDraft) :
    readAll ⟨ts, .word d⟩ q = readAll ⟨emitWord ts d, .between⟩ q := by
  cases q with
  | nil => rfl
  | cons c q =>
    have hc : Text.isBlank c = true := h c rfl
    simp [readAll, run, step, bareChar, hc]

theorem readAll_quote {q : List Char} (h : Parted q) (ts : List Token) (v : String) :
    readAll ⟨ts, .between⟩ (quoteChars v.toList ++ q)
      = readAll ⟨.word (.ofValue v) :: ts, .between⟩ q := by
  rw [readAll_append (run_quoteChars ts v.toList), readAll_word h, emitWord_literal]
  rfl

theorem readAll_blank {c : Char} (hb : Text.isBlank c = true) (hn : c ≠ '\n') (ts : List Token)
    (q : List Char) : readAll ⟨ts, .between⟩ (c :: q) = readAll ⟨ts, .between⟩ q := by
  refine readAll_cons ?_ q
  simp [step, betweenChar, hb, hn]

/-- Quoted values are read as one word each. -/
theorem readAll_quoteAll {q : List Char} (h : Parted q) (ts : List Token) {values : List String}
    (hv : values ≠ []) :
    readAll ⟨ts, .between⟩ (quoteAllChars values ++ q)
      = readAll ⟨(wordsOf values).reverse ++ ts, .between⟩ q := by
  induction values generalizing ts with
  | nil => exact absurd rfl hv
  | cons v rest ih =>
    by_cases hr : rest = []
    · subst hr
      rw [quoteAllChars_singleton, readAll_quote h]
      rfl
    · rw [quoteAllChars_cons hr, List.append_assoc, List.cons_append,
        readAll_quote (parted_cons (by decide) _), readAll_blank (by decide) (by decide), ih _ hr]
      simp [wordsOf]

end Scanner

/-- The tokens of a line of quoted values. -/
theorem scan_quoteAll {values : List String} (hv : values ≠ []) :
    scan (quoteAll values).toList = .ok (wordsOf values ++ [.eof]) := by
  refine Scanner.scan_eq_ok.mpr ⟨(wordsOf values).reverse, ?_, by rw [List.reverse_reverse]⟩
  have h := Scanner.readAll_quoteAll parted_nil [] hv
  rw [List.append_nil, List.append_nil] at h
  rw [toList_quoteAll]
  exact h

namespace Parse

theorem length_words (ws : List Word) :
    ws.length + 2 * ([] : List Redirect).length + [Token.eof].length
      = (ws.map Token.word ++ [Token.eof]).length := by
  simp

theorem length_eof_lt (w : Word) (ws : List Word) :
    [Token.eof].length < ((w :: ws).map Token.word ++ [Token.eof]).length := by
  simp

theorem simpleParts_words (ws : List Word) :
    simpleParts (ws.map Token.word ++ [.eof]) = .ok ⟨ws, [], [.eof], length_words ws⟩ := by
  induction ws with
  | nil => rfl
  | cons w ws ih =>
    show simpleParts (.word w :: (ws.map Token.word ++ [Token.eof]))
      = .ok ⟨w :: ws, [], [.eof], length_words (w :: ws)⟩
    simp only [simpleParts, ih]

theorem command_words {name : Word} (args : List Word) (h : name.isAssignment = false) :
    command ((name :: args).map Token.word ++ [.eof])
      = .ok (.simple name args [], ⟨[.eof], length_eof_lt name args⟩) := by
  show command (.word name :: (args.map Token.word ++ [Token.eof]))
    = .ok (.simple name args [], ⟨[.eof], length_eof_lt name args⟩)
  have hs : simpleParts (.word name :: (args.map Token.word ++ [Token.eof]))
      = .ok ⟨name :: args, [], [.eof], length_words (name :: args)⟩ := simpleParts_words (name :: args)
  unfold command
  simp only [simple, hs, h]
  rfl

theorem sequence_words {name : Word} (args : List Word) (h : name.isAssignment = false) :
    sequence ((name :: args).map Token.word ++ [.eof])
      = .ok (.simple name args [], ⟨[.eof], length_eof_lt name args⟩) := by
  unfold sequence pipeline
  simp only [command_words args h]
  unfold stages
  simp only []
  unfold members
  rfl

end Parse

theorem parseTokens_words {name : Word} (args : List Word) (h : name.isAssignment = false) :
    parseTokens ((name :: args).map Token.word ++ [.eof]) = .ok (.simple name args []) := by
  unfold parseTokens
  rw [Parse.sequence_words args h]
  rfl

theorem isAssignment_ofValue {v : String} (h : '=' ∉ v.toList) :
    (Word.ofValue v).isAssignment = false := by
  unfold Word.isAssignment Word.ofValue
  cases hn : needsQuoting v with
  | true => rfl
  | false =>
    have hp : isPlainWord v.toList = true := by simpa [needsQuoting] using hn
    simp [received, unwrapped_of_plain hp, h]

/-- A line of quoted values is a simple command. -/
theorem parse_quoteAll {name : String} (h : '=' ∉ name.toList) (args : List String) :
    parse (quoteAll (name :: args))
      = .ok (.simple (.ofValue name) (args.map Word.ofValue) []) := by
  have hwords : wordsOf (name :: args) = (Word.ofValue name :: args.map Word.ofValue).map .word := by
    simp [wordsOf]
  rw [parse, scan_quoteAll (by simp), hwords]
  exact parseTokens_words _ (isAssignment_ofValue h)

/-! ## Expansion -/

namespace Word

theorem expand_ofValue (lookup : String → Option String) (strict : Bool) (v : String) :
    (ofValue v).expand lookup strict = .ok [received v] := by
  simp [expand, ofValue, expandParts, hasVariables, Part.isVariable]

theorem expandAll_ofValue (lookup : String → Option String) (strict : Bool) (vs : List String) :
    expandAll lookup strict (vs.map ofValue) = .ok (vs.map received) := by
  induction vs with
  | nil => rfl
  | cons v vs ih =>
    simp only [List.map_cons, expandAll, expand_ofValue, ih]
    rfl

end Word
end Runnel
