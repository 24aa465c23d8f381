import Runnel.Proofs.Command.Deferring

/-!
# Runnel.Proofs.Command.Bare

How text without quotes is read.

* `Scanner.ReadBare`: the words are pieces of the text that was read, and no quote is open.
* `Scanner.run_bare`: it holds however much of the text was read.
-/

namespace Runnel

/-- A word among these tokens is a piece of the text. -/
def Token.IsPiece (read : List Char) : Token → Prop
  | .word w => ∃ text, w = ⟨[.literal (String.ofList text)], false⟩ ∧ text <:+: read
  | _ => True

theorem Token.IsPiece.mono {read read' : List Char} {t : Token} (h : t.IsPiece read)
    (hr : read <:+: read') : t.IsPiece read' := by
  cases t with
  | word w =>
    obtain ⟨text, hw, ht⟩ := h
    exact ⟨text, hw, ht.trans hr⟩
  | _ => trivial

namespace Scanner

/-- In the middle of nothing, of an operator or of a word that ends what was read. -/
inductive OpenMode (read : List Char) : ScanMode → Prop where
  | between : OpenMode read .between
  | ampersand : OpenMode read .ampersand
  | bar : OpenMode read .bar
  | greater : OpenMode read .greater
  | less : OpenMode read .less
  | word {text : List Char} : text <:+ read → OpenMode read (.word (.literal text false))

/-- The tokens read behind `ts` are pieces of the text. -/
def Pieces (ts : List Token) (read : List Char) (tokens : List Token) : Prop :=
  ∃ new, tokens = new ++ ts ∧ ∀ t ∈ new, t.IsPiece read

/-- Where a reader stands that began between two tokens, behind `ts`, and read text without quotes. -/
structure ReadBare (ts : List Token) (read : List Char) (s : Scanner) : Prop where
  /-- The words are pieces of the text. -/
  pieces : Pieces ts read s.tokens
  /-- No quote is open. -/
  isOpen : OpenMode read s.mode

namespace Pieces

variable {ts tokens : List Token} {read : List Char}

theorem push {t : Token} (ht : t.IsPiece read) (h : Pieces ts read tokens) :
    Pieces ts read (t :: tokens) := by
  obtain ⟨new, rfl, hn⟩ := h
  exact ⟨t :: new, rfl, List.forall_mem_cons.mpr ⟨ht, hn⟩⟩

theorem newline (h : Pieces ts read tokens) : Pieces ts read (newline tokens) := by
  rw [newline_eq]
  split
  · exact push (t := .semicolon) trivial h
  · exact h

theorem mono {read' : List Char} (h : Pieces ts read tokens) (hr : read <:+: read') :
    Pieces ts read' tokens := by
  obtain ⟨new, ht, hn⟩ := h
  exact ⟨new, ht, fun t hm => (hn t hm).mono hr⟩

end Pieces

theorem wordChar_bare {c : Char} (h : c ∉ ['\'', '"', '\\', '$', '\x60', '#']) (ts : List Token)
    (d : WordDraft) : wordChar ts d c = .ok ⟨ts, .word (d.push c)⟩ := by
  simp only [List.mem_cons, List.not_mem_nil, or_false, not_or] at h
  obtain ⟨h1, h2, h3, h4, h5, -⟩ := h
  simp [wordChar, h1, h2, h3, h4, h5]

section Step

variable {ts tokens : List Token} {read : List Char} {c : Char} {s s' : Scanner}

theorem betweenChar_bare (hc : c ∉ ['\'', '"', '\\', '$', '\x60', '#'])
    (ht : Pieces ts (read ++ [c]) tokens) (h : betweenChar tokens c = .ok s') :
    ReadBare ts (read ++ [c]) s' := by
  have hhash : c ≠ '#' := by
    rintro rfl
    simp at hc
  cases hsep : Text.isBlank c || isOperatorChar c with
  | true =>
    cases betweenChar_separator hsep h with
    | newline => exact ⟨ht.newline, .between⟩
    | blank => exact ⟨ht, .between⟩
    | @token t hne =>
      have hp : t.IsPiece (read ++ [c]) := by
        cases t with
        | word w => exact absurd rfl (hne w)
        | _ => trivial
      exact ⟨ht.push hp, .between⟩
    | ampersand => exact ⟨ht, .ampersand⟩
    | bar => exact ⟨ht, .bar⟩
    | greater => exact ⟨ht, .greater⟩
    | less => exact ⟨ht, .less⟩
  | false =>
    rw [Bool.or_eq_false_iff] at hsep
    rw [betweenChar_ordinary hsep.1 (beq_eq_false_iff_ne.mpr hhash) hsep.2, wordChar_bare hc,
      WordDraft.empty_push] at h
    cases h
    exact ⟨ht, .word (List.suffix_append _ _)⟩

theorem bareChar_bare (hc : c ∉ ['\'', '"', '\\', '$', '\x60', '#']) {text : List Char}
    (hs : text <:+ read) (ht : Pieces ts read tokens)
    (h : bareChar tokens (.literal text false) c = .ok s') : ReadBare ts (read ++ [c]) s' := by
  have hread : read <:+: read ++ [c] := (List.prefix_append _ _).isInfix
  have hemit : Pieces ts (read ++ [c]) (emitWord tokens (.literal text false)) := by
    have hp : Token.IsPiece read (.word ⟨[.literal (String.ofList text)], false⟩) :=
      ⟨text, rfl, hs.isInfix⟩
    rw [emitWord_literal]
    exact (ht.push hp).mono hread
  unfold bareChar at h
  split at h
  · exact betweenChar_bare hc hemit h
  split at h
  · split at h
    · cases h
    · exact betweenChar_bare hc hemit h
  · rw [wordChar_bare hc, WordDraft.literal_push] at h
    cases h
    refine ⟨ht.mono hread, .word ?_⟩
    obtain ⟨before, rfl⟩ := hs
    exact ⟨before, by simp⟩

theorem step_readBare (hc : c ∉ ['\'', '"', '\\', '$', '\x60', '#']) (hs : ReadBare ts read s)
    (h : s.step c = .ok s') : ReadBare ts (read ++ [c]) s' := by
  obtain ⟨tokens, m⟩ := s
  obtain ⟨ht, hm⟩ := hs
  have ht' : Pieces ts (read ++ [c]) tokens := ht.mono (List.prefix_append _ _).isInfix
  cases hm with
  | between => exact betweenChar_bare hc ht' h
  | ampersand =>
    simp only [step] at h
    split at h
    · cases h; exact ⟨ht'.push (t := .and) trivial, .between⟩
    · cases h
  | bar =>
    simp only [step] at h
    split at h
    · cases h; exact ⟨ht'.push (t := .or) trivial, .between⟩
    · exact betweenChar_bare hc (ht'.push (t := .pipe) trivial) h
  | greater =>
    simp only [step] at h
    split at h
    · cases h; exact ⟨ht'.push (t := .redirectAppend) trivial, .between⟩
    split at h
    · cases h
    · exact betweenChar_bare hc (ht'.push (t := .redirectOut) trivial) h
  | less =>
    simp only [step] at h
    split at h
    · cases h
    split at h
    · cases h
    · exact betweenChar_bare hc (ht'.push (t := .redirectIn) trivial) h
  | word hsuffix => exact bareChar_bare hc hsuffix ht h

end Step

/-- Reading text without quotes opens none, and makes words of pieces of it. -/
theorem run_bare {ts : List Token} {p : List Char} {s : Scanner} (hp : IsBare p)
    (h : run ⟨ts, .between⟩ p = .ok s) : ReadBare ts p s := by
  have hrun : ∀ (q read : List Char) (r : Scanner), IsBare q → ReadBare ts read r →
      r.run q = .ok s → ReadBare ts (read ++ q) s := by
    intro q
    induction q with
    | nil =>
      intro read r _ hr h
      cases h
      rw [List.append_nil]
      exact hr
    | cons c q ih =>
      intro read r hq hr h
      rw [isBare_cons] at hq
      simp only [run] at h
      cases hc : r.step c with
      | error e => rw [hc] at h; cases h
      | ok r' =>
        rw [hc] at h
        have := ih (read ++ [c]) r' hq.2 (step_readBare hq.1 hr hc) h
        rwa [List.append_assoc] at this
  exact hrun p [] _ hp ⟨⟨[], rfl, by simp⟩, .between⟩ h

/-! ## Blanks -/

theorem betweenChar_blank {c : Char} (h : Text.isBlank c = true) (ts : List Token) :
    ∃ ts', betweenChar ts c = .ok ⟨ts', .between⟩ := by
  by_cases hn : c = '\n'
  · exact ⟨newline ts, by simp [betweenChar, hn]⟩
  · exact ⟨ts, by simp [betweenChar, hn, h]⟩

/-- Between tokens again after a blank. -/
theorem step_open_blank {read : List Char} {s s' : Scanner} {c : Char} (hm : OpenMode read s.mode)
    (hb : Text.isBlank c = true) (h : s.step c = .ok s') : s'.mode = .between := by
  obtain ⟨tokens, m⟩ := s
  have hs : ∀ d, Text.isBlank d = false → (c == d) = false := fun d hd => ne_of_blank hb hd
  have hbetween : ∀ ts, betweenChar ts c = .ok s' → s'.mode = .between := by
    intro ts h
    obtain ⟨ts', ht⟩ := betweenChar_blank hb ts
    rw [ht] at h
    cases h
    rfl
  cases hm with
  | between => exact hbetween _ h
  | ampersand =>
    simp only [step, hs '&' (by decide)] at h
    cases h
  | bar =>
    simp only [step, hs '|' (by decide)] at h
    exact hbetween _ h
  | greater =>
    simp only [step, hs '>' (by decide), hs '&' (by decide), hs '|' (by decide)] at h
    exact hbetween _ h
  | less =>
    simp only [step, hs '<' (by decide), hs '&' (by decide), hs '>' (by decide)] at h
    exact hbetween _ h
  | word _ =>
    simp only [step, bareChar, hb, if_true] at h
    exact hbetween _ h

/-- A blank ends a token as the end of the text does. -/
theorem step_open_space {read : List Char} {s : Scanner} {tokens : List Token}
    (hm : OpenMode read s.mode) (h : s.finish = .ok tokens) :
    s.step ' ' = .ok ⟨tokens, .between⟩ := by
  obtain ⟨ts, m⟩ := s
  cases hm with
  | ampersand => cases h
  | _ => cases h; rfl

end Scanner
end Runnel
