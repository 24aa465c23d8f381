import Runnel.Proofs.Command.Reading

/-!
# Runnel.Proofs.Command.Drafts

What becomes of a word that is being read. Nothing of it is taken back, so the word that comes of
it begins with the segments that are there already, and it counts as quoted if one of the quotes to
come belongs to it.

* `Part.Extends`: segments that come of others when a word is read on.
* `quotesWord`: a quote belongs to the word that the text goes on with.
* `Scanner.readAll_holds`: the next token is the word that is being read.
-/

namespace Runnel

/-! ## Names -/

theorem isWordSafe_of_isNameChar {c : Char} (h : Text.isNameChar c = true) :
    isWordSafe c = true := by
  have hspecial : isShellSpecial c = false := by
    have hname : ("|&;<>()$\x60\\\"'*?[]#~!\x7b\x7d^".toList.all fun d => !Text.isNameChar d) = true :=
      rfl
    rw [isShellSpecial, Bool.eq_false_iff]
    intro hc
    rw [List.contains_iff_mem] at hc
    have hc' := List.all_eq_true.mp hname c hc
    rw [h] at hc'
    cases hc'
  have hrange : 48 ≤ c.toNat ∧ c.toNat ≤ 122 := by
    have hdef : Text.isNameChar c
        = ((decide (65 ≤ c.val ∧ c.val ≤ 90) ||
            (decide (97 ≤ c.val) && decide (c.val ≤ 122)) ||
            decide (48 ≤ c.val) && decide (c.val ≤ 57)) || c == '_') := rfl
    rw [hdef] at h
    simp only [Bool.or_eq_true, Bool.and_eq_true, decide_eq_true_eq, beq_iff_eq,
      UInt32.le_iff_toNat_le] at h
    have hn : c.toNat = c.val.toNat := rfl
    rcases h with ((h | h) | h) | rfl
    · have h1 : 65 ≤ c.val.toNat := h.1
      have h2 : c.val.toNat ≤ 90 := h.2
      omega
    · have h1 : 97 ≤ c.val.toNat := h.1
      have h2 : c.val.toNat ≤ 122 := h.2
      omega
    · have h1 : 48 ≤ c.val.toNat := h.1
      have h2 : c.val.toNat ≤ 57 := h.2
      omega
    · decide
  have hblank : Text.isBlank c = false := by
    simp only [Text.isBlank, Bool.or_eq_false_iff, Bool.and_eq_false_iff, decide_eq_false_iff_not,
      beq_eq_false_iff_ne, Nat.not_le]
    omega
  have hcontrol : Text.isControl c = false := by
    simp only [Text.isControl, Bool.or_eq_false_iff, Bool.and_eq_false_iff, decide_eq_false_iff_not,
      Nat.not_le]
    omega
  simp [isWordSafe, hspecial, hblank, hcontrol]

theorem isNameChar_of_isNameStart {c : Char} (h : Text.isNameStart c = true) :
    Text.isNameChar c = true := by
  simp only [Text.isNameStart, Text.isNameChar, Char.isAlphanum, Bool.or_eq_true] at h ⊢
  exact h.imp_left .inl

/-! ## Words that go on -/

/-- The segments `qs` begin with the segments `ps`, the last of which may have become longer. -/
inductive Part.Extends : List Part → List Part → Prop where
  | nil (qs : List Part) : Extends [] qs
  | literal {t u : String} (h : t.toList <+: u.toList) (qs : List Part) :
      Extends [.literal t] (.literal u :: qs)
  | cons (p : Part) {ps qs : List Part} (h : Extends ps qs) : Extends (p :: ps) (p :: qs)

namespace Part.Extends

theorem refl (ps : List Part) : Extends ps ps := by
  induction ps with
  | nil => exact .nil []
  | cons p ps ih => exact .cons p ih

theorem trans {ps qs rs : List Part} (h : Extends ps qs) (h' : Extends qs rs) : Extends ps rs := by
  induction h generalizing rs with
  | nil => exact .nil rs
  | literal htu =>
    cases h' with
    | literal huv => exact .literal (htu.trans huv) _
    | cons _ _ => exact .literal htu _
  | cons p h ih =>
    cases h' with
    | literal huv =>
      cases h
      exact .literal huv _
    | cons _ h' => exact .cons p (ih h')

theorem append (ps qs : List Part) : Extends ps (ps ++ qs) := by
  induction ps with
  | nil => exact .nil qs
  | cons p ps ih => exact .cons p ih

theorem append_left (ps : List Part) {qs rs : List Part} (h : Extends qs rs) :
    Extends (ps ++ qs) (ps ++ rs) := by
  induction ps with
  | nil => exact h
  | cons p ps ih => exact .cons p ih

/-- A reference does not become longer. -/
theorem of_variable {ps qs : List Part} {name : String} (h : Extends (ps ++ [.variable name]) qs) :
    ∃ more, qs = ps ++ .variable name :: more := by
  induction ps generalizing qs with
  | nil =>
    obtain _ | _ | @⟨_, _, more, _⟩ := h
    exact ⟨more, rfl⟩
  | cons p ps ih =>
    rw [List.cons_append] at h
    generalize htail : ps ++ [.variable name] = tail at h
    cases h with
    | literal => simp at htail
    | cons _ h =>
      obtain ⟨more, rfl⟩ := ih (htail ▸ h)
      exact ⟨more, rfl⟩

/-- Literal text may become longer. -/
theorem of_literal {ps qs : List Part} {t : String} (h : Extends (ps ++ [.literal t]) qs) :
    ∃ u more, qs = ps ++ .literal u :: more ∧ t.toList <+: u.toList := by
  induction ps generalizing qs with
  | nil =>
    rw [List.nil_append] at h
    cases h with
    | literal htu more => exact ⟨_, more, rfl, htu⟩
    | cons _ h => exact ⟨t, _, rfl, List.prefix_rfl⟩
  | cons p ps ih =>
    rw [List.cons_append] at h
    generalize htail : ps ++ [.literal t] = tail at h
    cases h with
    | literal => simp at htail
    | cons _ h =>
      obtain ⟨u, more, rfl, htu⟩ := ih (htail ▸ h)
      exact ⟨u, more, rfl, htu⟩

end Part.Extends

namespace WordDraft

/-- The segments so far, in order. -/
def segments (d : WordDraft) : List Part :=
  d.flushed.reverse

theorem segments_pushVariable (d : WordDraft) (name : String) :
    (d.pushVariable name).segments = d.segments ++ [.variable name] := by
  simp [segments, pushVariable, flushed]

theorem segments_push (d : WordDraft) (c : Char) :
    (d.push c).segments
      = d.parts.reverse ++ [.literal (String.ofList (d.current.reverse ++ [c]))] := by
  simp [segments, push, flushed]

theorem segments_of_current {d : WordDraft} (h : d.current ≠ []) :
    d.segments = d.parts.reverse ++ [.literal (String.ofList d.current.reverse)] := by
  simp [segments, flushed, h]

theorem segments_of_no_current {d : WordDraft} (h : d.current = []) :
    d.segments = d.parts.reverse := by
  simp [segments, flushed, h]

theorem extends_push (d : WordDraft) (c : Char) :
    Part.Extends d.segments (d.push c).segments := by
  rw [segments_push]
  by_cases h : d.current = []
  · rw [segments_of_no_current h]
    exact .append _ _
  · rw [segments_of_current h]
    refine .append_left _ (.literal ?_ [])
    simp

theorem extends_pushVariable (d : WordDraft) (name : String) :
    Part.Extends d.segments (d.pushVariable name).segments := by
  rw [segments_pushVariable]
  exact .append _ _

/-- The word that a draft ends as. -/
theorem finish_of_started {d : WordDraft} (h : d.started = true) :
    ∃ w, d.finish = some w ∧ Part.Extends d.segments w.parts ∧ w.quoted = d.quoted := by
  unfold finish
  simp only [h, Bool.not_true, Bool.false_eq_true, if_false]
  split
  · rename_i hempty
    simp only [Bool.and_eq_true, List.isEmpty_iff] at hempty
    refine ⟨_, rfl, ?_, rfl⟩
    rw [segments_of_no_current hempty.2, hempty.1]
    exact .nil _
  · exact ⟨_, rfl, .refl _, rfl⟩

end WordDraft

/-- A quote belongs to the word that this text goes on with, perhaps right behind a backslash. -/
def quotesWord (escaped : Bool) : List Char → Bool
  | [] => false
  | c :: rest =>
    if escaped then quotesWord false rest
    else if c == '\\' then quotesWord true rest
    else if c == '\'' || c == '"' then true
    else if Text.isBlank c || isOperatorChar c then false
    else quotesWord false rest

theorem quotesWord_safe {c : Char} (h : isWordSafe c = true) (rest : List Char) :
    quotesWord false (c :: rest) = quotesWord false rest := by
  have hs : ∀ d, isShellSpecial d = true → (c == d) = false := fun d hd => ne_of_safe h hd
  simp [quotesWord, not_blank_of_safe h, Scanner.not_operator_of_safe h, hs '\\' (by decide),
    hs '\'' (by decide), hs '"' (by decide)]

namespace Scanner

/-- The mode is that of a reader in the middle of the word of this draft. -/
inductive Holds : ScanMode → WordDraft → Prop where
  | word {d : WordDraft} (h : d.started = true) : Holds (.word d) d
  | wordEscape (d : WordDraft) : Holds (.wordEscape d) d
  | single {d : WordDraft} (h : d.started = true) (hq : d.quoted = true) : Holds (.single d) d
  | double {d : WordDraft} (h : d.started = true) (hq : d.quoted = true) : Holds (.double d) d
  | doubleEscape {d : WordDraft} (h : d.started = true) (hq : d.quoted = true) :
      Holds (.doubleEscape d) d
  | dollar (d : WordDraft) : Holds (.dollar .bare d) d
  | dollarQuoted {d : WordDraft} (h : d.started = true) (hq : d.quoted = true) :
      Holds (.dollar .doubleQuoted d) d
  | name (chars : List Char) (d : WordDraft) : Holds (.name .bare chars d) d
  | nameQuoted (chars : List Char) {d : WordDraft} (h : d.started = true) (hq : d.quoted = true) :
      Holds (.name .doubleQuoted chars d) d

/-- The word of the draft will count as quoted if a reader in this mode goes on with the text. -/
def willQuote (m : ScanMode) (d : WordDraft) (text : List Char) : Bool :=
  match m with
  | .wordEscape _ => d.quoted || quotesWord true text
  | _ => d.quoted || quotesWord false text

/-- If this succeeds, the word of the draft `d` is still being read, behind the tokens `ts`, or it
is the token behind them; and with the text to come it is quoted as `quoted` says. -/
def Continues (ts : List Token) (d : WordDraft) (quoted : List Char → Bool)
    (r : Except SyntaxError Scanner) : Prop :=
  ∀ s, r = .ok s →
    (∃ d', s.tokens = ts ∧ Holds s.mode d' ∧ Part.Extends d.segments d'.segments ∧
      ∀ q, willQuote s.mode d' q = quoted q) ∨
    ∃ w new, s.tokens = new ++ .word w :: ts ∧ Part.Extends d.segments w.parts ∧
      ∀ q, w.quoted = quoted q

namespace Continues

variable {ts : List Token} {d : WordDraft} {quoted : List Char → Bool}

theorem inside {m : ScanMode} {d' : WordDraft} (hm : Holds m d')
    (hd : Part.Extends d.segments d'.segments) (hq : ∀ q, willQuote m d' q = quoted q) :
    Continues ts d quoted (.ok ⟨ts, m⟩) := by
  rintro s ⟨⟩
  exact .inl ⟨d', rfl, hm, hd, hq⟩

theorem error (e : SyntaxError) : Continues ts d quoted (.error e) := by
  rintro s ⟨⟩

theorem extend {d' : WordDraft} {r : Except SyntaxError Scanner}
    (hd : Part.Extends d.segments d'.segments) (h : Continues ts d' quoted r) :
    Continues ts d quoted r := by
  intro s hs
  rcases h s hs with ⟨d'', ht, hm, hd', hq⟩ | ⟨w, new, ht, hw, hq⟩
  · exact .inl ⟨d'', ht, hm, hd.trans hd', hq⟩
  · exact .inr ⟨w, new, ht, hd.trans hw, hq⟩

theorem of_eq {quoted' : List Char → Bool} {r : Except SyntaxError Scanner}
    (h : Continues ts d quoted r) (hq : ∀ q, quoted q = quoted' q) : Continues ts d quoted' r := by
  obtain rfl : quoted = quoted' := funext hq
  exact h

theorem wordChar {c : Char} (hc : (Text.isBlank c || isOperatorChar c) = false) :
    Continues ts d (fun q => d.quoted || quotesWord false (c :: q)) (wordChar ts d c) := by
  unfold Scanner.wordChar
  split
  · rename_i h
    refine .inside (.wordEscape d) (.refl _) fun q => ?_
    simp [willQuote, quotesWord, h]
  split
  · rename_i h
    refine .inside (.single rfl rfl) (.refl _) fun q => ?_
    simp [willQuote, quotesWord, WordDraft.enterQuote, beq_iff_eq.mp h]
  split
  · rename_i h
    refine .inside (.double rfl rfl) (.refl _) fun q => ?_
    simp [willQuote, quotesWord, WordDraft.enterQuote, beq_iff_eq.mp h]
  rename_i hback hsingle hdouble
  have hrest : ∀ q, quotesWord false (c :: q) = quotesWord false q := fun q => by
    simp [quotesWord, hback, hsingle, hdouble, hc]
  split
  · exact .inside (.dollar d) (.refl _) fun q => by simp [willQuote, hrest]
  split
  · exact .error _
  · exact .inside (.word rfl) (d.extends_push c) fun q => by simp [willQuote, hrest, WordDraft.push]

theorem emitted (h : d.started = true) (c : Char) :
    Continues ts d (fun _ => d.quoted) (betweenChar (emitWord ts d) c) := by
  intro s hs
  obtain ⟨w, hw, hparts, hquoted⟩ := WordDraft.finish_of_started h
  obtain ⟨new, ht, -⟩ := betweenChar_frame rfl c s hs
  refine .inr ⟨w, new, ?_, hparts, fun _ => hquoted⟩
  rw [ht, emitWord, hw]

theorem bareChar (h : d.started = true) (c : Char) :
    Continues ts d (fun q => d.quoted || quotesWord false (c :: q)) (bareChar ts d c) := by
  have hends : (Text.isBlank c || isOperatorChar c) = true →
      ∀ q, quotesWord false (c :: q) = false := by
    intro hc q
    have hb : (c == '\\') = false ∧ (c == '\'' || c == '"') = false := by
      have hne : ∀ e, (Text.isBlank e || isOperatorChar e) = false → (c == e) = false := by
        intro e he
        rw [beq_eq_false_iff_ne]
        rintro rfl
        rw [hc] at he
        cases he
      exact ⟨hne _ (by decide), by rw [hne '\'' (by decide), hne '"' (by decide)]; rfl⟩
    simp [quotesWord, hb, hc]
  unfold Scanner.bareChar
  split
  · rename_i hb
    exact (emitted h c).of_eq fun q => by simp [hends (by simp [hb])]
  split
  · rename_i ho
    split
    · exact .error _
    · exact (emitted h c).of_eq fun q => by simp [hends (by simp [ho])]
  · rename_i hb ho
    exact .wordChar (by simp [hb, ho])

/-- Inside double quotes the word is quoted already. -/
theorem doubleChar (h : d.started = true) (hq : d.quoted = true) (c : Char) :
    Continues ts d (fun _ => true) (doubleChar ts d c) := by
  unfold Scanner.doubleChar
  split
  · exact .inside (.word h) (.refl _) fun q => by simp [willQuote, hq]
  split
  · exact .inside (.doubleEscape h hq) (.refl _) fun q => by simp [willQuote, hq]
  split
  · exact .inside (.dollarQuoted h hq) (.refl _) fun q => by simp [willQuote, hq]
  split
  · exact .error _
  · exact .inside (.double rfl hq) (d.extends_push c) fun q => by
      simp [willQuote, hq, WordDraft.push]

theorem step {m : ScanMode} (hm : Holds m d) (c : Char) :
    Continues ts d (fun q => willQuote m d (c :: q)) (step ⟨ts, m⟩ c) := by
  have hdouble : ∀ {d' : WordDraft}, d'.started = true → d'.quoted = true →
      Part.Extends d.segments d'.segments → d.quoted = true →
      Continues ts d (fun q => d.quoted || quotesWord false (c :: q))
        (Scanner.doubleChar ts d' c) :=
    fun hstarted hquoted hd hq =>
      .extend hd ((doubleChar hstarted hquoted c).of_eq fun q => by simp [hq])
  cases hm with
  | word h => exact bareChar h c
  | wordEscape =>
    simp only [Scanner.step]
    split
    · exact .inside (.word rfl) (.refl _) fun q => by simp [willQuote, quotesWord, WordDraft.touch]
    · exact .inside (.word rfl) (d.extends_push c) fun q => by
        simp [willQuote, quotesWord, WordDraft.push]
  | single h hq =>
    simp only [Scanner.step]
    split
    · exact .inside (.word h) (.refl _) fun q => by simp [willQuote, hq]
    · exact .inside (.single rfl hq) (d.extends_push c) fun q => by
        simp [willQuote, hq, WordDraft.push]
  | double h hq => exact hdouble h hq (.refl _) hq
  | doubleEscape h hq =>
    simp only [Scanner.step]
    split
    · exact .inside (.double rfl hq) (d.extends_push c) fun q => by
        simp [willQuote, hq, WordDraft.push]
    split
    · exact .inside (.double h hq) (.refl _) fun q => by simp [willQuote, hq]
    · have hpush := (d.extends_push '\\').trans (WordDraft.extends_push _ c)
      exact .inside (.double rfl hq) hpush fun q => by simp [willQuote, hq, WordDraft.push]
  | dollar =>
    simp only [Scanner.step]
    split
    · exact .error _
    split
    · exact .error _
    split
    · rename_i hc
      obtain rfl := beq_iff_eq.mp hc
      exact .inside (.word rfl) (d.extends_pushVariable "?") fun q => by
        simp only [willQuote, WordDraft.pushVariable]
        rfl
    split
    · rename_i hc
      have hsafe := isWordSafe_of_isNameChar (isNameChar_of_isNameStart hc)
      exact .inside (.name _ d) (.refl _) fun q => by simp only [willQuote, quotesWord_safe hsafe]
    · exact .extend (d.extends_push '$') (bareChar rfl c)
  | dollarQuoted h hq =>
    simp only [Scanner.step]
    split
    · exact .error _
    split
    · exact .error _
    split
    · exact .inside (.double rfl hq) (d.extends_pushVariable "?") fun q => by
        simp [willQuote, hq, WordDraft.pushVariable]
    split
    · exact .inside (.nameQuoted _ h hq) (.refl _) fun q => by simp [willQuote, hq]
    · exact hdouble rfl hq (d.extends_push '$') hq
  | name =>
    simp only [Scanner.step]
    split
    · rename_i hc
      have hsafe := isWordSafe_of_isNameChar hc
      exact .inside (.name _ d) (.refl _) fun q => by simp only [willQuote, quotesWord_safe hsafe]
    · exact .extend (d.extends_pushVariable _) (bareChar rfl c)
  | nameQuoted chars h hq =>
    simp only [Scanner.step]
    split
    · exact .inside (.nameQuoted _ h hq) (.refl _) fun q => by simp [willQuote, hq]
    · exact hdouble rfl hq (d.extends_pushVariable _) hq

end Continues

theorem finish_holds {ts read : List Token} {m : ScanMode} {d : WordDraft} (hm : Holds m d)
    (h : finish ⟨ts, m⟩ = .ok read) :
    ∃ w, read = .word w :: ts ∧ Part.Extends d.segments w.parts ∧ w.quoted = willQuote m d [] := by
  have hemit : ∀ d' : WordDraft, d'.started = true → d'.quoted = d.quoted →
      Part.Extends d.segments d'.segments →
      (.ok (emitWord ts d') : Except SyntaxError _) = .ok read →
      ∃ w, read = .word w :: ts ∧ Part.Extends d.segments w.parts ∧ w.quoted = d.quoted := by
    rintro d' hstarted hq hd ⟨⟩
    obtain ⟨w, hw, hparts, hquoted⟩ := WordDraft.finish_of_started hstarted
    exact ⟨w, by rw [emitWord, hw], hd.trans hparts, by rw [hquoted, hq]⟩
  have hnone : ∀ {w : Word}, w.quoted = d.quoted → w.quoted = (d.quoted || false) :=
    fun h => by rw [h, Bool.or_false]
  cases hm with
  | word hstarted =>
    obtain ⟨w, hw, hd, hq⟩ := hemit d hstarted rfl (.refl _) h
    exact ⟨w, hw, hd, hnone hq⟩
  | wordEscape =>
    obtain ⟨w, hw, hd, hq⟩ := hemit (d.push '\\') rfl rfl (d.extends_push _) h
    exact ⟨w, hw, hd, hnone hq⟩
  | dollar =>
    obtain ⟨w, hw, hd, hq⟩ := hemit (d.push '$') rfl rfl (d.extends_push _) h
    exact ⟨w, hw, hd, hnone hq⟩
  | name chars =>
    obtain ⟨w, hw, hd, hq⟩ := hemit (d.pushVariable _) rfl rfl (d.extends_pushVariable _) h
    exact ⟨w, hw, hd, hnone hq⟩
  | single | double | doubleEscape | dollarQuoted | nameQuoted => cases h

/-- The next token is the word that is being read. -/
theorem readAll_holds {ts read : List Token} {m : ScanMode} {d : WordDraft} {q : List Char}
    (hm : Holds m d) (h : readAll ⟨ts, m⟩ q = .ok read) :
    ∃ w new, read = new ++ .word w :: ts ∧ Part.Extends d.segments w.parts ∧
      w.quoted = willQuote m d q := by
  induction q generalizing m d with
  | nil =>
    obtain ⟨w, rfl, hd, hq⟩ := finish_holds hm h
    exact ⟨w, [], rfl, hd, hq⟩
  | cons c q ih =>
    cases hc : step ⟨ts, m⟩ c with
    | error e => simp only [readAll, run, hc] at h; cases h
    | ok s =>
      obtain ⟨ts', m'⟩ := s
      rw [readAll_cons hc] at h
      rcases Continues.step hm c _ hc with ⟨d', ht, hm', hd, hq⟩ | ⟨w, new, ht, hd, hq⟩
      · obtain rfl : ts' = ts := ht
        obtain ⟨w, new, rfl, hd', hq'⟩ := ih hm' h
        exact ⟨w, new, rfl, hd.trans hd', hq'.trans (hq q)⟩
      · obtain rfl : ts' = new ++ .word w :: ts := ht
        obtain ⟨more, rfl, -⟩ := readAll_frame rfl h
        exact ⟨w, more ++ new, by simp, hd, hq q⟩

end Scanner
end Runnel
