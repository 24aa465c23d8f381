import Runnel.Command.Token
import Runnel.Proofs.Command.Deferring

/-!
# Runnel.Proofs.Command.Globs

Globs and tildes that are left for a real shell. Two readers go over the same text: the one of
`needsRealShell`, which knows no comments, and the one of `scan`, which takes globs for plain text.

* `InStep`: where the two readers stand at the same place of a text.
* `commentsClose`: at the end of each comment the first reader is outside of quotes.
* `scan_plainTokens`: exactly then no glob and no tilde is taken for plain text.
-/

namespace Runnel

/-- A character of a glob. -/
def isGlobChar (c : Char) : Bool :=
  c == '*' || c == '?' || c == '['

/-- No literal part of the word holds a glob, and it does not begin with a literal tilde. -/
structure Word.IsPlain (w : Word) : Prop where
  /-- No literal part holds a glob. -/
  glob : ∀ text, .literal text ∈ w.parts → ∀ c ∈ text.toList, isGlobChar c = false
  /-- The word does not begin with a tilde. -/
  tilde : ∀ text, w.parts.head? = some (.literal text) → text.toList.head? ≠ some '~'

/-- The words without quotes among these tokens are plain. -/
def PlainTokens (tokens : List Token) : Prop :=
  ∀ w, .word w ∈ tokens → w.quoted = false → w.IsPlain

theorem plainTokens_cons {t : Token} {tokens : List Token}
    (ht : ∀ w, t = .word w → w.quoted = false → w.IsPlain) (h : PlainTokens tokens) :
    PlainTokens (t :: tokens) := by
  intro w hw
  rcases List.mem_cons.mp hw with rfl | hw
  · exact ht w rfl
  · exact h w hw

theorem plainTokens_newline {tokens : List Token} (h : PlainTokens tokens) :
    PlainTokens (Scanner.newline tokens) := by
  rw [Scanner.newline_eq]
  split
  · exact plainTokens_cons (fun w hw => by cases hw) h
  · exact h

/-! ## Drafts -/

namespace WordDraft

/-- Nothing was read yet that stands for anything. -/
def IsBlank (d : WordDraft) : Prop :=
  d.parts = [] ∧ d.current = []

/-- A word without globs, and without a tilde in front. Both are all right once there are quotes. -/
structure IsPlain (d : WordDraft) : Prop where
  /-- The complete parts hold no glob. -/
  parts : ∀ text, .literal text ∈ d.parts → ∀ c ∈ text.toList, isGlobChar c = false
  /-- The part that is being read holds no glob. -/
  current : ∀ c ∈ d.current, isGlobChar c = false
  /-- The first part does not begin with a tilde. -/
  first : ∀ text, d.parts.getLast? = some (.literal text) → text.toList.head? ≠ some '~'
  /-- The part that is being read does not begin with a tilde, if it is the first one. -/
  start : d.parts = [] → d.current.getLast? ≠ some '~'

/-- The word has quotes or is plain. -/
def Sound (d : WordDraft) : Prop :=
  d.quoted = true ∨ d.IsPlain

theorem isPlain_empty : empty.IsPlain := by
  constructor <;> simp [empty]

theorem IsPlain.push {d : WordDraft} (h : d.IsPlain) {c : Char} (hg : isGlobChar c = false)
    (ht : c = '~' → ¬ d.IsBlank) : (d.push c).IsPlain := by
  refine ⟨h.parts, ?_, h.first, ?_⟩
  · intro e he
    rcases List.mem_cons.mp he with rfl | he
    · exact hg
    · exact h.current e he
  · intro hp
    cases hc : d.current with
    | nil =>
      intro hlast
      have hlast : c = '~' := by simpa [WordDraft.push, hc] using hlast
      exact ht hlast ⟨hp, hc⟩
    | cons e rest =>
      have hstart := h.start hp
      simp only [WordDraft.push, hc, List.getLast?_cons_cons] at hstart ⊢
      exact hstart

theorem IsPlain.flushed {d : WordDraft} (h : d.IsPlain) {text : String}
    (ht : .literal text ∈ d.flushed) : ∀ c ∈ text.toList, isGlobChar c = false := by
  unfold WordDraft.flushed at ht
  split at ht
  · exact h.parts text ht
  · rcases List.mem_cons.mp ht with ht | ht
    · cases ht
      intro c hc
      exact h.current c (by simpa using hc)
    · exact h.parts text ht

theorem IsPlain.flushed_first {d : WordDraft} (h : d.IsPlain) {text : String}
    (ht : d.flushed.getLast? = some (.literal text)) : text.toList.head? ≠ some '~' := by
  unfold WordDraft.flushed at ht
  split at ht
  · exact h.first text ht
  · cases hp : d.parts with
    | nil =>
      rw [hp] at ht
      cases ht
      have hstart := h.start hp
      rwa [String.toList_ofList, List.head?_reverse]
    | cons p rest =>
      rw [hp, List.getLast?_cons_cons, ← hp] at ht
      exact h.first text ht

theorem IsPlain.pushVariable {d : WordDraft} (h : d.IsPlain) (name : String) :
    (d.pushVariable name).IsPlain := by
  refine ⟨?_, by simp [WordDraft.pushVariable], ?_, by simp [WordDraft.pushVariable]⟩
  · intro text ht
    rcases List.mem_cons.mp ht with ht | ht
    · cases ht
    · exact h.flushed ht
  · intro text ht
    cases hf : d.flushed with
    | nil =>
      simp [WordDraft.pushVariable, hf] at ht
    | cons p rest =>
      simp only [WordDraft.pushVariable, hf, List.getLast?_cons_cons] at ht
      rw [← hf] at ht
      exact h.flushed_first ht

theorem IsPlain.finish {d : WordDraft} (h : d.IsPlain) {w : Word} (hw : d.finish = some w) :
    w.IsPlain := by
  unfold WordDraft.finish at hw
  split at hw
  · cases hw
  split at hw
  · cases hw
    constructor <;> simp
  · cases hw
    refine ⟨fun text ht => h.flushed (by simpa using ht), fun text ht => h.flushed_first ?_⟩
    rwa [List.head?_reverse] at ht

theorem Sound.finish {d : WordDraft} (h : d.Sound) {w : Word} (hw : d.finish = some w)
    (hq : w.quoted = false) : w.IsPlain := by
  rcases h with h | h
  · have hquoted : w.quoted = d.quoted := by
      unfold WordDraft.finish at hw
      split at hw
      · cases hw
      split at hw
      · cases hw
        rfl
      · cases hw
        rfl
    rw [hquoted, h] at hq
    cases hq
  · exact h.finish hw

end WordDraft
/-! ## The reader of deferred text -/

namespace DeferralState

/-- At the question mark of a reference, in or outside of double quotes. -/
def atQuestion (inDouble : Bool) : DeferralState :=
  ⟨false, inDouble, false, true, false⟩

/-- Behind `c`, which stood outside of quotes before `next`. -/
inductive FromOutside (w : Bool) (c : Char) (next : Option Char) : DeferralState → Prop where
  | question : c = '$' → next = some '?' → FromOutside w c next (atQuestion false)
  | plain : ¬ (c = '$' ∧ next = some '?') → isDeferred w c next = false →
      FromOutside w c next ⟨c == '\'', c == '"', false, false, separates c⟩

theorem fromOutside {w : Bool} {c : Char} {next : Option Char} {s : DeferralState}
    (hc : c ≠ '\\') (h : (outside w).step c next = some s) : FromOutside w c next s := by
  have hc' : (c == '\\') = false := beq_eq_false_iff_ne.mpr hc
  change step ⟨false, false, false, false, w⟩ c next = some s at h
  simp only [step, hc', Bool.false_eq_true, if_false] at h
  split at h
  · cases h
  split at h
  · rename_i hq
    cases h
    simp only [Bool.and_eq_true, beq_iff_eq] at hq
    exact .question hq.1 hq.2
  split at h
  · cases h
  · rename_i hq hd
    cases h
    exact .plain (by simpa using hq) (by simpa using hd)

/-- Behind `c`, which stood in double quotes before `next`. -/
inductive FromDouble (w : Bool) (c : Char) (next : Option Char) : DeferralState → Prop where
  | question : c = '$' → next = some '?' → FromDouble w c next (atQuestion true)
  | close : c = '"' → FromDouble w c next (outside w)
  | plain : ¬ (c = '$' ∧ next = some '?') → c ≠ '"' →
      FromDouble w c next ⟨false, true, false, false, w⟩

theorem fromDouble {w : Bool} {c : Char} {next : Option Char} {s : DeferralState}
    (hc : c ≠ '\\') (h : step ⟨false, true, false, false, w⟩ c next = some s) :
    FromDouble w c next s := by
  have hc' : (c == '\\') = false := beq_eq_false_iff_ne.mpr hc
  simp only [step, hc', Bool.false_eq_true, if_false, if_true] at h
  split at h
  · cases h
  split at h
  · rename_i hq
    cases h
    simp only [Bool.and_eq_true, beq_iff_eq] at hq
    exact .question hq.1 hq.2
  · rename_i hq
    split at h
    · rename_i hd
      cases h
      exact .close (by simpa using hd)
    · rename_i hd
      cases h
      exact .plain (by simpa using hq) (by simpa using hd)

/-- Without backslashes nothing is escaped, and only a question mark is skipped. -/
theorem step_escaped {s s' : DeferralState} {c : Char} {next : Option Char}
    (hs : s.escaped = false) (hc : c ≠ '\\') (h : s.step c next = some s') :
    s'.escaped = false ∧ (s'.skipping = true → next = some '?') := by
  have hc' : (c == '\\') = false := beq_eq_false_iff_ne.mpr hc
  obtain ⟨inSingle, inDouble, escaped, skipping, w⟩ := s
  obtain rfl : escaped = false := hs
  simp only [step, hc', Bool.false_eq_true, if_false] at h
  split at h
  · cases h
    exact ⟨rfl, fun hskip => by cases hskip⟩
  rename_i hnot
  have hnot : ∀ p : Prop, skipping = true → p := fun p hskip => absurd hskip hnot
  split at h
  · cases h
    split
    · exact ⟨rfl, hnot _⟩
    · exact ⟨rfl, hnot _⟩
  split at h
  · cases h
  split at h
  · rename_i hq
    cases h
    simp only [Bool.and_eq_true, beq_iff_eq] at hq
    exact ⟨rfl, fun _ => hq.2⟩
  split at h
  · cases h
    split
    · exact ⟨rfl, hnot _⟩
    · exact ⟨rfl, hnot _⟩
  split at h
  · cases h
  · cases h
    exact ⟨rfl, hnot _⟩

theorem not_glob_of_not_deferred {w : Bool} {c : Char} {next : Option Char}
    (h : isDeferred w c next = false) : isGlobChar c = false := by
  simp only [isDeferred, Bool.or_eq_false_iff] at h
  simp only [isGlobChar, h.1.1.1.1.1.1.1, h.1.1.1.1.1.1.2, h.1.1.1.1.1.2, Bool.or_self]

theorem not_start_of_not_deferred {w : Bool} {c : Char} {next : Option Char}
    (h : isDeferred w c next = false) (hc : c = '~') : w = false := by
  simp only [isDeferred, Bool.or_eq_false_iff] at h
  simpa [hc] using h.1.1.1.1.2

end DeferralState

/-! ## In step -/

/-- Where both readers stand before `next`, behind the same text without a backslash. -/
inductive InStep (next : Option Char) : ScanMode → DeferralState → Prop where
  | between : InStep next .between (.outside true)
  | ampersand : InStep next .ampersand (.outside true)
  | bar : InStep next .bar (.outside true)
  | greater : InStep next .greater (.outside true)
  | less : InStep next .less (.outside true)
  | word {d : WordDraft} {w : Bool} :
      d.Sound → (¬ d.IsBlank ∨ d.quoted = true) → InStep next (.word d) (.outside w)
  | single {d : WordDraft} {w : Bool} :
      d.quoted = true → InStep next (.single d) ⟨true, false, false, false, w⟩
  | double {d : WordDraft} {w : Bool} :
      d.quoted = true → InStep next (.double d) ⟨false, true, false, false, w⟩
  | question {d : WordDraft} :
      d.Sound → next = some '?' → InStep next (.dollar .bare d) (.atQuestion false)
  | dollar {d : WordDraft} {w : Bool} :
      d.Sound → next ≠ some '?' → InStep next (.dollar .bare d) (.outside w)
  | quotedQuestion {d : WordDraft} :
      d.quoted = true → next = some '?' → InStep next (.dollar .doubleQuoted d) (.atQuestion true)
  | quotedDollar {d : WordDraft} {w : Bool} :
      d.quoted = true → next ≠ some '?' →
      InStep next (.dollar .doubleQuoted d) ⟨false, true, false, false, w⟩
  | name {d : WordDraft} {w : Bool} {chars : List Char} :
      d.Sound → InStep next (.name .bare chars d) (.outside w)
  | quotedName {d : WordDraft} {w : Bool} {chars : List Char} :
      d.quoted = true → InStep next (.name .doubleQuoted chars d) ⟨false, true, false, false, w⟩
  | comment {s : DeferralState} :
      s.escaped = false → (s.skipping = true → next = some '?') → InStep next .comment s

/-- A reader of words and the reader of deferred text, in step, behind plain words. -/
structure Sane (next : Option Char) (s : Scanner) (d : DeferralState) : Prop where
  /-- They are in step. -/
  inStep : InStep next s.mode d
  /-- The words so far are plain. -/
  plain : PlainTokens s.tokens

theorem separates_eq (c : Char) :
    DeferralState.separates c = (Text.isBlank c || isOperatorChar c) := by
  rw [Bool.eq_iff_iff]
  simp only [DeferralState.separates, isOperatorChar, Bool.or_eq_true]
  grind

theorem step_separator {w : Bool} {c : Char} {next : Option Char} {d : DeferralState}
    (hc : DeferralState.separates c = true) (h : (DeferralState.outside w).step c next = some d) :
    d = .outside true := by
  have hne : ∀ e, DeferralState.separates e = false → c ≠ e := by
    rintro e he rfl
    rw [hc] at he
    cases he
  cases DeferralState.fromOutside (hne '\\' (by decide)) h with
  | question hq => exact absurd hq (hne '$' (by decide))
  | plain =>
    rw [hc, beq_eq_false_iff_ne.mpr (hne '\'' (by decide)),
      beq_eq_false_iff_ne.mpr (hne '"' (by decide))]
    rfl

namespace Sane

variable {w : Bool} {c : Char} {next : Option Char} {d' : DeferralState} {s' : Scanner}
  {ts : List Token} {d : WordDraft}

theorem emitWord (hd : d.Sound) (ht : PlainTokens ts) : PlainTokens (Scanner.emitWord ts d) := by
  unfold Scanner.emitWord
  split
  · rename_i w hw
    refine plainTokens_cons (fun w' heq => ?_) ht
    cases heq
    exact hd.finish hw
  · exact ht

/-- A character that ends words. -/
theorem separator (hc : DeferralState.separates c = true) (ht : PlainTokens ts)
    (hs : Scanner.betweenChar ts c = .ok s') (h : (DeferralState.outside w).step c next = some d') :
    Sane next s' d' := by
  obtain rfl := step_separator hc h
  rw [separates_eq] at hc
  cases Scanner.betweenChar_separator hc hs with
  | newline => exact ⟨.between, plainTokens_newline ht⟩
  | blank => exact ⟨.between, ht⟩
  | token hne => exact ⟨.between, plainTokens_cons (fun w hw => absurd hw (hne w)) ht⟩
  | ampersand => exact ⟨.ampersand, ht⟩
  | bar => exact ⟨.bar, ht⟩
  | greater => exact ⟨.greater, ht⟩
  | less => exact ⟨.less, ht⟩

theorem sound_push (hd : d.Sound) (hg : isGlobChar c = false)
    (hc : c = '~' → ¬ d.IsBlank ∨ d.quoted = true) : (d.push c).Sound := by
  rcases hd with hq | hd
  · exact .inl hq
  · by_cases hq : d.quoted = true
    · exact .inl hq
    · exact .inr (hd.push hg fun h => (hc h).resolve_right hq)

/-- A character of a word. -/
theorem wordChar (hc : c ≠ '\\') (ht : PlainTokens ts) (hd : d.Sound)
    (hstart : w = true ∨ ¬ d.IsBlank ∨ d.quoted = true)
    (hs : Scanner.wordChar ts d c = .ok s') (h : (DeferralState.outside w).step c next = some d') :
    Sane next s' d' := by
  unfold Scanner.wordChar at hs
  split at hs
  · rename_i h1
    exact absurd (beq_iff_eq.mp h1) hc
  split at hs
  · rename_i h2
    obtain rfl := beq_iff_eq.mp h2
    cases hs
    cases h
    exact ⟨.single rfl, ht⟩
  split at hs
  · rename_i h3
    obtain rfl := beq_iff_eq.mp h3
    cases hs
    cases h
    exact ⟨.double rfl, ht⟩
  split at hs
  · rename_i h4
    obtain rfl := beq_iff_eq.mp h4
    cases hs
    cases DeferralState.fromOutside hc h with
    | question _ hq => exact ⟨.question hd hq, ht⟩
    | plain hq => exact ⟨.dollar hd (fun h => hq ⟨rfl, h⟩), ht⟩
  split at hs
  · cases hs
  · rename_i h2 h3 h4 _
    cases hs
    cases DeferralState.fromOutside hc h with
    | question hq => exact absurd (by rw [hq]; rfl) h4
    | plain _ hdef =>
      have h2 : (c == '\'') = false := by simpa using h2
      have h3 : (c == '"') = false := by simpa using h3
      rw [h2, h3]
      refine ⟨.word (sound_push hd (DeferralState.not_glob_of_not_deferred hdef) fun htilde => ?_)
        (.inl ?_), ht⟩
      · rcases hstart with hw | hstart
        · rw [DeferralState.not_start_of_not_deferred hdef htilde] at hw
          cases hw
        · exact hstart
      · rintro ⟨-, hcur⟩
        cases hcur

/-- A character in a word outside of quotes. -/
theorem bareChar (hc : c ≠ '\\') (ht : PlainTokens ts) (hd : d.Sound)
    (hstart : ¬ d.IsBlank ∨ d.quoted = true)
    (hs : Scanner.bareChar ts d c = .ok s') (h : (DeferralState.outside w).step c next = some d') :
    Sane next s' d' := by
  unfold Scanner.bareChar at hs
  split at hs
  · rename_i hb
    exact separator (by rw [separates_eq, hb]; rfl) (emitWord hd ht) hs h
  split at hs
  · rename_i ho
    split at hs
    · cases hs
    · exact separator (by rw [separates_eq, ho, Bool.or_true]) (emitWord hd ht) hs h
  · exact wordChar hc ht hd (.inr hstart) hs h

/-- A character in double quotes. -/
theorem doubleChar (hc : c ≠ '\\') (ht : PlainTokens ts) (hd : d.quoted = true)
    (hs : Scanner.doubleChar ts d c = .ok s')
    (h : DeferralState.step ⟨false, true, false, false, w⟩ c next = some d') : Sane next s' d' := by
  unfold Scanner.doubleChar at hs
  split at hs
  · rename_i h1
    cases hs
    obtain rfl := beq_iff_eq.mp h1
    cases DeferralState.fromDouble hc h with
    | question hq => cases hq
    | close => exact ⟨.word (.inl hd) (.inr hd), ht⟩
    | plain _ hne => exact absurd rfl hne
  split at hs
  · rename_i h2
    exact absurd (beq_iff_eq.mp h2) hc
  split at hs
  · rename_i h3
    cases hs
    obtain rfl := beq_iff_eq.mp h3
    cases DeferralState.fromDouble hc h with
    | question _ hq => exact ⟨.quotedQuestion hd hq, ht⟩
    | close hq => cases hq
    | plain hq => exact ⟨.quotedDollar hd (fun h => hq ⟨rfl, h⟩), ht⟩
  split at hs
  · cases hs
  · rename_i h1 _ h3 _
    cases hs
    cases DeferralState.fromDouble hc h with
    | question hq => exact absurd (by rw [hq]; rfl) h3
    | close hq => exact absurd (by rw [hq]; rfl) h1
    | plain => exact ⟨.double hd, ht⟩

/-- A character between two tokens. -/
theorem betweenChar (hc : c ≠ '\\') (ht : PlainTokens ts)
    (hs : Scanner.betweenChar ts c = .ok s')
    (h : (DeferralState.outside true).step c next = some d') : Sane next s' d' := by
  cases hsep : DeferralState.separates c with
  | true => exact separator hsep ht hs h
  | false =>
    rw [separates_eq, Bool.or_eq_false_iff] at hsep
    by_cases hhash : c = '#'
    · subst hhash
      cases hs
      cases DeferralState.fromOutside hc h with
      | question hq => cases hq
      | plain => exact ⟨.comment rfl (fun hskip => by cases hskip), ht⟩
    · rw [Scanner.betweenChar_ordinary hsep.1 (beq_eq_false_iff_ne.mpr hhash) hsep.2] at hs
      exact wordChar hc ht (.inr WordDraft.isPlain_empty) (.inl rfl) hs h

theorem not_quote_of_nameStart (h : Text.isNameStart c = true) :
    c ≠ '$' ∧ (c == '\'') = false ∧ (c == '"') = false := by
  have hne : ∀ e, Text.isNameStart e = false → c ≠ e := by
    rintro e he rfl
    rw [h] at he
    cases he
  exact ⟨hne '$' (by decide), beq_eq_false_iff_ne.mpr (hne '\'' (by decide)),
    beq_eq_false_iff_ne.mpr (hne '"' (by decide))⟩

theorem not_quote_of_nameChar (h : Text.isNameChar c = true) :
    c ≠ '$' ∧ (c == '\'') = false ∧ (c == '"') = false := by
  have hne : ∀ e, Text.isNameChar e = false → c ≠ e := by
    rintro e he rfl
    rw [h] at he
    cases he
  exact ⟨hne '$' (by decide), beq_eq_false_iff_ne.mpr (hne '\'' (by decide)),
    beq_eq_false_iff_ne.mpr (hne '"' (by decide))⟩

/-- A character that means nothing to the reader of deferred text, outside of quotes. -/
theorem unquoted {d'' : WordDraft} {chars : List Char} (hc : c ≠ '\\')
    (hne : c ≠ '$' ∧ (c == '\'') = false ∧ (c == '"') = false)
    (ht : PlainTokens ts) (hd : d''.Sound) (h : (DeferralState.outside w).step c next = some d') :
    Sane next ⟨ts, .name .bare chars d''⟩ d' := by
  cases DeferralState.fromOutside hc h with
  | question hq => exact absurd hq hne.1
  | plain =>
    rw [hne.2.1, hne.2.2]
    exact ⟨.name hd, ht⟩

/-- A character that means nothing to the reader of deferred text, in double quotes. -/
theorem doubleQuoted {d'' : WordDraft} {chars : List Char} (hc : c ≠ '\\')
    (hne : c ≠ '$' ∧ (c == '\'') = false ∧ (c == '"') = false)
    (ht : PlainTokens ts) (hd : d''.quoted = true)
    (h : DeferralState.step ⟨false, true, false, false, w⟩ c next = some d') :
    Sane next ⟨ts, .name .doubleQuoted chars d''⟩ d' := by
  cases DeferralState.fromDouble hc h with
  | question hq => exact absurd hq hne.1
  | close hq => exact absurd hne.2.2 (by rw [hq]; decide)
  | plain => exact ⟨.quotedName hd, ht⟩

theorem not_blank_push (d : WordDraft) (c : Char) : ¬ (d.push c).IsBlank := by
  rintro ⟨-, h⟩
  cases h

theorem not_blank_pushVariable (d : WordDraft) (name : String) : ¬ (d.pushVariable name).IsBlank := by
  rintro ⟨h, -⟩
  cases h

theorem sound_pushVariable (hd : d.Sound) (name : String) : (d.pushVariable name).Sound := by
  rcases hd with hd | hd
  · exact .inl hd
  · exact .inr (hd.pushVariable name)

theorem sound_dollar (hd : d.Sound) : (d.push '$').Sound :=
  sound_push hd (by decide) fun h => by cases h

/-- Both readers stay in step, and the words plain, if a comment ends outside of quotes. -/
theorem step {s : Scanner} {d : DeferralState} (h : Sane (some c) s d) (hc : c ≠ '\\')
    (hcomment : s.mode = .comment → c = '\n' → d.inSingle = false ∧ d.inDouble = false)
    (hs : s.step c = .ok s') (hd : d.step c next = some d') : Sane next s' d' := by
  obtain ⟨ts, m⟩ := s
  obtain ⟨hin, ht⟩ := h
  replace ht : PlainTokens ts := ht
  have push : ∀ t : Token, (∀ w, t ≠ .word w) → PlainTokens (t :: ts) :=
    fun t hne => plainTokens_cons (fun w hw => absurd hw (hne w)) ht
  cases hin with
  | between => exact betweenChar hc ht hs hd
  | ampersand =>
    simp only [Scanner.step] at hs
    split at hs
    · rename_i hamp
      obtain rfl := beq_iff_eq.mp hamp
      cases hs
      obtain rfl := step_separator (by decide) hd
      exact ⟨.between, push _ (by simp)⟩
    · cases hs
  | bar =>
    simp only [Scanner.step] at hs
    split at hs
    · rename_i hbar
      obtain rfl := beq_iff_eq.mp hbar
      cases hs
      obtain rfl := step_separator (by decide) hd
      exact ⟨.between, push _ (by simp)⟩
    · exact betweenChar hc (push _ (by simp)) hs hd
  | greater =>
    simp only [Scanner.step] at hs
    split at hs
    · rename_i hgreater
      obtain rfl := beq_iff_eq.mp hgreater
      cases hs
      obtain rfl := step_separator (by decide) hd
      exact ⟨.between, push _ (by simp)⟩
    split at hs
    · cases hs
    · exact betweenChar hc (push _ (by simp)) hs hd
  | less =>
    simp only [Scanner.step] at hs
    split at hs
    · cases hs
    split at hs
    · cases hs
    · exact betweenChar hc (push _ (by simp)) hs hd
  | word hsound hstart => exact bareChar hc ht hsound hstart hs hd
  | single hq =>
    simp only [Scanner.step] at hs
    split at hs
    · rename_i hquote
      obtain rfl := beq_iff_eq.mp hquote
      cases hs
      cases hd
      exact ⟨.word (.inl hq) (.inr hq), ht⟩
    · rename_i hquote
      cases hs
      have hquote : (c == '\'') = false := by simpa using hquote
      simp only [DeferralState.step, hquote] at hd
      cases hd
      exact ⟨.single hq, ht⟩
  | double hq => exact doubleChar hc ht hq hs hd
  | question hsound hnext =>
    cases hnext
    cases hs
    cases hd
    exact ⟨.word (sound_pushVariable hsound _) (.inl (not_blank_pushVariable _ _)), ht⟩
  | dollar hsound hnext =>
    have hq : (c == '?') = false := beq_eq_false_iff_ne.mpr fun h => hnext (by rw [h])
    simp only [Scanner.step, hq] at hs
    split at hs
    · cases hs
    split at hs
    · cases hs
    split at hs
    · rename_i hcontra
      cases hcontra
    split at hs
    · rename_i hname
      cases hs
      exact unquoted hc (not_quote_of_nameStart hname) ht hsound hd
    · exact bareChar hc ht (sound_dollar hsound) (.inl (not_blank_push _ _)) hs hd
  | quotedQuestion hq hnext =>
    cases hnext
    cases hs
    cases hd
    exact ⟨.double hq, ht⟩
  | @quotedDollar d'' w hq hnext =>
    have hne : (c == '?') = false := beq_eq_false_iff_ne.mpr fun h => hnext (by rw [h])
    simp only [Scanner.step, hne] at hs
    split at hs
    · cases hs
    split at hs
    · cases hs
    split at hs
    · rename_i hcontra
      cases hcontra
    split at hs
    · rename_i hname
      cases hs
      exact doubleQuoted hc (not_quote_of_nameStart hname) ht hq hd
    · have hq' : (d''.push '$').quoted = true := hq
      exact doubleChar hc ht hq' hs hd
  | name hsound =>
    simp only [Scanner.step] at hs
    split at hs
    · rename_i hname
      cases hs
      exact unquoted hc (not_quote_of_nameChar hname) ht hsound hd
    · exact bareChar hc ht (sound_pushVariable hsound _) (.inl (not_blank_pushVariable _ _)) hs hd
  | @quotedName d'' w chars hq =>
    simp only [Scanner.step] at hs
    split at hs
    · rename_i hname
      cases hs
      exact doubleQuoted hc (not_quote_of_nameChar hname) ht hq hd
    · have hq' : (d''.pushVariable (String.ofList chars.reverse)).quoted = true := hq
      exact doubleChar hc ht hq' hs hd
  | comment hesc hskip =>
    simp only [Scanner.step] at hs
    split at hs
    · rename_i hline
      obtain rfl := beq_iff_eq.mp hline
      obtain ⟨hsingle, hdouble⟩ := hcomment rfl rfl
      have houtside : d = .outside d.wordStart := by
        have hskip : d.skipping = false := by
          cases h : d.skipping with
          | false => rfl
          | true => cases hskip h
        obtain ⟨_, _, _, _, w⟩ := d
        simp only at hsingle hdouble hesc hskip
        rw [hsingle, hdouble, hesc, hskip]
        rfl
      rw [houtside] at hd
      exact separator (by decide) ht hs hd
    · cases hs
      obtain ⟨hesc', hskip'⟩ := DeferralState.step_escaped hesc hc hd
      exact ⟨.comment hesc' hskip', ht⟩

theorem finish {s : Scanner} {d : DeferralState} (h : Sane none s d) {tokens : List Token}
    (hs : s.finish = .ok tokens) : PlainTokens tokens := by
  obtain ⟨ts, m⟩ := s
  obtain ⟨hin, ht⟩ := h
  replace ht : PlainTokens ts := ht
  have push : ∀ t : Token, (∀ w, t ≠ .word w) → PlainTokens (t :: ts) :=
    fun t hne => plainTokens_cons (fun w hw => absurd hw (hne w)) ht
  cases hin with
  | between | comment => cases hs; exact ht
  | bar | greater | less => cases hs; exact push _ (by simp)
  | word hsound => cases hs; exact emitWord hsound ht
  | dollar hsound => cases hs; exact emitWord (sound_dollar hsound) ht
  | name hsound => cases hs; exact emitWord (sound_pushVariable hsound _) ht
  | question _ hnext | quotedQuestion _ hnext => cases hnext
  | ampersand | single | double | quotedDollar | quotedName => cases hs

end Sane

/-! ## Comments -/

/-- Whenever a comment ends with a line, the reader of deferred text is outside of quotes. -/
def commentsCloseFrom (s : Scanner) (d : DeferralState) : List Char → Bool
  | [] => true
  | c :: rest =>
    if s.mode == .comment && c == '\n' && (d.inSingle || d.inDouble) then false
    else
      match s.step c, d.step c rest.head? with
      | .ok s', some d' => commentsCloseFrom s' d' rest
      | _, _ => true

/-- At the end of each comment the reader of deferred text is outside of quotes. -/
def commentsClose (text : List Char) : Bool :=
  commentsCloseFrom .start .start text

theorem plain_of_commentsClose {rest : List Char} {s : Scanner} {d : DeferralState}
    (h : Sane rest.head? s d) (hb : '\\' ∉ rest) (hclose : commentsCloseFrom s d rest = true)
    (hd : d.defers rest = false) {tokens : List Token} (hs : s.readAll rest = .ok tokens) :
    PlainTokens tokens := by
  induction rest generalizing s d with
  | nil => exact h.finish hs
  | cons c rest ih =>
    simp only [List.mem_cons, not_or] at hb
    simp only [commentsCloseFrom] at hclose
    simp only [DeferralState.defers] at hd
    cases hstep : s.step c with
    | error e =>
      simp only [Scanner.readAll, Scanner.run, hstep] at hs
      cases hs
    | ok s' =>
      cases hdefer : d.step c rest.head? with
      | none =>
        rw [hdefer] at hd
        cases hd
      | some d' =>
        rw [hdefer] at hd
        rw [Scanner.readAll_cons hstep] at hs
        split at hclose
        · cases hclose
        · rename_i hcomment
          simp only [hstep, hdefer] at hclose
          refine ih (h.step (Ne.symm hb.1) (fun hmode hline => ?_) hstep hdefer) hb.2 hclose hd hs
          simpa [hmode, hline] using hcomment

theorem open_comment {rest : List Char} {s : Scanner} {d : DeferralState} (hesc : d.escaped = false)
    (hskip : d.skipping = true → rest.head? = some '?') (hb : '\\' ∉ rest)
    (hopen : commentsCloseFrom s d rest = false) :
    ∃ p q ts, rest = p ++ '\n' :: q ∧ s.run p = .ok ⟨ts, .comment⟩ ∧
      d.defers (p ++ ['\n', '*']) = false := by
  induction rest generalizing s d with
  | nil => cases hopen
  | cons c rest ih =>
    simp only [List.mem_cons, not_or] at hb
    simp only [commentsCloseFrom] at hopen
    split at hopen
    · rename_i h
      simp only [Bool.and_eq_true, beq_iff_eq] at h
      obtain ⟨⟨hmode, rfl⟩, hquote⟩ := h
      refine ⟨[], rest, s.tokens, rfl, ?_, ?_⟩
      · rw [← hmode]
        rfl
      · obtain ⟨inSingle, inDouble, escaped, skipping, w⟩ := d
        obtain rfl : escaped = false := hesc
        have hskip : skipping = false := by
          cases skipping with
          | false => rfl
          | true => cases hskip rfl
        subst hskip
        cases inSingle with
        | true => rfl
        | false =>
          cases inDouble with
          | true => rfl
          | false => cases hquote
    · cases hstep : s.step c with
      | error e =>
        rw [hstep] at hopen
        cases hopen
      | ok s' =>
        cases hdefer : d.step c rest.head? with
        | none =>
          rw [hstep, hdefer] at hopen
          cases hopen
        | some d' =>
          rw [hstep, hdefer] at hopen
          obtain ⟨hesc', hskip'⟩ := DeferralState.step_escaped hesc (Ne.symm hb.1) hdefer
          obtain ⟨p, q, ts, rfl, hrun, hdefers⟩ := ih hesc' hskip' hb.2 hopen
          refine ⟨c :: p, q, ts, rfl, ?_, ?_⟩
          · simp only [Scanner.run, hstep]
            exact hrun
          · have hhead : (p ++ ['\n', '*']).head? = (p ++ '\n' :: q).head? := by
              cases p with
              | nil => rfl
              | cons e p => rfl
            rw [List.cons_append, DeferralState.defers_cons (hhead ▸ hdefer), hdefers]

/-- A glob behind a comment is read as a word. -/
theorem scan_behind_comment {p : List Char} {ts : List Token}
    (h : Scanner.start.run p = .ok ⟨ts, .comment⟩) :
    ∃ tokens, scan (p ++ ['\n', '*']) = .ok tokens ∧ ¬ PlainTokens tokens := by
  have hread : Scanner.start.readAll (p ++ ['\n', '*'])
      = .ok (.word ⟨[.literal "*"], false⟩ :: Scanner.newline ts) := by
    rw [Scanner.readAll_append h]
    rfl
  refine ⟨_, Scanner.scan_eq_ok.mpr ⟨_, hread, rfl⟩, fun hplain => ?_⟩
  have hglob := (hplain ⟨[.literal "*"], false⟩ (by simp) rfl).glob "*" (by simp) '*' (by decide)
  cases hglob

/-- If all comments of a text close, no glob and no tilde in it is taken for plain text. If not, one
that follows the comment is. -/
theorem scan_plainTokens {text : List Char} {tokens : List Token} (hb : '\\' ∉ text)
    (hneeds : needsRealShell text = false) (hscan : scan text = .ok tokens) :
    (commentsClose text = true → PlainTokens tokens) ∧
    (commentsClose text = false → ∃ p q, text = p ++ '\n' :: q ∧
      needsRealShell (p ++ ['\n', '*']) = false ∧
      ∃ tokens', scan (p ++ ['\n', '*']) = .ok tokens' ∧ ¬ PlainTokens tokens') := by
  constructor
  · intro hclose
    obtain ⟨read, hread, rfl⟩ := Scanner.scan_eq_ok.mp hscan
    have hplain := plain_of_commentsClose ⟨.between, by simp [PlainTokens, Scanner.start]⟩ hb hclose
      hneeds hread
    intro w hw
    exact hplain w (by simpa using hw)
  · intro hopen
    obtain ⟨p, q, ts, rfl, hrun, hdefers⟩ := open_comment rfl (fun h => by cases h) hb hopen
    exact ⟨p, q, rfl, hdefers, scan_behind_comment hrun⟩

theorem scan_plainTokens_comment :
    PlainTokens [.word (.ofText "ls"), .semicolon, .word (.ofText "pwd"), .eof] :=
  (@scan_plainTokens "ls # it's the user's turn\npwd".toList _ (by decide) (by decide) rfl).1
    (by decide)

/-- A quote in a comment hides the glob behind it from the reader of deferred text. -/
theorem glob_behind_quote_in_comment :
    '\\' ∉ "# '\n*".toList ∧ needsRealShell "# '\n*".toList = false ∧
      scan "# '\n*".toList = .ok [.word ⟨[.literal "*"], false⟩, .eof] ∧
      ¬ PlainTokens [.word ⟨[.literal "*"], false⟩, .eof] := by
  refine ⟨by decide, by decide, rfl, fun hplain => ?_⟩
  have hglob := (hplain ⟨[.literal "*"], false⟩ (by simp) rfl).glob "*" (by simp) '*' (by decide)
  cases hglob

end Runnel
