import Runnel.Command.Deferral
import Runnel.Proofs.Command.Reading

/-!
# Runnel.Proofs.Command.Deferring

What the reader of `needsRealShell` makes of quoted values and of text without quotes.

* `DeferralState.defers_quoteAll`: quoted values never need a real shell, whatever they hold.
* `DeferralState.defers_bare_append`: text without quotes and what follows it are judged one after
  the other, if a word ends between them.
-/

namespace Runnel

/-- Text in which every character but an operator, a blank and a line end stands for itself. -/
def IsBare (text : List Char) : Prop :=
  ∀ c ∈ text, c ∉ ['\'', '"', '\\', '$', '\x60', '#']

instance (text : List Char) : Decidable (IsBare text) :=
  List.decidableBAll (fun c => c ∉ ['\'', '"', '\\', '$', '\x60', '#']) text

theorem isBare_append {p q : List Char} : IsBare (p ++ q) ↔ IsBare p ∧ IsBare q := by
  simp only [IsBare, List.forall_mem_append]

theorem isBare_cons {c : Char} {q : List Char} :
    IsBare (c :: q) ↔ c ∉ ['\'', '"', '\\', '$', '\x60', '#'] ∧ IsBare q := by
  simp only [IsBare, List.forall_mem_cons]

namespace DeferralState

/-- Outside of quotes. -/
def outside (wordStart : Bool) : DeferralState :=
  ⟨false, false, false, false, wordStart⟩

/-- Inside single quotes. -/
def quoted : DeferralState :=
  ⟨true, false, false, false, false⟩

theorem defers_cons {s s' : DeferralState} {c : Char} {rest : List Char}
    (h : s.step c rest.head? = some s') : s.defers (c :: rest) = s'.defers rest := by
  simp only [defers, h]

/-! ## Quoted values -/

theorem not_deferred_of_safe {c : Char} (h : isWordSafe c = true) {next : Option Char}
    (hl : next ≠ some '<') (hg : next ≠ some '>') (w : Bool) : isDeferred w c next = false := by
  have hs : ∀ d, isShellSpecial d = true → (c == d) = false := fun d hd => ne_of_safe h hd
  simp [isDeferred, hs '*' (by decide), hs '?' (by decide), hs '[' (by decide),
    hs '~' (by decide), hs '<' (by decide), hs '>' (by decide), hs '&' (by decide), hl, hg]

theorem not_separates_of_safe {c : Char} (h : isWordSafe c = true) : separates c = false := by
  have hs : ∀ d, isShellSpecial d = true → (c == d) = false := fun d hd => ne_of_safe h hd
  simp [separates, not_blank_of_safe h, hs '|' (by decide), hs '&' (by decide), hs ';' (by decide),
    hs '(' (by decide), hs ')' (by decide), hs '<' (by decide), hs '>' (by decide)]

theorem step_safe {c : Char} (h : isWordSafe c = true) {next : Option Char}
    (hl : next ≠ some '<') (hg : next ≠ some '>') (w : Bool) :
    (outside w).step c next = some (outside false) := by
  have hs : ∀ d, isShellSpecial d = true → (c == d) = false := fun d hd => ne_of_safe h hd
  simp [step, outside, hs '\\' (by decide), hs '\x60' (by decide), hs '$' (by decide),
    hs '\'' (by decide), hs '"' (by decide), not_deferred_of_safe h hl hg, not_separates_of_safe h]

theorem defers_safe {chars q : List Char} (h : chars.all isWordSafe = true) (hne : chars ≠ [])
    (hq : Parted q) (w : Bool) :
    (outside w).defers (chars ++ q) = (outside false).defers q := by
  induction chars generalizing w with
  | nil => exact absurd rfl hne
  | cons c chars ih =>
    simp only [List.all_cons, Bool.and_eq_true] at h
    have hnext : ∀ d, isShellSpecial d = true → Text.isBlank d = false →
        (chars ++ q).head? ≠ some d := by
      intro d hd hb heq
      cases chars with
      | nil => exact absurd (hq d heq) (by simp [hb])
      | cons e chars =>
        obtain rfl : e = d := by simpa using heq
        simp only [List.all_cons, Bool.and_eq_true] at h
        simpa using ne_of_safe h.2.1 hd
    rw [List.cons_append, defers_cons (step_safe h.1 (hnext _ (by decide) (by decide))
      (hnext _ (by decide) (by decide)) w)]
    cases chars with
    | nil => rfl
    | cons e chars => exact ih h.2 (by simp) false

theorem step_quoted {c : Char} (h : (c == '\'') = false) (next : Option Char) :
    quoted.step c next = some quoted := by
  simp [step, quoted, h]

theorem defers_escapeQuotes (chars q : List Char) :
    quoted.defers (escapeQuotes chars ++ q) = quoted.defers q := by
  induction chars with
  | nil => rfl
  | cons c chars ih =>
    by_cases hc : (c == '\'') = true
    · obtain rfl : c = '\'' := by simpa using hc
      exact ih
    · have hc' : (c == '\'') = false := by simpa using hc
      simp only [escapeQuotes, hc, Bool.false_eq_true, if_false, List.cons_append]
      rw [defers_cons (step_quoted hc' _), ih]

theorem defers_singleQuoted (w : Bool) (chars q : List Char) :
    (outside w).defers (singleQuoted chars ++ q) = (outside false).defers q := by
  have hclose : quoted.defers ('\'' :: q) = (outside false).defers q := rfl
  rw [← hclose, ← defers_escapeQuotes chars, singleQuoted, List.cons_append, List.append_assoc]
  rfl

theorem defers_quote {q : List Char} (hq : Parted q) (w : Bool) (chars : List Char) :
    (outside w).defers (quoteChars chars ++ q) = (outside false).defers q := by
  rw [quoteChars_eq]
  split
  · rename_i h
    simp only [isPlainWord, Bool.and_eq_true, Bool.not_eq_true', List.isEmpty_eq_false_iff] at h
    exact defers_safe h.2 h.1 hq w
  · exact defers_singleQuoted w _ q

theorem not_digit_of_blank {c : Char} (h : Text.isBlank c = true) : c.isDigit = false := by
  cases hd : c.isDigit with
  | false => rfl
  | true =>
    simp only [Char.isDigit, Bool.and_eq_true, decide_eq_true_eq, UInt32.le_iff_toNat_le] at hd
    simp only [Text.isBlank, Bool.or_eq_true, Bool.and_eq_true, decide_eq_true_eq, beq_iff_eq] at h
    have h1 : 48 ≤ c.toNat := hd.1
    have h2 : c.toNat ≤ 57 := hd.2
    omega

theorem not_deferred_of_blank {c : Char} (h : Text.isBlank c = true) (w : Bool)
    (next : Option Char) : isDeferred w c next = false := by
  have hs : ∀ d, Text.isBlank d = false → (c == d) = false := fun d hd => ne_of_blank h hd
  simp [isDeferred, not_digit_of_blank h, hs '*' (by decide), hs '?' (by decide),
    hs '[' (by decide), hs '~' (by decide), hs '<' (by decide), hs '>' (by decide),
    hs '&' (by decide)]

theorem step_blank {c : Char} (h : Text.isBlank c = true) (w : Bool) (next : Option Char) :
    (outside w).step c next = some (outside true) := by
  have hs : ∀ d, Text.isBlank d = false → (c == d) = false := fun d hd => ne_of_blank h hd
  simp [step, outside, separates, h, not_deferred_of_blank h, hs '\\' (by decide),
    hs '\x60' (by decide), hs '$' (by decide), hs '\'' (by decide), hs '"' (by decide)]

theorem defers_blank {c : Char} (h : Text.isBlank c = true) (w : Bool) (q : List Char) :
    (outside w).defers (c :: q) = (outside true).defers q :=
  defers_cons (step_blank h w _)

/-- Quoted values never need a real shell. -/
theorem defers_quoteAll {q : List Char} (hq : Parted q) (w : Bool) {values : List String}
    (hv : values ≠ []) :
    (outside w).defers (quoteAllChars values ++ q) = (outside false).defers q := by
  induction values generalizing w with
  | nil => exact absurd rfl hv
  | cons v rest ih =>
    by_cases hr : rest = []
    · subst hr
      rw [quoteAllChars_singleton, defers_quote hq]
    · rw [quoteAllChars_cons hr, List.append_assoc, List.cons_append,
        defers_quote (parted_cons (by decide) _), defers_blank (by decide), ih true hr]

end DeferralState

/-- A line of quoted values is never left to a real shell. -/
theorem not_needsRealShell_quoteAll {values : List String} (hv : values ≠ []) :
    needsRealShell (quoteAll values).toList = false := by
  have h := DeferralState.defers_quoteAll parted_nil true hv
  rw [List.append_nil] at h
  rw [toList_quoteAll]
  exact h

/-! ## Text without quotes -/

namespace DeferralState

/-- Behind this text a word may start. -/
def mayStart (w : Bool) : List Char → Bool
  | [] => w
  | c :: rest => mayStart (separates c) rest

theorem step_bare {c : Char} (h : c ∉ ['\'', '"', '\\', '$', '\x60', '#']) (w : Bool)
    (next : Option Char) :
    (outside w).step c next
      = if isDeferred w c next then none else some (outside (separates c)) := by
  simp only [List.mem_cons, List.not_mem_nil, or_false, not_or] at h
  obtain ⟨h1, h2, h3, h4, h5, -⟩ := h
  have hs : ∀ d, c ≠ d → (c == d) = false := fun d hd => beq_eq_false_iff_ne.mpr hd
  simp [step, outside, hs _ h1, hs _ h2, hs _ h3, hs _ h4, hs _ h5]

theorem isDeferred_blank {d : Char} (h : Text.isBlank d = true) (w : Bool) (c : Char) :
    isDeferred w c (some d) = isDeferred w c none := by
  have hs : ∀ e, Text.isBlank e = false → (some d == some e) = false := fun e he => by
    simpa using ne_of_blank h he
  simp only [isDeferred, hs '<' (by decide), hs '&' (by decide), hs '>' (by decide)]
  rfl

/-- A word ends between the two texts. -/
def Joined (p q : List Char) : Prop :=
  p = [] ∨ (∃ c ∈ p.getLast?, Text.isBlank c = true) ∨ Parted q

theorem joined_tail {c d : Char} {p q : List Char} (h : Joined (c :: d :: p) q) :
    Joined (d :: p) q := by
  rcases h with h | h | h
  · cases h
  · exact .inr (.inl (by simpa using h))
  · exact .inr (.inr h)

/-- Text without quotes and what follows it are judged one after the other. -/
theorem defers_bare_append {p q : List Char} (hp : IsBare p) (hj : Joined p q) (w : Bool) :
    (outside w).defers (p ++ q)
      = ((outside w).defers p || (outside (mayStart w p)).defers q) := by
  induction p generalizing w with
  | nil => rfl
  | cons c p ih =>
    rw [isBare_cons] at hp
    have hnext : isDeferred w c (p ++ q).head? = isDeferred w c p.head? := by
      cases p with
      | cons d p => rfl
      | nil =>
        rcases hj with h | ⟨d, hd, hb⟩ | h
        · cases h
        · obtain rfl : c = d := by simpa using hd
          rw [not_deferred_of_blank hb, not_deferred_of_blank hb]
        · cases q with
          | nil => rfl
          | cons d q => exact isDeferred_blank (h d rfl) w c
    simp only [List.cons_append, defers, step_bare hp.1, hnext]
    split
    · rename_i h
      split at h
      · simp
      · cases h
    · rename_i s h
      split at h
      · cases h
      · cases h
        cases p with
        | nil => rfl
        | cons d p =>
          rw [ih hp.2 (joined_tail hj)]
          rfl

end DeferralState
end Runnel
