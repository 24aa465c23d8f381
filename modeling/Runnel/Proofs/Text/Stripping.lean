import Mathlib.Data.List.Infix
import Runnel.Text.Ansi
import Runnel.Text.Ascii

/-!
# Runnel.Proofs.Text.Stripping

What is left of a text without its terminal colour sequences, and when there is such a sequence in it
again.

* `Text.IsSequence`: the sequences.
* `Text.Strips`: what is left of a text, said without a reader that goes through it.
* `Text.Strewn`: a word with complete sequences between its characters.
* `Text.Torn`: there is a sequence in the text that others tear apart.
* `Text.hasSequence_stripAnsi_iff`: a sequence is left if and only if the text has a torn one, and
  otherwise stripping once more makes no difference.
-/

namespace Runnel.Text

/-- What ends a sequence: parameters and a letter. -/
inductive Ending : List Char → Prop where
  /-- The letter. -/
  | letter {c : Char} (h : c.isAlpha = true) : Ending [c]
  /-- A parameter, and more of it. -/
  | parameter {c : Char} {rest : List Char} (h : isAnsiParameter c = true) (hrest : Ending rest) :
    Ending (c :: rest)

/-- A complete sequence. -/
def IsSequence (s : List Char) : Prop :=
  ∃ ending, Ending ending ∧ s = escape :: '[' :: ending

/-- A sequence begins with the first character of the text. -/
def Begins (t : List Char) : Prop :=
  ∃ s rest, IsSequence s ∧ t = s ++ rest

/-- What is left of a text. The sequences in it are taken out from left to right, and all other
characters stay. -/
inductive Strips : List Char → List Char → Prop where
  /-- Nothing is there. -/
  | nil : Strips [] []
  /-- A sequence is taken out. -/
  | sequence {s t r : List Char} (hs : IsSequence s) (h : Strips t r) : Strips (s ++ t) r
  /-- A character stays. -/
  | plain {c : Char} {t r : List Char} (hno : ¬ Begins (c :: t)) (h : Strips t r) :
    Strips (c :: t) (c :: r)

/-- A word with complete sequences between its characters. -/
inductive Strewn : List Char → List Char → Prop where
  /-- The last character. -/
  | one (c : Char) : Strewn [c] [c]
  /-- A character, any number of sequences behind it, and more of the word. -/
  | cons (c : Char) {gap : List (List Char)} {u w : List Char} (hgap : ∀ s ∈ gap, IsSequence s)
    (h : Strewn u w) : Strewn (c :: (gap.flatten ++ u)) (c :: w)

/-- There is a sequence in the text. -/
def HasSequence (text : String) : Prop :=
  ∃ s, IsSequence s ∧ s <:+: text.toList

/-- There is a sequence in the text that other sequences tear apart. -/
def Torn (text : String) : Prop :=
  ∃ u s, u <:+: text.toList ∧ IsSequence s ∧ Strewn u s ∧ u ≠ s

/-! ## Sequences -/

section

variable {c : Char} {s s' t t' x y : List Char}

theorem isAlpha_of_parameter (h : isAnsiParameter c = true) : c.isAlpha = false := by
  simp only [isAnsiParameter, Bool.or_eq_true, beq_iff_eq] at h
  rcases h with (hdigit | rfl) | rfl
  · exact not_isAlpha_of_isDigit hdigit
  · decide
  · decide

namespace Ending

theorem escape_not_mem (h : Ending x) : escape ∉ x := by
  induction h with
  | letter h =>
    intro hmem
    rw [← List.mem_singleton.mp hmem] at h
    exact absurd h (by decide)
  | parameter h _ ih =>
    intro hmem
    rcases List.mem_cons.mp hmem with rfl | hmem
    · exact absurd h (by decide)
    · exact ih hmem

theorem ne_nil (h : Ending x) : x ≠ [] := by
  cases h with
  | letter h | parameter h hrest => exact List.cons_ne_nil _ _

/-- No text has two endings in front. -/
theorem unique (hx : Ending x) (hy : Ending y) (h : x ++ t = y ++ t') : x = y ∧ t = t' := by
  induction hx generalizing y with
  | letter halpha =>
    cases hy with
    | letter halpha' =>
      cases h
      exact ⟨rfl, rfl⟩
    | parameter hparam =>
      cases h
      rw [isAlpha_of_parameter hparam] at halpha
      cases halpha
  | parameter hparam _ ih =>
    cases hy with
    | letter halpha =>
      cases h
      rw [isAlpha_of_parameter hparam] at halpha
      cases halpha
    | parameter hparam' hrest =>
      obtain ⟨rfl, hrest'⟩ := List.cons.inj h
      obtain ⟨rfl, htail⟩ := ih hrest hrest'
      exact ⟨rfl, htail⟩

end Ending

namespace IsSequence

/-- The escape character is the first one of a sequence, and no other one. -/
theorem exists_body (h : IsSequence s) :
    ∃ body, s = escape :: body ∧ body ≠ [] ∧ escape ∉ body := by
  obtain ⟨ending, hending, rfl⟩ := h
  refine ⟨_, rfl, List.cons_ne_nil _ _, fun hmem => ?_⟩
  rcases List.mem_cons.mp hmem with hbracket | hmem
  · exact absurd hbracket (by decide)
  · exact hending.escape_not_mem hmem

theorem ne_nil (h : IsSequence s) : s ≠ [] := by
  obtain ⟨body, rfl, -⟩ := h.exists_body
  exact List.cons_ne_nil _ _

theorem unique (h : IsSequence s) (h' : IsSequence s') (heq : s ++ t = s' ++ t') :
    s = s' ∧ t = t' := by
  obtain ⟨x, hx, rfl⟩ := h
  obtain ⟨y, hy, rfl⟩ := h'
  simp only [List.cons_append, List.cons.injEq, true_and] at heq ⊢
  exact hx.unique hy heq

theorem begins (h : IsSequence s) (t : List Char) : Begins (s ++ t) :=
  ⟨s, t, h, rfl⟩

end IsSequence

theorem not_begins_of_ne (h : c ≠ escape) (t : List Char) : ¬ Begins (c :: t) := by
  rintro ⟨s, rest, hs, heq⟩
  obtain ⟨body, rfl, -⟩ := hs.exists_body
  exact h (List.cons.inj heq).1

end

/-! ## The reader -/

namespace AnsiState

/-- The reader has read parameters only. -/
def Sane : AnsiState → Prop
  | .plain | .escaped => True
  | .parameters seen => ∀ c ∈ seen, isAnsiParameter c = true

/-- The character may belong to the sequence that has been begun. -/
def Continues : AnsiState → Char → Prop
  | .plain, _ => False
  | .escaped, c => c = '['
  | .parameters _, c => isAnsiParameter c = true ∨ c.isAlpha = true

/-- The sequence that has been begun breaks off in front of this text. -/
def Stops (state : AnsiState) (t : List Char) : Prop :=
  ∀ c ∈ t.head?, ¬ state.Continues c

theorem stops_cons (state : AnsiState) {c : Char} (h : ¬ state.Continues c) (t : List Char) :
    state.Stops (c :: t) := by
  rintro _ ⟨⟩
  exact h

end AnsiState

section

variable {t r seen x : List Char} {c : Char}

theorem ending_append (hseen : ∀ c ∈ seen, isAnsiParameter c = true) (hx : Ending x) :
    Ending (seen ++ x) := by
  induction seen with
  | nil => exact hx
  | cons c seen ih =>
    rw [List.forall_mem_cons] at hseen
    exact .parameter hseen.1 (ih hseen.2)

/-- Parameters are no ending as long as nothing that comes next makes them one. -/
theorem not_ending_of_parameters (hseen : ∀ c ∈ seen, isAnsiParameter c = true)
    (hstop : ∀ c ∈ t.head?, ¬ (isAnsiParameter c = true ∨ c.isAlpha = true)) (hx : Ending x)
    (rest : List Char) : seen ++ t ≠ x ++ rest := by
  induction seen generalizing x with
  | nil =>
    rintro rfl
    cases hx with
    | letter h => exact hstop _ rfl (.inr h)
    | parameter h _ => exact hstop _ rfl (.inl h)
  | cons c seen ih =>
    rw [List.forall_mem_cons] at hseen
    intro heq
    cases hx with
    | letter h =>
      rw [(List.cons.inj heq).1.symm, isAlpha_of_parameter hseen.1] at h
      cases h
    | parameter h hrest => exact ih hseen.2 hrest (List.cons.inj heq).2

theorem Strips.of_plain (h : Strips t r) (hseen : escape ∉ seen) : Strips (seen ++ t) (seen ++ r) := by
  induction seen with
  | nil => exact h
  | cons c seen ih =>
    rw [List.mem_cons, not_or] at hseen
    exact .plain (not_begins_of_ne (Ne.symm hseen.1) _) (ih hseen.2)

/-- A sequence that breaks off stays. -/
theorem Strips.pending (h : Strips t r) (state : AnsiState) (hsane : state.Sane)
    (hstop : state.Stops t) :
    Strips (state.pending ++ t) (state.pending ++ r) := by
  cases state with
  | plain => exact h
  | escaped =>
    refine .plain ?_ h
    rintro ⟨_, rest, ⟨ending, -, rfl⟩, heq⟩
    obtain rfl : t = '[' :: (ending ++ rest) := (List.cons.inj heq).2
    exact hstop _ rfl rfl
  | parameters seen =>
    have hparams : ∀ c ∈ seen.reverse, isAnsiParameter c = true :=
      fun c hc => hsane c (List.mem_reverse.mp hc)
    have hplain : escape ∉ '[' :: seen.reverse := by
      intro hmem
      rcases List.mem_cons.mp hmem with hbracket | hmem
      · exact absurd hbracket (by decide)
      · exact absurd (hparams _ hmem) (by decide)
    refine .plain ?_ (h.of_plain hplain)
    rintro ⟨_, rest, ⟨ending, hending, rfl⟩, heq⟩
    refine not_ending_of_parameters hparams hstop hending rest ?_
    simpa using heq

/-- The reader takes out the sequences. -/
theorem strips_stripAnsiFrom {state : AnsiState} (hsane : state.Sane) (t : List Char) :
    Strips (state.pending ++ t) (stripAnsiFrom state t) := by
  fun_induction stripAnsiFrom state t with
  | case1 state => simpa using Strips.nil.pending state hsane nofun
  | case2 c rest hescape ih =>
    obtain rfl := beq_iff_eq.mp hescape
    exact ih trivial
  | case3 c rest hescape ih =>
    exact .plain (not_begins_of_ne (fun h => hescape (beq_iff_eq.mpr h)) _) (ih trivial)
  | case4 c rest hbracket ih =>
    obtain rfl := beq_iff_eq.mp hbracket
    exact ih nofun
  | case5 c rest hbracket hescape ih =>
    obtain rfl := beq_iff_eq.mp hescape
    exact Strips.pending (ih trivial) .escaped trivial
      (AnsiState.stops_cons .escaped (fun h => hbracket (beq_iff_eq.mpr h)) rest)
  | case6 c rest hbracket hescape ih =>
    have hplain := Strips.plain (not_begins_of_ne (fun h => hescape (beq_iff_eq.mpr h)) rest)
      (ih trivial)
    exact hplain.pending .escaped trivial
      (AnsiState.stops_cons .escaped (fun h => hbracket (beq_iff_eq.mpr h)) rest)
  | case7 seen c rest hparameter ih =>
    have hsame : (AnsiState.parameters (c :: seen)).pending ++ rest
        = (AnsiState.parameters seen).pending ++ c :: rest := by
      simp [AnsiState.pending]
    exact hsame ▸ ih (List.forall_mem_cons.mpr ⟨hparameter, hsane⟩)
  | case8 seen c rest hparameter halpha ih =>
    have hending : Ending (seen.reverse ++ [c]) :=
      ending_append (fun c hc => hsane c (List.mem_reverse.mp hc)) (.letter halpha)
    have hsame : (AnsiState.parameters seen).pending ++ c :: rest
        = (escape :: '[' :: (seen.reverse ++ [c])) ++ rest := by
      simp [AnsiState.pending]
    exact hsame ▸ .sequence ⟨_, hending, rfl⟩ (ih trivial)
  | case9 seen c rest hparameter halpha hescape ih =>
    obtain rfl := beq_iff_eq.mp hescape
    exact Strips.pending (ih trivial) (.parameters seen) hsane
      (AnsiState.stops_cons (.parameters seen) (not_or.mpr ⟨hparameter, halpha⟩) rest)
  | case10 seen c rest hparameter halpha hescape ih =>
    have hplain := Strips.plain (not_begins_of_ne (fun h => hescape (beq_iff_eq.mpr h)) rest)
      (ih trivial)
    exact hplain.pending (.parameters seen) hsane
      (AnsiState.stops_cons (.parameters seen) (not_or.mpr ⟨hparameter, halpha⟩) rest)

end

/-! ## Texts that lose nothing -/

namespace Strips

variable {t r : List Char}

theorem length_le (h : Strips t r) : r.length ≤ t.length := by
  induction h with
  | nil => exact Nat.le_refl _
  | sequence _ _ ih => simpa using Nat.le_add_left_of_le ih
  | plain _ _ ih => simpa using ih

theorem ne_of_sequence {s : List Char} (hs : IsSequence s) (h : Strips t r) : r ≠ s ++ t := by
  rintro rfl
  have hlength := h.length_le
  have hpos := List.length_pos_iff.mpr hs.ne_nil
  rw [List.length_append] at hlength
  omega

/-- Only a text without a sequence loses nothing. -/
theorem eq_iff (h : Strips t r) : r = t ↔ ∀ s, IsSequence s → ¬ s <:+: t := by
  induction h with
  | nil => exact iff_of_true rfl fun s hs hwithin => hs.ne_nil (List.infix_nil.mp hwithin)
  | sequence hs h _ =>
    exact iff_of_false (ne_of_sequence hs h) fun hnone =>
      hnone _ hs (List.prefix_append _ _).isInfix
  | @plain c t r hno _ ih =>
    rw [List.cons.injEq, and_iff_right rfl, ih]
    refine forall₂_congr fun s hs => not_congr ?_
    rw [List.infix_cons_iff]
    refine (or_iff_right ?_).symm
    rintro ⟨rest, hrest⟩
    exact hno ⟨s, rest, hs, hrest.symm⟩

end Strips

/-! ## What is left is a torn sequence -/

section

variable {c : Char} {s t r u w x post rest : List Char} {gap : List (List Char)}

/-- Whatever the text that is left begins with was strewn with sequences before. -/
theorem Strips.exists_strewn (h : Strips t r) (hfront : s <+: r) (hne : s ≠ []) :
    ∃ gap : List (List Char), ∃ u rest,
      (∀ q ∈ gap, IsSequence q) ∧ t = gap.flatten ++ (u ++ rest) ∧ Strewn u s := by
  induction h generalizing s with
  | nil => exact absurd (List.prefix_nil.mp hfront) hne
  | @sequence q t r hq _ ih =>
    obtain ⟨gap, u, rest, hgap, rfl, hstrewn⟩ := ih hfront hne
    exact ⟨q :: gap, u, rest, List.forall_mem_cons.mpr ⟨hq, hgap⟩, by simp, hstrewn⟩
  | @plain c t r _ _ ih =>
    cases s with
    | nil => exact absurd rfl hne
    | cons d s =>
      obtain ⟨rfl, htail⟩ := List.cons_prefix_cons.mp hfront
      rcases eq_or_ne s [] with rfl | hs
      · exact ⟨[], [d], t, nofun, rfl, .one d⟩
      · obtain ⟨gap, u, rest, hgap, rfl, hstrewn⟩ := ih htail hs
        exact ⟨[], d :: (gap.flatten ++ u), rest, nofun, by simp, .cons d hgap hstrewn⟩

theorem begins_of_gap (hgap : ∀ q ∈ gap, IsSequence q) (hs : IsSequence s) (rest : List Char) :
    Begins (gap.flatten ++ (s ++ rest)) := by
  cases gap with
  | nil => exact hs.begins rest
  | cons q gap =>
    rw [List.flatten_cons, List.append_assoc]
    exact (hgap q List.mem_cons_self).begins _

theorem Strips.exists_torn (h : Strips t r) (hs : IsSequence s) (hwithin : s <:+: r) :
    ∃ u, u <:+: t ∧ Strewn u s ∧ u ≠ s := by
  induction h with
  | nil => exact absurd (List.infix_nil.mp hwithin) hs.ne_nil
  | sequence _ _ ih =>
    obtain ⟨u, hu, htorn⟩ := ih hwithin
    exact ⟨u, hu.trans (List.suffix_append _ _).isInfix, htorn⟩
  | @plain c t r hno hstrips ih =>
    rcases List.infix_cons_iff.mp hwithin with hfront | hwithin
    · obtain ⟨gap, u, rest, hgap, heq, hstrewn⟩ :=
        (Strips.plain hno hstrips).exists_strewn hfront hs.ne_nil
      refine ⟨u, ⟨gap.flatten, rest, by rw [heq, List.append_assoc]⟩, hstrewn, ?_⟩
      -- A sequence in one piece would have been taken out.
      rintro rfl
      exact hno (heq ▸ begins_of_gap hgap hs rest)
    · obtain ⟨u, hu, htorn⟩ := ih hwithin
      exact ⟨u, hu.trans (List.suffix_cons c t).isInfix, htorn⟩

/-! ## A torn sequence is left -/

theorem Strewn.ne_nil (h : Strewn u w) : w ≠ [] := by
  cases h with
  | one | cons => exact List.cons_ne_nil _ _

/-- A text that comes behind a gap and does not begin with the escape character comes at once. -/
theorem gap_eq_nil (hgap : ∀ q ∈ gap, IsSequence q) (hc : c ≠ escape)
    (heq : gap.flatten ++ t = c :: rest) : gap = [] := by
  cases gap with
  | nil => rfl
  | cons q gap =>
    obtain ⟨body, rfl, -⟩ := (hgap q List.mem_cons_self).exists_body
    exact absurd (List.cons.inj heq).1.symm hc

/-- Two words that begin the same text, one of them strewn with sequences: there is nothing in the
first one, or the other one ends before the first gap. -/
theorem Strewn.eq_or_longer (h : Strewn u w) (hx : escape ∉ x)
    (heq : u ++ post = c :: (x ++ rest)) :
    u = w ∨ ∃ d more, w = c :: (x ++ d :: more) := by
  induction h generalizing c x with
  | one => exact .inl rfl
  | @cons b gap u w hgap hstrewn ih =>
    simp only [List.cons_append, List.cons.injEq, List.append_assoc] at heq
    obtain ⟨rfl, heq⟩ := heq
    cases x with
    | nil =>
      obtain ⟨d, more, rfl⟩ := List.exists_cons_of_ne_nil hstrewn.ne_nil
      exact .inr ⟨d, more, rfl⟩
    | cons d x =>
      rw [List.mem_cons, not_or] at hx
      obtain rfl := gap_eq_nil hgap (Ne.symm hx.1) heq
      rcases ih hx.2 heq with rfl | ⟨d', more, rfl⟩
      · exact .inl rfl
      · exact .inr ⟨d', more, rfl⟩

theorem Strewn.not_begins (h : Strewn u s) (hs : IsSequence s) (hne : u ≠ s) (post : List Char) :
    ¬ Begins (u ++ post) := by
  rintro ⟨q, rest, hq, heq⟩
  obtain ⟨body, rfl, -, hbody⟩ := hq.exists_body
  rcases h.eq_or_longer hbody heq with rfl | ⟨d, more, hlonger⟩
  · exact hne rfl
  · have hwhole : s ++ [] = (escape :: body) ++ d :: more := by
      rw [List.append_nil, hlonger, List.cons_append]
    cases (hs.unique hq hwhole).2

namespace Strips

theorem of_append (hs : IsSequence s) (h : Strips (s ++ t) r) : Strips t r := by
  generalize heq : s ++ t = whole at h
  cases h with
  | nil => exact absurd (List.append_eq_nil_iff.mp heq).1 hs.ne_nil
  | sequence hs' h =>
    obtain ⟨-, rfl⟩ := hs.unique hs' heq
    exact h
  | plain hno => exact absurd (heq ▸ hs.begins t) hno

theorem of_gap (hgap : ∀ q ∈ gap, IsSequence q) (h : Strips (gap.flatten ++ t) r) :
    Strips t r := by
  induction gap with
  | nil => exact h
  | cons q gap ih =>
    rw [List.forall_mem_cons] at hgap
    rw [List.flatten_cons, List.append_assoc] at h
    exact ih hgap.2 (h.of_append hgap.1)

theorem exists_tail (hno : ¬ Begins (c :: t)) (h : Strips (c :: t) r) :
    ∃ r', r = c :: r' ∧ Strips t r' := by
  generalize heq : c :: t = whole at h
  cases h with
  | nil => cases heq
  | sequence hs h => exact absurd (heq ▸ hs.begins _) hno
  | plain _ h =>
    cases heq
    exact ⟨_, rfl, h⟩

/-- A strewn word stays, without what it is strewn with. -/
theorem keeps_word (hstrewn : Strewn u w) (hw : escape ∉ w) (h : Strips (u ++ t) r) : w <+: r := by
  induction hstrewn generalizing r with
  | one c =>
    rw [List.mem_singleton] at hw
    obtain ⟨r, rfl, -⟩ := h.exists_tail (not_begins_of_ne (Ne.symm hw) _)
    exact ⟨r, rfl⟩
  | @cons c gap u w hgap _ ih =>
    rw [List.mem_cons, not_or] at hw
    rw [List.cons_append, List.append_assoc] at h
    obtain ⟨r, rfl, htail⟩ := h.exists_tail (not_begins_of_ne (Ne.symm hw.1) _)
    exact List.cons_prefix_cons.mpr ⟨rfl, ih hw.2 (htail.of_gap hgap)⟩

theorem keeps_torn_front (hs : IsSequence s) (hstrewn : Strewn u s) (hne : u ≠ s)
    (h : Strips (u ++ t) r) : s <+: r := by
  have hno := hstrewn.not_begins hs hne t
  obtain ⟨body, rfl, -, hbody⟩ := hs.exists_body
  cases hstrewn with
  | one => exact absurd rfl hne
  | cons _ hgap hstrewn =>
    rw [List.cons_append, List.append_assoc] at h hno
    obtain ⟨r, rfl, htail⟩ := h.exists_tail hno
    exact List.cons_prefix_cons.mpr ⟨rfl, keeps_word hstrewn hbody (htail.of_gap hgap)⟩

/-- A sequence that is taken out and a torn one have no character in common, except for those that
tear it. -/
theorem infix_of_append {q : List Char} (hs : IsSequence s) (hstrewn : Strewn u s) (hne : u ≠ s)
    (hq : IsSequence q) (hu : u <:+: q ++ t) : u <:+: t := by
  obtain ⟨pre, post, heq⟩ := hu
  rw [List.append_assoc] at heq
  obtain ⟨body, hqbody, -, hbody⟩ := hq.exists_body
  obtain ⟨u', rfl⟩ : ∃ u', u = escape :: u' := by
    obtain ⟨body', rfl, -⟩ := hs.exists_body
    cases hstrewn with
    | one | cons => exact ⟨_, rfl⟩
  rcases List.append_eq_append_iff.mp heq with ⟨a, hqa, hrest⟩ | ⟨a, rfl, rfl⟩
  · cases a with
    | nil => exact ⟨[], post, by simpa using hrest⟩
    | cons d a =>
      obtain ⟨rfl, -⟩ := List.cons.inj hrest
      cases pre with
      | nil => exact absurd ⟨q, t, hq, heq⟩ (hstrewn.not_begins hs hne post)
      | cons b pre =>
        rw [hqbody] at hqa
        refine absurd ?_ hbody
        rw [(List.cons.inj hqa).2]
        exact List.mem_append_right _ List.mem_cons_self
  · exact ⟨a, post, List.append_assoc _ _ _⟩

theorem keeps_torn (h : Strips t r) (hs : IsSequence s) (hstrewn : Strewn u s) (hne : u ≠ s)
    (hu : u <:+: t) : s <:+: r := by
  induction h with
  | nil =>
    obtain rfl := List.infix_nil.mp hu
    nomatch hstrewn
  | sequence hq _ ih => exact ih (infix_of_append hs hstrewn hne hq hu)
  | @plain c t r hno h ih =>
    rcases List.infix_cons_iff.mp hu with ⟨post, heq⟩ | hu
    · exact (keeps_torn_front hs hstrewn hne (heq ▸ Strips.plain hno h)).isInfix
    · exact (ih hu).trans (List.suffix_cons c r).isInfix

end Strips

end

/-! ## Texts -/

theorem strips_stripAnsi (text : String) : Strips text.toList (stripAnsi text).toList := by
  rw [stripAnsi, String.toList_ofList]
  have hsane : AnsiState.plain.Sane := trivial
  exact strips_stripAnsiFrom hsane text.toList

/-- Stripping makes no difference to a text if and only if there is no sequence in it. -/
theorem stripAnsi_eq_iff (text : String) : stripAnsi text = text ↔ ¬ HasSequence text := by
  rw [← String.toList_inj, (strips_stripAnsi text).eq_iff]
  exact ⟨fun hnone ⟨s, hs, hwithin⟩ => hnone s hs hwithin,
    fun hnone s hs hwithin => hnone ⟨s, hs, hwithin⟩⟩

/-- A sequence is left in a text that has been stripped if and only if it stood there torn apart by
other sequences. In all other texts nothing is left for a second time. -/
theorem hasSequence_stripAnsi_iff (text : String) :
    (HasSequence (stripAnsi text) ↔ Torn text) ∧
      (stripAnsi (stripAnsi text) = stripAnsi text ↔ ¬ Torn text) := by
  have hstrips := strips_stripAnsi text
  have hiff : HasSequence (stripAnsi text) ↔ Torn text := by
    constructor
    · rintro ⟨s, hs, hwithin⟩
      obtain ⟨u, hu, hstrewn, hne⟩ := hstrips.exists_torn hs hwithin
      exact ⟨u, s, hu, hs, hstrewn, hne⟩
    · rintro ⟨u, s, hu, hs, hstrewn, hne⟩
      exact ⟨s, hs, hstrips.keeps_torn hs hstrewn hne hu⟩
  exact ⟨hiff, (stripAnsi_eq_iff _).trans (not_congr hiff)⟩

/-- Without the sequence in its middle, this text is a sequence itself. -/
theorem hasSequence_stripAnsi_joined :
    HasSequence (stripAnsi "\x1b\x1b[m[m") ∧
      stripAnsi (stripAnsi "\x1b\x1b[m[m") ≠ stripAnsi "\x1b\x1b[m[m" := by
  have hleft : stripAnsi "\x1b\x1b[m[m" = "\x1b[m" := by decide
  have hsequence : IsSequence "\x1b[m".toList := ⟨['m'], .letter (by decide), by decide⟩
  have hhas : HasSequence "\x1b[m" := ⟨_, hsequence, List.infix_refl _⟩
  rw [hleft]
  exact ⟨hhas, fun heq => (stripAnsi_eq_iff _).mp heq hhas⟩

end Runnel.Text
