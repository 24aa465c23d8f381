import Runnel.Command.Template
import Runnel.Proofs.Command.Bare

/-!
# Runnel.Proofs.Command.Splicing

Values spliced into a template do not change its structure.

* `splice`: the tokens of a template with values in place of its pairs of braces.
* `Filled`: how the text with values came out of the template, one pair of braces after the other.
* `CommandText.scan_ofTemplate`: the tokens of the text are those of the template with the values
  spliced in, and a value never changes whether a real shell is needed.
-/

namespace Runnel

/-! ## Tokens -/

/-- A pair of braces. -/
def braces : List Char := ['\x7b', '\x7d']

/-- A pair of braces as a word. -/
def placeholder : Token := .word ⟨[.literal (String.ofList braces)], false⟩

/-- Words in place of the pairs of braces, as long as there are any; the words that were not needed
come at the end. -/
def splice : List Token → List (List Token) → List Token
  | tokens, [] => tokens
  | [], words => words.flatten
  | t :: rest, v :: more =>
    if t = placeholder then v ++ splice rest more else t :: splice rest (v :: more)

theorem splice_nil (tokens : List Token) : splice tokens [] = tokens := by
  cases tokens <;> rfl

theorem splice_surplus (words : List (List Token)) : splice [] words = words.flatten := by
  cases words <;> rfl

theorem splice_placeholder (rest v : List Token) (more : List (List Token)) :
    splice (placeholder :: rest) (v :: more) = v ++ splice rest more := by
  simp [splice]

theorem splice_append {p : List Token} (h : placeholder ∉ p) (rest : List Token)
    (words : List (List Token)) : splice (p ++ rest) words = p ++ splice rest words := by
  cases words with
  | nil => rw [splice_nil, splice_nil]
  | cons v more =>
    induction p with
    | nil => rfl
    | cons t p ih =>
      simp only [List.mem_cons, not_or] at h
      simp only [List.cons_append, splice, if_neg (Ne.symm h.1), ih h.2]

/-! ## The ways in which braces are filled -/

/-- The text ends with a blank, if it is not empty. -/
def EndsBlank (text : List Char) : Prop :=
  text = [] ∨ ∃ c ∈ text.getLast?, Text.isBlank c = true

/-- The values that were not needed as further words. -/
def surplus (values : List (List String)) : List Char :=
  values.flatMap fun v => ' ' :: quoteAllChars v

/-- The values follow the text, which may end with the blank before the first of them. -/
def Trails (text : List Char) (values : List (List String)) (x : List Char) : Prop :=
  x = surplus values ∨ ((text = [] ∨ text.getLast? = some ' ') ∧ ' ' :: x = surplus values)

/-- How text with values came out of a template. -/
inductive Filled : List Char → List (List String) → List Char → Prop where
  /-- No value is left. -/
  | missing (template : List Char) : Filled template [] template
  /-- No pair of braces is left. -/
  | trailing {template x : List Char} {values : List (List String)} :
      ¬ braces <:+: template → Trails template values x → Filled template values (template ++ x)
  /-- A value takes the place of the first pair of braces. -/
  | value {p q text : List Char} {v : List String} {more : List (List String)} :
      ¬ braces <:+: p → EndsBlank p → Parted q → Parted text → Filled q more text →
      Filled (p ++ (braces ++ q)) (v :: more) (p ++ (quoteAllChars v ++ text))

theorem parted_surplus (values : List (List String)) : Parted (surplus values) := by
  cases values with
  | nil => exact parted_nil
  | cons v more => exact parted_cons (by decide) _

instance (text : List Char) : Decidable (EndsBlank text) :=
  decidable_of_iff (text = [] ∨ text.getLast?.any Text.isBlank = true) (by
    rw [EndsBlank, Option.any_eq_true]
    rfl)

theorem EndsBlank.joined {p : List Char} (h : EndsBlank p) (q : List Char) :
    DeferralState.Joined p q := by
  rcases h with h | h
  · exact .inl h
  · exact .inr (.inl h)

theorem Trails.joined {text x : List Char} {values : List (List String)} (h : Trails text values x) :
    DeferralState.Joined text x := by
  rcases h with rfl | ⟨rfl | h, -⟩
  · exact .inr (.inr (parted_surplus values))
  · exact .inl rfl
  · exact .inr (.inl ⟨' ', h, by decide⟩)

namespace Scanner

theorem readAll_surplus (ts : List Token) {values : List (List String)} (hv : ∀ v ∈ values, v ≠ []) :
    readAll ⟨ts, .between⟩ (surplus values)
      = .ok ((values.map wordsOf).flatten.reverse ++ ts) := by
  induction values generalizing ts with
  | nil => rfl
  | cons v more ih =>
    rw [List.forall_mem_cons] at hv
    show readAll _ (' ' :: (quoteAllChars v ++ surplus more)) = _
    rw [readAll_blank (by decide) (by decide), readAll_quoteAll (parted_surplus more) ts hv.1,
      ih _ hv.2]
    simp [wordsOf]

theorem readAll_trails {ts : List Token} {x : List Char} (text : List Char)
    {values : List (List String)} (hv : ∀ v ∈ values, v ≠ []) (h : Trails text values x) :
    readAll ⟨ts, .between⟩ x = .ok ((values.map wordsOf).flatten.reverse ++ ts) := by
  rcases h with rfl | ⟨-, h⟩
  · exact readAll_surplus ts hv
  · rw [← readAll_blank (c := ' ') (by decide) (by decide), h]
    exact readAll_surplus ts hv

/-! ## Reading -/

theorem readAll_prefix {s : Scanner} {p q : List Char} {read : List Token}
    (h : s.readAll (p ++ q) = .ok read) : ∃ s', s.run p = .ok s' ∧ s'.readAll q = .ok read := by
  cases hp : s.run p with
  | error e =>
    simp only [readAll, run_append, hp] at h
    cases h
  | ok s' => exact ⟨s', rfl, by rw [← readAll_append hp, h]⟩

theorem readAll_braces {q : List Char} (h : Parted q) (ts : List Token) :
    readAll ⟨ts, .between⟩ (braces ++ q) = readAll ⟨placeholder :: ts, .between⟩ q := by
  have hread : run ⟨ts, .between⟩ braces = .ok ⟨ts, .word (.literal braces false)⟩ := rfl
  rw [readAll_append hread, readAll_word h, emitWord_literal]
  rfl

/-- Text without braces is read into words other than braces. -/
theorem no_placeholder {p : List Char} {ts new : List Token} {m : ScanMode} (hp : IsBare p)
    (hb : ¬ braces <:+: p) (h : run ⟨ts, .between⟩ p = .ok ⟨new ++ ts, m⟩) : placeholder ∉ new := by
  intro hmem
  obtain ⟨new', ht, hpiece⟩ := (run_bare hp h).pieces
  obtain rfl : new = new' := List.append_cancel_right ht
  obtain ⟨text, hw, hinfix⟩ := hpiece _ hmem
  have htext : String.ofList braces = String.ofList text := by
    simpa using hw
  rw [← String.ofList_injective htext] at hinfix
  exact hb hinfix

/-- Behind a blank the reader is between two tokens. -/
theorem run_endsBlank {p : List Char} {ts : List Token} {s : Scanner} (hp : IsBare p)
    (he : EndsBlank p) (h : run ⟨ts, .between⟩ p = .ok s) : s.mode = .between := by
  rcases he with rfl | ⟨c, hc, hb⟩
  · cases h
    rfl
  · obtain ⟨init, rfl⟩ := List.getLast?_eq_some_iff.mp hc
    rw [run_append] at h
    cases hi : run ⟨ts, .between⟩ init with
    | error e => rw [hi] at h; cases h
    | ok r =>
      rw [hi] at h
      simp only [run] at h
      cases hstep : r.step c with
      | error e => rw [hstep] at h; cases h
      | ok r' =>
        rw [hstep] at h
        cases h
        exact step_open_blank (run_bare (isBare_append.mp hp).1 hi).isOpen hb hstep

/-- A blank ends the text as its end does. -/
theorem run_space {p : List Char} {ts read : List Token} (hp : IsBare p)
    (h : readAll ⟨ts, .between⟩ p = .ok read) :
    run ⟨ts, .between⟩ (p ++ [' ']) = .ok ⟨read, .between⟩ := by
  obtain ⟨s, hrun, hfin⟩ := readAll_prefix (q := []) (by rwa [List.append_nil])
  rw [run_append_of_ok hrun]
  simp only [run, step_open_space (run_bare hp hrun).isOpen hfin]

theorem no_placeholder_at_end {p : List Char} {ts new : List Token} (hp : IsBare p)
    (hb : ¬ braces <:+: p) (h : readAll ⟨ts, .between⟩ p = .ok (new ++ ts)) : placeholder ∉ new := by
  refine no_placeholder (isBare_append.mpr ⟨hp, by simp [IsBare]⟩) ?_ (run_space hp h)
  intro hinfix
  rcases List.infix_concat_iff.mp hinfix with hsuffix | hinfix
  · obtain ⟨before, hbefore⟩ := hsuffix
    have hlast := congrArg List.getLast? hbefore
    simp [braces] at hlast
  · exact hb hinfix

theorem readAll_append_trails {p x : List Char} {ts read : List Token} {values : List (List String)}
    (hp : IsBare p) (hv : ∀ v ∈ values, v ≠ []) (hx : Trails p values x)
    (h : readAll ⟨ts, .between⟩ p = .ok read) :
    readAll ⟨ts, .between⟩ (p ++ x)
      = .ok ((values.map wordsOf).flatten.reverse ++ read) := by
  rcases hx with rfl | ⟨hend, hx⟩
  · cases values with
    | nil =>
      rw [surplus, List.flatMap_nil, List.append_nil, h]
      rfl
    | cons v more =>
      have hcons : surplus (v :: more) = [' '] ++ (quoteAllChars v ++ surplus more) := rfl
      rw [hcons, ← List.append_assoc, readAll_append (run_space hp h)]
      exact readAll_trails [] hv (.inr ⟨.inl rfl, rfl⟩)
  · have hblank : EndsBlank p := by
      rcases hend with hend | hend
      · exact .inl hend
      · exact .inr ⟨' ', hend, by decide⟩
    obtain ⟨⟨tokens, m⟩, hrun, hfin⟩ := readAll_prefix (q := []) (by rwa [List.append_nil])
    obtain rfl : m = .between := run_endsBlank hp hblank hrun
    cases hfin
    rw [readAll_append hrun]
    exact readAll_trails [] hv (.inr ⟨.inl rfl, hx⟩)

/-- The tokens of a filled template are those of the template with the values spliced in. -/
theorem readAll_filled {template text : List Char} {values : List (List String)}
    (h : Filled template values text) (hb : IsBare template) (hv : ∀ v ∈ values, v ≠ [])
    {ts us tokens : List Token} (hs : settled ts = settled us)
    (hr : readAll ⟨ts, .between⟩ template = .ok (tokens.reverse ++ ts)) :
    readAll ⟨us, .between⟩ text = .ok ((splice tokens (values.map wordsOf)).reverse ++ us) := by
  induction h generalizing ts us tokens with
  | missing template =>
    obtain ⟨new, hnew, hread⟩ := readAll_frame hs hr
    rw [List.map_nil, splice_nil, List.append_cancel_right hnew]
    exact hread
  | @trailing template x values hno hx =>
    obtain ⟨new, hnew, hread⟩ := readAll_frame hs hr
    obtain rfl := List.append_cancel_right hnew
    have hno' : placeholder ∉ tokens := by
      simpa using no_placeholder_at_end hb hno hr
    have hsplice := splice_append hno' [] (values.map wordsOf)
    rw [List.append_nil] at hsplice
    rw [readAll_append_trails hb hv hx hread, hsplice, splice_surplus, List.reverse_append,
      List.append_assoc]
  | @value p q text v more hno hend hq htext _ ih =>
    obtain ⟨hp, hb⟩ := isBare_append.mp hb
    rw [List.forall_mem_cons] at hv
    obtain ⟨s, hrun, hrest⟩ := readAll_prefix hr
    obtain ⟨new, ht, hrun'⟩ := run_frame hs .between p s hrun
    obtain ⟨tokens', m⟩ := s
    obtain rfl : tokens' = new ++ ts := ht
    obtain rfl : m = .between := run_endsBlank hp hend hrun
    rw [readAll_braces hq] at hrest
    obtain ⟨more', hmore, -⟩ :=
      readAll_frame (Eq.refl (settled (placeholder :: (new ++ ts)))) hrest
    have htokens : tokens = new.reverse ++ placeholder :: more'.reverse := by
      have hcancel : tokens.reverse ++ ts = (more' ++ placeholder :: new) ++ ts := by
        rw [hmore]; simp
      rw [← List.reverse_reverse tokens, List.append_cancel_right hcancel]
      simp
    have hnew : placeholder ∉ new.reverse := by
      simpa using no_placeholder hp hno hrun
    have hsettled : settled (placeholder :: (new ++ ts))
        = settled ((wordsOf v).reverse ++ (new ++ us)) := by
      obtain ⟨init, last, rfl⟩ := (List.eq_nil_or_concat v).resolve_left hv.1
      simp [settled, placeholder, wordsOf, Token.continues]
    have hrest' : readAll ⟨placeholder :: (new ++ ts), .between⟩ q
        = .ok (more'.reverse.reverse ++ placeholder :: (new ++ ts)) := by
      rw [List.reverse_reverse, hrest, hmore]
    have hread := ih (isBare_append.mp hb).2 hv.2 hsettled hrest'
    rw [readAll_append hrun', readAll_quoteAll htext _ hv.1, htokens, splice_append hnew,
      List.map_cons, splice_placeholder]
    refine Eq.trans hread ?_
    simp

end Scanner

/-! ## Deferring -/

namespace DeferralState

theorem defers_surplus (w : Bool) {values : List (List String)} (hv : ∀ v ∈ values, v ≠ []) :
    (outside w).defers (surplus values) = false := by
  induction values generalizing w with
  | nil => rfl
  | cons v more ih =>
    rw [List.forall_mem_cons] at hv
    show (outside w).defers (' ' :: (quoteAllChars v ++ surplus more)) = _
    rw [defers_blank (by decide), defers_quoteAll (parted_surplus more) true hv.1, ih false hv.2]

theorem defers_trails (w : Bool) {text x : List Char} {values : List (List String)}
    (hv : ∀ v ∈ values, v ≠ []) (h : Trails text values x) : (outside w).defers x = false := by
  rcases h with rfl | ⟨-, h⟩
  · exact defers_surplus w hv
  · cases values with
    | nil => cases h
    | cons v more =>
      rw [List.forall_mem_cons] at hv
      obtain rfl : x = quoteAllChars v ++ surplus more := (List.cons.inj h).2
      rw [defers_quoteAll (parted_surplus more) w hv.1, defers_surplus false hv.2]

theorem defers_braces (w : Bool) (q : List Char) :
    (outside w).defers (braces ++ q) = (outside false).defers q := by
  cases w <;> rfl

/-- A filled template needs a real shell just if the template does. -/
theorem defers_filled {template text : List Char} {values : List (List String)}
    (h : Filled template values text) (hb : IsBare template) (hv : ∀ v ∈ values, v ≠ []) (w : Bool) :
    (outside w).defers text = (outside w).defers template := by
  induction h generalizing w with
  | missing template => rfl
  | @trailing template x values _ hx =>
    rw [defers_bare_append hb hx.joined, defers_trails _ hv hx, Bool.or_false]
  | @value p q text v more _ hend _ htext _ ih =>
    obtain ⟨hp, hb⟩ := isBare_append.mp hb
    rw [List.forall_mem_cons] at hv
    rw [defers_bare_append hp (hend.joined _), defers_bare_append hp (hend.joined _), defers_braces,
      defers_quoteAll htext _ hv.1, ih (isBare_append.mp hb).2 hv.2]

end DeferralState

/-! ## Templates -/

namespace CommandText

theorem fill_nil (template : List Char) : fill template [] = (template, []) := by
  induction template with
  | nil => rfl
  | cons c rest ih =>
    cases rest with
    | nil => rfl
    | cons d rest =>
      simp only [fill, ih]
      split
      · rename_i h
        simp only [Bool.and_eq_true, beq_iff_eq] at h
        rw [h.1, h.2]
      · rfl

/-- The first pair of braces is replaced, if there is one. -/
theorem fill_cons (template v : List Char) (more : List (List Char)) :
    (¬ braces <:+: template ∧ fill template (v :: more) = (template, v :: more)) ∨
    ∃ p q, template = p ++ (braces ++ q) ∧ ¬ braces <:+: p ∧
      fill template (v :: more) = (p ++ (v ++ (fill q more).1), (fill q more).2) := by
  induction template with
  | nil => exact .inl ⟨by simp [braces], rfl⟩
  | cons c rest ih =>
    cases rest with
    | nil => exact .inl ⟨by simp [braces, List.infix_cons_iff], rfl⟩
    | cons d rest =>
      by_cases hcd : (c == '\x7b' && d == '\x7d') = true
      · refine .inr ⟨[], rest, ?_, by simp [braces], by simp [fill, hcd]⟩
        simp only [Bool.and_eq_true, beq_iff_eq] at hcd
        rw [hcd.1, hcd.2]
        rfl
      · have hfirst : ∀ p, (c :: p) <+: (c :: d :: rest) → ¬ braces <:+: p → ¬ braces <:+: c :: p := by
          intro p hp hno hinfix
          rcases List.infix_cons_iff.mp hinfix with hprefix | hinfix
          · obtain ⟨tail, ht⟩ := hprefix.trans hp
            obtain ⟨rfl, rfl, -⟩ : '\x7b' = c ∧ '\x7d' = d ∧ tail = rest := by
              simpa [braces] using ht
            simp at hcd
          · exact hno hinfix
        rcases ih with ⟨hno, hfill⟩ | ⟨p, q, hrest, hno, hfill⟩
        · exact .inl ⟨hfirst _ (List.prefix_refl _) hno, by simp [fill, hcd, hfill]⟩
        · refine .inr ⟨c :: p, q, by rw [hrest]; rfl, hfirst p ?_ hno, by simp [fill, hcd, hfill]⟩
          rw [hrest, List.cons_prefix_cons]
          exact ⟨rfl, List.prefix_append _ _⟩

/-! ### Surplus values -/

theorem append_ne_nil {text : List Char} (h : text ≠ []) (before : List Char)
    (left : List (List Char)) : append (before ++ text) left = before ++ append text left := by
  induction left generalizing text with
  | nil => rfl
  | cons v left ih =>
    have hlast : (before ++ text).getLast? = text.getLast? := by
      rw [List.getLast?_append, List.getLast?_eq_some_getLast h]
      rfl
    have hempty : (before ++ text).isEmpty = text.isEmpty := by
      cases text with
      | nil => exact absurd rfl h
      | cons c text => simp
    simp only [append, hlast, hempty, List.append_assoc]
    split
    · exact ih (by simp [h])
    · exact ih (by simp)

theorem exists_append (text : List Char) (left : List (List Char)) :
    ∃ x, append text left = text ++ x := by
  induction left generalizing text with
  | nil => exact ⟨[], by simp [append]⟩
  | cons v left ih =>
    simp only [append]
    split
    · obtain ⟨x, hx⟩ := ih (text ++ v)
      exact ⟨v ++ x, by rw [hx, List.append_assoc]⟩
    · obtain ⟨x, hx⟩ := ih (text ++ ' ' :: v)
      exact ⟨' ' :: v ++ x, by rw [hx, List.append_assoc]⟩

theorem getLast?_quoteChars (chars : List Char) :
    ∃ c, (quoteChars chars).getLast? = some c ∧ c ≠ ' ' := by
  rw [quoteChars_eq]
  split
  · rename_i h
    simp only [isPlainWord, Bool.and_eq_true, Bool.not_eq_true', List.isEmpty_eq_false_iff,
      List.all_eq_true] at h
    refine ⟨chars.getLast h.1, List.getLast?_eq_some_getLast h.1, ?_⟩
    intro hc
    have hsafe := h.2 _ (List.getLast_mem h.1)
    rw [hc] at hsafe
    exact absurd hsafe (by decide)
  · exact ⟨'\'', by simp [singleQuoted, List.getLast?_cons], by decide⟩

theorem getLast?_quoteAll {values : List String} (h : values ≠ []) :
    ∃ c, (quoteAllChars values).getLast? = some c ∧ c ≠ ' ' := by
  induction values with
  | nil => exact absurd rfl h
  | cons v rest ih =>
    by_cases hr : rest = []
    · subst hr
      rw [quoteAllChars_singleton]
      exact getLast?_quoteChars _
    · obtain ⟨c, hc, hne⟩ := ih hr
      refine ⟨c, ?_, hne⟩
      rw [quoteAllChars_cons hr, List.getLast?_append, List.getLast?_cons, hc]
      rfl

/-- A value does not end with a blank, so the next one gets its own. -/
theorem append_value (before : List Char) {v : List String} (hv : v ≠ [])
    {more : List (List String)} (hm : ∀ u ∈ more, u ≠ []) :
    append (before ++ quoteAllChars v) (more.map quoteAllChars)
      = before ++ (quoteAllChars v ++ surplus more) := by
  induction more generalizing before v with
  | nil => simp [append, surplus]
  | cons u more ih =>
    rw [List.forall_mem_cons] at hm
    obtain ⟨c, hc, hne⟩ := getLast?_quoteAll hv
    have hlast : (before ++ quoteAllChars v).getLast? = some c := by
      rw [List.getLast?_append, hc]
      rfl
    have hempty : (before ++ quoteAllChars v).isEmpty = false := by
      cases h : before ++ quoteAllChars v with
      | nil => rw [h] at hlast; cases hlast
      | cons d rest => rfl
    have hblank : ((some c : Option Char) == some ' ') = false := by simpa using hne
    simp only [List.map_cons, append, hlast, hempty, hblank, Bool.or_self, Bool.false_eq_true,
      if_false]
    have hu := ih (before ++ quoteAllChars v ++ [' ']) hm.1 hm.2
    simp only [List.append_assoc, List.singleton_append] at hu ⊢
    rw [hu]
    rfl

theorem append_trails (text : List Char) {values : List (List String)} (hv : ∀ v ∈ values, v ≠ []) :
    ∃ x, append text (values.map quoteAllChars) = text ++ x ∧ Trails text values x := by
  cases values with
  | nil => exact ⟨[], by simp [append], .inl rfl⟩
  | cons v more =>
    rw [List.forall_mem_cons] at hv
    simp only [List.map_cons, append]
    split
    · rename_i hend
      refine ⟨quoteAllChars v ++ surplus more, append_value text hv.1 hv.2, .inr ⟨?_, rfl⟩⟩
      simpa using hend
    · refine ⟨surplus (v :: more), ?_, .inl rfl⟩
      simpa [surplus] using append_value (text ++ [' ']) hv.1 hv.2

/-! ### The text of a template -/

/-- Every pair of braces stands between blanks or the ends of the template. -/
def Bounded (template : List Char) : Prop :=
  ∀ p q, template = p ++ (braces ++ q) → EndsBlank p ∧ Parted q

theorem bounded_iff (template : List Char) : Bounded template ↔ ∀ i < template.length,
    (template.drop i).take 2 = braces →
      EndsBlank (template.take i) ∧ Parted (template.drop (i + 2)) := by
  constructor
  · intro h i _ ht
    refine h _ _ ?_
    rw [← ht, ← List.drop_drop, List.take_append_drop, List.take_append_drop]
  · rintro h p q rfl
    have hp := h p.length (by simp [braces]) (by simp [braces])
    simpa [braces] using hp

instance (template : List Char) : Decidable (Bounded template) :=
  decidable_of_iff' _ (bounded_iff template)

theorem Bounded.rest {p q : List Char} (h : Bounded (p ++ (braces ++ q))) : Bounded q := by
  intro p' q' hq
  obtain ⟨hend, hparted⟩ := h (p ++ (braces ++ p')) q' (by rw [hq]; simp)
  refine ⟨?_, hparted⟩
  rcases (List.eq_nil_or_concat p') with rfl | ⟨init, c, rfl⟩
  · exact .inl rfl
  · rcases hend with hend | ⟨d, hd, hb⟩
    · simp at hend
    · refine .inr ⟨d, ?_, hb⟩
      simpa [← List.append_assoc] using hd

theorem fill_blank {c : Char} (h : Text.isBlank c = true) (rest : List Char)
    (values : List (List Char)) :
    fill (c :: rest) values = (c :: (fill rest values).1, (fill rest values).2) := by
  have hc : (c == '\x7b') = false := ne_of_blank h (by decide)
  cases rest with
  | nil => simp [fill]
  | cons d rest => simp [fill, hc]

theorem filled_ofTemplate {template : List Char} (hb : Bounded template)
    {values : List (List String)} (hv : ∀ v ∈ values, v ≠ []) :
    Filled template values (append (fill template (values.map quoteAllChars)).1
      (fill template (values.map quoteAllChars)).2) := by
  induction values generalizing template with
  | nil =>
    rw [List.map_nil, fill_nil]
    exact .missing template
  | cons v more ih =>
    rw [List.map_cons]
    rcases fill_cons template (quoteAllChars v) (more.map quoteAllChars) with
      ⟨hno, hfill⟩ | ⟨p, q, rfl, hno, hfill⟩
    · obtain ⟨x, hx, htrails⟩ := append_trails template hv
      rw [List.map_cons] at hx
      rw [hfill, hx]
      exact .trailing hno htrails
    · rw [List.forall_mem_cons] at hv
      obtain ⟨hend, hq⟩ := hb p q rfl
      have hrest := ih hb.rest hv.2
      rw [hfill]
      cases q with
      | nil =>
        have htext : append (p ++ (quoteAllChars v ++ [])) (more.map quoteAllChars)
            = p ++ (quoteAllChars v ++ ([] ++ surplus more)) := by
          rw [List.append_nil, List.nil_append]
          exact append_value p hv.1 hv.2
        show Filled _ _ (append (p ++ (quoteAllChars v ++ [])) (more.map quoteAllChars))
        rw [htext]
        exact .value hno hend hq (parted_surplus more) (.trailing (by simp [braces]) (.inl rfl))
      | cons c q =>
        have hc : Text.isBlank c = true := hq c rfl
        have htext : ∀ text left, append (p ++ (quoteAllChars v ++ c :: text)) left
            = p ++ (quoteAllChars v ++ append (c :: text) left) := fun text left => by
          rw [← List.append_assoc, append_ne_nil (by simp), List.append_assoc]
        rw [fill_blank hc] at hrest ⊢
        refine htext _ _ ▸ ?_
        refine .value hno hend hq ?_ hrest
        obtain ⟨x, hx⟩ := exists_append (c :: (fill q (more.map quoteAllChars)).1)
          (fill q (more.map quoteAllChars)).2
        rw [hx]
        exact parted_cons hc _

end CommandText

/-! ## Values -/

/-- The texts that a value is quoted from; none for command text that is taken as it stands. -/
def Value.texts : Value → List String
  | .word text => [text]
  | .raw _ => []
  | .words texts => texts

/-- The words of a value, literally. -/
def Value.tokens (v : Value) : List Token :=
  v.texts.map fun text => .word ⟨[.literal text], needsQuoting text⟩

theorem Value.toList_rendered {v : Value} (h : v.texts ≠ []) :
    v.render.rendered.toList = quoteAllChars v.texts := by
  cases v with
  | word text => simp [render, texts, quote, quoteAllChars_singleton]
  | raw text => exact absurd rfl h
  | words texts => exact toList_quoteAll texts

theorem Value.wordsOf_texts {v : Value} (h : ∀ text ∈ v.texts, isQuoted text.toList = false) :
    wordsOf v.texts = v.tokens :=
  List.map_congr_left fun text ht => by rw [Word.ofValue, received_of_not_quoted (h text ht)]

namespace CommandText

theorem filled_text {template : String} (hb : Bounded template.toList) {values : List Value}
    (hv : ∀ v ∈ values, v.texts ≠ []) :
    Filled template.toList (values.map Value.texts) (ofTemplate template values).text.toList := by
  have hrendered : (values.map Value.render).map (fun v => v.rendered.toList)
      = (values.map Value.texts).map quoteAllChars := by
    rw [List.map_map, List.map_map]
    exact List.map_congr_left fun v h => Value.toList_rendered (hv v h)
  simp only [ofTemplate, hrendered, String.toList_ofList]
  exact filled_ofTemplate hb (by simpa using hv)

/-- The tokens of a template with values are those of the template with the values in place of its
pairs of braces, and whether a real shell is needed is up to the template alone. -/
theorem scan_ofTemplate {template : String} {values : List Value} {tokens : List Token}
    (hbare : IsBare template.toList) (hbound : Bounded template.toList)
    (hvalues : ∀ v ∈ values, v.texts ≠ [] ∧ ∀ text ∈ v.texts, isQuoted text.toList = false)
    (hscan : scan template.toList = .ok tokens) :
    ∃ read, tokens = read ++ [.eof] ∧
      scan (ofTemplate template values).text.toList
        = .ok (splice read (values.map Value.tokens) ++ [.eof]) ∧
      needsRealShell (ofTemplate template values).text.toList = needsRealShell template.toList := by
  have hfilled := filled_text hbound fun v h => (hvalues v h).1
  have hne : ∀ v ∈ values.map Value.texts, v ≠ [] := by
    simpa using fun v h => (hvalues v h).1
  have hwords : (values.map Value.texts).map wordsOf = values.map Value.tokens := by
    rw [List.map_map]
    exact List.map_congr_left fun v h => Value.wordsOf_texts (hvalues v h).2
  obtain ⟨read, hread, rfl⟩ := Scanner.scan_eq_ok.mp hscan
  refine ⟨read.reverse, rfl, ?_, DeferralState.defers_filled hfilled hbare hne true⟩
  have hread' : Scanner.readAll ⟨[], .between⟩ template.toList
      = .ok (read.reverse.reverse ++ []) := by
    rw [List.reverse_reverse, List.append_nil]
    exact hread
  have htext := Scanner.readAll_filled hfilled hbare hne (Eq.refl (Scanner.settled [])) hread'
  rw [hwords, List.append_nil] at htext
  exact Scanner.scan_eq_ok.mpr ⟨_, htext, by rw [List.reverse_reverse]⟩

theorem scan_ofTemplate_pipe :
    scan (ofTemplate "cat \x7b\x7d | wc" [.word "a; b", .words ["$(c)", "d"]]).text.toList
        = .ok [.word (.ofText "cat"), .word ⟨[.literal "a; b"], true⟩, .pipe,
          .word (.ofText "wc"), .word ⟨[.literal "$(c)"], true⟩, .word (.ofText "d"), .eof] ∧
      needsRealShell (ofTemplate "cat \x7b\x7d | wc" [.word "a; b", .words ["$(c)", "d"]]).text.toList
        = false := by
  obtain ⟨read, hread, hscan, hneeds⟩ :=
    @scan_ofTemplate "cat \x7b\x7d | wc" [.word "a; b", .words ["$(c)", "d"]]
      ([.word (.ofText "cat"), placeholder, .pipe, .word (.ofText "wc")] ++ [.eof])
      (by decide) (by decide) (by decide) rfl
  obtain rfl := List.append_cancel_right hread
  exact ⟨hscan, hneeds⟩

end CommandText
end Runnel
