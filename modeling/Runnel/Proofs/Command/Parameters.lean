import Runnel.Proofs.Command.Deferring
import Runnel.Proofs.Command.Reading
import Runnel.Proofs.Command.Replacing

/-!
# Runnel.Proofs.Command.Parameters

Parameters that are not modelled: those of a script, such as `$1` and `$@`, and some of a shell,
such as `$$`. No reader knows them. Their dollar sign is an ordinary character, like a percent sign
in its place.

* `DeferralState.defers_replaced`: the line is left to a real shell because of it or not at all.
* `Scanner.readAll_replaced`: the dollar sign is a literal character of a word.
* `unknownParameter`: a line with such a parameter is taken if it is with an ordinary character.
-/

namespace Runnel

/-- The character makes a parameter together with a dollar sign in front of it, but not one that a
reader knows. -/
def isUnknownParameter (c : Char) : Bool :=
  c.isDigit || c == '@' || c == '!' || c == '$' || c == '-'

/-- The character begins no reference. -/
theorem ne_of_isUnknownParameter {c : Char} (hc : isUnknownParameter c = true) :
    (c == '(') = false ∧ (c == '\x7b') = false ∧ (c == '?') = false ∧
      Text.isNameStart c = false := by
  simp only [isUnknownParameter, Bool.or_eq_true, beq_iff_eq] at hc
  rcases hc with (((hdigit | rfl) | rfl) | rfl) | rfl
  · have hne : ∀ d : Char, d.isDigit = false → (c == d) = false := by
      intro d hd
      refine beq_eq_false_iff_ne.mpr ?_
      rintro rfl
      rw [hdigit] at hd
      cases hd
    refine ⟨hne _ (by decide), hne _ (by decide), hne _ (by decide), ?_⟩
    rw [Text.isNameStart, hne '_' (by decide), Bool.or_false]
    exact Text.not_isAlpha_of_isDigit hdigit
  all_goals decide

/-! ## Deferral -/

namespace DeferralState

theorem step_replaced (s : DeferralState) {c : Char} (hc : isUnknownParameter c = true) :
    s.step '$' (some c) = s.step '%' (some c) := by
  obtain ⟨hopen, hbrace, hquestion, -⟩ := ne_of_isUnknownParameter hc
  have hsome : ∀ d, (some c == some d) = (c == d) := fun d => rfl
  simp only [step, hsome, hopen, hbrace, hquestion]
  rfl

/-- It makes no difference to the character before it. -/
theorem step_before_replaced (s : DeferralState) (c : Char) :
    s.step c (some '$') = s.step c (some '%') := by
  rfl

theorem defers_replaced (s : DeferralState) (pre : List Char) {c : Char}
    (hc : isUnknownParameter c = true) (post : List Char) :
    s.defers (pre ++ '$' :: c :: post) = s.defers (pre ++ '%' :: c :: post) := by
  induction pre generalizing s with
  | nil =>
    have hstep := step_replaced s hc
    simp only [List.nil_append, defers, List.head?_cons, hstep]
  | cons d pre ih =>
    have hnext : s.step d (pre ++ '$' :: c :: post).head? =
        s.step d (pre ++ '%' :: c :: post).head? := by
      cases pre with
      | nil => exact step_before_replaced s d
      | cons e pre => rfl
    simp only [List.cons_append, defers, hnext]
    cases s.step d (pre ++ '%' :: c :: post).head? with
    | none => rfl
    | some s' => exact ih s'

end DeferralState

/-! ## Reading -/

/-- Neither in single quotes nor in a comment nor behind a backslash. -/
def ScanMode.IsOpen : ScanMode → Prop
  | .comment | .wordEscape _ | .single _ | .doubleEscape _ => False
  | _ => True

namespace Scanner

/-- If this succeeds, a dollar sign is next read as such. -/
def Opens (r : Except SyntaxError Scanner) : Prop :=
  ∀ s, r = .ok s → s.mode.IsOpen

namespace Opens

variable {ts : List Token} {m : ScanMode} {c : Char}

theorem ok (h : m.IsOpen) : Opens (.ok ⟨ts, m⟩) := by
  rintro s ⟨⟩
  exact h

theorem error (e : SyntaxError) : Opens (.error e) := by
  rintro s ⟨⟩

theorem ite {p : Prop} [Decidable p] {a b : Except SyntaxError Scanner} (ha : p → Opens a)
    (hb : ¬ p → Opens b) : Opens (if p then a else b) := by
  split
  · exact ha ‹_›
  · exact hb ‹_›

variable (hc : c ∉ ['\'', '\\', '#'])

include hc

theorem wordChar (ts : List Token) (d : WordDraft) : Opens (wordChar ts d c) := by
  simp only [List.mem_cons, List.not_mem_nil, or_false, not_or] at hc
  exact .ite (fun h => absurd (beq_iff_eq.mp h) hc.2.1) fun _ =>
    .ite (fun h => absurd (beq_iff_eq.mp h) hc.1) fun _ => .ite (fun _ => .ok trivial) fun _ =>
    .ite (fun _ => .ok trivial) fun _ => .ite (fun _ => .error _) fun _ => .ok trivial

theorem betweenChar (ts : List Token) : Opens (betweenChar ts c) := by
  have hhash : c ≠ '#' := by
    rintro rfl
    exact hc (by decide)
  cases hends : (Text.isBlank c || isOperatorChar c) with
  | true =>
    intro s hs
    cases betweenChar_separator hends hs <;> trivial
  | false =>
    obtain ⟨hb, ho⟩ := Bool.or_eq_false_iff.mp hends
    rw [betweenChar_ordinary hb (beq_eq_false_iff_ne.mpr hhash) ho]
    exact wordChar hc ts .empty

theorem surroundedChar (ts : List Token) (around : Surroundings) (d : WordDraft) :
    Opens (surroundedChar ts around d c) := by
  cases around with
  | bare =>
    exact .ite (fun _ => betweenChar hc _) fun _ => .ite (fun _ => .ite (fun _ => .error _) fun _ =>
      betweenChar hc _) fun _ => wordChar hc ts d
  | doubleQuoted =>
    have hback : c ≠ '\\' := by
      rintro rfl
      exact hc (by decide)
    exact .ite (fun _ => .ok trivial) fun _ =>
      .ite (fun h => absurd (beq_iff_eq.mp h) hback) fun _ => .ite (fun _ => .ok trivial) fun _ =>
      .ite (fun _ => .error _) fun _ => .ok trivial

theorem step {s : Scanner} (hs : s.mode.IsOpen) : Opens (s.step c) := by
  obtain ⟨ts, m⟩ := s
  cases m with
  | comment | wordEscape | single | doubleEscape => cases hs
  | between => exact betweenChar hc ts
  | ampersand => exact .ite (fun _ => .ok trivial) fun _ => .error _
  | bar => exact .ite (fun _ => .ok trivial) fun _ => betweenChar hc _
  | greater =>
    exact .ite (fun _ => .ok trivial) fun _ => .ite (fun _ => .error _) fun _ => betweenChar hc _
  | less =>
    exact .ite (fun _ => .error _) fun _ => .ite (fun _ => .error _) fun _ => betweenChar hc _
  | word d => exact surroundedChar hc ts .bare d
  | double d => exact surroundedChar hc ts .doubleQuoted d
  | dollar around d =>
    refine .ite (fun _ => .error _) fun _ => .ite (fun _ => .error _) fun _ => .ite (fun _ => ?_)
      fun _ => .ite (fun _ => .ok trivial) fun _ => surroundedChar hc ts around _
    cases around <;> exact .ok trivial
  | name around chars d =>
    exact .ite (fun _ => .ok trivial) fun _ => surroundedChar hc ts around _

end Opens

/-- Behind text without single quotes, backslashes and comments. -/
theorem isOpen_run {pre : List Char} (hpre : ∀ x ∈ pre, x ∉ ['\'', '\\', '#']) {s : Scanner}
    (hs : s.mode.IsOpen) : Opens (s.run pre) := by
  induction pre generalizing s with
  | nil =>
    rintro s ⟨⟩
    exact hs
  | cons c pre ih =>
    obtain ⟨hc, hpre⟩ := List.forall_mem_cons.mp hpre
    intro s' hs'
    simp only [run] at hs'
    cases hstep : s.step c with
    | error e => rw [hstep] at hs'; cases hs'
    | ok s₁ =>
      rw [hstep] at hs'
      exact ih hpre (Opens.step hc hs s₁ hstep) s' hs'

theorem step_resume (ts : List Token) (around : Surroundings) (d : WordDraft) (c : Char) :
    (resume ts around d).step c = surroundedChar ts around d c := by
  cases around <;> rfl

/-- A dollar sign before anything else than a reference is an ordinary character. -/
theorem readAll_unknownParameter {c : Char} (hc : isUnknownParameter c = true) (ts : List Token)
    (around : Surroundings) (d : WordDraft) (q : List Char) :
    readAll ⟨ts, .dollar around d⟩ (c :: q) = readAll (resume ts around (d.push '$')) (c :: q) := by
  obtain ⟨hopen, hbrace, hquestion, hname⟩ := ne_of_isUnknownParameter hc
  have hstep : step ⟨ts, .dollar around d⟩ c = surroundedChar ts around (d.push '$') c := by
    simp only [step, hopen, hbrace, hquestion, hname, Bool.false_eq_true, if_false]
  simp only [readAll, run, hstep, step_resume]

/-- Where a dollar sign is read as such, it is behind a word or begins one, and so is a percent
sign. -/
theorem step_dollar {s : Scanner} (hs : s.mode.IsOpen) :
    (∃ e e', s.step '$' = .error e ∧ s.step '%' = .error e') ∨
      ∃ ts around d, s.step '$' = .ok ⟨ts, .dollar around d⟩ ∧
        s.step '%' = .ok (resume ts around (d.push '%')) := by
  obtain ⟨ts, m⟩ := s
  cases m with
  | comment | wordEscape | single | doubleEscape => cases hs
  | between => exact .inr ⟨ts, .bare, .empty, rfl, rfl⟩
  | ampersand => exact .inl ⟨_, _, rfl, rfl⟩
  | bar => exact .inr ⟨.pipe :: ts, .bare, .empty, rfl, rfl⟩
  | greater => exact .inr ⟨.redirectOut :: ts, .bare, .empty, rfl, rfl⟩
  | less => exact .inr ⟨.redirectIn :: ts, .bare, .empty, rfl, rfl⟩
  | word d => exact .inr ⟨ts, .bare, d, rfl, rfl⟩
  | double d => exact .inr ⟨ts, .doubleQuoted, d, rfl, rfl⟩
  | dollar around d =>
    cases around with
    | bare => exact .inr ⟨ts, .bare, d.push '$', rfl, rfl⟩
    | doubleQuoted => exact .inr ⟨ts, .doubleQuoted, d.push '$', rfl, rfl⟩
  | name around chars d =>
    cases around with
    | bare => exact .inr ⟨ts, .bare, d.pushVariable (String.ofList chars.reverse), rfl, rfl⟩
    | doubleQuoted =>
      exact .inr ⟨ts, .doubleQuoted, d.pushVariable (String.ofList chars.reverse), rfl, rfl⟩

theorem differ_resume (ts : List Token) (around : Surroundings) (d : WordDraft) (a b : Char) :
    ∃ m m', resume ts around (d.push a) = ⟨ts, m⟩ ∧ resume ts around (d.push b) = ⟨ts, m'⟩ ∧
      m.Differ a b m' := by
  cases around with
  | bare => exact ⟨_, _, rfl, rfl, .word (WordDraft.differ_push a b)⟩
  | doubleQuoted => exact ⟨_, _, rfl, rfl, .double (WordDraft.differ_push a b)⟩

end Scanner

theorem inert_sign {x : Char} (hx : x ∈ ['$', '%']) : Inert x := by
  simp only [List.mem_cons, List.not_mem_nil, or_false] at hx
  rcases hx with rfl | rfl
  · exact ⟨by decide, by decide⟩
  · exact ⟨by decide, by decide⟩

section

variable {pre post : List Char} {c : Char} (hc : isUnknownParameter c = true)
  (hpre : ∀ x ∈ pre, x ∉ ['\'', '\\', '#'])

include hc hpre

open Scanner

/-- With the dollar sign and with a percent sign in its place, the text either cannot be read, or
the sign is read as an ordinary character of one and the same draft. -/
theorem readAll_replaced (post : List Char) :
    (∀ x ∈ ['$', '%'], ∃ e, start.readAll (pre ++ x :: c :: post) = .error e) ∨
      ∃ ts around d, ∀ x ∈ ['$', '%'], start.readAll (pre ++ x :: c :: post)
        = readAll (resume ts around (WordDraft.push d x)) (c :: post) := by
  cases hrun : start.run pre with
  | error e => exact .inl fun x _ => ⟨e, by simp [readAll, run_append, hrun]⟩
  | ok s =>
    simp only [List.forall_mem_cons, List.not_mem_nil, false_implies, implies_true, and_true,
      readAll_append hrun]
    have hopen : s.mode.IsOpen := isOpen_run hpre (s := start) trivial s hrun
    rcases step_dollar hopen with ⟨e, e', h, h'⟩ | ⟨ts, around, d, h, h'⟩
    · exact .inl ⟨⟨e, by simp [readAll, run, h]⟩, ⟨e', by simp [readAll, run, h']⟩⟩
    · refine .inr ⟨ts, around, d, ?_, readAll_cons h' _⟩
      rw [readAll_cons h, readAll_unknownParameter hc]

/-- The texts are read as the same tokens, but for the sign in one literal segment. -/
theorem scan_replaced {x y : Char} (hx : x ∈ ['$', '%']) (hy : y ∈ ['$', '%'])
    {tokens : List Token} (h : scan (pre ++ x :: c :: post) = .ok tokens) :
    ∃ tokens', scan (pre ++ y :: c :: post) = .ok tokens' ∧
      DifferAt (Token.Differ x y) tokens tokens' := by
  obtain ⟨read, hread, rfl⟩ := scan_eq_ok.mp h
  rcases readAll_replaced hc hpre post with herror | ⟨ts, around, d, hsign⟩
  · obtain ⟨e, he⟩ := herror x hx
    rw [he] at hread
    cases hread
  · obtain ⟨m, m', hm, hm', hdiffer⟩ := differ_resume ts around d x y
    rw [hsign x hx, hm] at hread
    obtain ⟨read', hread', hreads⟩ := readAll_differ (inert_sign hx) (inert_sign hy) hdiffer hread
    rw [← hm', ← hsign y hy] at hread'
    exact ⟨_, scan_eq_ok.mpr ⟨read', hread', rfl⟩, hreads.reverse.append_right _⟩

theorem parse_replaced {x y : Char} (hx : x ∈ ['$', '%']) (hy : y ∈ ['$', '%']) {tree : Command}
    (h : parse (String.ofList (pre ++ x :: c :: post)) = .ok tree) :
    ∃ tree', parse (String.ofList (pre ++ y :: c :: post)) = .ok tree' := by
  obtain ⟨tokens, hscan, -⟩ := derived_of_parse h
  rw [String.toList_ofList] at hscan
  obtain ⟨tokens', hscan', hdiffer⟩ := scan_replaced hc hpre hx hy hscan
  exact parse_differ (inert_sign hx) (inert_sign hy) (by rwa [String.toList_ofList])
    (by rwa [String.toList_ofList]) hdiffer h

end

/-- A line with an unknown parameter, in front of which there are no single quotes, backslashes and
comments, is left to a real shell or fails to parse if and only if it does with a percent sign in the
place of the dollar sign. Where it is read, the dollar sign is text: it is a literal character of a
word, where the percent sign is one. -/
theorem unknownParameter {pre post : List Char} {c : Char} (hc : isUnknownParameter c = true)
    (hpre : ∀ x ∈ pre, x ∉ ['\'', '\\', '#']) :
    needsRealShell (pre ++ '$' :: c :: post) = needsRealShell (pre ++ '%' :: c :: post) ∧
      ((∃ tree, parse (String.ofList (pre ++ '$' :: c :: post)) = .ok tree) ↔
        ∃ tree, parse (String.ofList (pre ++ '%' :: c :: post)) = .ok tree) ∧
      ∀ tokens, scan (pre ++ '$' :: c :: post) = .ok tokens →
        ∃ tokens', scan (pre ++ '%' :: c :: post) = .ok tokens' ∧
          DifferAt (Token.Differ '$' '%') tokens tokens' :=
  ⟨DeferralState.defers_replaced .start pre hc post,
    ⟨fun ⟨_, h⟩ => parse_replaced hc hpre (by decide) (by decide) h,
      fun ⟨_, h⟩ => parse_replaced hc hpre (by decide) (by decide) h⟩,
    fun _ h => scan_replaced hc hpre (by decide) (by decide) h⟩

theorem unknownParameter_in_quotes :
    isUnknownParameter '@' = true ∧ (∀ x ∈ "echo \"".toList, x ∉ ['\'', '\\', '#']) ∧
      needsRealShell "echo \"$@\"".toList = false ∧
      ∃ tree, parse "echo \"$@\"" = .ok tree := by
  have hpre : ∀ x ∈ "echo \"".toList, x ∉ ['\'', '\\', '#'] := by simp
  obtain ⟨hdefers, hparse, -⟩ :=
    @unknownParameter "echo \"".toList "\"".toList '@' (by decide) hpre
  refine ⟨by decide, hpre, hdefers.trans rfl, hparse.mpr
    ⟨.simple (.ofText "echo") [⟨[.literal "%@"], true⟩] [], ?_⟩⟩
  have hscan : scan (String.ofList ("echo \"".toList ++ '%' :: '@' :: "\"".toList)).toList
      = .ok ([.ofText "echo", ⟨[.literal "%@"], true⟩].map .word ++ [.eof]) := rfl
  rw [parse, hscan]
  exact parseTokens_words _ rfl

/-- Nobody knows `$1`, and it is a word. -/
theorem parse_unknownParameter :
    isUnknownParameter '1' = true ∧ needsRealShell "echo $1".toList = false ∧
      parse "echo $1" = .ok (.simple (.ofText "echo") [.ofText "$1"] []) := by
  have hscan : scan "echo $1".toList
      = .ok ([.ofText "echo", .ofText "$1"].map .word ++ [.eof]) := rfl
  refine ⟨by decide, rfl, ?_⟩
  rw [parse, hscan]
  exact parseTokens_words _ rfl

end Runnel
