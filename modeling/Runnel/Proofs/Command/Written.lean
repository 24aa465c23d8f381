import Mathlib.Data.List.Induction
import Runnel.Proofs.Command.LineBreak
import Runnel.Proofs.Command.Reading

/-!
# Runnel.Proofs.Command.Written

How the words of a text come about. A reader puts a word together in a few kinds of steps, and what
each of them keeps holds of every word of every text.

* `WordDraft.Written`: the drafts that a reader comes to.
* `Scanner.wellWritten_step`, `wellWritten_run`: a step, and all of them, keep to these.
* `scan_written`: every word of a text is the end of such a draft.
-/

namespace Runnel

/-- The drafts that a reader comes to if the characters that it takes literally behind a backslash
outside quotes are among `p`. -/
inductive WordDraft.Written (p : Char → Prop) : WordDraft → Prop where
  | empty : Written p .empty
  /-- A character that needs no quotes. -/
  | bare {d : WordDraft} {c : Char} (h : Written p d) (hb : Text.isBlank c = false)
      (ho : isOperatorChar c = false) : Written p (d.push c)
  /-- A character behind a backslash. -/
  | escaped {d : WordDraft} {c : Char} (h : Written p d) (hc : p c) : Written p (d.push c)
  /-- A character in quotes. -/
  | quoted {d : WordDraft} {c : Char} (h : Written p d) (hq : d.quoted = true) :
      Written p (d.push c)
  | quote {d : WordDraft} (h : Written p d) : Written p d.enterQuote
  | touch {d : WordDraft} (h : Written p d) : Written p d.touch
  | reference {d : WordDraft} {name : String} (h : Written p d)
      (hname : name = "?" ∨ Text.isIdentifier name.toList = true) :
      Written p (d.pushVariable name)

/-- Every word among the tokens is the end of a draft that a reader comes to. -/
def Composed (p : Char → Prop) (tokens : List Token) : Prop :=
  ∀ w, Token.word w ∈ tokens → ∃ d, WordDraft.Written p d ∧ d.finish = some w

theorem Composed.cons {p : Char → Prop} {t : Token} {tokens : List Token} (h : Composed p tokens)
    (ht : ∀ w, t ≠ .word w) : Composed p (t :: tokens) := by
  intro w hw
  rcases List.mem_cons.mp hw with heq | hw
  · exact absurd heq.symm (ht w)
  · exact h w hw

/-- The draft in this mode is one that a reader comes to, and it counts as quoted within quotes. -/
def ScanMode.Written (p : Char → Prop) : ScanMode → Prop
  | .word d | .wordEscape d => WordDraft.Written p d
  | .single d | .double d | .doubleEscape d => WordDraft.Written p d ∧ d.quoted = true
  | .dollar around d => WordDraft.Written p d ∧ (around = .doubleQuoted → d.quoted = true)
  | .name around chars d =>
    (WordDraft.Written p d ∧ (around = .doubleQuoted → d.quoted = true)) ∧
      Text.isIdentifier chars.reverse = true
  | .between | .comment | .ampersand | .bar | .greater | .less => True

namespace Scanner

/-- If this succeeds, its words and its draft are such that a reader comes to. -/
def WellWritten (p : Char → Prop) (r : Except SyntaxError Scanner) : Prop :=
  ∀ s, r = .ok s → Composed p s.tokens ∧ s.mode.Written p

variable {p : Char → Prop}

namespace WellWritten

theorem ok {tokens : List Token} {m : ScanMode} (h : Composed p tokens) (hm : m.Written p) :
    WellWritten p (.ok ⟨tokens, m⟩) := by
  rintro s ⟨⟩
  exact ⟨h, hm⟩

theorem error (e : SyntaxError) : WellWritten p (.error e) := by
  rintro s ⟨⟩

theorem ite {q : Prop} [Decidable q] {a b : Except SyntaxError Scanner}
    (ha : q → WellWritten p a) (hb : ¬ q → WellWritten p b) :
    WellWritten p (if q then a else b) := by
  split
  · exact ha ‹_›
  · exact hb ‹_›

end WellWritten

section WellWritten

variable {tokens : List Token} (h : Composed p tokens)

include h

theorem composed_emitWord {d : WordDraft} (hd : d.Written p) : Composed p (emitWord tokens d) := by
  unfold emitWord
  split
  · rename_i w hw
    intro w' hw'
    rcases List.mem_cons.mp hw' with heq | hw'
    · cases heq
      exact ⟨d, hd, hw⟩
    · exact h w' hw'
  · exact h

theorem composed_newline : Composed p (newline tokens) := by
  rw [newline_eq]
  split
  · exact h.cons (by simp)
  · exact h

theorem wellWritten_wordChar {d : WordDraft} (hd : d.Written p) {c : Char}
    (hb : Text.isBlank c = false) (ho : isOperatorChar c = false) :
    WellWritten p (wordChar tokens d c) :=
  .ite (fun _ => .ok h hd) fun _ => .ite (fun _ => .ok h ⟨hd.quote, rfl⟩) fun _ =>
    .ite (fun _ => .ok h ⟨hd.quote, rfl⟩) fun _ => .ite (fun _ => .ok h ⟨hd, nofun⟩) fun _ =>
    .ite (fun _ => .error _) fun _ => .ok h (hd.bare hb ho)

theorem wellWritten_betweenChar (c : Char) : WellWritten p (betweenChar tokens c) := by
  cases hc : (Text.isBlank c || isOperatorChar c) with
  | true =>
    intro s hs
    cases betweenChar_separator hc hs with
    | newline => exact ⟨composed_newline h, trivial⟩
    | token ht => exact ⟨h.cons ht, trivial⟩
    | blank | ampersand | bar | greater | less => exact ⟨h, trivial⟩
  | false =>
    obtain ⟨hb, ho⟩ := Bool.or_eq_false_iff.mp hc
    cases hcomment : c == '#' with
    | true =>
      obtain rfl := beq_iff_eq.mp hcomment
      exact .ok h trivial
    | false =>
      rw [betweenChar_ordinary hb hcomment ho]
      exact wellWritten_wordChar h .empty hb ho

theorem wellWritten_bareChar {d : WordDraft} (hd : d.Written p) (c : Char) :
    WellWritten p (bareChar tokens d c) := by
  have hbetween := wellWritten_betweenChar (composed_emitWord h hd) c
  refine .ite (fun _ => hbetween) fun hb =>
    .ite (fun _ => .ite (fun _ => .error _) fun _ => hbetween) fun ho => ?_
  exact wellWritten_wordChar h hd (Bool.eq_false_iff.mpr hb) (Bool.eq_false_iff.mpr ho)

theorem wellWritten_surroundedChar {around : Surroundings} {d : WordDraft} (hd : d.Written p)
    (hq : around = .doubleQuoted → d.quoted = true) (c : Char) :
    WellWritten p (surroundedChar tokens around d c) := by
  cases around with
  | bare => exact wellWritten_bareChar h hd c
  | doubleQuoted =>
    have hq := hq rfl
    exact .ite (fun _ => .ok h hd) fun _ => .ite (fun _ => .ok h ⟨hd, hq⟩) fun _ =>
      .ite (fun _ => .ok h ⟨hd, fun _ => hq⟩) fun _ => .ite (fun _ => .error _) fun _ =>
      .ok h ⟨hd.quoted hq, hq⟩

/-- What a reader comes to in one step, when what it reads behind a backslash is among `p`. -/
theorem wellWritten_step {m : ScanMode} (hm : m.Written p) {c : Char}
    (hc : ∀ d, m = .wordEscape d → c ≠ '\n' → p c) : WellWritten p (step ⟨tokens, m⟩ c) := by
  have hbehind : ∀ t, (∀ w, t ≠ .word w) → WellWritten p (betweenChar (t :: tokens) c) :=
    fun t ht => wellWritten_betweenChar (h.cons ht) c
  cases m with
  | between => exact wellWritten_betweenChar h c
  | comment => exact .ite (fun _ => wellWritten_betweenChar h c) fun _ => .ok h trivial
  | ampersand => exact .ite (fun _ => .ok (h.cons (by simp)) trivial) fun _ => .error _
  | bar => exact .ite (fun _ => .ok (h.cons (by simp)) trivial) fun _ => hbehind .pipe (by simp)
  | greater =>
    exact .ite (fun _ => .ok (h.cons (by simp)) trivial) fun _ =>
      .ite (fun _ => .error _) fun _ => hbehind .redirectOut (by simp)
  | less =>
    exact .ite (fun _ => .error _) fun _ =>
      .ite (fun _ => .error _) fun _ => hbehind .redirectIn (by simp)
  | word d => exact wellWritten_bareChar h hm c
  | wordEscape d =>
    refine .ite (fun _ => .ok h hm.touch) fun hn => .ok h (hm.escaped (hc d rfl ?_))
    exact fun heq => hn (beq_iff_eq.mpr heq)
  | single d => exact .ite (fun _ => .ok h hm.1) fun _ => .ok h ⟨hm.1.quoted hm.2, hm.2⟩
  | double d =>
    have hchar : WellWritten p (surroundedChar tokens .doubleQuoted d c) :=
      wellWritten_surroundedChar h hm.1 (fun _ => hm.2) c
    exact hchar
  | doubleEscape d =>
    obtain ⟨hd, hq⟩ := hm
    exact .ite (fun _ => .ok h ⟨hd.quoted hq, hq⟩) fun _ => .ite (fun _ => .ok h ⟨hd, hq⟩) fun _ =>
      .ok h ⟨(hd.quoted hq).quoted hq, hq⟩
  | dollar around d =>
    obtain ⟨hd, hq⟩ := hm
    refine .ite (fun _ => .error _) fun _ => .ite (fun _ => .error _) fun _ => .ite (fun _ => ?_)
      fun _ => .ite (fun hstart => ?_) fun _ => ?_
    · cases around with
      | bare => exact .ok h (hd.reference (.inl rfl))
      | doubleQuoted => exact .ok h ⟨hd.reference (.inl rfl), hq rfl⟩
    · refine .ok h ⟨⟨hd, hq⟩, ?_⟩
      rw [List.reverse_singleton, Text.isIdentifier, hstart]
      rfl
    · exact wellWritten_surroundedChar h (hd.bare (by decide) (by decide)) hq c
  | name around chars d =>
    obtain ⟨⟨hd, hq⟩, hchars⟩ := hm
    refine .ite (fun hname => .ok h ⟨⟨hd, hq⟩, ?_⟩) fun _ => ?_
    · rw [List.reverse_cons]
      cases hrev : chars.reverse with
      | nil => rw [hrev] at hchars; cases hchars
      | cons a more =>
        rw [hrev] at hchars
        simp only [List.cons_append, Text.isIdentifier, Bool.and_eq_true, List.all_append] at hchars ⊢
        exact ⟨hchars.1, hchars.2, by simp [hname]⟩
    · refine wellWritten_surroundedChar h (hd.reference (.inr ?_)) hq c
      rwa [String.toList_ofList]

theorem composed_finish {m : ScanMode} (hm : m.Written p) {read : List Token}
    (hread : finish ⟨tokens, m⟩ = .ok read) : Composed p read := by
  cases m with
  | between | comment => cases hread; exact h
  | bar | greater | less => cases hread; exact h.cons (by simp)
  | word d => cases hread; exact composed_emitWord h hm
  | wordEscape d => cases hread; exact composed_emitWord h (hm.bare (by decide) (by decide))
  | ampersand | single d | double d | doubleEscape d => cases hread
  | dollar around d =>
    cases around with
    | bare => cases hread; exact composed_emitWord h (hm.1.bare (by decide) (by decide))
    | doubleQuoted => cases hread
  | name around chars d =>
    cases around with
    | bare =>
      cases hread
      refine composed_emitWord h (hm.1.1.reference (.inr ?_))
      rw [String.toList_ofList]
      exact hm.2
    | doubleQuoted => cases hread

end WellWritten

/-- What a reader comes to in a whole text. -/
theorem wellWritten_run {text : List Char}
    (hp : ∀ front c rest, text = front ++ '\\' :: c :: rest → c ≠ '\n' → p c) :
    WellWritten p (start.run text) := by
  induction text using List.reverseRecOn with
  | nil => exact .ok (fun w hw => by cases hw) trivial
  | append_singleton text c ih =>
    intro s hs
    rw [run_append] at hs
    cases hrun : start.run text with
    | error e => rw [hrun] at hs; cases hs
    | ok s' =>
      rw [hrun] at hs
      simp only [run] at hs
      cases hstep : s'.step c with
      | error e => rw [hstep] at hs; cases hs
      | ok s'' =>
        rw [hstep] at hs
        cases hs
        obtain ⟨htokens, hmode⟩ := ih (fun front c' rest hsplit =>
          hp front c' (rest ++ [c]) (by rw [hsplit]; simp)) s' hrun
        refine wellWritten_step htokens hmode (fun d hd hn => ?_) s hstep
        -- the character before this one is the backslash
        obtain ⟨front, rfl⟩ := List.getLast?_eq_some_iff.mp (getLast?_of_wordEscape hrun hd)
        exact hp front c [] (by simp) hn

end Scanner

/-- Every word of a text is the end of a draft that a reader comes to. -/
theorem scan_written {p : Char → Prop} {text : List Char} {tokens : List Token}
    (h : scan text = .ok tokens)
    (hp : ∀ front c rest, text = front ++ '\\' :: c :: rest → c ≠ '\n' → p c) :
    Composed p tokens := by
  obtain ⟨read, hread, rfl⟩ := Scanner.scan_eq_ok.mp h
  simp only [Scanner.readAll] at hread
  cases hrun : Scanner.start.run text with
  | error e => rw [hrun] at hread; cases hread
  | ok s =>
    rw [hrun] at hread
    obtain ⟨htokens, hmode⟩ := Scanner.wellWritten_run hp s hrun
    have hread := Scanner.composed_finish htokens hmode hread
    intro w hw
    simp only [List.mem_append, List.mem_reverse, List.mem_singleton, reduceCtorEq, or_false] at hw
    exact hread w hw

end Runnel
