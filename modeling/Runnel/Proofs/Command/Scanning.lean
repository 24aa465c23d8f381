import Runnel.Command.Token
import Runnel.Proofs.Command.Quoting

/-!
# Runnel.Proofs.Command.Scanning

How command text is read piece by piece, up to its end.

* `Scanner.readAll`: reading to the end of the text, so that texts can be taken apart
  (`Scanner.readAll_append`).
* `Scanner.readAll_frame`: the tokens that were read before matter only in that a newline behind
  them separates or does not.
* `Scanner.Endless`: a step does not emit the end of the text.
* `scan_terminated`: the end of the text is the last token, and only that.
-/

namespace Runnel
namespace Scanner

/-- Reads text to its end; the tokens come last one first. -/
def readAll (s : Scanner) (text : List Char) : Except SyntaxError (List Token) :=
  match s.run text with
  | .error e => .error e
  | .ok s' => s'.finish

theorem scan_eq_ok {text : List Char} {tokens : List Token} :
    scan text = .ok tokens ↔ ∃ read, start.readAll text = .ok read ∧ tokens = read.reverse ++ [.eof] := by
  simp only [scan, readAll]
  cases start.run text with
  | error e => simp
  | ok s =>
    cases h : s.finish with
    | error e => simp [h]
    | ok read => simp [h, eq_comm]

theorem run_append (s : Scanner) (p q : List Char) :
    s.run (p ++ q) = match s.run p with
      | .error e => .error e
      | .ok s' => s'.run q := by
  induction p generalizing s with
  | nil => rfl
  | cons c p ih =>
    simp only [List.cons_append, run]
    cases s.step c with
    | error e => rfl
    | ok s' => exact ih s'

theorem run_append_of_ok {s s' : Scanner} {p : List Char} (h : s.run p = .ok s') (q : List Char) :
    s.run (p ++ q) = s'.run q := by
  rw [run_append, h]

theorem readAll_append {s s' : Scanner} {p : List Char} (h : s.run p = .ok s') (q : List Char) :
    s.readAll (p ++ q) = s'.readAll q := by
  simp only [readAll, run_append, h]

theorem readAll_cons {s s' : Scanner} {c : Char} (h : s.step c = .ok s') (q : List Char) :
    s.readAll (c :: q) = s'.readAll q := by
  simp only [readAll, run, h]

/-! ## What was read before -/

/-- A newline behind these tokens, last one first, separates. -/
def settled : List Token → Bool
  | [] => false
  | t :: _ => !t.continues

theorem settled_append {ts us : List Token} (h : settled ts = settled us) (new : List Token) :
    settled (new ++ ts) = settled (new ++ us) := by
  cases new with
  | nil => exact h
  | cons t new => rfl

/-- If reading on after the tokens `ts` succeeds, so does reading on after `us`, with the same new
tokens. -/
def Framed (ts us : List Token) (r r' : Except SyntaxError Scanner) : Prop :=
  ∀ s, r = .ok s → ∃ new, s.tokens = new ++ ts ∧ r' = .ok ⟨new ++ us, s.mode⟩

namespace Framed

variable {ts us : List Token} {m : ScanMode}

theorem keep : Framed ts us (.ok ⟨ts, m⟩) (.ok ⟨us, m⟩) := by
  rintro s ⟨⟩
  exact ⟨[], rfl, rfl⟩

theorem push {t : Token} : Framed ts us (.ok ⟨t :: ts, m⟩) (.ok ⟨t :: us, m⟩) := by
  rintro s ⟨⟩
  exact ⟨[t], rfl, rfl⟩

theorem error {e : SyntaxError} {r : Except SyntaxError Scanner} : Framed ts us (.error e) r := by
  rintro s ⟨⟩

theorem ite {p : Prop} [Decidable p] {a b a' b' : Except SyntaxError Scanner}
    (ha : Framed ts us a a') (hb : Framed ts us b b') :
    Framed ts us (if p then a else b) (if p then a' else b') := by
  split
  · exact ha
  · exact hb

theorem behind {r r' : Except SyntaxError Scanner} (new : List Token)
    (h : Framed (new ++ ts) (new ++ us) r r') : Framed ts us r r' := by
  intro s hs
  obtain ⟨more, ht, hr⟩ := h s hs
  exact ⟨more ++ new, by rw [ht, List.append_assoc], by rw [hr, List.append_assoc]⟩

end Framed

theorem emitWord_eq (ts : List Token) (d : WordDraft) : emitWord ts d = emitWord [] d ++ ts := by
  unfold emitWord
  split <;> rfl

theorem newline_eq (ts : List Token) :
    newline ts = (if settled ts then [.semicolon] else []) ++ ts := by
  cases ts with
  | nil => rfl
  | cons t ts =>
    simp only [newline, settled]
    by_cases ht : t.continues = true
    · simp [ht]
    · simp [ht]

section Frame

variable {ts us : List Token} (h : settled ts = settled us)

theorem wordChar_frame (ts us : List Token) (d : WordDraft) (c : Char) :
    Framed ts us (wordChar ts d c) (wordChar us d c) :=
  .ite .keep (.ite .keep (.ite .keep (.ite .keep (.ite .error .keep))))

include h

theorem betweenChar_frame (c : Char) : Framed ts us (betweenChar ts c) (betweenChar us c) := by
  unfold betweenChar
  refine .ite ?_ (.ite .keep (.ite .keep (.ite .keep (.ite .keep (.ite .push (.ite .push
    (.ite .push (.ite .keep (.ite .keep (wordChar_frame ts us .empty c))))))))))
  rw [newline_eq ts, newline_eq us, h]
  exact .behind _ .keep

theorem emitted_frame (d : WordDraft) (c : Char) :
    Framed ts us (betweenChar (emitWord ts d) c) (betweenChar (emitWord us d) c) := by
  rw [emitWord_eq ts, emitWord_eq us]
  exact .behind _ (betweenChar_frame (settled_append h _) c)

theorem bareChar_frame (d : WordDraft) (c : Char) :
    Framed ts us (bareChar ts d c) (bareChar us d c) :=
  .ite (emitted_frame h d c) (.ite (.ite .error (emitted_frame h d c))
    (wordChar_frame ts us d c))

theorem surroundedChar_frame (around : Surroundings) (d : WordDraft) (c : Char) :
    Framed ts us (surroundedChar ts around d c) (surroundedChar us around d c) := by
  cases around with
  | bare => exact bareChar_frame h d c
  | doubleQuoted => exact .ite .keep (.ite .keep (.ite .keep (.ite .error .keep)))

theorem step_frame (m : ScanMode) (c : Char) : Framed ts us (step ⟨ts, m⟩ c) (step ⟨us, m⟩ c) := by
  have hpush : ∀ t, Framed ts us (betweenChar (t :: ts) c) (betweenChar (t :: us) c) :=
    fun t => .behind [t] (betweenChar_frame (settled_append h [t]) c)
  cases m with
  | between => exact betweenChar_frame h c
  | comment => exact .ite (betweenChar_frame h c) .keep
  | ampersand => exact .ite .push .error
  | bar => exact .ite .push (hpush .pipe)
  | greater => exact .ite .push (.ite .error (hpush .redirectOut))
  | less => exact .ite .error (.ite .error (hpush .redirectIn))
  | word d => exact bareChar_frame h d c
  | wordEscape d => exact .ite .keep .keep
  | single d => exact .ite .keep .keep
  | double d => exact surroundedChar_frame h .doubleQuoted d c
  | doubleEscape d => exact .ite .keep (.ite .keep .keep)
  | dollar around d =>
    refine .ite .error (.ite .error (.ite ?_ (.ite .keep (surroundedChar_frame h around _ c))))
    cases around <;> exact .keep
  | name around chars d => exact .ite .keep (surroundedChar_frame h around _ c)

theorem run_frame (m : ScanMode) (q : List Char) : Framed ts us (run ⟨ts, m⟩ q) (run ⟨us, m⟩ q) := by
  induction q generalizing ts us m with
  | nil => exact .keep
  | cons c q ih =>
    intro s hs
    simp only [run] at hs ⊢
    cases hc : step ⟨ts, m⟩ c with
    | error e => rw [hc] at hs; cases hs
    | ok s' =>
      obtain ⟨new, ht, hu⟩ := step_frame h m c s' hc
      obtain ⟨tokens, m'⟩ := s'
      obtain rfl : tokens = new ++ ts := ht
      rw [hc] at hs
      rw [hu]
      exact Framed.behind new (ih (settled_append h new) m') s hs

end Frame

theorem finish_frame {ts read : List Token} {m : ScanMode} (h : finish ⟨ts, m⟩ = .ok read)
    (us : List Token) :
    ∃ new, read = new ++ ts ∧ finish ⟨us, m⟩ = .ok (new ++ us) := by
  have hword : ∀ (d : WordDraft), (.ok (emitWord ts d) : Except SyntaxError _) = .ok read →
      ∃ new, read = new ++ ts ∧ (.ok (emitWord us d) : Except SyntaxError _) = .ok (new ++ us) := by
    rintro d ⟨⟩
    exact ⟨_, emitWord_eq ts d, by rw [emitWord_eq us d]⟩
  cases m with
  | between | comment => cases h; exact ⟨[], rfl, rfl⟩
  | bar => cases h; exact ⟨[.pipe], rfl, rfl⟩
  | greater => cases h; exact ⟨[.redirectOut], rfl, rfl⟩
  | less => cases h; exact ⟨[.redirectIn], rfl, rfl⟩
  | word d | wordEscape d => exact hword _ h
  | ampersand | single d | double d | doubleEscape d => cases h
  | dollar around d | name around chars d =>
    cases around with
    | bare => exact hword _ h
    | doubleQuoted => cases h

/-- The tokens read before matter only in that a newline behind them separates or does not. -/
theorem readAll_frame {ts us read : List Token} {m : ScanMode} {q : List Char}
    (h : settled ts = settled us) (hr : readAll ⟨ts, m⟩ q = .ok read) :
    ∃ new, read = new ++ ts ∧ readAll ⟨us, m⟩ q = .ok (new ++ us) := by
  simp only [readAll] at hr ⊢
  cases hq : run ⟨ts, m⟩ q with
  | error e => rw [hq] at hr; cases hr
  | ok s =>
    obtain ⟨new, ht, hu⟩ := run_frame h m q s hq
    obtain ⟨tokens, m'⟩ := s
    obtain rfl : tokens = new ++ ts := ht
    rw [hq] at hr
    rw [hu]
    obtain ⟨more, rfl, hf⟩ := finish_frame hr (new ++ us)
    refine ⟨more ++ new, by rw [List.append_assoc], ?_⟩
    rw [List.append_assoc]
    exact hf

/-! ## The end of the text -/

/-- If this succeeds, the end of the text is not among the tokens. -/
def Endless (r : Except SyntaxError Scanner) : Prop :=
  ∀ s, r = .ok s → Token.eof ∉ s.tokens

namespace Endless

theorem ok {tokens : List Token} (h : Token.eof ∉ tokens) (m : ScanMode) :
    Endless (.ok ⟨tokens, m⟩) := by
  rintro s ⟨⟩
  exact h

theorem error (e : SyntaxError) : Endless (.error e) := by
  rintro s ⟨⟩

theorem ite {p : Prop} [Decidable p] {a b : Except SyntaxError Scanner} (ha : Endless a)
    (hb : Endless b) : Endless (if p then a else b) := by
  split
  · exact ha
  · exact hb

end Endless

theorem not_eof_cons {t : Token} {tokens : List Token} (ht : t ≠ .eof) (h : Token.eof ∉ tokens) :
    Token.eof ∉ t :: tokens := by
  intro hmem
  rcases List.mem_cons.mp hmem with heq | hmem
  · exact ht heq.symm
  · exact h hmem

section Endless

variable {tokens : List Token} (h : Token.eof ∉ tokens)

include h

theorem not_eof_emitWord (d : WordDraft) : Token.eof ∉ emitWord tokens d := by
  unfold emitWord
  split
  · exact not_eof_cons (by rintro ⟨⟩) h
  · exact h

theorem not_eof_newline : Token.eof ∉ newline tokens := by
  rw [newline_eq]
  split
  · exact not_eof_cons (by rintro ⟨⟩) h
  · exact h

theorem endless_emit {t : Token} (ht : t ≠ .eof) : Endless (.ok (emit tokens t)) :=
  .ok (not_eof_cons ht h) .between

theorem endless_wordChar (d : WordDraft) (c : Char) : Endless (wordChar tokens d c) :=
  .ite (.ok h _) (.ite (.ok h _) (.ite (.ok h _) (.ite (.ok h _) (.ite (.error _) (.ok h _)))))

theorem endless_betweenChar (c : Char) : Endless (betweenChar tokens c) :=
  .ite (.ok (not_eof_newline h) _) <| .ite (.ok h _) <| .ite (.ok h _) <| .ite (.ok h _) <|
    .ite (.ok h _) <| .ite (endless_emit h (by rintro ⟨⟩)) <|
    .ite (endless_emit h (by rintro ⟨⟩)) <| .ite (endless_emit h (by rintro ⟨⟩)) <|
    .ite (.ok h _) <| .ite (.ok h _) (endless_wordChar h .empty c)

theorem endless_bareChar (d : WordDraft) (c : Char) : Endless (bareChar tokens d c) := by
  have hbetween := endless_betweenChar (not_eof_emitWord h d) c
  exact .ite hbetween (.ite (.ite (.error _) hbetween) (endless_wordChar h d c))

theorem endless_surroundedChar (around : Surroundings) (d : WordDraft) (c : Char) :
    Endless (surroundedChar tokens around d c) := by
  cases around with
  | bare => exact endless_bareChar h d c
  | doubleQuoted =>
    exact .ite (.ok h _) (.ite (.ok h _) (.ite (.ok h _) (.ite (.error _) (.ok h _))))

theorem endless_step (m : ScanMode) (c : Char) : Endless (step ⟨tokens, m⟩ c) := by
  have hbehind : ∀ t, t ≠ .eof → Endless (betweenChar (t :: tokens) c) :=
    fun t ht => endless_betweenChar (not_eof_cons ht h) c
  cases m with
  | between => exact endless_betweenChar h c
  | comment => exact .ite (endless_betweenChar h c) (.ok h _)
  | ampersand => exact .ite (endless_emit h (by rintro ⟨⟩)) (.error _)
  | bar => exact .ite (endless_emit h (by rintro ⟨⟩)) (hbehind .pipe (by rintro ⟨⟩))
  | greater =>
    exact .ite (endless_emit h (by rintro ⟨⟩))
      (.ite (.error _) (hbehind .redirectOut (by rintro ⟨⟩)))
  | less => exact .ite (.error _) (.ite (.error _) (hbehind .redirectIn (by rintro ⟨⟩)))
  | word d => exact endless_bareChar h d c
  | wordEscape d => exact .ite (.ok h _) (.ok h _)
  | single d => exact .ite (.ok h _) (.ok h _)
  | double d => exact endless_surroundedChar h .doubleQuoted d c
  | doubleEscape d => exact .ite (.ok h _) (.ite (.ok h _) (.ok h _))
  | dollar around d =>
    refine .ite (.error _) (.ite (.error _) (.ite ?_ (.ite (.ok h _)
      (endless_surroundedChar h around _ c))))
    cases around with
    | bare | doubleQuoted => exact .ok h _
  | name around chars d => exact .ite (.ok h _) (endless_surroundedChar h around _ c)

theorem endless_run (m : ScanMode) (text : List Char) : Endless (run ⟨tokens, m⟩ text) := by
  induction text generalizing tokens m with
  | nil => exact .ok h m
  | cons c text ih =>
    intro s hs
    simp only [run] at hs
    cases hc : step ⟨tokens, m⟩ c with
    | error e => rw [hc] at hs; cases hs
    | ok s' =>
      rw [hc] at hs
      exact ih (endless_step h m c s' hc) s'.mode s hs

theorem not_eof_finish {m : ScanMode} {read : List Token} (hread : finish ⟨tokens, m⟩ = .ok read) :
    Token.eof ∉ read := by
  cases m with
  | between | comment => cases hread; exact h
  | bar | greater | less => cases hread; exact not_eof_cons (by rintro ⟨⟩) h
  | word d | wordEscape d => cases hread; exact not_eof_emitWord h _
  | ampersand | single d | double d | doubleEscape d => cases hread
  | dollar around d | name around chars d =>
    cases around with
    | bare => cases hread; exact not_eof_emitWord h _
    | doubleQuoted => cases hread

end Endless
end Scanner

/-- The end of the text is the last token, and only that. -/
theorem scan_terminated {text : List Char} {tokens : List Token} (h : scan text = .ok tokens) :
    ∃ read, tokens = read ++ [.eof] ∧ Token.eof ∉ read := by
  obtain ⟨read, hread, rfl⟩ := Scanner.scan_eq_ok.mp h
  refine ⟨read.reverse, rfl, fun hmem => ?_⟩
  simp only [Scanner.readAll] at hread
  cases hrun : Scanner.start.run text with
  | error e => rw [hrun] at hread; cases hread
  | ok s =>
    rw [hrun] at hread
    have hs := Scanner.endless_run List.not_mem_nil .between text s hrun
    exact Scanner.not_eof_finish hs hread (List.mem_reverse.mp hmem)

end Runnel
