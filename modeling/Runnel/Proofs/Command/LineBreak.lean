import Runnel.Command.Deferral
import Runnel.Proofs.Command.Accepting

/-!
# Runnel.Proofs.Command.LineBreak

Two lines of command text as one text. A newline ends whatever the first line ended with, a comment
included, and separates the two lines like a semicolon, unless the first line ends in one.

* `scan_newline`: the tokens of both lines are those of one and then those of the other.
* `Grammar.Sequence.join`: a derivation for each of them is one for both.
* `parse_newline`: the members of the second tree come behind those of the first.
-/

namespace Runnel
namespace Scanner

/-! ## A newline after the end -/

/-- If this succeeds in the middle of an escape, `c` is a backslash. -/
def Escapes (c : Char) (r : Except SyntaxError Scanner) : Prop :=
  ∀ s d, r = .ok s → s.mode = .wordEscape d → c = '\\'

namespace Escapes

variable {c : Char}

theorem ok {ts : List Token} {m : ScanMode} (h : ∀ d, m ≠ .wordEscape d) :
    Escapes c (.ok ⟨ts, m⟩) := by
  rintro s d ⟨⟩ hd
  exact absurd hd (h d)

theorem error (e : SyntaxError) : Escapes c (.error e) := by
  rintro s d ⟨⟩

theorem ite {p : Prop} [Decidable p] {a b : Except SyntaxError Scanner} (ha : Escapes c a)
    (hb : Escapes c b) : Escapes c (if p then a else b) := by
  split
  · exact ha
  · exact hb

theorem wordChar (ts : List Token) (d : WordDraft) : Escapes c (wordChar ts d c) := by
  unfold Scanner.wordChar
  split
  · rename_i h
    exact fun _ _ _ _ => beq_iff_eq.mp h
  · exact .ite (.ok nofun) (.ite (.ok nofun) (.ite (.ok nofun) (.ite (.error _) (.ok nofun))))

theorem betweenChar (ts : List Token) : Escapes c (betweenChar ts c) :=
  .ite (.ok nofun) <| .ite (.ok nofun) <| .ite (.ok nofun) <| .ite (.ok nofun) <|
    .ite (.ok nofun) <| .ite (.ok nofun) <| .ite (.ok nofun) <| .ite (.ok nofun) <|
    .ite (.ok nofun) <| .ite (.ok nofun) (.wordChar ts .empty)

theorem surroundedChar (ts : List Token) (around : Surroundings) (d : WordDraft) :
    Escapes c (surroundedChar ts around d c) := by
  cases around with
  | bare =>
    exact .ite (.betweenChar _) (.ite (.ite (.error _) (.betweenChar _)) (.wordChar ts d))
  | doubleQuoted =>
    exact .ite (.ok nofun) (.ite (.ok nofun) (.ite (.ok nofun) (.ite (.error _) (.ok nofun))))

theorem step (s : Scanner) : Escapes c (s.step c) := by
  obtain ⟨ts, m⟩ := s
  cases m with
  | between => exact .betweenChar ts
  | comment => exact .ite (.betweenChar ts) (.ok nofun)
  | ampersand => exact .ite (.ok nofun) (.error _)
  | bar => exact .ite (.ok nofun) (.betweenChar _)
  | greater => exact .ite (.ok nofun) (.ite (.error _) (.betweenChar _))
  | less => exact .ite (.error _) (.ite (.error _) (.betweenChar _))
  | word d => exact .surroundedChar ts .bare d
  | wordEscape d => exact .ite (.ok nofun) (.ok nofun)
  | single d => exact .ite (.ok nofun) (.ok nofun)
  | double d => exact .surroundedChar ts .doubleQuoted d
  | doubleEscape d => exact .ite (.ok nofun) (.ite (.ok nofun) (.ok nofun))
  | dollar around d =>
    refine .ite (.error _) (.ite (.error _) (.ite ?_ (.ite (.ok nofun) (.surroundedChar _ _ _))))
    cases around with
    | bare | doubleQuoted => exact .ok nofun
  | name around chars d => exact .ite (.ok nofun) (.surroundedChar _ _ _)

end Escapes

/-- Text that is read up to the middle of an escape ends with a backslash. -/
theorem getLast?_of_wordEscape {text : List Char} {s : Scanner} {d : WordDraft}
    (h : start.run text = .ok s) (hs : s.mode = .wordEscape d) : text.getLast? = some '\\' := by
  rcases text.eq_nil_or_concat with rfl | ⟨front, c, rfl⟩
  · cases h
    cases hs
  · rw [List.concat_eq_append, run_append] at h
    cases hfront : start.run front with
    | error e => rw [hfront] at h; cases h
    | ok s' =>
      rw [hfront] at h
      simp only [run] at h
      cases hstep : s'.step c with
      | error e => rw [hstep] at h; cases h
      | ok s'' =>
        rw [hstep] at h
        cases h
        rw [Escapes.step s' s d hstep hs]
        simp

/-- Where text may end, a newline does what a newline does between two tokens. -/
theorem step_newline {s : Scanner} {read : List Token} (h : s.finish = .ok read)
    (hs : ∀ d, s.mode ≠ .wordEscape d) : s.step '\n' = .ok ⟨newline read, .between⟩ := by
  obtain ⟨ts, m⟩ := s
  cases m with
  | between | comment | bar | greater | less | word d => cases h; rfl
  | wordEscape d => exact absurd rfl (hs d)
  | ampersand | single d | double d | doubleEscape d => cases h
  | dollar around d | name around chars d =>
    cases around with
    | bare => cases h; rfl
    | doubleQuoted => cases h

theorem not_settled_newline (ts : List Token) : settled (newline ts) = false := by
  rw [newline_eq]
  cases h : settled ts with
  | true => rfl
  | false => exact h

end Scanner

/-- What stands between the tokens of two lines. -/
def separator (tokens : List Token) : List Token :=
  if Scanner.settled tokens.reverse then [.semicolon] else []

/-- The tokens of two lines are those of one and then those of the other. The newline is a semicolon
if the first line does not end with an operator that needs more. -/
theorem scan_newline {a b : List Char} {ts us : List Token} (ha : scan a = .ok (ts ++ [.eof]))
    (hb : scan b = .ok (us ++ [.eof])) (hback : a.getLast? ≠ some '\\') :
    scan (a ++ '\n' :: b) = .ok (ts ++ (separator ts ++ (us ++ [.eof]))) := by
  obtain ⟨ra, hra, hts⟩ := Scanner.scan_eq_ok.mp ha
  obtain ⟨rb, hrb, hus⟩ := Scanner.scan_eq_ok.mp hb
  obtain rfl := List.append_cancel_right hts
  obtain rfl := List.append_cancel_right hus
  simp only [Scanner.readAll] at hra
  cases hrun : Scanner.start.run a with
  | error e => rw [hrun] at hra; cases hra
  | ok s =>
    rw [hrun] at hra
    have hnewline := Scanner.step_newline hra fun d hd =>
      hback (Scanner.getLast?_of_wordEscape hrun hd)
    -- the second line is read behind the tokens of the first
    have hsettled : Scanner.settled [] = Scanner.settled (Scanner.newline ra) :=
      (Scanner.not_settled_newline ra).symm
    obtain ⟨new, hnew, hread⟩ := Scanner.readAll_frame hsettled hrb
    obtain rfl : rb = new := by simpa using hnew
    refine Scanner.scan_eq_ok.mpr ⟨rb ++ Scanner.newline ra, ?_, ?_⟩
    · rw [Scanner.readAll_append hrun, Scanner.readAll_cons hnewline]
      exact hread
    · rw [Scanner.newline_eq, separator, List.reverse_reverse]
      split
      all_goals simp

namespace Grammar

open Parse (front)

/-! ## Phrases in other texts -/

/-- The last of these tokens ends something. -/
def Closed (phrase : List Token) : Prop :=
  Scanner.settled phrase.reverse = true

theorem settled_reverse_append (before : List Token) {phrase : List Token} (h : phrase ≠ []) :
    Scanner.settled (before ++ phrase).reverse = Scanner.settled phrase.reverse := by
  rw [List.reverse_append]
  cases hr : phrase.reverse with
  | nil => exact absurd (List.reverse_eq_nil_iff.mp hr) h
  | cons t more => rfl

theorem Closed.ne_nil {phrase : List Token} (h : Closed phrase) : phrase ≠ [] := by
  rintro rfl
  cases h

theorem Closed.append {phrase : List Token} (h : Closed phrase) (before : List Token) :
    Closed (before ++ phrase) :=
  (settled_reverse_append before h.ne_nil).trans h

theorem Closed.append_of {phrase more : List Token} (h : Closed phrase)
    (hmore : more = [] ∨ Closed more) : Closed (phrase ++ more) := by
  rcases hmore with rfl | hmore
  · rwa [List.append_nil]
  · exact hmore.append phrase

theorem Closed.separator_eq {phrase : List Token} (h : Closed phrase) :
    separator phrase = [.semicolon] :=
  if_pos h

theorem separator_append_open (before : List Token) {phrase : List Token} (hne : phrase ≠ [])
    (h : ¬ Closed phrase) : separator (before ++ phrase) = [] := by
  rw [separator, settled_reverse_append before hne]
  exact if_neg h

/-- No redirect and no word is in front of these tokens. -/
def Behind (rest : List Token) : Prop :=
  (front rest).beginsSimple = false

/-- A phrase takes the same tokens whatever is behind them. -/
theorem Parts.move {tokens rest : List Token} {words : List Word} {redirects : List Redirect}
    (h : Parts tokens words redirects rest) : ∃ phrase, tokens = phrase ++ rest ∧
      (phrase = [] ∧ words = [] ∨ Closed phrase) ∧
      ∀ rest', Parts (phrase ++ rest') words redirects rest' := by
  induction h with
  | none rest => exact ⟨[], rfl, .inl ⟨rfl, rfl⟩, fun rest' => .none rest'⟩
  | @word w tokens rest words redirects _ ih =>
    obtain ⟨phrase, rfl, hclosed, hmove⟩ := ih
    have hw : Closed [.word w] := rfl
    exact ⟨.word w :: phrase, rfl, .inr (hw.append_of (hclosed.imp_left And.left)),
      fun rest' => .word (hmove rest')⟩
  | @redirect op mode target tokens rest words redirects hop _ ih =>
    obtain ⟨phrase, rfl, hclosed, hmove⟩ := ih
    have hw : Closed [op, .word target] := rfl
    exact ⟨op :: .word target :: phrase, rfl, .inr (hw.append_of (hclosed.imp_left And.left)),
      fun rest' => .redirect hop (hmove rest')⟩

theorem behind_of_connector {op : Token} {connector : Connector}
    (h : op.connector? = some connector) (rest : List Token) : Behind (op :: rest) := by
  cases op with
  | and | or | semicolon => rfl
  | _ => cases h

mutual

theorem Sequence.move {tokens rest : List Token} {c : Command} : Sequence tokens c rest →
    ∃ phrase, tokens = phrase ++ rest ∧
      ∀ rest', Behind rest' → Sequence (phrase ++ rest') c rest'
  | .members hfirst hmore => by
    obtain ⟨phrase, rfl, -, hmove⟩ := hfirst.move
    obtain ⟨more, rfl, hmove'⟩ := hmore.move
    refine ⟨phrase ++ more, (List.append_assoc ..).symm, fun rest' hrest' => ?_⟩
    obtain ⟨hmembers, hbehind⟩ := hmove' rest' hrest'
    rw [List.append_assoc]
    exact .members (hmove _ hbehind) hmembers

theorem Members.move {tokens rest : List Token} {more : List (Connector × Command)} :
    Members tokens more rest → ∃ phrase, tokens = phrase ++ rest ∧
      ∀ rest', Behind rest' → Members (phrase ++ rest') more rest' ∧ Behind (phrase ++ rest')
  | .none rest => ⟨[], rfl, fun rest' h => ⟨.none rest', h⟩⟩
  | .trailing rest => ⟨[.semicolon], rfl, fun rest' _ => ⟨.trailing rest', rfl⟩⟩
  | @Members.member op _ _ _ _ _ _ hop hc hmore => by
    obtain ⟨phrase, rfl, -, hmove⟩ := hc.move
    obtain ⟨more, rfl, hmove'⟩ := hmore.move
    refine ⟨op :: (phrase ++ more), by simp, fun rest' hrest' => ?_⟩
    obtain ⟨hmembers, hbehind⟩ := hmove' rest' hrest'
    rw [List.cons_append, List.append_assoc]
    exact ⟨.member hop (hmove _ hbehind) hmembers, behind_of_connector hop _⟩

theorem Pipeline.move {tokens rest : List Token} {c : Command} : Pipeline tokens c rest →
    ∃ phrase, tokens = phrase ++ rest ∧ Closed phrase ∧
      ∀ rest', Behind rest' → Pipeline (phrase ++ rest') c rest'
  | .stages hfirst hmore => by
    obtain ⟨phrase, rfl, hclosed, hmove⟩ := hfirst.move
    obtain ⟨more, rfl, hclosed', hmove'⟩ := hmore.move
    refine ⟨phrase ++ more, (List.append_assoc ..).symm, hclosed.append_of hclosed',
      fun rest' hrest' => ?_⟩
    obtain ⟨hstages, hbehind⟩ := hmove' rest' hrest'
    rw [List.append_assoc]
    exact .stages (hmove _ hbehind) hstages

theorem Stages.move {tokens rest : List Token} {more : List Command} : Stages tokens more rest →
    ∃ phrase, tokens = phrase ++ rest ∧ (phrase = [] ∨ Closed phrase) ∧
      ∀ rest', Behind rest' → Stages (phrase ++ rest') more rest' ∧ Behind (phrase ++ rest')
  | .none rest => ⟨[], rfl, .inl rfl, fun rest' h => ⟨.none rest', h⟩⟩
  | .stage hc hmore => by
    obtain ⟨phrase, rfl, hclosed, hmove⟩ := hc.move
    obtain ⟨more, rfl, hclosed', hmove'⟩ := hmore.move
    refine ⟨.pipe :: (phrase ++ more), by simp,
      .inr ((hclosed.append_of hclosed').append [.pipe]), fun rest' hrest' => ?_⟩
    obtain ⟨hstages, hbehind⟩ := hmove' rest' hrest'
    rw [List.cons_append, List.append_assoc]
    exact ⟨.stage (hmove _ hbehind) hstages, rfl⟩

theorem Single.move {tokens rest : List Token} {c : Command} : Single tokens c rest →
    ∃ phrase, tokens = phrase ++ rest ∧ Closed phrase ∧
      ∀ rest', Behind rest' → Single (phrase ++ rest') c rest'
  | @Single.subshell _ rest _ hbody _ => by
    obtain ⟨phrase, rfl, hmove⟩ := hbody.move
    have hparen : Closed [.closeParen] := rfl
    refine ⟨.openParen :: phrase ++ [.closeParen], by simp, hparen.append _, fun rest' hrest' => ?_⟩
    rw [List.append_assoc]
    exact .subshell (hmove (.closeParen :: rest') rfl) hrest'
  | .simple hparts hname => by
    obtain ⟨phrase, rfl, hclosed, hmove⟩ := hparts.move
    refine ⟨phrase, rfl, ?_, fun rest' _ => .simple (hmove rest') hname⟩
    rcases hclosed with ⟨-, ⟨⟩⟩ | hclosed
    exact hclosed

end

/-! ## Sequences behind one another -/

theorem Members.behind {tokens left : List Token} {more : List (Connector × Command)}
    (h : Members tokens more left) (hmore : more ≠ []) : Behind tokens := by
  cases h with
  | none | trailing => exact absurd rfl hmore
  | member hop => exact behind_of_connector hop _

/-- More members come behind a semicolon, which is there already if the members end with one. -/
theorem Members.join {y rest left' : List Token} {g : Command} {ss : List (Connector × Command)}
    (hg : Pipeline y g rest) (hss : Members rest ss left') {tokens left : List Token}
    {more : List (Connector × Command)} : Members tokens more left →
    ∃ phrase, tokens = phrase ++ left ∧
      ((phrase = [] ∨ Closed phrase) ∧
          Members (phrase ++ .semicolon :: y) (more ++ (.next, g) :: ss) left' ∨
        (phrase ≠ [] ∧ ¬ Closed phrase) ∧ Members (phrase ++ y) (more ++ (.next, g) :: ss) left')
  | .none rest => ⟨[], rfl, .inl ⟨.inl rfl, .member rfl hg hss⟩⟩
  | .trailing rest => ⟨[.semicolon], rfl, .inr ⟨⟨nofun, nofun⟩, .member rfl hg hss⟩⟩
  | @Members.member op _ _ _ _ _ more hop hc hmore => by
    obtain ⟨phrase, rfl, hclosed, hmove⟩ := hc.move
    obtain ⟨tail, rfl, hjoin⟩ := Members.join hg hss hmore
    have hbehind : ∀ {tokens}, Members tokens (more ++ (.next, g) :: ss) left' → Behind tokens :=
      fun h => h.behind (by simp)
    refine ⟨op :: (phrase ++ tail), by simp, ?_⟩
    rcases hjoin with ⟨htail, h⟩ | ⟨⟨htail, hopen⟩, h⟩
    · refine .inl ⟨.inr ((hclosed.append_of htail).append [op]), ?_⟩
      rw [List.cons_append, List.append_assoc]
      exact .member hop (hmove _ (hbehind h)) h
    · refine .inr ⟨⟨by simp, ?_⟩, ?_⟩
      · have hsettled := settled_reverse_append (op :: phrase) htail
        rw [List.cons_append] at hsettled
        rwa [Closed, hsettled]
      · rw [List.cons_append, List.append_assoc]
        exact .member hop (hmove _ (hbehind h)) h

/-- A derivation for two lines from one for each of them. -/
theorem Sequence.join {ts us left : List Token} {c d : Command}
    (h : Sequence (ts ++ [.eof]) c [.eof]) (h' : Sequence us d left) :
    ∃ f rs g ss, c = .ofSequence f rs ∧ d = .ofSequence g ss ∧
      Sequence (ts ++ (separator ts ++ us)) (.ofSequence f (rs ++ (.next, g) :: ss)) left := by
  obtain @⟨_, _, _, f, rs, hf, hrs⟩ := h
  obtain @⟨_, _, _, g, ss, hg, hss⟩ := h'
  obtain ⟨phrase, heq, hclosed, hmove⟩ := hf.move
  obtain ⟨tail, rfl, hjoin⟩ := Members.join hg hss hrs
  rw [← List.append_assoc] at heq
  obtain rfl := List.append_cancel_right heq
  have hbehind : ∀ {tokens}, Members tokens (rs ++ (.next, g) :: ss) left → Behind tokens :=
    fun h => h.behind (by simp)
  refine ⟨f, rs, g, ss, rfl, rfl, ?_⟩
  rcases hjoin with ⟨htail, h⟩ | ⟨⟨htail, hopen⟩, h⟩
  · rw [(hclosed.append_of htail).separator_eq, List.append_assoc]
    exact .members (hmove _ (hbehind h)) h
  · rw [separator_append_open _ htail hopen, List.append_assoc, List.nil_append]
    exact .members (hmove _ (hbehind h)) h

end Grammar

/-- The tree of two lines: the members of the second one come behind those of the first. -/
theorem parse_newline {a b : String} {c d : Command} (ha : parse a = .ok c) (hb : parse b = .ok d)
    (hback : a.toList.getLast? ≠ some '\\') :
    ∃ f rs g ss, c = .ofSequence f rs ∧ d = .ofSequence g ss ∧
      parse (a ++ "\n" ++ b) = .ok (.sequence f (rs ++ (.next, g) :: ss)) := by
  obtain ⟨tokens, hta, hc⟩ := derived_of_parse ha
  obtain ⟨tokens', htb, hd⟩ := derived_of_parse hb
  obtain ⟨ts, rfl, -⟩ := scan_terminated hta
  obtain ⟨us, rfl, -⟩ := scan_terminated htb
  obtain ⟨f, rs, g, ss, rfl, rfl, h⟩ := hc.join hd
  have hscan := scan_newline hta htb hback
  have hsplit : (a ++ "\n" ++ b).toList = a.toList ++ '\n' :: b.toList := by simp
  refine ⟨f, rs, g, ss, rfl, rfl, ?_⟩
  rw [parse_of_derived (by rw [hsplit, hscan]) h]
  cases rs <;> rfl

end Runnel
