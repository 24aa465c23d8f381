import Mathlib.Data.List.Forall2
import Runnel.Proofs.Command.Accepting
import Runnel.Proofs.Command.Drafts

/-!
# Runnel.Proofs.Command.Replacing

One ordinary character of a word in the place of another. The reader comes to the same tokens, but
for that character, and the parser accepts both or neither.

* `DifferAt`: lists that are equal but for one entry.
* `Scanner.readAll_differ`: drafts that differ in one character end as words that do.
* `parse_differ`: a text with a tree still has one.
-/

namespace Runnel

/-- The lists are equal but for one entry; the two entries there are related. -/
inductive DifferAt {α : Type} (R : α → α → Prop) : List α → List α → Prop where
  | here {x y : α} (h : R x y) (rest : List α) : DifferAt R (x :: rest) (y :: rest)
  | there (x : α) {xs ys : List α} (h : DifferAt R xs ys) : DifferAt R (x :: xs) (x :: ys)

namespace DifferAt

variable {α : Type} {R : α → α → Prop} {xs ys : List α}

theorem left_ne_nil (h : DifferAt R xs ys) : xs ≠ [] := by
  cases h <;> nofun

theorem right_ne_nil (h : DifferAt R xs ys) : ys ≠ [] := by
  cases h <;> nofun

theorem append_left (front : List α) (h : DifferAt R xs ys) :
    DifferAt R (front ++ xs) (front ++ ys) := by
  induction front with
  | nil => exact h
  | cons x front ih => exact .there x ih

theorem append_right (h : DifferAt R xs ys) (rest : List α) :
    DifferAt R (xs ++ rest) (ys ++ rest) := by
  induction h with
  | here h _ => exact .here h _
  | there x _ ih => exact .there x ih

theorem reverse (h : DifferAt R xs ys) : DifferAt R xs.reverse ys.reverse := by
  induction h with
  | here h rest =>
    rw [List.reverse_cons, List.reverse_cons]
    exact append_left _ (.here h [])
  | there x _ ih =>
    rw [List.reverse_cons, List.reverse_cons]
    exact ih.append_right [x]

/-- What is around the entry at which the lists differ. -/
theorem exists_append (h : DifferAt R xs ys) :
    ∃ front x y rest, xs = front ++ x :: rest ∧ ys = front ++ y :: rest ∧ R x y := by
  induction h with
  | here h rest => exact ⟨[], _, _, rest, rfl, rfl, h⟩
  | there x _ ih =>
    obtain ⟨front, y, z, rest, rfl, rfl, h⟩ := ih
    exact ⟨x :: front, y, z, rest, rfl, rfl, h⟩

end DifferAt

section

variable (a b : Char)

/-- The texts differ in one character, which is `a` in the first and `b` in the second. -/
abbrev CharsDiffer : List Char → List Char → Prop :=
  DifferAt fun x y => x = a ∧ y = b

/-- So do these literal segments. -/
def Part.Differ : Part → Part → Prop
  | .literal t, .literal u => CharsDiffer a b t.toList u.toList
  | _, _ => False

/-- So do these words, in a literal segment. -/
structure Word.Differ (w w' : Word) : Prop where
  parts : DifferAt (Part.Differ a b) w.parts w'.parts
  quoted : w.quoted = w'.quoted

/-- So do these tokens, which are words. -/
def Token.Differ : Token → Token → Prop
  | .word w, .word w' => w.Differ a b w'
  | _, _ => False

/-- So do these drafts. -/
structure WordDraft.Differ (d d' : WordDraft) : Prop where
  text : d.parts = d'.parts ∧ CharsDiffer a b d.current d'.current ∨
    DifferAt (Part.Differ a b) d.parts d'.parts ∧ d.current = d'.current
  quoted : d.quoted = d'.quoted
  started : d.started = true
  started' : d'.started = true

/-- The reader is in the middle of the same thing, with drafts that differ like this. -/
inductive ScanMode.Differ : ScanMode → ScanMode → Prop where
  | word {d d' : WordDraft} (h : d.Differ a b d') : Differ (.word d) (.word d')
  | wordEscape {d d' : WordDraft} (h : d.Differ a b d') : Differ (.wordEscape d) (.wordEscape d')
  | single {d d' : WordDraft} (h : d.Differ a b d') : Differ (.single d) (.single d')
  | double {d d' : WordDraft} (h : d.Differ a b d') : Differ (.double d) (.double d')
  | doubleEscape {d d' : WordDraft} (h : d.Differ a b d') :
      Differ (.doubleEscape d) (.doubleEscape d')
  | dollar (around : Surroundings) {d d' : WordDraft} (h : d.Differ a b d') :
      Differ (.dollar around d) (.dollar around d')
  | name (around : Surroundings) (chars : List Char) {d d' : WordDraft} (h : d.Differ a b d') :
      Differ (.name around chars d) (.name around chars d')

end

/-- The character means nothing to the reader of a word and is no part of a name. -/
structure Inert (c : Char) : Prop where
  name : Text.isNameChar c = false
  equals : c ≠ '='

theorem Inert.not_digit {c : Char} (h : Inert c) : c.isDigit = false := by
  cases hc : c.isDigit with
  | false => rfl
  | true =>
    have := h.name
    simp [Text.isNameChar, Char.isAlphanum, hc] at this

variable {a b : Char}

/-! ## Drafts -/

namespace WordDraft

theorem differ_push {d : WordDraft} (a b : Char) : (d.push a).Differ a b (d.push b) :=
  ⟨.inl ⟨rfl, .here ⟨rfl, rfl⟩ _⟩, rfl, rfl, rfl⟩

namespace Differ

variable {d d' : WordDraft} (h : d.Differ a b d')

include h

theorem push (c : Char) : (d.push c).Differ a b (d'.push c) where
  text := h.text.imp (fun ⟨hp, hc⟩ => ⟨hp, .there c hc⟩) fun ⟨hp, hc⟩ => ⟨hp, congrArg (c :: ·) hc⟩
  quoted := h.quoted
  started := rfl
  started' := rfl

theorem enterQuote : d.enterQuote.Differ a b d'.enterQuote :=
  ⟨h.text, rfl, rfl, rfl⟩

theorem touch : d.touch.Differ a b d'.touch :=
  ⟨h.text, h.quoted, rfl, rfl⟩

theorem flushed : DifferAt (Part.Differ a b) d.flushed d'.flushed := by
  unfold WordDraft.flushed
  rcases h.text with ⟨hparts, hcurrent⟩ | ⟨hparts, hcurrent⟩
  · rw [if_neg (by simpa using hcurrent.left_ne_nil), if_neg (by simpa using hcurrent.right_ne_nil),
      hparts]
    refine .here ?_ _
    simpa only [Part.Differ, String.toList_ofList] using hcurrent.reverse
  · rw [hcurrent]
    split
    · exact hparts
    · exact .there _ hparts

theorem pushVariable (name : String) : (d.pushVariable name).Differ a b (d'.pushVariable name) :=
  ⟨.inr ⟨.there _ h.flushed, rfl⟩, h.quoted, rfl, rfl⟩

theorem isPlainDigits_eq (ha : Inert a) (hb : Inert b) : d.isPlainDigits = d'.isPlainDigits := by
  unfold isPlainDigits
  rcases h.text with ⟨hparts, hcurrent⟩ | ⟨hparts, hcurrent⟩
  · obtain ⟨front, x, y, rest, hx, hy, rfl, rfl⟩ := hcurrent.exists_append
    simp [hx, hy, ha.not_digit, hb.not_digit]
  · rw [List.isEmpty_eq_false_iff.mpr hparts.left_ne_nil,
      List.isEmpty_eq_false_iff.mpr hparts.right_ne_nil, Bool.and_false, Bool.and_false]
    rfl

theorem finish : ∃ w w', d.finish = some w ∧ d'.finish = some w' ∧ w.Differ a b w' := by
  have hnonempty : (d.parts.isEmpty && d.current.isEmpty) = false ∧
      (d'.parts.isEmpty && d'.current.isEmpty) = false := by
    rcases h.text with ⟨-, hdiffer⟩ | ⟨hdiffer, -⟩
    all_goals
      have hleft := hdiffer.left_ne_nil
      have hright := hdiffer.right_ne_nil
      simp [hleft, hright]
  refine ⟨⟨d.flushed.reverse, d.quoted⟩, ⟨d'.flushed.reverse, d'.quoted⟩, ?_, ?_,
    h.flushed.reverse, h.quoted⟩
  · simp [WordDraft.finish, h.started, hnonempty.1]
  · simp [WordDraft.finish, h.started', hnonempty.2]

end Differ
end WordDraft

/-! ## Reading on -/

namespace Scanner

/-- If the first one succeeds, so does the second: either both are still in words that differ, or
words that differ are among the tokens. -/
def Follow (a b : Char) (r r' : Except SyntaxError Scanner) : Prop :=
  ∀ ts m, r = .ok ⟨ts, m⟩ →
    (∃ m', r' = .ok ⟨ts, m'⟩ ∧ m.Differ a b m') ∨
      ∃ ts', r' = .ok ⟨ts', m⟩ ∧ DifferAt (Token.Differ a b) ts ts'

namespace Follow

variable {ts : List Token} {m m' : ScanMode}

theorem inside (h : m.Differ a b m') : Follow a b (.ok ⟨ts, m⟩) (.ok ⟨ts, m'⟩) := by
  rintro ts m ⟨⟩
  exact .inl ⟨m', rfl, h⟩

theorem error (e e' : SyntaxError) : Follow a b (.error e) (.error e') := by
  rintro ts m ⟨⟩

theorem ite {p : Prop} [Decidable p] {r s r' s' : Except SyntaxError Scanner}
    (hr : Follow a b r r') (hs : Follow a b s s') :
    Follow a b (if p then r else s) (if p then r' else s') := by
  split
  · exact hr
  · exact hs

end Follow

section

variable {d d' : WordDraft} (h : d.Differ a b d')

include h

theorem differ_emitWord (ts : List Token) :
    DifferAt (Token.Differ a b) (emitWord ts d) (emitWord ts d') ∧
      settled (emitWord ts d) = settled (emitWord ts d') := by
  obtain ⟨w, w', hw, hw', hdiffer⟩ := h.finish
  simp only [emitWord, hw, hw']
  exact ⟨.here (x := .word w) (y := .word w') hdiffer ts, rfl⟩

theorem follow_emitted (ts : List Token) (c : Char) :
    Follow a b (betweenChar (emitWord ts d) c) (betweenChar (emitWord ts d') c) := by
  obtain ⟨hdiffer, hsettled⟩ := differ_emitWord h ts
  intro us m hread
  obtain ⟨new, hus, hread'⟩ := betweenChar_frame hsettled c _ hread
  obtain rfl : us = new ++ emitWord ts d := hus
  exact .inr ⟨_, hread', hdiffer.append_left new⟩

theorem follow_wordChar (ts : List Token) (c : Char) :
    Follow a b (wordChar ts d c) (wordChar ts d' c) :=
  .ite (.inside (.wordEscape h)) <| .ite (.inside (.single h.enterQuote)) <|
    .ite (.inside (.double h.enterQuote)) <| .ite (.inside (.dollar .bare h)) <|
    .ite (.error _ _) (.inside (.word (h.push c)))

theorem follow_surroundedChar (ha : Inert a) (hb : Inert b) (ts : List Token)
    (around : Surroundings) (c : Char) :
    Follow a b (surroundedChar ts around d c) (surroundedChar ts around d' c) := by
  cases around with
  | bare =>
    simp only [surroundedChar, bareChar, h.isPlainDigits_eq ha hb]
    exact .ite (follow_emitted h ts c)
      (.ite (.ite (.error _ _) (follow_emitted h ts c)) (follow_wordChar h ts c))
  | doubleQuoted =>
    exact .ite (.inside (.word h)) <| .ite (.inside (.doubleEscape h)) <|
      .ite (.inside (.dollar .doubleQuoted h)) <| .ite (.error _ _) (.inside (.double (h.push c)))

theorem follow_resume (ts : List Token) (around : Surroundings) :
    Follow a b (.ok (resume ts around d)) (.ok (resume ts around d')) := by
  cases around with
  | bare => exact .inside (.word h)
  | doubleQuoted => exact .inside (.double h)

theorem readAll_nil_differ (ts : List Token) (around : Surroundings) {read : List Token}
    (hread : finishSurrounded ts around d = .ok read) :
    ∃ read', finishSurrounded ts around d' = .ok read' ∧
      DifferAt (Token.Differ a b) read read' := by
  cases around with
  | bare =>
    cases hread
    exact ⟨_, rfl, (differ_emitWord h ts).1⟩
  | doubleQuoted => cases hread

end

theorem follow_step (ha : Inert a) (hb : Inert b) {m m' : ScanMode} (h : m.Differ a b m')
    (ts : List Token) (c : Char) : Follow a b (step ⟨ts, m⟩ c) (step ⟨ts, m'⟩ c) := by
  cases h with
  | word h => exact follow_surroundedChar h ha hb ts .bare c
  | wordEscape h => exact .ite (.inside (.word h.touch)) (.inside (.word (h.push c)))
  | single h => exact .ite (.inside (.word h)) (.inside (.single (h.push c)))
  | double h => exact follow_surroundedChar h ha hb ts .doubleQuoted c
  | doubleEscape h =>
    exact .ite (.inside (.double (h.push c)))
      (.ite (.inside (.double h)) (.inside (.double ((h.push '\\').push c))))
  | dollar around h =>
    exact .ite (.error _ _) <| .ite (.error _ _) <|
      .ite (follow_resume (h.pushVariable "?") ts around) <|
      .ite (.inside (.name around [c] h))
        (follow_surroundedChar (h.push '$') ha hb ts around c)
  | name around chars h =>
    exact .ite (.inside (.name around (c :: chars) h))
      (follow_surroundedChar (h.pushVariable _) ha hb ts around c)

theorem finish_differ {m m' : ScanMode} (h : m.Differ a b m') {ts read : List Token}
    (hread : finish ⟨ts, m⟩ = .ok read) :
    ∃ read', finish ⟨ts, m'⟩ = .ok read' ∧ DifferAt (Token.Differ a b) read read' := by
  cases h with
  | word h => exact readAll_nil_differ h ts .bare hread
  | wordEscape h => exact readAll_nil_differ (h.push '\\') ts .bare hread
  | single | double | doubleEscape => cases hread
  | dollar around h => exact readAll_nil_differ (h.push '$') ts around hread
  | name around chars h => exact readAll_nil_differ (h.pushVariable _) ts around hread

theorem settled_eq_of_differ {ts us : List Token} (h : DifferAt (Token.Differ a b) ts us) :
    settled ts = settled us := by
  cases h with
  | @here t u h rest =>
    cases t <;> cases u <;> first | rfl | cases h
  | there t h => rfl

/-- Words that differ in one character end as tokens that do. -/
theorem readAll_differ (ha : Inert a) (hb : Inert b) {ts : List Token} {m m' : ScanMode}
    (h : m.Differ a b m') {q : List Char} {read : List Token}
    (hread : readAll ⟨ts, m⟩ q = .ok read) :
    ∃ read', readAll ⟨ts, m'⟩ q = .ok read' ∧ DifferAt (Token.Differ a b) read read' := by
  induction q generalizing ts m m' with
  | nil => exact finish_differ h hread
  | cons c q ih =>
    cases hc : step ⟨ts, m⟩ c with
    | error e => simp only [readAll, run, hc] at hread; cases hread
    | ok s =>
      obtain ⟨ts₁, m₁⟩ := s
      rw [readAll_cons hc] at hread
      rcases follow_step ha hb h ts c ts₁ m₁ hc with ⟨m₁', hc', h₁⟩ | ⟨ts₁', hc', h₁⟩
      · obtain ⟨read', hread', hdiffer⟩ := ih h₁ hread
        exact ⟨read', by rw [readAll_cons hc', hread'], hdiffer⟩
      · -- the word is complete, and what follows is read behind it as before
        obtain ⟨new, rfl, hread'⟩ := readAll_frame (settled_eq_of_differ h₁) hread
        exact ⟨new ++ ts₁', by rw [readAll_cons hc', hread'], h₁.append_left new⟩

end Scanner

/-! ## Trees -/

theorem not_isIdentifier {c : Char} {text : List Char} (h : c ∈ text)
    (hc : Text.isNameChar c = false) : Text.isIdentifier text = false := by
  have hstart : Text.isNameStart c = false := by
    cases hstart : Text.isNameStart c with
    | false => rfl
    | true => rw [isNameChar_of_isNameStart hstart] at hc; cases hc
  cases text with
  | nil => rfl
  | cons d text =>
    rcases List.mem_cons.mp h with rfl | h
    · rw [Text.isIdentifier, hstart, Bool.false_and]
    · have hall : text.all Text.isNameChar = false := List.all_eq_false.mpr ⟨c, h, by simp [hc]⟩
      rw [Text.isIdentifier, hall, Bool.and_false]

/-- In front of the equals sign is a name in both texts or in neither of them. -/
theorem CharsDiffer.isIdentifier_eq {t u : List Char} (h : CharsDiffer a b t u) (ha : Inert a)
    (hb : Inert b) :
    Text.isIdentifier (t.takeWhile (· != '=')) = Text.isIdentifier (u.takeWhile (· != '=')) := by
  obtain ⟨front, x, y, rest, rfl, rfl, rfl, rfl⟩ := h.exists_append
  by_cases hfront : '=' ∈ front
  · -- the name ends in front of the character
    obtain ⟨name, value, rfl, hname⟩ := List.eq_append_cons_of_mem hfront
    have hne : ∀ c ∈ name, (c != '=') = true := fun c hc =>
      bne_iff_ne.mpr (ne_of_mem_of_not_mem hc hname)
    simp [List.takeWhile_append_of_pos hne]
  · have hne : ∀ c ∈ front, (c != '=') = true := fun c hc =>
      bne_iff_ne.mpr (ne_of_mem_of_not_mem hc hfront)
    have hnone : ∀ {c : Char}, Inert c →
        Text.isIdentifier ((front ++ c :: rest).takeWhile (· != '=')) = false := by
      intro c hc
      refine not_isIdentifier (c := c) ?_ hc.name
      rw [List.takeWhile_append_of_pos hne, List.takeWhile_cons, if_pos (bne_iff_ne.mpr hc.equals)]
      exact List.mem_append_right _ List.mem_cons_self
    rw [hnone ha, hnone hb]

theorem CharsDiffer.contains_eq {t u : List Char} (h : CharsDiffer a b t u) (ha : Inert a)
    (hb : Inert b) : t.contains '=' = u.contains '=' := by
  obtain ⟨front, x, y, rest, rfl, rfl, rfl, rfl⟩ := h.exists_append
  simp [ha.equals.symm, hb.equals.symm]

theorem Word.Differ.isAssignment_eq {w w' : Word} (h : w.Differ a b w') (ha : Inert a)
    (hb : Inert b) : w.isAssignment = w'.isAssignment := by
  obtain ⟨parts, quoted⟩ := w
  obtain ⟨parts', quoted'⟩ := w'
  obtain ⟨hparts, rfl⟩ := h
  cases quoted with
  | true => rfl
  | false =>
    cases hparts with
    | there part _ => cases part <;> rfl
    | @here p q hdiffer rest =>
      cases p with
      | «variable» => cases hdiffer
      | literal t =>
        cases q with
        | «variable» => cases hdiffer
        | literal u =>
          have hdiffer : CharsDiffer a b t.toList u.toList := hdiffer
          simp only [Word.isAssignment, hdiffer.contains_eq ha hb, hdiffer.isIdentifier_eq ha hb]

namespace Grammar

open Parse (front)

/-- The tokens are the same, but for words, which make assignments or do not alike. -/
def Alike (t t' : Token) : Prop :=
  t = t' ∨ ∃ w w', t = .word w ∧ t' = .word w' ∧ w.isAssignment = w'.isAssignment

variable {tokens tokens' rest : List Token}

theorem Alike.eq_of_ne_word {t t' : Token} (h : Alike t t') (ht : ∀ w, t ≠ .word w) : t' = t := by
  rcases h with rfl | ⟨w, w', rfl, -⟩
  · rfl
  · exact absurd rfl (ht w)

theorem Alike.word {w : Word} {t' : Token} (h : Alike (.word w) t') :
    ∃ w', t' = .word w' ∧ w.isAssignment = w'.isAssignment := by
  rcases h with rfl | ⟨_, w', ⟨⟩, rfl, hsame⟩
  · exact ⟨w, rfl, rfl⟩
  · exact ⟨w', rfl, hsame⟩

theorem Alike.beginsSimple {t t' : Token} (h : Alike t t') : t.beginsSimple = t'.beginsSimple := by
  rcases h with rfl | ⟨w, w', rfl, rfl, -⟩ <;> rfl

theorem front_beginsSimple (h : List.Forall₂ Alike tokens tokens') :
    (front tokens).beginsSimple = (front tokens').beginsSimple := by
  cases h with
  | nil => rfl
  | cons h _ => exact h.beginsSimple

theorem Parts.alike {words : List Word} {redirects : List Redirect}
    (hparts : Parts tokens words redirects rest) (h : List.Forall₂ Alike tokens tokens') :
    ∃ words' redirects' rest', Parts tokens' words' redirects' rest' ∧
      List.Forall₂ (fun w w' => w.isAssignment = w'.isAssignment) words words' ∧
      List.Forall₂ Alike rest rest' := by
  induction hparts generalizing tokens' with
  | none rest => exact ⟨[], [], tokens', .none _, .nil, h⟩
  | word _ ih =>
    obtain ⟨_, _, hw, htail, rfl⟩ := List.forall₂_cons_left_iff.mp h
    obtain ⟨w', rfl, hsame⟩ := hw.word
    obtain ⟨words', redirects', rest', hparts, hwords, hrest⟩ := ih htail
    exact ⟨w' :: words', redirects', rest', .word hparts, .cons hsame hwords, hrest⟩
  | redirect hop _ ih =>
    obtain ⟨_, _, hoperator, hbehind, rfl⟩ := List.forall₂_cons_left_iff.mp h
    obtain ⟨_, _, hw, htail, rfl⟩ := List.forall₂_cons_left_iff.mp hbehind
    obtain rfl := hoperator.eq_of_ne_word (by rintro w rfl; cases hop)
    obtain ⟨w', rfl, -⟩ := hw.word
    obtain ⟨words', redirects', rest', hparts, hwords, hrest⟩ := ih htail
    exact ⟨words', _ :: redirects', rest', .redirect hop hparts, hwords, hrest⟩

mutual

theorem Sequence.alike {tokens tokens' rest : List Token} {c : Command} :
    Sequence tokens c rest → List.Forall₂ Alike tokens tokens' →
    ∃ c' rest', Sequence tokens' c' rest' ∧ List.Forall₂ Alike rest rest'
  | .members hfirst hmore, h => by
    obtain ⟨first', left', hfirst', hleft⟩ := hfirst.alike h
    obtain ⟨more', rest', hmore', hrest⟩ := hmore.alike hleft
    exact ⟨_, rest', .members hfirst' hmore', hrest⟩

theorem Members.alike {tokens tokens' rest : List Token} {more : List (Connector × Command)} :
    Members tokens more rest → List.Forall₂ Alike tokens tokens' →
    ∃ more' rest', Members tokens' more' rest' ∧ List.Forall₂ Alike rest rest'
  | .none _, h => ⟨[], tokens', .none tokens', h⟩
  | .trailing _, .cons hoperator h => by
    obtain rfl := hoperator.eq_of_ne_word nofun
    exact ⟨[], _, .trailing _, h⟩
  | .member hop hc hmore, .cons hoperator h => by
    obtain rfl := hoperator.eq_of_ne_word (by rintro w rfl; cases hop)
    obtain ⟨c', left', hc', hleft⟩ := hc.alike h
    obtain ⟨more', rest', hmore', hrest⟩ := hmore.alike hleft
    exact ⟨_, rest', .member hop hc' hmore', hrest⟩

theorem Pipeline.alike {tokens tokens' rest : List Token} {c : Command} :
    Pipeline tokens c rest → List.Forall₂ Alike tokens tokens' →
    ∃ c' rest', Pipeline tokens' c' rest' ∧ List.Forall₂ Alike rest rest'
  | .stages hfirst hmore, h => by
    obtain ⟨first', left', hfirst', hleft⟩ := hfirst.alike h
    obtain ⟨more', rest', hmore', hrest⟩ := hmore.alike hleft
    exact ⟨_, rest', .stages hfirst' hmore', hrest⟩

theorem Stages.alike {tokens tokens' rest : List Token} {more : List Command} :
    Stages tokens more rest → List.Forall₂ Alike tokens tokens' →
    ∃ more' rest', Stages tokens' more' rest' ∧ List.Forall₂ Alike rest rest'
  | .none _, h => ⟨[], tokens', .none tokens', h⟩
  | .stage hc hmore, .cons hoperator h => by
    obtain rfl := hoperator.eq_of_ne_word nofun
    obtain ⟨c', left', hc', hleft⟩ := hc.alike h
    obtain ⟨more', rest', hmore', hrest⟩ := hmore.alike hleft
    exact ⟨_, rest', .stage hc' hmore', hrest⟩

theorem Single.alike {tokens tokens' rest : List Token} {c : Command} :
    Single tokens c rest → List.Forall₂ Alike tokens tokens' →
    ∃ c' rest', Single tokens' c' rest' ∧ List.Forall₂ Alike rest rest'
  | .subshell hbody hbegins, .cons hoperator h => by
    obtain rfl := hoperator.eq_of_ne_word nofun
    obtain ⟨body', _, hbody', hclose⟩ := hbody.alike h
    obtain ⟨_, _, hparen, hrest, rfl⟩ := List.forall₂_cons_left_iff.mp hclose
    obtain rfl := hparen.eq_of_ne_word nofun
    exact ⟨_, _, .subshell hbody' (by rwa [← front_beginsSimple hrest]), hrest⟩
  | .simple hparts hname, h => by
    obtain ⟨words', redirects', rest', hparts', hwords, hrest⟩ := hparts.alike h
    obtain ⟨_, _, hsame, -, rfl⟩ := List.forall₂_cons_left_iff.mp hwords
    exact ⟨_, rest', .simple hparts' (by rwa [← hsame]), hrest⟩

end
theorem alike_of_differ (h : DifferAt (Token.Differ a b) tokens tokens') (ha : Inert a)
    (hb : Inert b) : List.Forall₂ Alike tokens tokens' := by
  have hsame : ∀ tokens, List.Forall₂ Alike tokens tokens := fun tokens =>
    List.forall₂_same.mpr fun t _ => .inl rfl
  induction h with
  | @here t u h rest =>
    refine .cons ?_ (hsame rest)
    cases t with
    | word w =>
      cases u with
      | word w' => exact .inr ⟨w, w', rfl, rfl, Word.Differ.isAssignment_eq h ha hb⟩
      | _ => cases h
    | _ => cases h
  | there t _ ih => exact .cons (.inl rfl) ih

end Grammar

/-- Of two texts whose words differ in one character, the second has a tree if the first has. -/
theorem parse_differ {text text' : String} {tokens tokens' : List Token} (ha : Inert a)
    (hb : Inert b) (hscan : scan text.toList = .ok tokens) (hscan' : scan text'.toList = .ok tokens')
    (h : DifferAt (Token.Differ a b) tokens tokens') {c : Command} (hparse : parse text = .ok c) :
    ∃ c', parse text' = .ok c' := by
  obtain ⟨_, hscan₁, hderived⟩ := derived_of_parse hparse
  rw [hscan] at hscan₁
  cases hscan₁
  obtain ⟨c', rest', hderived', hrest⟩ := hderived.alike (Grammar.alike_of_differ h ha hb)
  obtain ⟨_, _, hend, hnil, rfl⟩ := List.forall₂_cons_left_iff.mp hrest
  obtain rfl := hend.eq_of_ne_word nofun
  obtain rfl := List.forall₂_nil_left_iff.mp hnil
  exact ⟨c', parse_of_derived hscan' hderived'⟩

end Runnel
