import Runnel.Proofs.Command.Accepting
import Runnel.Proofs.Command.Drafts
import Runnel.Proofs.Command.Reading

/-!
# Runnel.Proofs.Command.Assignments

Lines that begin with an assignment `NAME=value`. Such a line is rejected if the first word has no
quotes. One quote anywhere in that word, also in the value, and the word is the name of a command.

* `Word.isAssignment_of_extends`: a word that begins with `NAME=` is an assignment if it is not
  quoted.
* `parse_assignment`: which lines are rejected, and what becomes of the others.
-/

namespace Runnel

/-! ## The first word -/

theorem isPlainWord_of_identifier {name : List Char} (h : Text.isIdentifier name = true) :
    isPlainWord (name ++ ['=']) = true := by
  cases name with
  | nil => cases h
  | cons c name =>
    simp only [Text.isIdentifier, Bool.and_eq_true, List.all_eq_true] at h
    have hstart := isWordSafe_of_isNameChar (isNameChar_of_isNameStart h.1)
    have hrest : ∀ c ∈ name, isWordSafe c = true := fun c hc => isWordSafe_of_isNameChar (h.2 c hc)
    simp only [isPlainWord, List.cons_append, List.isEmpty_cons, Bool.not_false, Bool.true_and,
      List.all_cons, List.all_append, List.all_nil, Bool.and_eq_true, List.all_eq_true]
    exact ⟨hstart, hrest, by decide, trivial⟩

theorem takeWhile_of_identifier {name : List Char} (h : Text.isIdentifier name = true)
    (rest : List Char) : (name ++ '=' :: rest).takeWhile (· != '=') = name := by
  have hne : ∀ c ∈ name, (c != '=') = true := by
    have hchar : ∀ c, Text.isNameChar c = true → (c != '=') = true := by
      intro c hc
      rw [bne_iff_ne]
      rintro rfl
      exact absurd hc (by decide)
    cases name with
    | nil => cases h
    | cons c name =>
      simp only [Text.isIdentifier, Bool.and_eq_true, List.all_eq_true] at h
      intro d hd
      rcases List.mem_cons.mp hd with rfl | hd
      · exact hchar _ (isNameChar_of_isNameStart h.1)
      · exact hchar d (h.2 d hd)
  rw [List.takeWhile_append_of_pos hne]
  simp

/-- A word that begins with `NAME=` is an assignment if it is not quoted. -/
theorem Word.isAssignment_of_extends {name : List Char} (h : Text.isIdentifier name = true)
    {w : Word} (hw : Part.Extends [.literal (String.ofList (name ++ ['=']))] w.parts) :
    w.isAssignment = !w.quoted := by
  obtain ⟨u, more, hparts, hprefix⟩ := @Part.Extends.of_literal [] _ _ hw
  rw [String.toList_ofList] at hprefix
  obtain ⟨rest, hu⟩ := hprefix
  replace hu : u.toList = name ++ '=' :: rest := by rw [← hu]; simp
  replace hparts : w.parts = .literal u :: more := hparts
  unfold Word.isAssignment
  rw [hparts]
  cases w.quoted with
  | true => rfl
  | false =>
    show (u.toList.contains '=' && Text.isIdentifier (u.toList.takeWhile (· != '='))) = true
    rw [hu, takeWhile_of_identifier h, h]
    simp

/-- The first word of a text that begins with `NAME=` is an assignment unless a quote belongs to
it. -/
theorem scan_named {name text : List Char} {tokens : List Token} (h : Text.isIdentifier name = true)
    (hscan : scan (name ++ '=' :: text) = .ok tokens) :
    ∃ w rest, tokens = .word w :: rest ∧ w.isAssignment = !quotesWord false text := by
  obtain ⟨read, hread, rfl⟩ := Scanner.scan_eq_ok.mp hscan
  have hsplit : name ++ '=' :: text = (name ++ ['=']) ++ text := by simp
  have hrun := Scanner.run_plain (isPlainWord_of_identifier h) []
  rw [hsplit, Scanner.start, Scanner.readAll_append hrun] at hread
  obtain ⟨w, new, rfl, hparts, hquoted⟩ := Scanner.readAll_holds (.word rfl) hread
  refine ⟨w, new.reverse ++ [.eof], by simp, ?_⟩
  have hsegments : (WordDraft.literal (name ++ ['=']) false).segments
      = [.literal (String.ofList (name ++ ['=']))] := by
    simp [WordDraft.segments, WordDraft.flushed, WordDraft.literal]
  rw [Word.isAssignment_of_extends h (hsegments ▸ hparts), hquoted]
  rfl

/-! ## The command -/

/-- No derivation begins with an assignment. -/
theorem Grammar.Sequence.not_assignment {w : Word} {tokens rest : List Token} {c : Command}
    (h : Grammar.Sequence (.word w :: tokens) c rest) : w.isAssignment = false := by
  obtain ⟨⟨hsingle, -⟩, -⟩ := h
  cases hsingle with
  | simple hparts hname =>
    cases hparts with
    | word => exact hname
    | redirect hop => cases hop

/-- A line that begins with an assignment whose word has no quotes is rejected, whatever follows. If
a quote belongs to the word, a line of words runs it as the name of a command. -/
theorem parse_assignment {name : List Char} (h : Text.isIdentifier name = true)
    (value rest : List Char) :
    (quotesWord false (value ++ ' ' :: rest) = false → ∀ tree,
      parse (String.ofList (name ++ '=' :: (value ++ ' ' :: rest))) ≠ .ok tree) ∧
    (quotesWord false (value ++ ' ' :: rest) = true → ∀ words,
      scan (name ++ '=' :: (value ++ ' ' :: rest)) = .ok (words.map .word ++ [.eof]) →
      ∃ w args, words = w :: args ∧
        parse (String.ofList (name ++ '=' :: (value ++ ' ' :: rest)))
          = .ok (.simple w args [])) := by
  refine ⟨fun hquote tree htree => ?_, fun hquote words hscan => ?_⟩
  · obtain ⟨tokens, hscan, hderived⟩ := derived_of_parse htree
    rw [String.toList_ofList] at hscan
    obtain ⟨w, more, rfl, hassign⟩ := scan_named h hscan
    rw [hderived.not_assignment, hquote] at hassign
    cases hassign
  · obtain ⟨w, more, heq, hassign⟩ := scan_named h hscan
    rw [hquote] at hassign
    cases words with
    | nil => cases heq
    | cons v args =>
      obtain rfl : v = w := by
        rw [List.map_cons, List.cons_append] at heq
        exact Token.word.inj (List.cons.inj heq).1
      refine ⟨v, args, rfl, ?_⟩
      rw [parse, String.toList_ofList, hscan]
      exact parseTokens_words args hassign

theorem parse_assignment_bare :
    Text.isIdentifier "FOO".toList = true ∧
      quotesWord false ("1".toList ++ ' ' :: "env".toList) = false ∧
      ∀ tree, parse "FOO=1 env" ≠ .ok tree :=
  ⟨by decide, by decide,
    (@parse_assignment "FOO".toList (by decide) "1".toList "env".toList).1 (by decide)⟩

/-- Quotes around the value make the assignment the name of a command. -/
theorem assignment_in_quotes :
    scan "\"x\"".toList = .ok [.word ⟨[.literal "x"], true⟩, .eof] ∧
      parse "A=\"x\" echo hi"
        = .ok (.simple ⟨[.literal "A=x"], true⟩ [.ofText "echo", .ofText "hi"] []) := by
  refine ⟨rfl, ?_⟩
  have hscan : scan "A=\"x\" echo hi".toList
      = .ok ([⟨[.literal "A=x"], true⟩, .ofText "echo", .ofText "hi"].map .word ++ [.eof]) := rfl
  rw [parse, hscan]
  exact parseTokens_words _ rfl

end Runnel
