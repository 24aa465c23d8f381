import Runnel.Proofs.Command.Scanning
import Runnel.Proofs.Command.Grammar

/-!
# Runnel.Proofs.Command.Accepting

The parser accepts what the grammar derives, and nothing else.

* `Parse.Reads`: what a phrase of the parser hands out, with one equation for each phrase.
* `Parse.derived_of_sequence`: a tree that the parser hands out has a derivation.
* `Parse.sequence_of_derived`: the parser finds each derivation up to the end of its sequence.
* `parse_eq_ok_iff`: the trees of texts are those of the derivations.
-/

namespace Runnel
namespace Parse

/-- A phrase was read, and `rest` is behind it. -/
def Reads {α : Type} {p : List Token → Prop} (r : Except SyntaxError (α × { l // p l })) (a : α)
    (rest : List Token) : Prop :=
  ∃ h, r = .ok (a, ⟨rest, h⟩)

/-! ## One equation for each phrase -/

section Phrases

variable {tokens rest left : List Token} {c : Command}

theorem Reads.length_lt {r : Except SyntaxError (Command × Rest tokens)} (h : Reads r c rest) :
    rest.length < tokens.length :=
  h.1

theorem sequence_reads : Reads (sequence tokens) c left ↔
    ∃ first rest more, Reads (pipeline tokens) first rest ∧ Reads (members rest) more left ∧
      c = .ofSequence first more := by
  unfold sequence
  constructor
  · rintro ⟨hlength, h⟩
    split at h
    · cases h
    · rename_i first rest hrest hfirst
      split at h
      · cases h
      · rename_i more left hleft hmore
        cases h
        exact ⟨first, rest, more, ⟨hrest, hfirst⟩, ⟨hleft, hmore⟩, rfl⟩
  · rintro ⟨first, rest, more, ⟨hrest, hfirst⟩, ⟨hleft, hmore⟩, rfl⟩
    simp only [hfirst, hmore]
    exact ⟨by omega, rfl⟩

theorem pipeline_reads : Reads (pipeline tokens) c left ↔
    ∃ first rest more, Reads (command tokens) first rest ∧ Reads (stages rest) more left ∧
      c = .ofStages first more := by
  unfold pipeline
  constructor
  · rintro ⟨hlength, h⟩
    split at h
    · cases h
    · rename_i first rest hrest hfirst
      split at h
      · cases h
      · rename_i more left hleft hmore
        cases h
        exact ⟨first, rest, more, ⟨hrest, hfirst⟩, ⟨hleft, hmore⟩, rfl⟩
  · rintro ⟨first, rest, more, ⟨hrest, hfirst⟩, ⟨hleft, hmore⟩, rfl⟩
    simp only [hfirst, hmore]
    exact ⟨by omega, rfl⟩

theorem stages_reads_pipe {more : List Command} : Reads (stages (.pipe :: tokens)) more left ↔
    ∃ c rest tail, Reads (command tokens) c rest ∧ Reads (stages rest) tail left ∧
      more = c :: tail := by
  conv => lhs; unfold stages
  constructor
  · rintro ⟨hlength, h⟩
    simp only at h
    split at h
    · cases h
    · rename_i c rest hrest hc
      split at h
      · cases h
      · rename_i tail left hleft hmore
        cases h
        exact ⟨c, rest, tail, ⟨hrest, hc⟩, ⟨hleft, hmore⟩, rfl⟩
  · rintro ⟨c, rest, tail, ⟨hrest, hc⟩, ⟨hleft, hmore⟩, rfl⟩
    simp only [hc, hmore]
    exact ⟨by simp only [List.length_cons]; omega, rfl⟩

theorem stages_reads_of_ne {more : List Command} (h : front tokens ≠ .pipe) :
    Reads (stages tokens) more left ↔ more = [] ∧ left = tokens := by
  unfold stages
  split
  · exact absurd rfl h
  · constructor
    · rintro ⟨hlength, h⟩
      cases h
      exact ⟨rfl, rfl⟩
    · rintro ⟨rfl, rfl⟩
      exact ⟨Nat.le_refl _, rfl⟩

theorem members_reads_of_none {more : List (Connector × Command)}
    (h : (front tokens).connector? = none) :
    Reads (members tokens) more left ↔ more = [] ∧ left = tokens := by
  unfold members
  cases tokens with
  | nil =>
    constructor
    · rintro ⟨hlength, h⟩
      cases h
      exact ⟨rfl, rfl⟩
    · rintro ⟨rfl, rfl⟩
      exact ⟨Nat.le_refl _, rfl⟩
  | cons t tokens =>
    have ht : t.connector? = none := h
    simp only [ht]
    constructor
    · rintro ⟨hlength, h⟩
      cases h
      exact ⟨rfl, rfl⟩
    · rintro ⟨rfl, rfl⟩
      exact ⟨Nat.le_refl _, rfl⟩

theorem members_reads_of_atEnd {t : Token} {connector : Connector}
    {more : List (Connector × Command)} (ht : t.connector? = some connector)
    (hend : atEnd tokens = true) :
    Reads (members (t :: tokens)) more left ↔ connector = .next ∧ more = [] ∧ left = tokens := by
  conv => lhs; unfold members
  simp only [ht, hend, if_true]
  constructor
  · rintro ⟨hlength, h⟩
    split at h
    · rename_i hnext
      cases h
      exact ⟨hnext, rfl, rfl⟩
    · cases h
  · rintro ⟨hnext, rfl, rfl⟩
    simp only [hnext, if_true]
    exact ⟨Nat.le_succ _, rfl⟩

theorem members_reads {t : Token} {connector : Connector} {more : List (Connector × Command)}
    (ht : t.connector? = some connector) (hend : atEnd tokens = false) :
    Reads (members (t :: tokens)) more left ↔
      ∃ c rest tail, Reads (pipeline tokens) c rest ∧ Reads (members rest) tail left ∧
        more = (connector, c) :: tail := by
  conv => lhs; unfold members
  simp only [ht, hend, Bool.false_eq_true, if_false]
  constructor
  · rintro ⟨hlength, h⟩
    split at h
    · cases h
    · rename_i c rest hrest hc
      split at h
      · cases h
      · rename_i tail left hleft hmore
        cases h
        exact ⟨c, rest, tail, ⟨hrest, hc⟩, ⟨hleft, hmore⟩, rfl⟩
  · rintro ⟨c, rest, tail, ⟨hrest, hc⟩, ⟨hleft, hmore⟩, rfl⟩
    simp only [hc, hmore]
    exact ⟨by simp only [List.length_cons]; omega, rfl⟩

theorem command_reads_openParen : Reads (command (.openParen :: tokens)) c left ↔
    front tokens ≠ .closeParen ∧ (front left).beginsSimple = false ∧
      ∃ body, Reads (sequence tokens) body (.closeParen :: left) ∧ c = .subshell body := by
  conv => lhs; unfold command
  constructor
  · rintro ⟨hlength, h⟩
    simp only at h
    split at h
    · cases h
    rename_i hfront
    split at h
    · cases h
    · rename_i body left hleft hbody
      split at h
      · cases h
      · rename_i hbegins
        cases h
        exact ⟨hfront, Bool.eq_false_iff.mpr hbegins, body, ⟨hleft, hbody⟩, rfl⟩
    · cases h
  · rintro ⟨hfront, hbegins, body, ⟨hleft, hbody⟩, rfl⟩
    simp only [if_neg hfront, hbody, hbegins, Bool.false_eq_true, if_false]
    exact ⟨by simp only [List.length_cons] at hleft ⊢; omega, rfl⟩

/-- The words and redirects in front of tokens, up to the first token that is neither. -/
theorem simpleParts_eq_ok {words : List Word} {redirects : List Redirect} :
    (∃ h, simpleParts tokens = .ok ⟨words, redirects, rest, h⟩) ↔
      Grammar.Parts tokens words redirects rest ∧ (front rest).beginsSimple = false := by
  constructor
  · rintro ⟨hlength, h⟩
    fun_induction simpleParts tokens generalizing words redirects rest with
    | case1 =>
      cases h
      exact ⟨.none [], rfl⟩
    | case2 | case5 | case7 => cases h
    | case3 tokens w parts hparts ih =>
      cases h
      obtain ⟨hderived, hfront⟩ := ih parts.length_eq hparts
      exact ⟨.word hderived, hfront⟩
    | case4 tokens t hword hmode =>
      cases h
      refine ⟨.none _, ?_⟩
      cases t with
      | word w => exact absurd rfl (hword w)
      | redirectOut | redirectAppend | redirectIn => cases hmode
      | _ => rfl
    | case6 op hword mode hmode target tokens parts hparts ih =>
      cases h
      obtain ⟨hderived, hfront⟩ := ih parts.length_eq hparts
      exact ⟨.redirect hmode hderived, hfront⟩
  · rintro ⟨h, hfront⟩
    induction h with
    | none rest =>
      cases rest with
      | nil => exact ⟨rfl, rfl⟩
      | cons t rest =>
        refine ⟨by simp, ?_⟩
        cases t with
        | word | redirectOut | redirectAppend | redirectIn => cases hfront
        | _ => rfl
    | @word w tokens rest words redirects _ ih =>
      obtain ⟨hlength, h⟩ := ih hfront
      have hlength' : words.length + 1 + 2 * redirects.length + rest.length
          = (Token.word w :: tokens).length := by
        simp only [List.length_cons]
        omega
      exact ⟨hlength', by simp only [simpleParts, h]⟩
    | @redirect op mode target tokens rest words redirects hop _ ih =>
      obtain ⟨hlength, h⟩ := ih hfront
      have hlength' : words.length + 2 * (redirects.length + 1) + rest.length
          = (op :: Token.word target :: tokens).length := by
        simp only [List.length_cons]
        omega
      refine ⟨hlength', ?_⟩
      cases op with
      | redirectOut | redirectAppend | redirectIn =>
        cases hop
        simp only [simpleParts, Token.redirectMode?, h]
      | _ => cases hop

theorem command_reads_of_ne (h : front tokens ≠ .openParen) : Reads (command tokens) c left ↔
    ∃ name args redirects, Grammar.Parts tokens (name :: args) redirects left ∧
      (front left).beginsSimple = false ∧ name.isAssignment = false ∧
      c = .simple name args redirects := by
  have hsimple : command tokens = simple tokens := by
    unfold command
    split
    · exact absurd rfl h
    · rfl
  rw [hsimple]
  constructor
  · rintro ⟨hlength, h⟩
    unfold simple at h
    split at h
    · cases h
    · cases h
    · rename_i name args redirects left hparts heq
      split at h
      · cases h
      · rename_i hname
        cases h
        obtain ⟨hderived, hfront⟩ := simpleParts_eq_ok.mp ⟨hparts, heq⟩
        exact ⟨name, args, redirects, hderived, hfront, Bool.eq_false_iff.mpr hname, rfl⟩
  · rintro ⟨name, args, redirects, hderived, hfront, hname, rfl⟩
    obtain ⟨hparts, heq⟩ := simpleParts_eq_ok.mpr ⟨hderived, hfront⟩
    simp only [simple, heq, hname, Bool.false_eq_true, if_false]
    exact ⟨by simp only [List.length_cons] at hparts; omega, rfl⟩

end Phrases

/-! ## What is accepted is derived -/

theorem exists_behind {tokens : List Token} {t : Token} (ht : t ≠ .eof) (h : front tokens = t) :
    ∃ rest, tokens = t :: rest ∧ rest.length < tokens.length := by
  cases tokens with
  | nil => exact absurd h.symm ht
  | cons u rest => exact ⟨rest, by rw [← h]; rfl, Nat.lt_succ_self _⟩

theorem eq_semicolon {t : Token} (h : t.connector? = some .next) : t = .semicolon := by
  cases t with
  | semicolon => rfl
  | _ => cases h

mutual

theorem derived_of_sequence (tokens : List Token) {left : List Token} {c : Command}
    (h : Reads (sequence tokens) c left) : Grammar.Sequence tokens c left := by
  obtain ⟨first, rest, more, hfirst, hmore, rfl⟩ := sequence_reads.mp h
  have hlength := hfirst.length_lt
  exact .members (derived_of_pipeline tokens hfirst) (derived_of_members rest hmore)
termination_by (tokens.length, 3)

theorem derived_of_members (tokens : List Token) {left : List Token}
    {more : List (Connector × Command)} (h : Reads (members tokens) more left) :
    Grammar.Members tokens more left := by
  match tokens with
  | [] =>
    obtain ⟨rfl, rfl⟩ := (members_reads_of_none rfl).mp h
    exact .none []
  | t :: tokens =>
    cases ht : t.connector? with
    | none =>
      have hfront : (front (t :: tokens)).connector? = none := ht
      obtain ⟨rfl, rfl⟩ := (members_reads_of_none hfront).mp h
      exact .none (t :: tokens)
    | some connector =>
      cases hend : atEnd tokens with
      | true =>
        obtain ⟨rfl, rfl, rfl⟩ := (members_reads_of_atEnd ht hend).mp h
        rw [eq_semicolon ht]
        exact .trailing left
      | false =>
        obtain ⟨c, rest, tail, hc, htail, rfl⟩ := (members_reads ht hend).mp h
        have hlength := hc.length_lt
        exact .member ht (derived_of_pipeline tokens hc) (derived_of_members rest htail)
termination_by (tokens.length, 0)

theorem derived_of_pipeline (tokens : List Token) {left : List Token} {c : Command}
    (h : Reads (pipeline tokens) c left) : Grammar.Pipeline tokens c left := by
  obtain ⟨first, rest, more, hfirst, hmore, rfl⟩ := pipeline_reads.mp h
  have hlength := hfirst.length_lt
  exact .stages (derived_of_command tokens hfirst) (derived_of_stages rest hmore)
termination_by (tokens.length, 2)

theorem derived_of_stages (tokens : List Token) {left : List Token} {more : List Command}
    (h : Reads (stages tokens) more left) : Grammar.Stages tokens more left := by
  by_cases hfront : front tokens = .pipe
  · obtain ⟨behind, htokens, hbehind⟩ := exists_behind (by decide) hfront
    rw [htokens] at h ⊢
    obtain ⟨c, rest, tail, hc, htail, rfl⟩ := stages_reads_pipe.mp h
    have hlength := hc.length_lt
    exact .stage (derived_of_command behind hc) (derived_of_stages rest htail)
  · obtain ⟨rfl, rfl⟩ := (stages_reads_of_ne hfront).mp h
    exact .none _
termination_by (tokens.length, 0)

theorem derived_of_command (tokens : List Token) {left : List Token} {c : Command}
    (h : Reads (command tokens) c left) : Grammar.Single tokens c left := by
  by_cases hfront : front tokens = .openParen
  · obtain ⟨behind, htokens, hbehind⟩ := exists_behind (by decide) hfront
    rw [htokens] at h ⊢
    obtain ⟨-, hbegins, body, hbody, rfl⟩ := command_reads_openParen.mp h
    exact .subshell (derived_of_sequence behind hbody) hbegins
  · obtain ⟨name, args, redirects, hparts, -, hname, rfl⟩ := (command_reads_of_ne hfront).mp h
    exact .simple hparts hname
termination_by (tokens.length, 1)

end

/-! ## What is derived is accepted -/

theorem not_atEnd_of_single {tokens rest : List Token} {c : Command}
    (h : Grammar.Single tokens c rest) : atEnd tokens = false := by
  cases h with
  | subshell => rfl
  | simple hparts =>
    cases hparts with
    | word => rfl
    | @redirect op _ _ _ _ _ _ hop =>
      cases op with
      | redirectOut | redirectAppend | redirectIn => rfl
      | _ => cases hop

theorem not_atEnd_of_pipeline {tokens rest : List Token} {c : Command}
    (h : Grammar.Pipeline tokens c rest) : atEnd tokens = false := by
  cases h with
  | stages hfirst => exact not_atEnd_of_single hfirst

theorem not_atEnd_of_sequence {tokens rest : List Token} {c : Command}
    (h : Grammar.Sequence tokens c rest) : atEnd tokens = false := by
  cases h with
  | members hfirst => exact not_atEnd_of_pipeline hfirst

theorem front_of_atEnd {tokens : List Token} (h : atEnd tokens = true) :
    front tokens = .eof ∨ front tokens = .closeParen := by
  simpa [atEnd] using h

/-- No stage of a pipeline and no part of a simple command is behind it. -/
def EndsPipeline (rest : List Token) : Prop :=
  front rest ≠ .pipe ∧ (front rest).beginsSimple = false

theorem endsPipeline_of_members {rest left : List Token} {more : List (Connector × Command)}
    (h : Grammar.Members rest more left) (hend : atEnd left = true) : EndsPipeline rest := by
  cases h with
  | none =>
    rcases front_of_atEnd hend with h | h
    · exact ⟨by rw [h]; decide, by rw [h]; rfl⟩
    · exact ⟨by rw [h]; decide, by rw [h]; rfl⟩
  | trailing => exact ⟨by rintro ⟨⟩, rfl⟩
  | @member op _ _ _ _ _ _ hop =>
    cases op with
    | and | or | semicolon => exact ⟨by rintro ⟨⟩, rfl⟩
    | _ => cases hop

theorem not_beginsSimple_of_stages {rest left : List Token} {more : List Command}
    (h : Grammar.Stages rest more left) (hend : EndsPipeline left) :
    (front rest).beginsSimple = false := by
  cases h with
  | none => exact hend.2
  | stage => rfl

mutual

theorem sequence_of_derived {tokens left : List Token} {c : Command} :
    Grammar.Sequence tokens c left → atEnd left = true → Reads (sequence tokens) c left
  | .members hfirst hmore, hend =>
    sequence_reads.mpr ⟨_, _, _, pipeline_of_derived hfirst (endsPipeline_of_members hmore hend),
      members_of_derived hmore hend, rfl⟩

theorem members_of_derived {tokens left : List Token} {more : List (Connector × Command)} :
    Grammar.Members tokens more left → atEnd left = true → Reads (members tokens) more left
  | .none rest, hend => by
    refine (members_reads_of_none ?_).mpr ⟨rfl, rfl⟩
    rcases front_of_atEnd hend with h | h
    · rw [h]
      rfl
    · rw [h]
      rfl
  | .trailing rest, hend => (members_reads_of_atEnd rfl hend).mpr ⟨rfl, rfl, rfl⟩
  | .member hop hc hmore, hend =>
    (members_reads hop (not_atEnd_of_pipeline hc)).mpr ⟨_, _, _,
      pipeline_of_derived hc (endsPipeline_of_members hmore hend),
      members_of_derived hmore hend, rfl⟩

theorem pipeline_of_derived {tokens left : List Token} {c : Command} :
    Grammar.Pipeline tokens c left → EndsPipeline left → Reads (pipeline tokens) c left
  | .stages hfirst hmore, hend =>
    pipeline_reads.mpr ⟨_, _, _, command_of_derived hfirst (not_beginsSimple_of_stages hmore hend),
      stages_of_derived hmore hend, rfl⟩

theorem stages_of_derived {tokens left : List Token} {more : List Command} :
    Grammar.Stages tokens more left → EndsPipeline left → Reads (stages tokens) more left
  | .none rest, hend => (stages_reads_of_ne hend.1).mpr ⟨rfl, rfl⟩
  | .stage hc hmore, hend =>
    stages_reads_pipe.mpr ⟨_, _, _, command_of_derived hc (not_beginsSimple_of_stages hmore hend),
      stages_of_derived hmore hend, rfl⟩

theorem command_of_derived {tokens left : List Token} {c : Command} :
    Grammar.Single tokens c left → (front left).beginsSimple = false → Reads (command tokens) c left
  | @Grammar.Single.subshell tokens _ _ hbody hbegins, _ => by
    have hfront : front tokens ≠ .closeParen := by
      intro h
      have hend := not_atEnd_of_sequence hbody
      simp [atEnd, h] at hend
    exact command_reads_openParen.mpr ⟨hfront, hbegins, _, sequence_of_derived hbody rfl, rfl⟩
  | .simple hparts hname, hbegins => by
    refine (command_reads_of_ne ?_).mpr ⟨_, _, _, hparts, hbegins, hname, rfl⟩
    cases hparts with
    | word => rintro ⟨⟩
    | redirect hop => rintro rfl; cases hop

end
end Parse

/-! ## Trees of texts -/

/-- The trees of tokens that end once are those of the derivations. -/
theorem parseTokens_eq_ok {read : List Token} (hread : Token.eof ∉ read) {c : Command} :
    parseTokens (read ++ [.eof]) = .ok c ↔ Grammar.Sequence (read ++ [.eof]) c [.eof] := by
  constructor
  · intro h
    unfold parseTokens at h
    split at h
    · cases h
    split at h
    · cases h
    · rename_i tree rest hsequence
      have hderived := Parse.derived_of_sequence _ ⟨rest.property, hsequence⟩
      split at h
      · rename_i hfront
        cases h
        rw [hderived.consumed.eq_eof hread hfront] at hderived
        exact hderived
      · cases h
      · cases h
  · intro h
    obtain ⟨hlength, hsequence⟩ := Parse.sequence_of_derived h rfl
    have hfront : Parse.front (read ++ [.eof]) ≠ .eof := by
      intro hfront
      have hend := Parse.not_atEnd_of_sequence h
      simp [Parse.atEnd, hfront] at hend
    simp only [parseTokens, if_neg hfront, hsequence]
    rfl

/-- The tree of a text has a derivation from the tokens of the text. -/
theorem derived_of_parse {text : String} {c : Command} (h : parse text = .ok c) :
    ∃ tokens, scan text.toList = .ok tokens ∧ Grammar.Sequence tokens c [.eof] := by
  unfold parse at h
  cases hscan : scan text.toList with
  | error e => rw [hscan] at h; cases h
  | ok tokens =>
    rw [hscan] at h
    obtain ⟨read, rfl, hread⟩ := scan_terminated hscan
    exact ⟨_, rfl, (parseTokens_eq_ok hread).mp h⟩

/-- A derivation of the tokens of a text gives its tree. -/
theorem parse_of_derived {text : String} {tokens : List Token} {c : Command}
    (hscan : scan text.toList = .ok tokens) (h : Grammar.Sequence tokens c [.eof]) :
    parse text = .ok c := by
  obtain ⟨read, rfl, hread⟩ := scan_terminated hscan
  rw [parse, hscan]
  exact (parseTokens_eq_ok hread).mpr h

/-- The tree of a text is that of the one derivation of its tokens, and it is collapsed. A text
without tokens and a text without a derivation have no tree. -/
theorem parse_eq_ok_iff (text : String) (c : Command) :
    (parse text = .ok c ↔ ∃ tokens, scan text.toList = .ok tokens ∧
      Grammar.Sequence tokens c [.eof] ∧ ∀ c', Grammar.Sequence tokens c' [.eof] → c' = c) ∧
    (parse text = .ok c → c.Collapsed) := by
  refine ⟨⟨fun h => ?_, fun ⟨tokens, hscan, hderived, _⟩ => parse_of_derived hscan hderived⟩,
    fun h => ?_⟩
  · obtain ⟨tokens, hscan, hderived⟩ := derived_of_parse h
    refine ⟨tokens, hscan, hderived, fun c' h' => ?_⟩
    have hsame := parse_of_derived hscan h'
    rw [h] at hsame
    exact (Except.ok.inj hsame).symm
  · obtain ⟨tokens, -, hderived⟩ := derived_of_parse h
    exact hderived.collapsed

end Runnel
