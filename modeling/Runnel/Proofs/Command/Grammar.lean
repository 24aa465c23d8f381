import Runnel.Command.Parse

/-!
# Runnel.Proofs.Command.Grammar

The grammar of command lines as derivations over tokens. With terminals in quotes it is

* sequence: pipeline (("&&" | "||" | ";") pipeline)* [";"]
* pipeline: command ("|" command)*
* command: "(" sequence ")", not in front of a word or a redirect, or simple
* simple: (word | (">" | ">>" | "<") word)+ with a word among them, the first of which is no
  assignment

A derivation relates tokens, the tree of a phrase in front of them, and the tokens behind the
phrase.

* `Grammar.Sequence`, `Grammar.Pipeline`, `Grammar.Single`, `Grammar.Parts`: the phrases.
* `Grammar.Sequence.consumed`: a phrase is part of the text and does not reach beyond its end.
* `Command.Collapsed`, `Grammar.Sequence.collapsed`: the shape of the trees.
-/

namespace Runnel
namespace Grammar

open Parse (front)

/-- Words and redirects, each in the order in which they are written. -/
inductive Parts : List Token → List Word → List Redirect → List Token → Prop where
  | none (rest : List Token) : Parts rest [] [] rest
  | word {w : Word} {tokens rest : List Token} {words : List Word} {redirects : List Redirect} :
      Parts tokens words redirects rest → Parts (.word w :: tokens) (w :: words) redirects rest
  | redirect {op : Token} {mode : RedirectMode} {target : Word} {tokens rest : List Token}
      {words : List Word} {redirects : List Redirect} :
      op.redirectMode? = some mode → Parts tokens words redirects rest →
      Parts (op :: .word target :: tokens) words (⟨mode, target⟩ :: redirects) rest

mutual

/-- A sequence; one member alone is that member. -/
inductive Sequence : List Token → Command → List Token → Prop where
  | members {tokens rest left : List Token} {first : Command} {more : List (Connector × Command)} :
      Pipeline tokens first rest → Members rest more left →
      Sequence tokens (.ofSequence first more) left

/-- The members of a sequence behind the first one, and perhaps a semicolon behind them. -/
inductive Members : List Token → List (Connector × Command) → List Token → Prop where
  | none (rest : List Token) : Members rest [] rest
  | trailing (rest : List Token) : Members (.semicolon :: rest) [] rest
  | member {op : Token} {connector : Connector} {tokens rest left : List Token} {c : Command}
      {more : List (Connector × Command)} :
      op.connector? = some connector → Pipeline tokens c rest → Members rest more left →
      Members (op :: tokens) ((connector, c) :: more) left

/-- A pipeline; one stage alone is that stage. -/
inductive Pipeline : List Token → Command → List Token → Prop where
  | stages {tokens rest left : List Token} {first : Command} {more : List Command} :
      Single tokens first rest → Stages rest more left →
      Pipeline tokens (.ofStages first more) left

/-- The stages of a pipeline behind the first one. -/
inductive Stages : List Token → List Command → List Token → Prop where
  | none (rest : List Token) : Stages rest [] rest
  | stage {tokens rest left : List Token} {c : Command} {more : List Command} :
      Single tokens c rest → Stages rest more left → Stages (.pipe :: tokens) (c :: more) left

/-- A subshell or a simple command. -/
inductive Single : List Token → Command → List Token → Prop where
  | subshell {tokens rest : List Token} {body : Command} :
      Sequence tokens body (.closeParen :: rest) → (front rest).beginsSimple = false →
      Single (.openParen :: tokens) (.subshell body) rest
  | simple {tokens rest : List Token} {name : Word} {args : List Word} {redirects : List Redirect} :
      Parts tokens (name :: args) redirects rest → name.isAssignment = false →
      Single tokens (.simple name args redirects) rest

end

/-! ## What a phrase takes -/

/-- The tokens begin with some that are not the end of the text, and `rest` is behind them. -/
def Consumed (tokens rest : List Token) : Prop :=
  ∃ phrase, tokens = phrase ++ rest ∧ Token.eof ∉ phrase

namespace Consumed

theorem refl (tokens : List Token) : Consumed tokens tokens :=
  ⟨[], rfl, List.not_mem_nil⟩

theorem cons {t : Token} {tokens rest : List Token} (ht : t ≠ .eof) (h : Consumed tokens rest) :
    Consumed (t :: tokens) rest := by
  obtain ⟨phrase, rfl, hno⟩ := h
  refine ⟨t :: phrase, rfl, fun hmem => ?_⟩
  rcases List.mem_cons.mp hmem with heq | hmem
  · exact ht heq.symm
  · exact hno hmem

theorem trans {tokens rest left : List Token} (h : Consumed tokens rest) (h' : Consumed rest left) :
    Consumed tokens left := by
  obtain ⟨phrase, rfl, hno⟩ := h
  obtain ⟨more, rfl, hno'⟩ := h'
  refine ⟨phrase ++ more, (List.append_assoc ..).symm, fun hmem => ?_⟩
  rcases List.mem_append.mp hmem with hmem | hmem
  · exact hno hmem
  · exact hno' hmem

/-- Where the text ends once, what is behind a phrase begins with the end only if it is the end. -/
theorem eq_eof {text rest : List Token} (h : Consumed (text ++ [.eof]) rest) (htext : .eof ∉ text)
    (hfront : front rest = .eof) : rest = [.eof] := by
  obtain ⟨phrase, heq, hno⟩ := h
  rcases List.append_eq_append_iff.mp heq with ⟨more, rfl, htail⟩ | ⟨more, rfl, htail⟩
  · cases more with
    | nil => exact htail.symm
    | cons t more =>
      obtain rfl : .eof = t := (List.cons.inj htail).1
      exact absurd (List.mem_append_right _ List.mem_cons_self) hno
  · cases more with
    | nil => exact htail
    | cons t more =>
      subst htail
      obtain rfl : t = .eof := hfront
      exact absurd (List.mem_append_right _ List.mem_cons_self) htext

end Consumed

theorem ne_eof_of_redirectMode {op : Token} {mode : RedirectMode}
    (h : op.redirectMode? = some mode) : op ≠ .eof := by
  rintro rfl
  cases h

theorem ne_eof_of_connector {op : Token} {connector : Connector}
    (h : op.connector? = some connector) : op ≠ .eof := by
  rintro rfl
  cases h

theorem Parts.consumed {tokens rest : List Token} {words : List Word} {redirects : List Redirect}
    (h : Parts tokens words redirects rest) : Consumed tokens rest := by
  induction h with
  | none rest => exact .refl rest
  | word _ ih => exact .cons (by rintro ⟨⟩) ih
  | redirect hop _ ih => exact .cons (ne_eof_of_redirectMode hop) (.cons (by rintro ⟨⟩) ih)

mutual

theorem Sequence.consumed {tokens rest : List Token} {c : Command} :
    Sequence tokens c rest → Consumed tokens rest
  | .members hfirst hmore => hfirst.consumed.trans hmore.consumed

theorem Members.consumed {tokens rest : List Token} {more : List (Connector × Command)} :
    Members tokens more rest → Consumed tokens rest
  | .none rest => .refl rest
  | .trailing rest => .cons (by rintro ⟨⟩) (.refl rest)
  | .member hop hc hmore => .cons (ne_eof_of_connector hop) (hc.consumed.trans hmore.consumed)

theorem Pipeline.consumed {tokens rest : List Token} {c : Command} :
    Pipeline tokens c rest → Consumed tokens rest
  | .stages hfirst hmore => hfirst.consumed.trans hmore.consumed

theorem Stages.consumed {tokens rest : List Token} {more : List Command} :
    Stages tokens more rest → Consumed tokens rest
  | .none rest => .refl rest
  | .stage hc hmore => .cons (by rintro ⟨⟩) (hc.consumed.trans hmore.consumed)

theorem Single.consumed {tokens rest : List Token} {c : Command} :
    Single tokens c rest → Consumed tokens rest
  | .subshell hbody _ =>
    .cons (by rintro ⟨⟩) (hbody.consumed.trans (.cons (by rintro ⟨⟩) (.refl _)))
  | .simple hparts _ => hparts.consumed

end
end Grammar

/-! ## The shape of trees -/

namespace Command

/-- The command is a sequence. -/
def isSequence : Command → Bool
  | .sequence .. => true
  | _ => false

/-- The command is simple or a subshell. -/
def isSingle : Command → Bool
  | .simple .. | .subshell _ => true
  | _ => false

/-- Every sequence and every pipeline has two parts at least, no member of a sequence is itself a
sequence, and the stages of pipelines are simple commands and subshells. -/
inductive Collapsed : Command → Prop where
  | simple (name : Word) (args : List Word) (redirects : List Redirect) :
      Collapsed (.simple name args redirects)
  | pipeline {stages : List Command} :
      2 ≤ stages.length → (∀ c ∈ stages, c.isSingle = true) → (∀ c ∈ stages, Collapsed c) →
      Collapsed (.pipeline stages)
  | sequence {first : Command} {rest : List (Connector × Command)} :
      rest ≠ [] → first.isSequence = false → (∀ m ∈ rest, m.2.isSequence = false) →
      Collapsed first → (∀ m ∈ rest, Collapsed m.2) → Collapsed (.sequence first rest)
  | subshell {body : Command} : Collapsed body → Collapsed (.subshell body)

theorem not_sequence_of_single {c : Command} (h : c.isSingle = true) : c.isSequence = false := by
  cases c with
  | simple | subshell => rfl
  | pipeline | sequence => cases h

theorem collapsed_ofStages {first : Command} {more : List Command} (hfirst : first.isSingle = true)
    (hc : first.Collapsed) (hmore : ∀ c ∈ more, c.isSingle = true ∧ c.Collapsed) :
    (ofStages first more).isSequence = false ∧ (ofStages first more).Collapsed := by
  cases more with
  | nil => exact ⟨not_sequence_of_single hfirst, hc⟩
  | cons second more =>
    refine ⟨rfl, .pipeline (by simp) ?_ ?_⟩
    · exact List.forall_mem_cons.mpr ⟨hfirst, fun c hmem => (hmore c hmem).1⟩
    · exact List.forall_mem_cons.mpr ⟨hc, fun c hmem => (hmore c hmem).2⟩

theorem collapsed_ofSequence {first : Command} {more : List (Connector × Command)}
    (hfirst : first.isSequence = false) (hc : first.Collapsed)
    (hmore : ∀ m ∈ more, m.2.isSequence = false ∧ m.2.Collapsed) :
    (ofSequence first more).Collapsed := by
  cases more with
  | nil => exact hc
  | cons second more =>
    exact .sequence (List.cons_ne_nil second more) hfirst (fun m hmem => (hmore m hmem).1) hc
      fun m hmem => (hmore m hmem).2

end Command

namespace Grammar

mutual

/-- Trees of phrases are collapsed. -/
theorem Sequence.collapsed {tokens rest : List Token} {c : Command} :
    Sequence tokens c rest → c.Collapsed
  | .members hfirst hmore =>
    Command.collapsed_ofSequence hfirst.collapsed.1 hfirst.collapsed.2 hmore.collapsed

theorem Members.collapsed {tokens rest : List Token} {more : List (Connector × Command)} :
    Members tokens more rest → ∀ m ∈ more, m.2.isSequence = false ∧ m.2.Collapsed
  | .none _ | .trailing _ => fun _ hmem => absurd hmem List.not_mem_nil
  | .member _ hc hmore => List.forall_mem_cons.mpr ⟨hc.collapsed, hmore.collapsed⟩

theorem Pipeline.collapsed {tokens rest : List Token} {c : Command} :
    Pipeline tokens c rest → c.isSequence = false ∧ c.Collapsed
  | .stages hfirst hmore =>
    Command.collapsed_ofStages hfirst.collapsed.1 hfirst.collapsed.2 hmore.collapsed

theorem Stages.collapsed {tokens rest : List Token} {more : List Command} :
    Stages tokens more rest → ∀ c ∈ more, c.isSingle = true ∧ c.Collapsed
  | .none _ => fun _ hmem => absurd hmem List.not_mem_nil
  | .stage hc hmore => List.forall_mem_cons.mpr ⟨hc.collapsed, hmore.collapsed⟩

theorem Single.collapsed {tokens rest : List Token} {c : Command} :
    Single tokens c rest → c.isSingle = true ∧ c.Collapsed
  | .subshell hbody _ => ⟨rfl, .subshell hbody.collapsed⟩
  | .simple _ _ => ⟨rfl, .simple ..⟩

end
end Grammar
end Runnel
