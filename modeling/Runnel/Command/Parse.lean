import Runnel.Command.Token
import Runnel.Command.Tree

/-!
# Runnel.Command.Parse

Command trees from tokens, by recursive descent. With terminals in quotes the grammar is

* sequence: pipeline (("&&" | "||" | ";") pipeline)* [";"]
* pipeline: command ("|" command)*
* command: "(" sequence ")" | simple
* simple: (word | (">" | ">>" | "<") word)+ with a word among them, the first of which is no
  assignment

Each phrase hands back the tokens behind it, which are fewer than before: this bounds the descent.

* `parseTokens`: the tree of a list of tokens.
* `parse`: the tree of command text.
-/

namespace Runnel

/-- The word has the shape `NAME=…`, without quotes. -/
def Word.isAssignment (w : Word) : Bool :=
  match w.quoted, w.parts with
  | false, .literal text :: _ =>
    text.toList.contains '=' && Text.isIdentifier (text.toList.takeWhile (· != '='))
  | _, _ => false

namespace Token

/-- The redirect that an operator stands for. -/
def redirectMode? : Token → Option RedirectMode
  | .redirectOut => some .overwrite
  | .redirectAppend => some .append
  | .redirectIn => some .input
  | _ => none

/-- The connector that an operator stands for. -/
def connector? : Token → Option Connector
  | .and => some .and
  | .or => some .or
  | .semicolon => some .next
  | _ => none

/-- The token can begin a simple command. -/
def beginsSimple : Token → Bool
  | .word _ | .redirectOut | .redirectAppend | .redirectIn => true
  | _ => false

end Token

namespace Parse

/-- The tokens behind a phrase at the start of `tokens`. -/
abbrev Rest (tokens : List Token) : Type :=
  { rest : List Token // rest.length < tokens.length }

/-- The tokens behind a phrase, which may be empty, at the start of `tokens`. -/
abbrev Suffix (tokens : List Token) : Type :=
  { rest : List Token // rest.length ≤ tokens.length }

/-- The token in front; the end of the text when there is none. -/
def front : List Token → Token
  | [] => .eof
  | t :: _ => t

/-- No command follows. -/
def atEnd (tokens : List Token) : Bool :=
  front tokens == .eof || front tokens == .closeParen

/-- The words and redirects in front of a list of tokens. -/
structure SimpleParts (tokens : List Token) where
  /-- The words, in order. -/
  words : List Word
  /-- The redirects, in order. -/
  redirects : List Redirect
  /-- The tokens behind them. -/
  rest : List Token
  /-- A word is one token and a redirect two; no other token is lost. -/
  length_eq : words.length + 2 * redirects.length + rest.length = tokens.length

/-- Collects words and redirects up to the first token that is neither. -/
def simpleParts : (tokens : List Token) → Except SyntaxError (SimpleParts tokens)
  | [] => .ok ⟨[], [], [], rfl⟩
  | t :: rest =>
    match t with
    | .word w =>
      match simpleParts rest with
      | .error e => .error e
      | .ok parts =>
        .ok ⟨w :: parts.words, parts.redirects, parts.rest, by
          have := parts.length_eq
          simp only [List.length_cons]
          omega⟩
    | t =>
      match t.redirectMode? with
      | none => .ok ⟨[], [], t :: rest, by simp⟩
      | some mode =>
        match rest with
        | .word target :: rest =>
          match simpleParts rest with
          | .error e => .error e
          | .ok parts =>
            .ok ⟨parts.words, ⟨mode, target⟩ :: parts.redirects, parts.rest, by
              have := parts.length_eq
              simp only [List.length_cons]
              omega⟩
        | _ => .error .missingTarget

/-- What is wrong when a command has no word and this token is in front of the rest. -/
def noWord : Token → SyntaxError
  | .openParen => .unexpected "("
  | t => .missingCommand t.text

/-- A simple command. -/
def simple (tokens : List Token) : Except SyntaxError (Command × Rest tokens) :=
  match simpleParts tokens with
  | .error e => .error e
  | .ok ⟨[], _, rest, _⟩ => .error (noWord (front rest))
  | .ok ⟨name :: args, redirects, rest, h⟩ =>
    if name.isAssignment then .error (.unsupported .variableAssignment)
    else .ok (.simple name args redirects, ⟨rest, by simp only [List.length_cons] at h; omega⟩)

mutual

/-- A sequence. -/
def sequence (tokens : List Token) : Except SyntaxError (Command × Rest tokens) :=
  match pipeline tokens with
  | .error e => .error e
  | .ok (first, ⟨rest, h⟩) =>
    match members rest with
    | .error e => .error e
    | .ok (more, ⟨left, h'⟩) => .ok (.ofSequence first more, ⟨left, by omega⟩)
termination_by (tokens.length, 3)

/-- The members of a sequence behind its first one, each with the connector before it. -/
def members (tokens : List Token) :
    Except SyntaxError (List (Connector × Command) × Suffix tokens) :=
  match tokens with
  | [] => .ok ([], ⟨[], Nat.le_refl _⟩)
  | t :: rest =>
    match t.connector? with
    | none => .ok ([], ⟨t :: rest, Nat.le_refl _⟩)
    | some connector =>
      if atEnd rest then
        if connector = .next then .ok ([], ⟨rest, Nat.le_succ _⟩)
        else .error (.missingCommand connector.text)
      else
        match pipeline rest with
        | .error e => .error e
        | .ok (c, ⟨behind, h⟩) =>
          match members behind with
          | .error e => .error e
          | .ok (more, ⟨left, h'⟩) =>
            .ok ((connector, c) :: more, ⟨left, by simp only [List.length_cons]; omega⟩)
termination_by (tokens.length, 0)

/-- A pipeline. -/
def pipeline (tokens : List Token) : Except SyntaxError (Command × Rest tokens) :=
  match command tokens with
  | .error e => .error e
  | .ok (first, ⟨rest, h⟩) =>
    match stages rest with
    | .error e => .error e
    | .ok (more, ⟨left, h'⟩) => .ok (.ofStages first more, ⟨left, by omega⟩)
termination_by (tokens.length, 2)

/-- The stages of a pipeline behind its first one. -/
def stages (tokens : List Token) : Except SyntaxError (List Command × Suffix tokens) :=
  match tokens with
  | .pipe :: rest =>
    match command rest with
    | .error e => .error e
    | .ok (c, ⟨behind, h⟩) =>
      match stages behind with
      | .error e => .error e
      | .ok (more, ⟨left, h'⟩) => .ok (c :: more, ⟨left, by simp only [List.length_cons]; omega⟩)
  | tokens => .ok ([], ⟨tokens, Nat.le_refl _⟩)
termination_by (tokens.length, 0)

/-- A subshell or a simple command. -/
def command (tokens : List Token) : Except SyntaxError (Command × Rest tokens) :=
  match tokens with
  | .openParen :: rest =>
    if front rest = .closeParen then .error (.missingCommand "(")
    else
      match sequence rest with
      | .error e => .error e
      | .ok (body, ⟨.closeParen :: left, h⟩) =>
        if (front left).beginsSimple then .error (.unsupported .subshellRedirection)
        else
          .ok (.subshell body, ⟨left, by simp only [List.length_cons] at h ⊢; omega⟩)
      | .ok _ => .error .unmatchedParenthesis
  | tokens => simple tokens
termination_by (tokens.length, 1)

end

end Parse

/-- The tree of a list of tokens that ends with the end of the text. -/
def parseTokens (tokens : List Token) : Except SyntaxError Command :=
  if Parse.front tokens = .eof then .error .empty
  else
    match Parse.sequence tokens with
    | .error e => .error e
    | .ok (tree, rest) =>
      match Parse.front rest.val with
      | .eof => .ok tree
      | .closeParen => .error .unmatchedParenthesis
      | t => .error (.unexpected t.text)

/-- The tree of command text. -/
def parse (text : String) : Except SyntaxError Command :=
  match scan text.toList with
  | .error e => .error e
  | .ok tokens => parseTokens tokens

end Runnel
