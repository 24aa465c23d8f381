/-!
# Runnel.Script.Syntax

Scripts of the system shell: what words, redirects and commands there are.
-/

namespace Runnel.Script

/-- What the expansion of a parameter does besides. -/
inductive Adjustment where
  /-- Nothing. -/
  | plain
  /-- Counts the characters. -/
  | length
  /-- Takes a word if there is no value. -/
  | default
  /-- Takes a word if there is no value, and keeps it. -/
  | assign
  /-- Ends the shell with a message if there is no value. -/
  | demand
  /-- Takes a word if there is a value. -/
  | alternate
  /-- Cuts the shortest or longest match off the front. -/
  | cutFront (longest : Bool)
  /-- Cuts the shortest or longest match off the end. -/
  | cutEnd (longest : Bool)
  deriving Repr, DecidableEq

/-- What a redirect does. -/
inductive RedirectKind where
  /-- Reads a file. -/
  | read
  /-- Overwrites a file. -/
  | write
  /-- Appends to a file. -/
  | append
  /-- Uses another descriptor. -/
  | duplicate
  /-- Reads the text that follows. -/
  | here
  deriving Repr, DecidableEq

mutual

/-- A piece of a word. A quoted piece is neither split nor used as a pattern. -/
inductive Piece where
  /-- Text. -/
  | text (chars : List Char) (quoted : Bool)
  /-- The home directory. -/
  | home
  /-- The value of a parameter; `orEmpty` treats an empty value like none. -/
  | parameter (name : String) (adjustment : Adjustment) (orEmpty : Bool) (word : List Piece)
      (quoted : Bool)
  /-- The output of commands. -/
  | command (body : List Item) (quoted : Bool)
  /-- The value of an expression. -/
  | arithmetic (word : List Piece) (quoted : Bool)

/-- A redirect of a descriptor. -/
inductive Redirect where
  /-- The target is a file, a descriptor or text. -/
  | mk (descriptor : Nat) (kind : RedirectKind) (target : List Piece)

/-- A command. -/
inductive Body where
  /-- Assignments, a name and arguments, redirects. -/
  | simple (line : Nat) (assignments : List (String × List Piece)) (words : List (List Piece))
      (redirects : List Redirect)
  /-- Commands side by side; the code may be negated. -/
  | pipeline (negated : Bool) (stages : List Body)
  /-- A command and further ones that depend on its success, or on its failure. -/
  | andOr (first : Body) (rest : List (Bool × Body))
  /-- Commands in a process of their own. -/
  | subshell (body : List Item) (redirects : List Redirect)
  /-- Commands. -/
  | group (body : List Item) (redirects : List Redirect)
  /-- A choice. -/
  | ifElse (condition thenPart elsePart : List Item) (redirects : List Redirect)
  /-- A loop that goes on while the condition holds, or until it does. -/
  | loop (isUntil : Bool) (condition body : List Item) (redirects : List Redirect)
  /-- A loop over words; `none` stands for the arguments. -/
  | forEach (name : String) (words : Option (List (List Piece))) (body : List Item)
      (redirects : List Redirect)
  /-- A choice by patterns. -/
  | case (word : List Piece) (arms : List (List (List Piece) × List Item))
      (redirects : List Redirect)
  /-- A function. -/
  | function (name : String) (body : Body)

/-- A command of a list, perhaps one that runs in the background. -/
inductive Item where
  /-- The command. -/
  | mk (body : Body) (background : Bool)

end

/-- A word. -/
abbrev ScriptWord : Type := List Piece

/-- A script that is still to be read, from this line on. -/
structure ScriptSource where
  /-- The text. -/
  chars : List Char
  /-- The number of the line. -/
  line : Nat

/-- The text of a word that is nothing but unquoted text. -/
def bareText? : ScriptWord → Option String
  | [.text chars false] => some (String.ofList chars)
  | _ => none

end Runnel.Script
