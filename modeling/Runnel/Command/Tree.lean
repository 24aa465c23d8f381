import Runnel.Command.Word

/-!
# Runnel.Command.Tree

Command lines as trees: simple commands with redirects, pipelines, sequences and subshells.
-/

namespace Runnel

/-- What a redirect does with its target. -/
inductive RedirectMode where
  /-- `>`: output to an emptied file. -/
  | overwrite
  /-- `>>`: output to the end of a file. -/
  | append
  /-- `<`: input from a file. -/
  | input
  deriving Repr, DecidableEq

/-- The operator of a redirect. -/
def RedirectMode.text : RedirectMode → String
  | .overwrite => ">"
  | .append => ">>"
  | .input => "<"

/-- A redirect of a simple command. -/
structure Redirect where
  /-- The direction. -/
  mode : RedirectMode
  /-- The file. -/
  target : Word
  deriving Repr, DecidableEq

/-- What stands between two members of a sequence. -/
inductive Connector where
  /-- `&&`: go on after success. -/
  | and
  /-- `||`: go on after failure. -/
  | or
  /-- `;`: go on. -/
  | next
  deriving Repr, DecidableEq

/-- The connector as it is written. -/
def Connector.text : Connector → String
  | .and => "&&"
  | .or => "||"
  | .next => ";"

/-- A member behind this connector runs after `code`. -/
def Connector.admits : Connector → Int → Bool
  | .and, code => code == 0
  | .or, code => code != 0
  | .next, _ => true

/-- A command line. -/
inductive Command where
  /-- A command with its arguments and redirects. -/
  | simple (name : Word) (args : List Word) (redirects : List Redirect)
  /-- Commands of which each reads the output of the one before. -/
  | pipeline (stages : List Command)
  /-- Commands one after the other. -/
  | sequence (first : Command) (rest : List (Connector × Command))
  /-- A command whose changes stay inside. -/
  | subshell (body : Command)
  deriving Repr

namespace Command

/-- A sequence, or its only member. -/
def ofSequence (first : Command) : List (Connector × Command) → Command
  | [] => first
  | rest => .sequence first rest

/-- A pipeline, or its only stage. -/
def ofStages (first : Command) : List Command → Command
  | [] => first
  | rest => .pipeline (first :: rest)

end Command
end Runnel
