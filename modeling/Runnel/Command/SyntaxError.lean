/-!
# Runnel.Command.SyntaxError

Why a command line has no tree, and the text that says so.
-/

namespace Runnel

/-- Shell syntax that command trees do not have. -/
inductive Feature where
  /-- `&`, but not as `&&`. -/
  | backgroundJob
  /-- `>&`, `>|`, `<&` and `<>`. -/
  | descriptorDuplication
  /-- `<<`. -/
  | hereDocument
  /-- Digits before `<` or `>`. -/
  | descriptorRedirection
  /-- `$(` and backquotes. -/
  | commandSubstitution
  /-- A dollar sign before a brace. -/
  | parameterExpansion
  /-- A redirect or a word behind a subshell. -/
  | subshellRedirection
  /-- `NAME=value` before a command. -/
  | variableAssignment
  deriving Repr, DecidableEq

/-- What the syntax is called. -/
def Feature.text : Feature → String
  | .backgroundJob => "background job or fd redirection"
  | .descriptorDuplication => "fd duplication"
  | .hereDocument => "here-document"
  | .descriptorRedirection => "fd redirection"
  | .commandSubstitution => "command substitution"
  | .parameterExpansion => "parameter expansion"
  | .subshellRedirection => "redirection of a subshell"
  | .variableAssignment => "variable assignment"

/-- Why a command line has no tree. -/
inductive SyntaxError where
  /-- There is no command. -/
  | empty
  /-- A quote is not closed. -/
  | unterminatedQuote (mark : Char)
  /-- Something stands where nothing may follow. -/
  | unexpected (token : String)
  /-- A command is missing before or after this. -/
  | missingCommand (near : String)
  /-- A redirect has no target. -/
  | missingTarget
  /-- A parenthesis has no partner. -/
  | unmatchedParenthesis
  /-- Syntax that is left to a real shell. -/
  | unsupported (feature : Feature)
  deriving Repr, DecidableEq

/-- The text of an error. -/
def SyntaxError.message : SyntaxError → String
  | .empty => "empty command"
  | .unterminatedQuote mark => "unterminated " ++ mark.toString ++ " quote"
  | .unexpected token => "unexpected token '" ++ token ++ "'"
  | .missingCommand near => "missing command before or after '" ++ near ++ "'"
  | .missingTarget => "missing redirect target"
  | .unmatchedParenthesis => "unmatched parenthesis"
  | .unsupported feature => "unsupported shell syntax: " ++ feature.text

/-- The name of the kind of an error. -/
def SyntaxError.kind : SyntaxError → String
  | .empty => "Empty"
  | .unterminatedQuote _ => "UnterminatedQuote"
  | .unexpected _ => "Unexpected"
  | .missingCommand _ => "MissingCommand"
  | .missingTarget => "MissingRedirectTarget"
  | .unmatchedParenthesis => "UnmatchedParen"
  | .unsupported _ => "Unsupported"

end Runnel
