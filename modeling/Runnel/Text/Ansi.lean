/-!
# Runnel.Text.Ansi

Terminal colour sequences: the escape character, `[`, any digits, semicolons and question marks,
and one ASCII letter. `stripAnsi` removes, from left to right, every such sequence.
-/

namespace Runnel.Text

/-- The escape character. -/
def escape : Char := '\x1b'

/-- What may stand between `[` and the letter of a sequence. -/
def isAnsiParameter (c : Char) : Bool :=
  c.isDigit || c == ';' || c == '?'

/-- Where the reader of sequences stands. -/
inductive AnsiState where
  /-- In plain text. -/
  | plain
  /-- After an escape character. -/
  | escaped
  /-- After the escape character, `[` and these parameters, last one first. -/
  | parameters (seen : List Char)

/-- The text of a sequence that breaks off. -/
def AnsiState.pending : AnsiState → List Char
  | .plain => []
  | .escaped => [escape]
  | .parameters seen => escape :: '[' :: seen.reverse

/-- The text that is left when every complete sequence is removed. -/
def stripAnsiFrom : AnsiState → List Char → List Char
  | state, [] => state.pending
  | .plain, c :: rest =>
    if c == escape then stripAnsiFrom .escaped rest else c :: stripAnsiFrom .plain rest
  | .escaped, c :: rest =>
    if c == '[' then stripAnsiFrom (.parameters []) rest
    else if c == escape then escape :: stripAnsiFrom .escaped rest
    else escape :: c :: stripAnsiFrom .plain rest
  | .parameters seen, c :: rest =>
    if isAnsiParameter c then stripAnsiFrom (.parameters (c :: seen)) rest
    else if c.isAlpha then stripAnsiFrom .plain rest
    else if c == escape then
      (AnsiState.parameters seen).pending ++ stripAnsiFrom .escaped rest
    else (AnsiState.parameters seen).pending ++ c :: stripAnsiFrom .plain rest

/-- Text without terminal colour sequences. -/
def stripAnsi (text : String) : String :=
  String.ofList (stripAnsiFrom .plain text.toList)

end Runnel.Text
