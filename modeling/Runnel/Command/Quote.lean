import Runnel.Text.Blank

/-!
# Runnel.Command.Quote

Quoting: a value becomes command text that a POSIX shell reads back as one literal word.

* `quote`: a value that the caller wrapped in single quotes is kept, a plain word stays as it is,
  and all else is wrapped in single quotes, with `'\''` for each single quote inside.
* `needsQuoting`: the value is no plain word.
* `quoteAll`: several values as words of one command line.
-/

namespace Runnel

/-- Characters that mean something to a shell. -/
def isShellSpecial (c : Char) : Bool :=
  "|&;<>()$\x60\\\"'*?[]#~!\x7b\x7d^".toList.contains c

/-- A character of a plain word: no blank, no control character and nothing that a shell treats
specially. -/
def isWordSafe (c : Char) : Bool :=
  !(Text.isBlank c || Text.isControl c || isShellSpecial c)

/-- At least one character, and every one of them is safe. -/
def isPlainWord (chars : List Char) : Bool :=
  !chars.isEmpty && chars.all isWordSafe

/-- The text with each single quote written `'\''`. -/
def escapeQuotes : List Char → List Char
  | [] => []
  | c :: rest =>
    if c == '\'' then '\'' :: '\\' :: '\'' :: '\'' :: escapeQuotes rest
    else c :: escapeQuotes rest

/-- The text between single quotes. -/
def singleQuoted (chars : List Char) : List Char :=
  '\'' :: (escapeQuotes chars ++ ['\''])

/-- The text starts and ends with the mark, at two places. -/
def isWrapped (mark : Char) (chars : List Char) : Bool :=
  2 ≤ chars.length && chars.head? == some mark && chars.getLast? == some mark

/-- The text is wrapped in single quotes and has none inside. -/
def isQuoted (chars : List Char) : Bool :=
  isWrapped '\'' chars && !((chars.drop 1).dropLast.contains '\'')

/-- `quote` on characters. -/
def quoteChars (chars : List Char) : List Char :=
  if chars.isEmpty then ['\'', '\'']
  else if isQuoted chars then chars
  else if isWrapped '"' chars then singleQuoted chars
  else if isPlainWord chars then chars
  else singleQuoted chars

/-- A value as one word of a command line. -/
def quote (value : String) : String :=
  String.ofList (quoteChars value.toList)

/-- The value is no plain word. -/
def needsQuoting (value : String) : Bool :=
  !isPlainWord value.toList

/-- Values as words of one command line. -/
def quoteAll (values : List String) : String :=
  Text.joinWith " " (values.map quote)

end Runnel
