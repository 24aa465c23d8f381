/-!
# Runnel.Text.Lines

Lines of text. A line ends with its newline; the last one may lack it.

* `segments`: the lines, each with its newline, so that they concatenate to the text.
* `head`, `tail`: the first and the last lines.
* `lines`: the lines without their endings, a newline or a carriage return and a newline.
-/

namespace Runnel.Text

/-- `line` holds, last character first, the line that is being read. -/
def segmentsFrom (line : List Char) : List Char → List (List Char)
  | [] => if line.isEmpty then [] else [line.reverse]
  | c :: rest =>
    if c == '\n' then ('\n' :: line).reverse :: segmentsFrom [] rest
    else segmentsFrom (c :: line) rest

/-- The lines of a text, each with its newline. -/
def segments (text : List Char) : List (List Char) :=
  segmentsFrom [] text

/-- The first `n` lines. -/
def head (text : String) (n : Nat) : String :=
  String.ofList ((segments text.toList).take n).flatten

/-- The last `n` lines. -/
def tail (text : String) (n : Nat) : String :=
  let lines := segments text.toList
  String.ofList (lines.drop (lines.length - n)).flatten

/-- A line without its newline and one carriage return before that. -/
def withoutEnding (line : List Char) : List Char :=
  match line.reverse with
  | '\n' :: '\r' :: rest => rest.reverse
  | '\n' :: rest => rest.reverse
  | _ => line

/-- The lines without their endings. -/
def lines (text : String) : List String :=
  (segments text.toList).map fun line => String.ofList (withoutEnding line)

end Runnel.Text
