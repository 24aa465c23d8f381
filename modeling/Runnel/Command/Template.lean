import Runnel.Command.Quote

/-!
# Runnel.Command.Template

Command text with values spliced in. Each pair of braces in a template stands for the next value;
values beyond the last pair follow at the end, and pairs beyond the last value stay.
-/

namespace Runnel

/-- A value that waits to be spliced into a template. -/
inductive Value where
  /-- One word, quoted. -/
  | word (text : String)
  /-- Command text, taken as it stands. -/
  | raw (text : String)
  /-- Several words, each quoted. -/
  | words (texts : List String)
  deriving Repr, DecidableEq

/-- How a value was spliced in. -/
inductive Splicing where
  /-- Quoted. -/
  | quoted
  /-- As it stands. -/
  | verbatim
  deriving Repr, DecidableEq

/-- A value as it ended up in the command text. -/
structure Spliced where
  /-- The value itself. -/
  raw : String
  /-- What stands in the text. -/
  rendered : String
  /-- How it got there. -/
  splicing : Splicing
  deriving Repr, DecidableEq

/-- A value ready to be spliced in. -/
def Value.render : Value → Spliced
  | .word text => ⟨text, quote text, .quoted⟩
  | .raw text => ⟨text, text, .verbatim⟩
  | .words texts => ⟨Text.joinWith " " texts, quoteAll texts, .quoted⟩

/-- Command text and the values spliced into it. -/
structure CommandText where
  /-- The text to run. -/
  text : String
  /-- The values, in order. -/
  values : List Spliced
  deriving Repr, DecidableEq

namespace CommandText

/-- Text without any value in it. -/
def ofText (text : String) : CommandText :=
  ⟨text, []⟩

/-- The template with its pairs of braces replaced by the texts, as long as there are any, and the
texts that were not needed. -/
def fill : List Char → List (List Char) → List Char × List (List Char)
  | [], values => ([], values)
  | [c], values => ([c], values)
  | c :: d :: rest, values =>
    if c == '\x7b' && d == '\x7d' then
      match values with
      | v :: more =>
        let (text, left) := fill rest more
        (v ++ text, left)
      | [] => ('\x7b' :: '\x7d' :: rest, [])
    else
      let (text, left) := fill (d :: rest) values
      (c :: text, left)

/-- The text followed by further words, each after a blank unless one is there. -/
def append (text : List Char) : List (List Char) → List Char
  | [] => text
  | v :: rest =>
    if text.isEmpty || text.getLast? == some ' ' then append (text ++ v) rest
    else append (text ++ ' ' :: v) rest

/-- The template with values spliced in. -/
def ofTemplate (template : String) (values : List Value) : CommandText :=
  let spliced := values.map Value.render
  let (text, left) := fill template.toList (spliced.map fun v => v.rendered.toList)
  ⟨String.ofList (append text left), spliced⟩

end CommandText
end Runnel
