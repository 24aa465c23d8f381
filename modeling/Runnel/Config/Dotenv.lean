import Runnel.Text.Alphanumeric
import Runnel.Text.Ascii
import Runnel.Text.Blank
import Runnel.Text.Utf8

/-!
# Runnel.Config.Dotenv

Environment files: lines `NAME=value`, perhaps behind `export`.

* `Dotenv.read`: the variables of a file in order, or the first fault.
* A value may hold text in single quotes, text in double quotes with escapes, and references `$NAME`
  and `$` with a name in braces. References see the process environment first, then the file.
* A quote may stay open over several lines, and a blank before `#` begins a comment.
-/

namespace Runnel

/-- Why an environment file cannot be read. -/
inductive DotenvError where
  /-- A line, or the value in it, is malformed at this position. -/
  | malformed (text : String) (position : Nat)
  /-- The file is not UTF-8. -/
  | notUtf8
  deriving Repr, DecidableEq

/-- The text of an error. -/
def DotenvError.message : DotenvError → String
  | .malformed text position =>
    "Error parsing line: '" ++ text ++ "', error at line index: " ++ Text.digits position
  | .notUtf8 => "stream did not contain valid UTF-8"

namespace Dotenv

/-- How many bytes characters take in UTF-8. -/
def byteLength (text : List Char) : Nat :=
  text.foldl (fun n c => n + c.utf8Size) 0

/-! ## Logical lines -/

/-- Where a reader of logical lines stands. -/
inductive LineState where
  /-- In text. -/
  | plain
  /-- After a backslash. -/
  | escape
  /-- After a blank. -/
  | blank
  /-- In single quotes. -/
  | single
  /-- In single quotes, after a backslash. -/
  | singleEscape
  /-- In double quotes. -/
  | double
  /-- In double quotes, after a backslash. -/
  | doubleEscape
  /-- At the mark of a comment. -/
  | comment
  deriving Repr, DecidableEq

/-- Reads one character. -/
def LineState.step (s : LineState) (c : Char) : LineState :=
  match s with
  | .plain =>
    if Text.isBlank c && c != '\n' && c != '\r' then .blank
    else if c == '\\' then .escape
    else if c == '"' then .double
    else if c == '\'' then .single
    else .plain
  | .blank =>
    if c == '#' then .comment
    else if c == '\\' then .escape
    else if c == '"' then .double
    else if c == '\'' then .single
    else .plain
  | .escape => .plain
  | .double => if c == '\\' then .doubleEscape else if c == '"' then .plain else .double
  | .doubleEscape => .double
  | .single => if c == '\\' then .singleEscape else if c == '\'' then .plain else .single
  | .singleEscape => .single
  | .comment => .comment

/-- Reads a line up to a comment: what stands before the comment, and the state at the end. -/
def scanLine : LineState → List Char → List Char × LineState
  | state, [] => ([], state)
  | state, c :: rest =>
    match state.step c with
    | .comment => ([], .comment)
    | next =>
      let (kept, last) := scanLine next rest
      (c :: kept, last)

/-- Text without a line end at its end. -/
def withoutLineEnd (text : List Char) : List Char :=
  match text.reverse with
  | '\n' :: '\r' :: rest => rest.reverse
  | '\n' :: rest => rest.reverse
  | _ => text

/-- The logical lines of a file whose physical lines are given as bytes. `pending` is the text of a
logical line that is not complete. Lines before a fault are given as well. -/
def logicalLines (state : LineState) (pending : List Char) :
    List Bytes → List (List Char) × Option DotenvError
  | [] =>
    if state = .plain then ([], none)
    else ([], some (.malformed (String.ofList pending) (byteLength pending)))
  | bytes :: rest =>
    match Text.decode? bytes with
    | none => ([], some .notUtf8)
    | some line =>
      let text := pending ++ line.toList
      if (text.dropWhile Text.isBlank).head? == some '#' then
        let (lines, fault) := logicalLines .plain [] rest
        ([] :: lines, fault)
      else
        let (kept, last) := scanLine state line.toList
        match last with
        | .plain =>
          let (lines, fault) := logicalLines .plain [] rest
          (withoutLineEnd text :: lines, fault)
        | .comment =>
          let (lines, fault) := logicalLines .plain [] rest
          ((pending ++ kept) :: lines, fault)
        | _ => logicalLines last text rest

/-- The physical lines of a file, each with its line end; the last one may have none. -/
def physicalLines : Bytes → List Bytes
  | [] => []
  | b :: rest =>
    if b == 10 then [b] :: physicalLines rest
    else
      match physicalLines rest with
      | [] => [[b]]
      | line :: more => (b :: line) :: more

/-! ## Values -/

/-- The value of a variable, where it may be used. -/
abbrev Lookup : Type := String → String

/-- Where a reader of a value stands. -/
inductive ValueMode where
  /-- In a value. -/
  | plain
  /-- In single quotes. -/
  | single
  /-- Behind the value, where only a comment may follow. -/
  | done
  /-- After a backslash. -/
  | escape
  /-- After a dollar sign and this name, last character first. -/
  | name (chars : List Char)
  /-- After a dollar sign, an opening brace and this name, last character first. -/
  | braced (chars : List Char)
  deriving Repr, DecidableEq

/-- A value that is being read. -/
structure ValueReader where
  /-- What it is in the middle of. -/
  mode : ValueMode
  /-- Inside double quotes. -/
  quoted : Bool
  /-- The text so far, last character first. -/
  output : List Char
  deriving Repr, DecidableEq

/-- The text with the value of a variable added. -/
def substitute (lookup : Lookup) (name : List Char) (output : List Char) : List Char :=
  (lookup (String.ofList name.reverse)).toList.reverse ++ output

/-- What an escaped character stands for in a value. -/
def valueEscape? (c : Char) : Option Char :=
  if c == 'n' then some '\n'
  else if c == '\\' || c == '\'' || c == '"' || c == '$' || c == ' ' then some c
  else none

/-- Reads one character; `none` if it may not stand there. -/
def ValueReader.step? (lookup : Lookup) (r : ValueReader) (c : Char) : Option ValueReader :=
  match r.mode with
  | .done => if c == ' ' || c == '\t' then some r else none
  | .escape => (valueEscape? c).map fun d => { r with mode := .plain, output := d :: r.output }
  | .single =>
    if c == '\'' then some { r with mode := .plain } else some { r with output := c :: r.output }
  | .name chars =>
    if Text.isAlphanumeric c then some { r with mode := .name (c :: chars) }
    else if c == '\x7b' && chars.isEmpty then some { r with mode := .braced [] }
    else
      let output := substitute lookup chars r.output
      if c == '$' then some { r with mode := .name [], output }
      else some { r with mode := .plain, output := c :: output }
  | .braced chars =>
    if c == '\x7d' then some { r with mode := .plain, output := substitute lookup chars r.output }
    else some { r with mode := .braced (c :: chars) }
  | .plain =>
    if c == '$' then some { r with mode := .name [] }
    else if c == '\\' then some { r with mode := .escape }
    else if r.quoted then
      if c == '"' then some { r with quoted := false } else some { r with output := c :: r.output }
    else if c == '\'' then some { r with mode := .single }
    else if c == '"' then some { r with quoted := true }
    else if c == ' ' || c == '\t' then some { r with mode := .done }
    else some { r with output := c :: r.output }

/-- Reads a value up to its end or to a comment behind it. On failure the result is the number of
characters read. -/
def ValueReader.run (lookup : Lookup) (r : ValueReader) (index : Nat) :
    List Char → Except Nat ValueReader
  | [] => .ok r
  | c :: rest =>
    if r.mode = .done && c == '#' then .ok r
    else
      match r.step? lookup c with
      | none => .error index
      | some r => r.run lookup (index + 1) rest

/-- The text of a value. -/
def readValue (lookup : Lookup) (text : List Char) : Except DotenvError String :=
  match ValueReader.run lookup ⟨.plain, false, []⟩ 0 text with
  | .error index => .error (.malformed (String.ofList text) index)
  | .ok r =>
    let unfinished := .error (.malformed (String.ofList text) (byteLength text - 1))
    match r.mode, r.quoted with
    | .braced _, _ | .single, _ | _, true => unfinished
    | .name chars, false => .ok (String.ofList (substitute lookup chars r.output).reverse)
    | _, false => .ok (String.ofList r.output.reverse)

/-! ## Lines -/

/-- Text at a position of its line. -/
structure Cursor where
  /-- What is left. -/
  text : List Char
  /-- How many bytes stand before it. -/
  position : Nat

namespace Cursor

/-- Moves over blanks. -/
def skipBlanks (c : Cursor) : Cursor :=
  ⟨c.text.dropWhile Text.isBlank,
    c.position + byteLength (c.text.takeWhile Text.isBlank)⟩

/-- Moves over an equals sign. -/
def equals? (c : Cursor) : Except Nat Cursor :=
  match c.text with
  | '=' :: rest => .ok ⟨rest, c.position + 1⟩
  | _ => .error c.position

/-- Moves over a name. -/
def name? (c : Cursor) : Except Nat (List Char × Cursor) :=
  let belongs := fun d : Char => Text.isNameChar d || d == '.'
  if (c.text.head?.map Text.isNameStart).getD false then
    let name := c.text.takeWhile belongs
    .ok (name, ⟨c.text.dropWhile belongs, c.position + name.length⟩)
  else .error c.position

end Cursor

/-- The name of a line and the cursor behind its equals sign. The word `export` may stand before the
name or be the name. -/
def readName (c : Cursor) : Except Nat (List Char × Cursor) := do
  let (name, c) ← c.name?
  let c := c.skipBlanks
  if name == "export".toList then
    match c.equals? with
    | .ok c => return (name, c)
    | .error _ =>
      let (name, c) ← c.name?
      return (name, ← c.skipBlanks.equals?)
  else return (name, ← c.equals?)

/-- There is nothing but perhaps a comment. -/
def isVoid (text : List Char) : Bool :=
  text.isEmpty || text.head? == some '#'

/-- A logical line: a name and its value, or nothing. -/
def readLine (lookup : Lookup) (line : List Char) :
    Except DotenvError (Option (String × String)) :=
  let start := (Cursor.mk (Text.dropEndWhile Text.isBlank line) 0).skipBlanks
  if isVoid start.text then .ok none
  else
    match readName start with
    | .error position => .error (.malformed (String.ofList line) position)
    | .ok (name, c) =>
      let c := c.skipBlanks
      if isVoid c.text then .ok (some (String.ofList name, ""))
      else
        match readValue lookup c.text with
        | .error e => .error e
        | .ok value => .ok (some (String.ofList name, value))

/-- The variables of logical lines, before whose first one stands `seen`, last one first. -/
def readLines (environment : String → Option String) (seen : List (String × String)) :
    List (List Char) → Except DotenvError (List (String × String))
  | [] => .ok seen.reverse
  | line :: rest =>
    let lookup := fun name => ((environment name).or (seen.lookup name)).getD ""
    match readLine lookup line with
    | .error e => .error e
    | .ok none => readLines environment seen rest
    | .ok (some entry) => readLines environment (entry :: seen) rest

/-- The variables of a file in order. -/
def read (environment : String → Option String) (file : Bytes) :
    Except DotenvError (List (String × String)) :=
  let (lines, fault) := logicalLines .plain [] (physicalLines file)
  match readLines environment [] lines with
  | .error e => .error e
  | .ok entries =>
    match fault with
    | some e => .error e
    | none => .ok entries

end Dotenv
end Runnel
