import Runnel.Script.Arithmetic
import Runnel.Script.Pattern
import Runnel.Script.Scope
import Runnel.Script.Syntax

/-!
# Runnel.Script.Expand

What words of a script stand for.

The output of commands that occur in words is not known at first. An expansion that gets to such
commands stops and asks for their output; it starts over once it has it. So an expansion is a
function of the parameters and of the outputs so far, and it changes nothing unless it succeeds.

* `Fragment`: what comes of a piece of a word before it is split.
* `Expander.fields`: the fields of words.
* `Expander.text`: the text of a word that is not split.
-/

namespace Runnel.Script

/-- What comes of a piece of a word. -/
inductive Fragment where
  /-- A character at which the word is not split. -/
  | fixed (c : Char) (quoted : Bool)
  /-- A character of a value, at which the word may be split. -/
  | loose (c : Char)
  /-- The word is split here. -/
  | boundary
  /-- There is a field here, though it may be empty. -/
  | keep
  deriving Repr, DecidableEq

/-- Why an expansion stops. -/
inductive Halt where
  /-- It needs the output of commands. -/
  | needs (commands : List Item)
  /-- It fails. -/
  | fault (message : String)

/-- The state of an expansion. -/
structure Expansion where
  /-- The parameters. -/
  scope : Scope
  /-- The outputs of commands that come next. -/
  outputs : List String

/-- A step of an expansion. -/
abbrev Expander (α : Type) : Type := StateT Expansion (Except Halt) α

namespace Fragment

/-- What comes of a value. -/
def ofValue (quoted : Bool) (text : String) : List Fragment :=
  if quoted then .keep :: text.toList.map (.fixed · true) else text.toList.map .loose

/-- What comes of several values. -/
def ofValues (quoted : Bool) (texts : List String) : List Fragment :=
  ((texts.map (ofValue quoted)).intersperse [.boundary]).flatten

/-- The characters of fragments that are not split. -/
def marked (fragments : List Fragment) : List Marked :=
  fragments.filterMap fun f =>
    match f with
    | .fixed c q => some (c, q)
    | .loose c => some (c, false)
    | .boundary => some (' ', true)
    | .keep => none

/-- The text of fragments that are not split. -/
def text (fragments : List Fragment) : String :=
  String.ofList (plain (marked fragments))

/-- A field that is being put together. -/
structure Cut where
  /-- Its characters, last one first. -/
  chars : List Marked
  /-- It is there even if it is empty. -/
  begun : Bool
  /-- A blank has ended the field before it. -/
  afterBlank : Bool

/-- The field, if it is there. -/
def Cut.field (c : Cut) : List (List Marked) :=
  if c.begun then [c.chars.reverse] else []

/-- A separator of this kind is a blank. -/
def isBlankSeparator (c : Char) : Bool :=
  c == ' ' || c == '\t' || c == '\n'

/-- Splits fragments into fields. -/
def split (separators : List Char) : List Fragment → Cut → List (List Marked)
  | [], cut => cut.field
  | .keep :: rest, cut => split separators rest { cut with begun := true, afterBlank := false }
  | .boundary :: rest, cut => cut.field ++ split separators rest ⟨[], false, false⟩
  | .fixed c q :: rest, cut => split separators rest ⟨(c, q) :: cut.chars, true, false⟩
  | .loose c :: rest, cut =>
    if !separators.contains c then split separators rest ⟨(c, false) :: cut.chars, true, false⟩
    else if isBlankSeparator c then
      cut.field ++ split separators rest ⟨[], false, cut.begun || cut.afterBlank⟩
    else
      let ended := if cut.begun then cut.field else if cut.afterBlank then [] else [[]]
      ended ++ split separators rest ⟨[], false, false⟩

/-- The fields of fragments. -/
def fields (separators : List Char) (fragments : List Fragment) : List (List Marked) :=
  split separators fragments ⟨[], false, false⟩

end Fragment

/-- A text and all texts that come of it by cutting characters off its end, the longest first. -/
def beginnings (text : List Char) : List (List Char) :=
  (suffixes text.reverse).map List.reverse

/-- Cuts the shortest or longest match of a pattern off one end of a value. -/
def cutMatch (front longest : Bool) (p : List PatternItem) (value : List Char) : List Char :=
  let parts := if front then beginnings value else suffixes value
  let ordered := if longest then parts else parts.reverse
  match ordered.find? (matchesPattern p) with
  | none => value
  | some part =>
    if front then value.drop part.length else value.take (value.length - part.length)

namespace Expander

/-- Stops with a message. -/
def fail {α : Type} (message : String) : Expander α :=
  throw (.fault message)

/-- The output of the commands that come next. -/
def output (commands : List Item) : Expander String := do
  let s ← get
  match s.outputs with
  | text :: outputs =>
    set { s with outputs }
    return text
  | [] => throw (.needs commands)

/-- Sets a variable. -/
def assign (name value : String) : Expander Unit :=
  modify fun s => { s with scope := s.scope.assign name value }

/-- What comes of the value of a parameter. -/
def parameter (name : String) (quoted : Bool) : Expander (List Fragment) := do
  let scope := (← get).scope
  match name with
  | "@" => return Fragment.ofValues quoted scope.args
  | "*" =>
    return if quoted then Fragment.ofValue true scope.joinedArgs
      else Fragment.ofValues false scope.args
  | name =>
    match scope.value? name with
    | some value => return Fragment.ofValue quoted value
    | none =>
      if scope.hasFlag 'u' then fail (name ++ ": parameter not set")
      else return Fragment.ofValue quoted ""

/-- The value of an expression. -/
def arithmetic (expression : String) : Expander String := do
  let scope := (← get).scope
  match evaluateText scope.value? expression with
  | .error message => fail message
  | .ok (value, assigned) =>
    for (name, n) in assigned.reverse do
      assign name (Text.signedDigits n)
    return Text.signedDigits value

/-- Why a value is demanded. -/
def demandMessage (name reason : String) (orEmpty : Bool) : String :=
  name ++ ": " ++
    (if !reason.isEmpty then reason
    else if orEmpty then "parameter not set or null"
    else "parameter not set")

/-- The value of a parameter is missing. -/
def isMissing (name : String) (orEmpty : Bool) : Expander Bool := do
  let value := (← get).scope.value? name
  return value.isNone || orEmpty && value == some ""

mutual

/-- What comes of a piece. -/
def piece : Piece → Expander (List Fragment)
  | .text chars quoted =>
    return (if quoted then [.keep] else []) ++ chars.map (.fixed · quoted)
  | .home => do
    match (← get).scope.value? "HOME" with
    | some home => return Fragment.ofValue true home
    | none => return [.fixed '~' false]
  | .command body quoted => do
    return Fragment.ofValue quoted (← output body)
  | .arithmetic word quoted => do
    return Fragment.ofValue quoted (← arithmetic (Fragment.text (← pieces word)))
  | .parameter name adjustment orEmpty word quoted => do
    match adjustment with
    | .plain => parameter name quoted
    | .length =>
      let value := ((← get).scope.value? name).getD ""
      return Fragment.ofValue quoted (Text.digits value.length)
    | .default =>
      if ← isMissing name orEmpty then
        return (if quoted then [.keep] else []) ++ (← pieces word)
      else parameter name quoted
    | .assign =>
      if ← isMissing name orEmpty then
        let value := Fragment.text (← pieces word)
        assign name value
        return Fragment.ofValue quoted value
      else parameter name quoted
    | .demand =>
      if ← isMissing name orEmpty then
        fail (demandMessage name (Fragment.text (← pieces word)) orEmpty)
      else parameter name quoted
    | .alternate =>
      if ← isMissing name orEmpty then return Fragment.ofValue quoted ""
      else return (if quoted then [.keep] else []) ++ (← pieces word)
    | .cutFront longest => do
      let p := pattern (Fragment.marked (← pieces word))
      let value := ((← get).scope.value? name).getD ""
      return Fragment.ofValue quoted (String.ofList (cutMatch true longest p value.toList))
    | .cutEnd longest => do
      let p := pattern (Fragment.marked (← pieces word))
      let value := ((← get).scope.value? name).getD ""
      return Fragment.ofValue quoted (String.ofList (cutMatch false longest p value.toList))

/-- What comes of pieces. -/
def pieces : List Piece → Expander (List Fragment)
  | [] => return []
  | p :: rest => do
    let fragments ← piece p
    return fragments ++ (← pieces rest)

end

/-- The text of a word that is not split. -/
def text (word : List Piece) : Expander String := do
  return Fragment.text (← pieces word)

/-- The pattern of a word. -/
def wordPattern (word : List Piece) : Expander (List PatternItem) := do
  return pattern (Fragment.marked (← pieces word))

/-- The fields of a word; patterns stand for the paths that match them. -/
def wordFields (d : Disk) (cwd : String) (word : List Piece) : Expander (List String) := do
  let fragments ← pieces word
  let scope := (← get).scope
  let found := Fragment.fields scope.separators fragments
  return if scope.hasFlag 'f' then found.map fun f => String.ofList (plain f)
    else found.flatMap (paths d cwd)

/-- The fields of words. -/
def fields (d : Disk) (cwd : String) : List (List Piece) → Expander (List String)
  | [] => return []
  | word :: rest => do
    let first ← wordFields d cwd word
    return first ++ (← fields d cwd rest)

end Expander
end Runnel.Script
