import Runnel.Text.Blank

/-!
# Runnel.Command.Word

Words of a command line after their quotes were removed, and their expansion.

* `Word`: literal parts and variable references, and whether the source had quotes.
* `Word.literal`: the text of a word with its references left as `$NAME`.
* `Word.expand`: the fields that a word stands for. A word without quotes that refers to a variable
  is split at blanks, and vanishes when nothing is left; every other word is one field.
-/

namespace Runnel

/-- One segment of a word. -/
inductive Part where
  /-- Text that stands for itself. -/
  | literal (text : String)
  /-- `$NAME` or `$?`. -/
  | variable (name : String)
  deriving Repr, DecidableEq

/-- A word of a command line. -/
structure Word where
  /-- The segments in order. -/
  parts : List Part
  /-- The source of the word contained quotes. -/
  quoted : Bool
  deriving Repr, DecidableEq

namespace Part

/-- The segment as text, a reference as `$NAME`. -/
def literalText : Part → String
  | .literal text => text
  | .variable name => "$" ++ name

/-- The segment is a reference. -/
def isVariable : Part → Bool
  | .literal _ => false
  | .variable _ => true

end Part

namespace Word

/-- A word that is plain text. -/
def ofText (text : String) : Word :=
  ⟨[.literal text], false⟩

/-- The text of a word with its references left as `$NAME`. -/
def literal (w : Word) : String :=
  String.join (w.parts.map Part.literalText)

/-- Some segment is a reference. -/
def hasVariables (w : Word) : Bool :=
  w.parts.any Part.isVariable

/-- The text of segments when `lookup` gives the values of variables. An unset one is empty or, if
`strict`, an error that names it. -/
def expandParts (lookup : String → Option String) (strict : Bool) :
    List Part → Except String String
  | [] => .ok ""
  | .literal text :: rest =>
    match expandParts lookup strict rest with
    | .ok r => .ok (text ++ r)
    | .error name => .error name
  | .variable name :: rest =>
    match lookup name with
    | none =>
      if strict then .error name else expandParts lookup strict rest
    | some value =>
      match expandParts lookup strict rest with
      | .ok r => .ok (value ++ r)
      | .error name => .error name

/-- The fields that a word stands for, or the name of an unset variable if `strict`. -/
def expand (lookup : String → Option String) (strict : Bool) (w : Word) :
    Except String (List String) :=
  match expandParts lookup strict w.parts with
  | .error name => .error name
  | .ok text =>
    if w.quoted || !w.hasVariables then .ok [text] else .ok (Text.fields text)

/-- The fields of several words, one after the other. -/
def expandAll (lookup : String → Option String) (strict : Bool) :
    List Word → Except String (List String)
  | [] => .ok []
  | w :: rest =>
    match w.expand lookup strict with
    | .error name => .error name
    | .ok fields =>
      match expandAll lookup strict rest with
      | .error name => .error name
      | .ok more => .ok (fields ++ more)

end Word
end Runnel
