import Runnel.Host.Disk
import Runnel.Host.Listing
import Runnel.Text.Ascii

/-!
# Runnel.Script.Pattern

Patterns of the system shell, and the paths that match them. Each character of a pattern carries a
mark: a quoted one stands for itself.
-/

namespace Runnel.Script

/-- A character, and whether it is quoted. -/
abbrev Marked : Type := Char × Bool

/-- A part of a pattern. -/
inductive PatternItem where
  /-- This character. -/
  | literal (c : Char)
  /-- Any character. -/
  | one
  /-- Any text. -/
  | any
  /-- A character of these ranges, or none of them. -/
  | set (negated : Bool) (ranges : List (Char × Char))
  deriving Repr, DecidableEq

namespace PatternItem

/-- An unquoted bracket closes a set, unless it comes first. -/
def closesSet (first : Bool) (m : Marked) : Bool :=
  m.1 == ']' && !m.2 && !first

/-- Reads the ranges of a set up to its closing bracket, and what follows it. -/
def ranges : Bool → List Marked → Option (List (Char × Char) × List Marked)
  | _, [] => none
  | first, a :: ('-', false) :: b :: rest =>
    if closesSet first a then some ([], ('-', false) :: b :: rest)
    else if closesSet false b then
      (ranges false (('-', false) :: b :: rest)).map fun (r, after) => ((a.1, a.1) :: r, after)
    else (ranges false rest).map fun (r, after) => ((a.1, b.1) :: r, after)
  | first, a :: rest =>
    if closesSet first a then some ([], rest)
    else (ranges false rest).map fun (r, after) => ((a.1, a.1) :: r, after)

end PatternItem

/-- The pattern of marked characters; the number bounds its length. -/
def patternWithin : Nat → List Marked → List PatternItem
  | 0, _ | _, [] => []
  | n + 1, (c, quoted) :: rest =>
    if quoted then .literal c :: patternWithin n rest
    else
      match c with
      | '*' => .any :: patternWithin n rest
      | '?' => .one :: patternWithin n rest
      | '[' =>
        let (negated, inner) := match rest with
          | ('!', false) :: inner | ('^', false) :: inner => (true, inner)
          | inner => (false, inner)
        match PatternItem.ranges true inner with
        | some (ranges, after) => .set negated ranges :: patternWithin n after
        | none => .literal '[' :: patternWithin n rest
      | c => .literal c :: patternWithin n rest

/-- The pattern of marked characters. -/
def pattern (chars : List Marked) : List PatternItem :=
  patternWithin chars.length chars

/-- A text and all that is left when characters are cut off its front. -/
def suffixes : List Char → List (List Char)
  | [] => [[]]
  | c :: cs => (c :: cs) :: suffixes cs

/-- The whole text matches the pattern. -/
def matchesPattern : List PatternItem → List Char → Bool
  | [], text => text.isEmpty
  | .any :: rest, text => (suffixes text).any (matchesPattern rest)
  | .literal c :: rest, d :: text => c == d && matchesPattern rest text
  | .one :: rest, _ :: text => matchesPattern rest text
  | .set negated ranges :: rest, d :: text =>
    (ranges.any fun r => r.1 ≤ d && d ≤ r.2) != negated && matchesPattern rest text
  | _, [] => false

/-- The pattern does not just stand for itself. -/
def hasWildcards (p : List PatternItem) : Bool :=
  p.any fun item =>
    match item with
    | .literal _ => false
    | _ => true

/-- The characters without their marks. -/
def plain (chars : List Marked) : List Char :=
  chars.map Prod.fst

/-- Splits at slashes. -/
def splitMarked : List Marked → List (List Marked)
  | [] => [[]]
  | (c, q) :: rest =>
    if c == '/' then [] :: splitMarked rest
    else
      match splitMarked rest with
      | [] => [[(c, q)]]
      | first :: more => ((c, q) :: first) :: more

/-- The paths that match the components of a pattern, below what comes before them. -/
def matchingPaths (d : Disk) (cwd : String) (above : String) : List (List Marked) → List String
  | [] => []
  | component :: rest =>
    let p := pattern component
    let names :=
      if hasWildcards p then
        let dir := Path.join cwd (if above.isEmpty then "." else above)
        let all := (d.readDirectory dir).toOption.getD []
        let hidden := component.head? == some ('.', false) || component.head? == some ('.', true)
        (Disk.sortedNames all).filter fun name =>
          matchesPattern p name.toList && (hidden || name.toList.head? != some '.')
      else [String.ofList (plain component)]
    names.flatMap fun name =>
      let path := above ++ name
      if rest.isEmpty then
        if name.isEmpty || (d.statLink (Path.join cwd path)).toOption.isSome then [path] else []
      else matchingPaths d cwd (path ++ "/") rest

/-- The paths that match a pattern, sorted; without any the pattern stands for itself. -/
def paths (d : Disk) (cwd : String) (chars : List Marked) : List String :=
  if hasWildcards (pattern chars) then
    match matchingPaths d cwd "" (splitMarked chars) with
    | [] => [String.ofList (plain chars)]
    | found => found
  else [String.ofList (plain chars)]

end Runnel.Script
