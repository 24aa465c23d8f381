import Runnel.Text.Ascii

/-!
# Runnel.Host.Path

Paths as text: their components and how paths are joined. Nothing here looks at a disk.

* `Path.join`: a path below a directory, unless it is absolute.
* `Path.components`: the steps of a path. Repeated slashes and dots between them count for nothing.
* `Path.fileName?`, `Path.fileStem?`, `Path.parent?`: the last step, without its extension, and what
  stands before it.
-/

namespace Runnel.Path

/-- The path starts at the root. -/
def isAbsolute (path : String) : Bool :=
  path.toList.head? == some '/'

/-- A path below a directory; an absolute path stays as it is. -/
def join (base path : String) : String :=
  if isAbsolute path || base.isEmpty then path
  else if base.toList.getLast? == some '/' then base ++ path
  else base ++ "/" ++ path

/-- The runs of characters between slashes, empty ones included. -/
def splitSlashes : List Char → List (List Char)
  | [] => [[]]
  | c :: rest =>
    if c == '/' then [] :: splitSlashes rest
    else
      match splitSlashes rest with
      | [] => [[c]]
      | first :: more => (c :: first) :: more

theorem splitSlashes_ne_nil (cs : List Char) : splitSlashes cs ≠ [] := by
  fun_cases splitSlashes cs with
  | _ => simp

theorem splitSlashes_append (cs rest : List Char) :
    splitSlashes (cs ++ '/' :: rest) = splitSlashes cs ++ splitSlashes rest := by
  induction cs with
  | nil => rfl
  | cons c cs ih =>
    rw [List.cons_append, splitSlashes, splitSlashes]
    split
    · rw [ih, List.cons_append]
    · rw [ih]
      cases hsplit : splitSlashes cs with
      | nil => exact absurd hsplit (splitSlashes_ne_nil cs)
      | cons first more => rfl

theorem splitSlashes_of_not_mem {cs : List Char} (h : '/' ∉ cs) : splitSlashes cs = [cs] := by
  induction cs with
  | nil => rfl
  | cons c cs ih =>
    rw [List.mem_cons, not_or] at h
    rw [splitSlashes, if_neg (by simpa using Ne.symm h.1), ih h.2]

/-- The runs of characters between slashes that are not empty. -/
def steps (path : String) : List String :=
  ((splitSlashes path.toList).filter fun s => !s.isEmpty).map String.ofList

/-- The path ends in a slash. -/
def endsInSlash (path : String) : Bool :=
  path.toList.getLast? == some '/'

/-- One step of a path. -/
inductive Component where
  /-- The root. -/
  | root
  /-- A dot at the start. -/
  | current
  /-- Two dots. -/
  | parent
  /-- A name. -/
  | name (text : String)
  deriving Repr, DecidableEq

/-- The components of the steps behind the first one. -/
def innerComponents (steps : List String) : List Component :=
  (steps.filter (· != ".")).map fun s => if s == ".." then .parent else .name s

/-- The components of a path. A dot counts only at the start of a relative path. -/
def components (path : String) : List Component :=
  if isAbsolute path then .root :: innerComponents (steps path)
  else
    match steps path with
    | "." :: rest => .current :: innerComponents rest
    | all => innerComponents all

/-- Two paths are spelt with the same components. -/
def isSame (a b : String) : Bool :=
  components a == components b

/-- The name at the end, if there is one. -/
def fileName? (path : String) : Option String :=
  match (components path).getLast? with
  | some (.name text) => some text
  | _ => none

/-- The name at the end without its extension. A dot in front starts no extension. -/
def fileStem? (path : String) : Option String := do
  let name ← fileName? path
  let chars := name.toList
  if chars.contains '.' then
    let stem := ((chars.reverse.dropWhile (· != '.')).drop 1).reverse
    return if stem.isEmpty then name else String.ofList stem
  else return name

/-- A component as it is written. -/
def Component.text : Component → String
  | .root => "/"
  | .current => "."
  | .parent => ".."
  | .name text => text

/-- The path that components spell. -/
def ofComponents (parts : List Component) : String :=
  parts.foldl (fun path part => join path part.text) ""

/-- The path without its last component, if it has one that is not the root. -/
def parent? (path : String) : Option String :=
  match (components path).reverse with
  | [] | .root :: _ => none
  | _ :: rest => some (ofComponents rest.reverse)

end Runnel.Path
