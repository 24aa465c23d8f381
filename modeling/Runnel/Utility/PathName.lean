import Runnel.Host.Path
import Runnel.Text.Blank
import Runnel.Utility.Handler

/-!
# Runnel.Utility.PathName

The commands that take a path apart as text, without a look at the disk.

* `base`: the last component, perhaps without a suffix.
* `directory`: what stands before the last component.
-/

namespace Runnel.PathName

/-- The character between components. -/
def isSlash (c : Char) : Bool := c == '/'

/-- A path without the slashes at its end. -/
def trimmed (path : List Char) : List Char :=
  Text.dropEndWhile isSlash path

/-- The characters behind the last slash. -/
def lastComponent (path : List Char) : List Char :=
  (path.reverse.takeWhile fun c => !isSlash c).reverse

/-- A name without a suffix, unless nothing else would be left. -/
def withoutSuffix (suffix : Option String) (name : List Char) : List Char :=
  match suffix with
  | none => name
  | some s =>
    if s.toList.isEmpty || name == s.toList then name
    else if s.toList.isSuffixOf name then name.take (name.length - s.toList.length)
    else name

/-- The last component of a path. -/
def base (path : String) (suffix : Option String) : String :=
  let kept := trimmed path.toList
  if kept.isEmpty then if path.isEmpty then "" else "/"
  else String.ofList (withoutSuffix suffix (lastComponent kept))

/-- What stands before the last component of a path. -/
def directory (path : String) : String :=
  let kept := trimmed path.toList
  if kept.isEmpty then if path.toList.head? == some '/' then "/" else "."
  else if !kept.any isSlash then "."
  else
    let parent := trimmed (kept.take (kept.length - (lastComponent kept).length))
    if parent.isEmpty then "/" else String.ofList parent

/-- The command for the last component. -/
def baseHandler : Handler :=
  .pure fun i =>
    match i.args with
    | [] => .failed "missing operand"
    | [path] => .done (.ofText (base path none ++ "\n"))
    | [path, suffix] => .done (.ofText (base path (some suffix) ++ "\n"))
    | _ :: _ :: extra :: _ => .failed ("extra operand '" ++ extra ++ "'")

/-- The command for what stands before the last component. -/
def directoryHandler : Handler :=
  .pure fun i =>
    if i.args.isEmpty then .failed "missing operand"
    else .done (.ofText (String.join (i.args.map fun p => directory p ++ "\n")))

end Runnel.PathName
