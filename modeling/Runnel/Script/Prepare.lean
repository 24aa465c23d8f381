import Runnel.Script.Expand
import Runnel.Script.Interpreter

/-!
# Runnel.Script.Prepare

What is expanded before a command is run.
-/

namespace Runnel.Script

/-- A command whose words are expanded. -/
inductive Prepared where
  /-- A simple command. -/
  | command (c : ReadyCommand)
  /-- A command that is run with these redirects. -/
  | redirected (b : Body) (redirects : List ReadyRedirect)
  /-- A loop over values. -/
  | loop (name : String) (values : List String) (body : List Item)
  /-- What was chosen. -/
  | chosen (commands : List Item)

namespace Body

/-- The redirects of a command that has others in it. -/
def redirects : Body → List Redirect
  | .subshell _ rs | .group _ rs | .ifElse _ _ _ rs | .loop _ _ _ rs | .forEach _ _ _ rs
  | .case _ _ rs => rs
  | _ => []

/-- The command without its redirects. -/
def withoutRedirects : Body → Body
  | .subshell b _ => .subshell b []
  | .group b _ => .group b []
  | .ifElse c t e _ => .ifElse c t e []
  | .loop u c b _ => .loop u c b []
  | .forEach n ws b _ => .forEach n ws b []
  | .case w arms _ => .case w arms []
  | b => b

end Body

namespace Expander

/-- Expands a redirect. -/
def redirect : Redirect → Expander ReadyRedirect
  | .mk descriptor kind target => do
    return ⟨descriptor, kind, ← text target⟩

/-- Expands assignments one after the other, so that each sees those before it. -/
def assignments : List (String × List Piece) → Expander (List (String × String))
  | [] => return []
  | (name, word) :: rest => do
    let value ← text word
    let saved := (← get).scope
    assign name value
    let more ← assignments rest
    modify fun s => { s with scope := saved }
    return (name, value) :: more

/-- Some of the patterns match. -/
def matchesAny (subject : List Char) : List (List Piece) → Expander Bool
  | [] => return false
  | word :: rest => do
    if matchesPattern (← wordPattern word) subject then return true
    matchesAny subject rest

/-- The commands of the first arm with a pattern that matches. -/
def choose (subject : List Char) : List (List (List Piece) × List Item) → Expander (List Item)
  | [] => return []
  | (patterns, commands) :: rest => do
    if ← matchesAny subject patterns then return commands
    choose subject rest

/-- Expands the words of a command. Redirects of commands that have others in them come first, and
the command without them is expanded later. -/
def prepare (d : Disk) (cwd : String) (b : Body) : Expander Prepared := do
  match b with
  | .simple _ assigned words redirects =>
    let words ← fields d cwd words
    let redirects ← redirects.mapM redirect
    return .command ⟨← assignments assigned, words, redirects⟩
  | b =>
    if !b.redirects.isEmpty then
      return .redirected b.withoutRedirects (← b.redirects.mapM redirect)
    else
      match b with
      | .forEach name (some words) body _ => return .loop name (← fields d cwd words) body
      | .forEach name none body _ => return .loop name (← get).scope.args body
      | .case word arms _ => return .chosen (← choose (← text word).toList arms)
      | b => return .redirected b []

end Expander

/-- The fields of a line that is read into variables, of which there are at most `count`; the last
one takes what is left. Blanks at both ends are dropped. -/
def readFields (separators : List Char) (count : Nat) (chars : List Marked) : List String :=
  let isSeparator := fun (m : Marked) => !m.2 && separators.contains m.1
  let isBlank := fun (m : Marked) => isSeparator m && Fragment.isBlankSeparator m.1
  let trimEnd := fun (cs : List Marked) => (cs.reverse.dropWhile isBlank).reverse
  match count with
  | 0 => []
  | 1 => [String.ofList (plain (trimEnd (chars.dropWhile isBlank)))]
  | n + 2 =>
    let chars := chars.dropWhile isBlank
    let field := chars.takeWhile fun m => !isSeparator m
    let after := (chars.drop field.length).dropWhile isBlank
    let after := match after with
      | m :: rest => if isSeparator m then rest.dropWhile isBlank else after
      | [] => []
    String.ofList (plain field) :: readFields separators (n + 1) after

/-- The characters of a line, of which a backslash quotes the next one unless the line is raw. -/
def markLine (raw : Bool) : List Char → List Marked
  | '\\' :: c :: rest =>
    if raw then ('\\', false) :: markLine raw (c :: rest) else (c, true) :: markLine raw rest
  | c :: rest => (c, false) :: markLine raw rest
  | [] => []
termination_by cs => cs.length

/-- Reads a line into variables. -/
def Scope.readLine (s : Scope) (raw : Bool) (names : List String) (line : String) : Scope :=
  let values := readFields s.separators names.length (markLine raw line.toList)
  (names.zip values).foldl (fun s (name, value) => s.assign name value) s

end Runnel.Script
