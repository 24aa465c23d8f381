import Runnel.Utility.Handler
import Runnel.Text.Blank

/-!
# Runnel.Utility.Echo

The command that prints its arguments. Leading clusters of the letters `n`, `e` and `E` are flags:
`n` drops the newline at the end, `e` interprets backslash escapes, and `E` does not.
-/

namespace Runnel.Echo

/-- What the flags ask for. -/
structure Flags where
  /-- A newline follows the text. -/
  newline : Bool
  /-- Backslash escapes are interpreted. -/
  escapes : Bool
  deriving Repr, DecidableEq

/-- Reads one letter. -/
def Flags.read (f : Flags) (c : Char) : Flags :=
  if c == 'n' then { f with newline := false } else { f with escapes := c == 'e' }

/-- The letters of a cluster of flags. -/
def letters? (arg : String) : Option (List Char) :=
  match arg.toList with
  | '-' :: c :: rest =>
    if (c :: rest).all fun c => c == 'n' || c == 'e' || c == 'E' then some (c :: rest) else none
  | _ => none

/-- Reads clusters of flags up to the first argument that is none. -/
def readFlags (f : Flags) : List String → Flags × List String
  | [] => (f, [])
  | arg :: rest =>
    match letters? arg with
    | some letters => readFlags (letters.foldl Flags.read f) rest
    | none => (f, arg :: rest)

/-- What a letter behind a backslash stands for. -/
def escaped? (c : Char) : Option Char :=
  match c with
  | 'n' => some '\n'
  | 't' => some '\t'
  | 'r' => some '\r'
  | 'a' => some '\x07'
  | 'b' => some '\x08'
  | 'f' => some '\x0c'
  | 'v' => some '\x0b'
  | 'e' => some '\x1b'
  | '\\' => some '\\'
  | _ => none

/-- Text with its escapes interpreted, and whether the escape `c` has stopped it. -/
def interpret : List Char → List Char × Bool
  | [] => ([], false)
  | ['\\'] => (['\\'], false)
  | '\\' :: c :: rest =>
    if c == 'c' then ([], true)
    else
      let (text, stopped) := interpret rest
      match escaped? c with
      | some d => (d :: text, stopped)
      | none => ('\\' :: c :: text, stopped)
  | c :: rest =>
    let (text, stopped) := interpret rest
    (c :: text, stopped)

/-- The text that is printed. -/
def text (args : List String) : String :=
  let (flags, words) := readFlags ⟨true, false⟩ args
  let line := Text.joinWith " " words
  let ending := if flags.newline then "\n" else ""
  if flags.escapes then
    let (interpreted, stopped) := interpret line.toList
    if stopped then String.ofList interpreted else String.ofList interpreted ++ ending
  else line ++ ending

/-- The command. -/
def handler : Handler :=
  .pure fun i => .done (.ofText (text i.args))

end Runnel.Echo
