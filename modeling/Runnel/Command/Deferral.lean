import Runnel.Text.Blank

/-!
# Runnel.Command.Deferral

Which command text is left to a real shell untouched: text with globs, substitutions,
here-documents, redirects of descriptors or a tilde at the start of a word. Nothing counts inside
single quotes, and only substitutions count inside double quotes.
-/

namespace Runnel

/-- Where the reader of `needsRealShell` stands. -/
structure DeferralState where
  /-- Inside single quotes. -/
  inSingle : Bool
  /-- Inside double quotes. -/
  inDouble : Bool
  /-- After a backslash. -/
  escaped : Bool
  /-- At the question mark of `$?`. -/
  skipping : Bool
  /-- Where a word may start. -/
  wordStart : Bool
  deriving Repr, DecidableEq

namespace DeferralState

/-- At the start of the text. -/
def start : DeferralState := ⟨false, false, false, false, true⟩

/-- The character, which stands outside of quotes and before `next`, is left to a real shell. -/
def isDeferred (wordStart : Bool) (c : Char) (next : Option Char) : Bool :=
  c == '*' || c == '?' || c == '[' || (c == '~' && wordStart) ||
    (c == '<' && next == some '<') ||
    ((c == '>' || c == '<') && next == some '&') ||
    (c == '&' && next == some '>') ||
    (c.isDigit && wordStart && (next == some '>' || next == some '<'))

/-- A word may start after this character. -/
def separates (c : Char) : Bool :=
  Text.isBlank c || c == '|' || c == '&' || c == ';' || c == '(' || c == ')' || c == '<' || c == '>'

/-- Reads one character, before which stands `next`; `none` if a real shell is needed. -/
def step (s : DeferralState) (c : Char) (next : Option Char) : Option DeferralState :=
  if s.skipping then some { s with skipping := false }
  else if s.escaped then some { s with escaped := false, wordStart := false }
  else if s.inSingle then some (if c == '\'' then { s with inSingle := false } else s)
  else if c == '\\' then some { s with escaped := true }
  else if c == '\x60' || (c == '$' && (next == some '(' || next == some '\x7b')) then none
  else if c == '$' && next == some '?' then some { s with skipping := true, wordStart := false }
  else if s.inDouble then some (if c == '"' then { s with inDouble := false } else s)
  else if isDeferred s.wordStart c next then none
  else
    some { s with
      inSingle := c == '\''
      inDouble := c == '"'
      wordStart := separates c }

/-- Some character of the text needs a real shell. -/
def defers (s : DeferralState) : List Char → Bool
  | [] => false
  | c :: rest =>
    match s.step c rest.head? with
    | none => true
    | some s' => s'.defers rest

end DeferralState

/-- The text is left to a real shell. -/
def needsRealShell (text : List Char) : Bool :=
  DeferralState.start.defers text

end Runnel
