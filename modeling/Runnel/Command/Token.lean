import Runnel.Command.SyntaxError
import Runnel.Command.Word
import Runnel.Text.Ascii

/-!
# Runnel.Command.Token

Command text as tokens: words without their quotes, and operators.

* `Token`: a word, an operator, or the end of the text.
* `Scanner`: where a reader of single characters stands; `Scanner.step` reads one of them and
  `Scanner.finish` is the end of the text.
* `scan`: the tokens of a text, the last one being the end.

A newline separates commands like `;`, but not at the start of the text nor behind an operator that
still needs a command. `#` starts a comment where a word could start.
-/

namespace Runnel

/-- A piece of command text. -/
inductive Token where
  /-- A word. -/
  | word (w : Word)
  /-- `&&` -/
  | and
  /-- `||` -/
  | or
  /-- `;` or a newline. -/
  | semicolon
  /-- `|` -/
  | pipe
  /-- `(` -/
  | openParen
  /-- `)` -/
  | closeParen
  /-- `>` -/
  | redirectOut
  /-- `>>` -/
  | redirectAppend
  /-- `<` -/
  | redirectIn
  /-- The end of the text. -/
  | eof
  deriving Repr, DecidableEq

/-- A token as an error names it. -/
def Token.text : Token → String
  | .word w => w.literal
  | .and => "&&"
  | .or => "||"
  | .semicolon => ";"
  | .pipe => "|"
  | .openParen => "("
  | .closeParen => ")"
  | .redirectOut => ">"
  | .redirectAppend => ">>"
  | .redirectIn => "<"
  | .eof => "end of input"

/-- A newline behind this token separates nothing. -/
def Token.continues : Token → Bool
  | .semicolon | .and | .or | .pipe | .openParen => true
  | _ => false

/-- Characters that end a word and start an operator. -/
def isOperatorChar (c : Char) : Bool :=
  c == '&' || c == '|' || c == ';' || c == '(' || c == ')' || c == '<' || c == '>'

/-- A word that is being read. -/
structure WordDraft where
  /-- The complete segments, last one first. -/
  parts : List Part
  /-- The literal segment at the end, last character first. -/
  current : List Char
  /-- A quote was seen. -/
  quoted : Bool
  /-- Something of the word was seen, if only a pair of quotes. -/
  started : Bool
  deriving Repr, DecidableEq

namespace WordDraft

/-- Nothing was read yet. -/
def empty : WordDraft := ⟨[], [], false, false⟩

/-- A literal character. -/
def push (d : WordDraft) (c : Char) : WordDraft :=
  { d with current := c :: d.current, started := true }

/-- A quote. -/
def enterQuote (d : WordDraft) : WordDraft :=
  { d with quoted := true, started := true }

/-- A line continuation. -/
def touch (d : WordDraft) : WordDraft :=
  { d with started := true }

/-- The complete segments together with the literal one at the end, if it holds anything. -/
def flushed (d : WordDraft) : List Part :=
  if d.current.isEmpty then d.parts else .literal (String.ofList d.current.reverse) :: d.parts

/-- A reference. -/
def pushVariable (d : WordDraft) (name : String) : WordDraft :=
  { d with parts := .variable name :: d.flushed, current := [], started := true }

/-- The word so far is digits without quotes, as before the redirect of a descriptor. -/
def isPlainDigits (d : WordDraft) : Bool :=
  !d.quoted && d.parts.isEmpty && !d.current.isEmpty && d.current.all Char.isDigit

/-- The word, if there is one. -/
def finish (d : WordDraft) : Option Word :=
  if !d.started then none
  else if d.parts.isEmpty && d.current.isEmpty then some ⟨[.literal ""], d.quoted⟩
  else some ⟨d.flushed.reverse, d.quoted⟩

end WordDraft

/-- Where a quote began that surrounds a reference. -/
inductive Surroundings where
  /-- No quotes. -/
  | bare
  /-- Double quotes. -/
  | doubleQuoted
  deriving Repr, DecidableEq

/-- What a reader of command text is in the middle of. -/
inductive ScanMode where
  /-- Between two tokens. -/
  | between
  /-- In a comment. -/
  | comment
  /-- After `&`. -/
  | ampersand
  /-- After `|`. -/
  | bar
  /-- After `>`. -/
  | greater
  /-- After `<`. -/
  | less
  /-- In a word. -/
  | word (d : WordDraft)
  /-- In a word, after a backslash. -/
  | wordEscape (d : WordDraft)
  /-- In single quotes. -/
  | single (d : WordDraft)
  /-- In double quotes. -/
  | double (d : WordDraft)
  /-- In double quotes, after a backslash. -/
  | doubleEscape (d : WordDraft)
  /-- After a dollar sign. -/
  | dollar (s : Surroundings) (d : WordDraft)
  /-- In the name of a variable, whose characters are given last one first. -/
  | name (s : Surroundings) (chars : List Char) (d : WordDraft)
  deriving Repr, DecidableEq

/-- A reader of command text. -/
structure Scanner where
  /-- The tokens read so far, last one first. -/
  tokens : List Token
  /-- What it is in the middle of. -/
  mode : ScanMode
  deriving Repr, DecidableEq

namespace Scanner

/-- Nothing was read yet. -/
def start : Scanner := ⟨[], .between⟩

/-- The tokens with one more. -/
def emit (tokens : List Token) (t : Token) : Scanner :=
  ⟨t :: tokens, .between⟩

/-- The tokens with the word of the draft, if there is one. -/
def emitWord (tokens : List Token) (d : WordDraft) : List Token :=
  match d.finish with
  | some w => .word w :: tokens
  | none => tokens

/-- The tokens after a newline. -/
def newline (tokens : List Token) : List Token :=
  match tokens with
  | [] => []
  | t :: _ => if t.continues then tokens else .semicolon :: tokens

/-- The reader continues in the word or in the quotes. -/
def resume (tokens : List Token) : Surroundings → WordDraft → Scanner
  | .bare, d => ⟨tokens, .word d⟩
  | .doubleQuoted, d => ⟨tokens, .double d⟩

/-- A character of a word that ends it neither as a blank nor as an operator. -/
def wordChar (tokens : List Token) (d : WordDraft) (c : Char) : Except SyntaxError Scanner :=
  if c == '\\' then .ok ⟨tokens, .wordEscape d⟩
  else if c == '\'' then .ok ⟨tokens, .single d.enterQuote⟩
  else if c == '"' then .ok ⟨tokens, .double d.enterQuote⟩
  else if c == '$' then .ok ⟨tokens, .dollar .bare d⟩
  else if c == '\x60' then .error (.unsupported .commandSubstitution)
  else .ok ⟨tokens, .word (d.push c)⟩

/-- A character between two tokens. -/
def betweenChar (tokens : List Token) (c : Char) : Except SyntaxError Scanner :=
  if c == '\n' then .ok ⟨newline tokens, .between⟩
  else if Text.isBlank c then .ok ⟨tokens, .between⟩
  else if c == '#' then .ok ⟨tokens, .comment⟩
  else if c == '&' then .ok ⟨tokens, .ampersand⟩
  else if c == '|' then .ok ⟨tokens, .bar⟩
  else if c == ';' then .ok (emit tokens .semicolon)
  else if c == '(' then .ok (emit tokens .openParen)
  else if c == ')' then .ok (emit tokens .closeParen)
  else if c == '>' then .ok ⟨tokens, .greater⟩
  else if c == '<' then .ok ⟨tokens, .less⟩
  else wordChar tokens .empty c

/-- A character in a word without quotes around it. -/
def bareChar (tokens : List Token) (d : WordDraft) (c : Char) : Except SyntaxError Scanner :=
  if Text.isBlank c then betweenChar (emitWord tokens d) c
  else if isOperatorChar c then
    if (c == '<' || c == '>') && d.isPlainDigits then .error (.unsupported .descriptorRedirection)
    else betweenChar (emitWord tokens d) c
  else wordChar tokens d c

/-- A character in double quotes. -/
def doubleChar (tokens : List Token) (d : WordDraft) (c : Char) : Except SyntaxError Scanner :=
  if c == '"' then .ok ⟨tokens, .word d⟩
  else if c == '\\' then .ok ⟨tokens, .doubleEscape d⟩
  else if c == '$' then .ok ⟨tokens, .dollar .doubleQuoted d⟩
  else if c == '\x60' then .error (.unsupported .commandSubstitution)
  else .ok ⟨tokens, .double (d.push c)⟩

/-- A character in a word or in double quotes. -/
def surroundedChar (tokens : List Token) (s : Surroundings) (d : WordDraft) (c : Char) :
    Except SyntaxError Scanner :=
  match s with
  | .bare => bareChar tokens d c
  | .doubleQuoted => doubleChar tokens d c

/-- Reads one character. -/
def step (s : Scanner) (c : Char) : Except SyntaxError Scanner :=
  match s.mode with
  | .between => betweenChar s.tokens c
  | .comment => if c == '\n' then betweenChar s.tokens c else .ok s
  | .ampersand =>
    if c == '&' then .ok (emit s.tokens .and) else .error (.unsupported .backgroundJob)
  | .bar =>
    if c == '|' then .ok (emit s.tokens .or) else betweenChar (.pipe :: s.tokens) c
  | .greater =>
    if c == '>' then .ok (emit s.tokens .redirectAppend)
    else if c == '&' || c == '|' then .error (.unsupported .descriptorDuplication)
    else betweenChar (.redirectOut :: s.tokens) c
  | .less =>
    if c == '<' then .error (.unsupported .hereDocument)
    else if c == '&' || c == '>' then .error (.unsupported .descriptorDuplication)
    else betweenChar (.redirectIn :: s.tokens) c
  | .word d => bareChar s.tokens d c
  | .wordEscape d =>
    if c == '\n' then .ok ⟨s.tokens, .word d.touch⟩ else .ok ⟨s.tokens, .word (d.push c)⟩
  | .single d =>
    if c == '\'' then .ok ⟨s.tokens, .word d⟩ else .ok ⟨s.tokens, .single (d.push c)⟩
  | .double d => doubleChar s.tokens d c
  | .doubleEscape d =>
    if c == '$' || c == '\x60' || c == '"' || c == '\\' then .ok ⟨s.tokens, .double (d.push c)⟩
    else if c == '\n' then .ok ⟨s.tokens, .double d⟩
    else .ok ⟨s.tokens, .double ((d.push '\\').push c)⟩
  | .dollar around d =>
    if c == '(' then .error (.unsupported .commandSubstitution)
    else if c == '\x7b' then .error (.unsupported .parameterExpansion)
    else if c == '?' then .ok (resume s.tokens around (d.pushVariable "?"))
    else if Text.isNameStart c then .ok ⟨s.tokens, .name around [c] d⟩
    else surroundedChar s.tokens around (d.push '$') c
  | .name around chars d =>
    if Text.isNameChar c then .ok ⟨s.tokens, .name around (c :: chars) d⟩
    else surroundedChar s.tokens around (d.pushVariable (String.ofList chars.reverse)) c

/-- The end of the text inside a word or inside double quotes. -/
def finishSurrounded (tokens : List Token) : Surroundings → WordDraft →
    Except SyntaxError (List Token)
  | .bare, d => .ok (emitWord tokens d)
  | .doubleQuoted, _ => .error (.unterminatedQuote '"')

/-- The tokens, last one first, at the end of the text. -/
def finish (s : Scanner) : Except SyntaxError (List Token) :=
  match s.mode with
  | .between | .comment => .ok s.tokens
  | .ampersand => .error (.unsupported .backgroundJob)
  | .bar => .ok (.pipe :: s.tokens)
  | .greater => .ok (.redirectOut :: s.tokens)
  | .less => .ok (.redirectIn :: s.tokens)
  | .word d => .ok (emitWord s.tokens d)
  | .wordEscape d => .ok (emitWord s.tokens (d.push '\\'))
  | .single _ => .error (.unterminatedQuote '\'')
  | .double _ | .doubleEscape _ => .error (.unterminatedQuote '"')
  | .dollar around d => finishSurrounded s.tokens around (d.push '$')
  | .name around chars d =>
    finishSurrounded s.tokens around (d.pushVariable (String.ofList chars.reverse))

/-- Reads characters one after the other. -/
def run (s : Scanner) : List Char → Except SyntaxError Scanner
  | [] => .ok s
  | c :: rest =>
    match s.step c with
    | .error e => .error e
    | .ok s' => s'.run rest

end Scanner

/-- The tokens of command text, the last one being the end. -/
def scan (text : List Char) : Except SyntaxError (List Token) :=
  match Scanner.start.run text with
  | .error e => .error e
  | .ok s =>
    match s.finish with
    | .error e => .error e
    | .ok tokens => .ok (tokens.reverse ++ [.eof])

end Runnel
