import Runnel.Script.Syntax
import Runnel.Text.Ascii

/-!
# Runnel.Script.Parse

Reads scripts of the system shell. A script is read line by line, so that what comes before a faulty
line is still run; a command that goes on in further lines is read as a whole.

All recursion is bounded by a number that is larger than any text needs.
-/

namespace Runnel.Script

/-- Why a script cannot be read on. -/
structure Fault where
  /-- The line. -/
  line : Nat
  /-- What is wrong. -/
  message : String
  deriving Repr, DecidableEq

/-- A step of reading: it goes on in the text, or fails. -/
abbrev Reader (α : Type) : Type := StateT ScriptSource (Except Fault) α

/-! ## Characters -/

/-- Fails at the line where the reader is. -/
def fail {α : Type} (message : String) : Reader α := do
  throw ⟨(← get).line, message⟩

/-- What has not been read. -/
def rest : Reader (List Char) := do
  return (← get).chars

/-- Goes on behind some characters. -/
def skip (n : Nat) : Reader Unit :=
  modify fun s =>
    ⟨s.chars.drop n, s.line + (s.chars.take n).count '\n'⟩

/-- A character that ends a bare word. -/
def isDelimiter (c : Char) : Bool :=
  [' ', '\t', '\n', ';', '&', '|', '<', '>', '(', ')'].contains c

/-- How many characters blanks, comments and continuations take at the front; `start` tells whether
a comment may begin. -/
def blankLength (start : Bool) : List Char → Nat
  | ' ' :: cs | '\t' :: cs => blankLength true cs + 1
  | '\\' :: '\n' :: cs => blankLength start cs + 2
  | '#' :: cs => if start then (cs.takeWhile (· != '\n')).length + 1 else 0
  | _ => 0

/-- Goes on behind blanks. -/
def skipBlanks : Reader Unit := do
  skip (blankLength true (← rest))

/-- Goes on behind blanks and newlines, of which there are at most so many. -/
def skipLines : Nat → Reader Unit
  | 0 => pure ()
  | n + 1 => do
    skipBlanks
    if (← rest).head? == some '\n' then
      skip 1
      skipLines n

/-- The text is next. -/
def isNext (text : String) : Reader Bool := do
  return text.toList.isPrefixOf (← rest)

/-- The characters of a bare word that is next, if it has no quotes or expansions. -/
def nextWord : Reader String := do
  return String.ofList ((← rest).takeWhile fun c => !isDelimiter c)

/-- The word is next. -/
def isNextWord (word : String) : Reader Bool := do
  return (← nextWord) == word

/-! ## Faults -/

/-- Words with a meaning of their own. -/
def reservedWords : List String :=
  ["!", "case", "do", "done", "elif", "else", "esac", "fi", "for", "if", "in", "then", "until",
    "while", "\x7b", "\x7d"]

/-- Words that end a list of commands. -/
def endingWords : List String :=
  ["do", "done", "elif", "else", "esac", "fi", "then", "\x7d"]

/-- Operators, the longest first. -/
def operators : List String :=
  ["&&", "||", ";;", "<<", ">>", "<&", ">&", ";", "&", "|", "(", ")", "<", ">"]

/-- The name of what is next. -/
def nextName : Reader String := do
  skipBlanks
  match ← rest with
  | [] => return "end of file"
  | '\n' :: _ => return "newline"
  | cs =>
    match operators.find? fun op => op.toList.isPrefixOf cs with
    | some op => return "\"" ++ op ++ "\""
    | none =>
      let word ← nextWord
      return if reservedWords.contains word then "\"" ++ word ++ "\"" else "word"

/-- What is next should not be there. -/
def unexpected {α : Type} (expected : Option String) : Reader α := do
  let name ← nextName
  let more := match expected with
    | some e => " (expecting \"" ++ e ++ "\")"
    | none => ""
  fail ("Syntax error: " ++ name ++ " unexpected" ++ more)

/-- Goes on behind a word that has to be next. -/
def expectWord (word : String) : Reader Unit := do
  skipBlanks
  if ← isNextWord word then skip word.length else unexpected (some word)

/-- Goes on behind an operator that has to be next. -/
def expectOperator (op : String) : Reader Unit := do
  skipBlanks
  if ← isNext op then skip op.length else unexpected (some op)

/-! ## Words -/

/-- Where a word ends and what means something in it. -/
inductive WordMode where
  /-- At a delimiter. -/
  | bare
  /-- At a double quote. -/
  | quoted
  /-- At a closing brace. -/
  | braced (quoted : Bool)
  /-- At the end of the text. -/
  | here
  deriving Repr, DecidableEq

/-- Characters are not split in this mode. -/
def WordMode.isQuoted : WordMode → Bool
  | bare => false
  | quoted | here => true
  | braced q => q

/-- Adds a character to pieces in reverse order. -/
def pushChar (pieces : List Piece) (c : Char) (quoted : Bool) : List Piece :=
  match pieces with
  | .text chars q :: rest =>
    if q = quoted then .text (chars ++ [c]) q :: rest else .text [c] quoted :: pieces
  | _ => .text [c] quoted :: pieces

/-- Adds text to pieces in reverse order, also if there is none. -/
def pushText (pieces : List Piece) (text : List Char) : List Piece :=
  .text text true :: pieces

/-- The text of an expression up to its two closing parentheses, if they are there. -/
def expressionText : Nat → List Char → Option (List Char)
  | 0, ')' :: ')' :: _ => some []
  | depth, '(' :: cs => (expressionText (depth + 1) cs).map ('(' :: ·)
  | depth + 1, ')' :: cs => (expressionText depth cs).map (')' :: ·)
  | depth, c :: cs => if c == ')' then none else (expressionText depth cs).map (c :: ·)
  | _, [] => none

/-- The text up to a backquote, without escapes, and how long it was. -/
def backquoted : List Char → Option (List Char × Nat)
  | [] => none
  | '\x60' :: _ => some ([], 1)
  | '\\' :: c :: cs =>
    (backquoted cs).map fun (text, n) =>
      (if c == '$' || c == '\x60' || c == '\\' then c :: text else '\\' :: c :: text, n + 2)
  | c :: cs => (backquoted cs).map fun (text, n) => (c :: text, n + 1)

/-- The name of a parameter at the front: an identifier, a digit or a special character. -/
def parameterName (cs : List Char) (long : Bool) : String :=
  match cs with
  | c :: _ =>
    if Text.isNameStart c then String.ofList (cs.takeWhile Text.isNameChar)
    else if c.isDigit then
      if long then String.ofList (cs.takeWhile Char.isDigit) else String.singleton c
    else if ['@', '*', '#', '?', '-', '$', '!'].contains c then String.singleton c
    else ""
  | [] => ""

/-- The adjustment that is next, whether it treats an empty value like none, and its length. -/
def adjustment? : List Char → Option (Adjustment × Bool × Nat)
  | ':' :: '-' :: _ => some (.default, true, 2)
  | ':' :: '=' :: _ => some (.assign, true, 2)
  | ':' :: '?' :: _ => some (.demand, true, 2)
  | ':' :: '+' :: _ => some (.alternate, true, 2)
  | '-' :: _ => some (.default, false, 1)
  | '=' :: _ => some (.assign, false, 1)
  | '?' :: _ => some (.demand, false, 1)
  | '+' :: _ => some (.alternate, false, 1)
  | '#' :: '#' :: _ => some (.cutFront true, false, 2)
  | '#' :: _ => some (.cutFront false, false, 1)
  | '%' :: '%' :: _ => some (.cutEnd true, false, 2)
  | '%' :: _ => some (.cutEnd false, false, 1)
  | _ => none

/-- The lines of text that follows a command, up to the delimiter, and how much text they take. -/
def hereLines (delimiter : List Char) (tabs : Bool) : Nat → List Char → List Char × Nat
  | 0, _ => ([], 0)
  | n + 1, cs =>
    if cs.isEmpty then ([], 0)
    else
      let line := cs.takeWhile (· != '\n')
      let more := cs.drop (line.length + 1)
      let taken := min cs.length (line.length + 1)
      let kept := if tabs then line.dropWhile (· == '\t') else line
      if kept == delimiter then ([], taken)
      else
        let (text, length) := hereLines delimiter tabs n more
        (kept ++ '\n' :: text, taken + length)

/-- Takes the text that follows the current line out of what is to be read. -/
def takeHere (delimiter : List Char) (tabs : Bool) : Reader (List Char) := do
  let s ← get
  let line := s.chars.takeWhile (· != '\n')
  let after := s.chars.drop (line.length + 1)
  let (text, length) := hereLines delimiter tabs (after.length + 1) after
  set ({ s with chars := line ++ '\n' :: after.drop length } : ScriptSource)
  return text

/-- The text of pieces without expansions. -/
def plainText (pieces : List Piece) : List Char :=
  pieces.flatMap fun p =>
    match p with
    | .text chars _ => chars
    | _ => []

/-- A piece is quoted. -/
def hasQuotes (pieces : List Piece) : Bool :=
  pieces.any fun p =>
    match p with
    | .text _ q => q
    | _ => false

/-- The name and the value of a word that assigns. -/
def assignment? : List Piece → Option (String × List Piece)
  | .text chars false :: more =>
    let name := chars.takeWhile (· != '=')
    if name.length < chars.length && Text.isIdentifier name then
      let value := chars.drop (name.length + 1)
      some (String.ofList name, if value.isEmpty then more else .text value false :: more)
    else none
  | _ => none

/-- The redirect operator that is next, the descriptor before it, and how much text they take. -/
def redirectOperator? (cs : List Char) : Option (Option Nat × String × Nat) :=
  let digits := cs.takeWhile Char.isDigit
  let descriptor :=
    if digits.isEmpty then none
    else some (digits.foldl (fun n c => n * 10 + (c.toNat - '0'.toNat)) 0)
  (["<<-", "<<", ">>", "<&", ">&", ">|", "<>", "<", ">"].find? fun op =>
    op.toList.isPrefixOf (cs.drop digits.length)).map fun op =>
      (descriptor, op, digits.length + op.length)

mutual

/-- Reads pieces up to the end of a word; those that were read before come in reverse order. -/
def readPieces : Nat → WordMode → List Piece → Reader (List Piece)
  | 0, _, _ => fail "Syntax error: word too long"
  | n + 1, mode, pieces => do
    let q := mode.isQuoted
    match ← rest with
    | [] =>
      match mode with
      | .bare | .here => return pieces.reverse
      | .quoted => fail "Syntax error: Unterminated quoted string"
      | .braced _ => fail "Syntax error: Missing '\x7d'"
    | '\\' :: '\n' :: _ =>
      skip 2
      readPieces n mode pieces
    | '\\' :: c :: _ =>
      if !q || c == '$' || c == '\x60' || c == '\\' || (c == '"' && mode != .here) ||
          (c == '\x7d' && mode == .braced true) then
        skip 2
        readPieces n mode (pushChar pieces c true)
      else
        skip 1
        readPieces n mode (pushChar pieces '\\' true)
    | '$' :: _ =>
      skip 1
      let piece ← readDollar n q
      match piece with
      | some p => readPieces n mode (p :: pieces)
      | none => readPieces n mode (pushChar pieces '$' q)
    | '\x60' :: cs =>
      match backquoted cs with
      | none => fail "Syntax error: EOF in backquote substitution"
      | some (text, length) =>
        skip (length + 1)
        let line := (← get).line
        match (readItems n [] false).run ⟨text, line⟩ with
        | .ok (body, _) => readPieces n mode (.command body q :: pieces)
        | .error e => throw e
    | c :: cs =>
      if c == '"' && mode == .quoted then
        skip 1
        return pieces.reverse
      else if c == '\x7d' && (mode == .braced true || mode == .braced false) then
        skip 1
        return pieces.reverse
      else if c == '\'' && !q then
        let text := cs.takeWhile (· != '\'')
        if text.length = cs.length then fail "Syntax error: Unterminated quoted string"
        else
          skip (text.length + 2)
          readPieces n mode (pushText pieces text)
      else if c == '"' && mode != .here && mode != .quoted then
        skip 1
        let inner ← readPieces n .quoted []
        readPieces n mode
          (if inner.isEmpty then pushText pieces [] else inner.reverse ++ pieces)
      else if mode == .bare && isDelimiter c then return pieces.reverse
      else if c == '~' && mode == .bare && pieces.isEmpty &&
          (match cs with
            | [] => true
            | d :: _ => d == '/' || isDelimiter d) then
        skip 1
        readPieces n mode [.home]
      else
        skip 1
        readPieces n mode (pushChar pieces c q)

/-- Reads what follows a dollar sign; `none` if it stands for itself. -/
def readDollar : Nat → Bool → Reader (Option Piece)
  | 0, _ => fail "Syntax error: word too long"
  | n + 1, q => do
    match ← rest with
    | '(' :: '(' :: cs =>
      match expressionText 0 cs with
      | some text =>
        skip (text.length + 4)
        match (readPieces n .here []).run ⟨text, (← get).line⟩ with
        | .ok (word, _) => return some (.arithmetic word q)
        | .error e => throw e
      | none => return some (← readSubstitution n q)
    | '(' :: _ => return some (← readSubstitution n q)
    | '\x7b' :: '#' :: cs =>
      if cs.head? == some '\x7d' then
        skip 3
        return some (.parameter "#" .plain false [] q)
      else
        let name := parameterName cs true
        if name.isEmpty || (cs.drop name.length).head? != some '\x7d' then
          fail "Bad substitution"
        else
          skip (name.length + 3)
          return some (.parameter name .length false [] q)
    | '\x7b' :: cs =>
      let name := parameterName cs true
      let after := cs.drop name.length
      if name.isEmpty then fail "Bad substitution"
      else if after.head? == some '\x7d' then
        skip (name.length + 2)
        return some (.parameter name .plain false [] q)
      else
        match adjustment? after with
        | none => fail "Bad substitution"
        | some (adjustment, orEmpty, length) =>
          skip (name.length + length + 1)
          let word ← readPieces n (.braced q) []
          return some (.parameter name adjustment orEmpty word q)
    | cs =>
      let name := parameterName cs false
      if name.isEmpty then return none
      else
        skip name.length
        return some (.parameter name .plain false [] q)

/-- Reads commands in parentheses. -/
def readSubstitution : Nat → Bool → Reader Piece
  | 0, _ => fail "Syntax error: word too long"
  | n + 1, q => do
    skip 1
    let body ← readItems n [] false
    expectOperator ")"
    return .command body q

/-- Reads a word that has to be next. -/
def readWord : Nat → Reader (List Piece)
  | 0 => fail "Syntax error: word too long"
  | n + 1 => do
    skipBlanks
    match ← rest with
    | [] => unexpected none
    | c :: _ => if isDelimiter c then unexpected none else readPieces n .bare []

/-- Reads a redirect that is next. -/
def readRedirect : Nat → Option Nat → String → Reader Redirect
  | 0, _, _ => fail "Syntax error: word too long"
  | n + 1, descriptor, op => do
    let target ← readWord n
    match op with
    | "<<" | "<<-" =>
      let text ← takeHere (plainText target) (op == "<<-")
      if hasQuotes target then return .mk (descriptor.getD 0) .here [.text text true]
      else
        match (readPieces n .here []).run ⟨text, (← get).line⟩ with
        | .ok (word, _) => return .mk (descriptor.getD 0) .here word
        | .error e => throw e
    | "<" | "<>" => return .mk (descriptor.getD 0) .read target
    | "<&" => return .mk (descriptor.getD 0) .duplicate target
    | ">&" => return .mk (descriptor.getD 1) .duplicate target
    | ">>" => return .mk (descriptor.getD 1) .append target
    | _ => return .mk (descriptor.getD 1) .write target

/-- Reads redirects as long as one is next. -/
def readRedirects : Nat → List Redirect → Reader (List Redirect)
  | 0, _ => fail "Syntax error: too many redirects"
  | n + 1, redirects => do
    skipBlanks
    match redirectOperator? (← rest) with
    | some (descriptor, op, length) =>
      skip length
      let r ← readRedirect n descriptor op
      readRedirects n (redirects ++ [r])
    | none => return redirects

/-- Reads assignments, words and redirects. -/
def readSimple : Nat → Nat → List (String × List Piece) → List (List Piece) → List Redirect →
    Reader Body
  | 0, _, _, _, _ => fail "Syntax error: command too long"
  | n + 1, line, assignments, words, redirects => do
    skipBlanks
    let cs ← rest
    match redirectOperator? cs with
    | some (descriptor, op, length) =>
      skip length
      let r ← readRedirect n descriptor op
      readSimple n line assignments words (redirects ++ [r])
    | none =>
      match cs with
      | [] => return .simple line assignments words redirects
      | c :: _ =>
        if c == '(' && words.length = 1 && assignments.isEmpty && redirects.isEmpty then
          skip 1
          expectOperator ")"
          skipLines n
          let body ← readCommand n
          match words.head?.bind bareText? with
          | some name => return .function name body
          | none => fail "Syntax error: Bad function name"
        else if isDelimiter c then
          if words.isEmpty && assignments.isEmpty && redirects.isEmpty then unexpected none
          else return .simple line assignments words redirects
        else
          let word ← readPieces n .bare []
          match if words.isEmpty then assignment? word else none with
          | some a => readSimple n line (assignments ++ [a]) words redirects
          | none => readSimple n line assignments (words ++ [word]) redirects

/-- Reads the words of a loop up to the end of its line. -/
def readWords : Nat → List (List Piece) → Reader (List (List Piece))
  | 0, _ => fail "Syntax error: too many words"
  | n + 1, words => do
    skipBlanks
    match ← rest with
    | [] => return words
    | c :: _ =>
      if isDelimiter c then return words
      else
        let word ← readPieces n .bare []
        readWords n (words ++ [word])

/-- Reads the patterns of an arm. -/
def readPatterns : Nat → List (List Piece) → Reader (List (List Piece))
  | 0, _ => fail "Syntax error: too many patterns"
  | n + 1, patterns => do
    let word ← readWord n
    skipBlanks
    if ← isNext "|" then
      skip 1
      readPatterns n (patterns ++ [word])
    else
      expectOperator ")"
      return patterns ++ [word]

/-- Reads the arms of a choice. -/
def readArms : Nat → List (List (List Piece) × List Item) →
    Reader (List (List (List Piece) × List Item))
  | 0, _ => fail "Syntax error: too many patterns"
  | n + 1, arms => do
    skipLines n
    if ← isNextWord "esac" then
      skip 4
      return arms
    else
      if ← isNext "(" then skip 1
      let patterns ← readPatterns n []
      let body ← readItems n [] false
      skipBlanks
      if ← isNext ";;" then
        skip 2
        readArms n (arms ++ [(patterns, body)])
      else
        expectWord "esac"
        return arms ++ [(patterns, body)]

/-- Reads the rest of a choice behind its condition. -/
def readChoice : Nat → Reader (List Item × List Item × List Item)
  | 0 => fail "Syntax error: command too long"
  | n + 1 => do
    let condition ← readItems n [] false
    expectWord "then"
    let thenPart ← readItems n [] false
    skipBlanks
    if ← isNextWord "elif" then
      skip 4
      let (c, t, e) ← readChoice n
      return (condition, thenPart, [.mk (.ifElse c t e []) false])
    else if ← isNextWord "else" then
      skip 4
      let elsePart ← readItems n [] false
      expectWord "fi"
      return (condition, thenPart, elsePart)
    else
      expectWord "fi"
      return (condition, thenPart, [])

/-- Reads the body of a loop. -/
def readLoopBody : Nat → Reader (List Item)
  | 0 => fail "Syntax error: command too long"
  | n + 1 => do
    expectWord "do"
    let body ← readItems n [] false
    expectWord "done"
    return body

/-- Reads a command. -/
def readCommand : Nat → Reader Body
  | 0 => fail "Syntax error: command too long"
  | n + 1 => do
    skipBlanks
    let line := (← get).line
    if ← isNext "(" then
      skip 1
      let body ← readItems n [] false
      expectOperator ")"
      return .subshell body (← readRedirects n [])
    let word ← nextWord
    match word with
    | "\x7b" =>
      skip 1
      let body ← readItems n [] false
      expectWord "\x7d"
      return .group body (← readRedirects n [])
    | "if" =>
      skip 2
      let (c, t, e) ← readChoice n
      return .ifElse c t e (← readRedirects n [])
    | "while" | "until" =>
      skip 5
      let condition ← readItems n [] false
      let body ← readLoopBody n
      return .loop (word == "until") condition body (← readRedirects n [])
    | "for" =>
      skip 3
      skipBlanks
      let name ← nextWord
      if !Text.isIdentifier name.toList then fail "Syntax error: Bad for loop variable"
      skip name.length
      skipLines n
      let words ← if ← isNextWord "in" then
          skip 2
          let words ← readWords n []
          pure (some words)
        else pure none
      skipBlanks
      if ← isNext ";" then skip 1
      skipLines n
      let body ← readLoopBody n
      return .forEach name words body (← readRedirects n [])
    | "case" =>
      skip 4
      let subject ← readWord n
      skipLines n
      expectWord "in"
      let arms ← readArms n []
      return .case subject arms (← readRedirects n [])
    | word =>
      if endingWords.contains word then unexpected none else readSimple n line [] [] []

/-- Reads the further stages of a pipeline. -/
def readStages : Nat → List Body → Reader (List Body)
  | 0, _ => fail "Syntax error: command too long"
  | n + 1, stages => do
    skipBlanks
    if (← isNext "|") && !(← isNext "||") then
      skip 1
      skipLines n
      let c ← readCommand n
      readStages n (stages ++ [c])
    else return stages

/-- Reads a pipeline. -/
def readPipeline : Nat → Reader Body
  | 0 => fail "Syntax error: command too long"
  | n + 1 => do
    skipBlanks
    let negated ← isNextWord "!"
    if negated then skip 1
    let first ← readCommand n
    match ← readStages n [first] with
    | [only] => return if negated then .pipeline true [only] else only
    | stages => return .pipeline negated stages

/-- Reads the further members of a list that depends on success and failure. -/
def readMembers : Nat → List (Bool × Body) → Reader (List (Bool × Body))
  | 0, _ => fail "Syntax error: command too long"
  | n + 1, members => do
    skipBlanks
    let both ← isNext "&&"
    if both || (← isNext "||") then
      skip 2
      skipLines n
      let c ← readPipeline n
      readMembers n (members ++ [(both, c)])
    else return members

/-- Reads commands up to something that ends them. With `oneLine` the end of a line does. -/
def readItems : Nat → List Item → Bool → Reader (List Item)
  | 0, _, _ => fail "Syntax error: script too long"
  | n + 1, items, oneLine => do
    if oneLine then skipBlanks else skipLines n
    match ← rest with
    | [] => return items
    | cs =>
      if endingWords.contains (← nextWord) || cs.head? == some ')' || cs.head? == some '\n' ||
          (← isNext ";;") then return items
      else
        let first ← readPipeline n
        let members ← readMembers n []
        let body := if members.isEmpty then first else .andOr first members
        skipBlanks
        match ← rest with
        | ';' :: ';' :: _ => return items ++ [.mk body false]
        | ';' :: _ =>
          skip 1
          readItems n (items ++ [.mk body false]) oneLine
        | '&' :: _ =>
          skip 1
          readItems n (items ++ [.mk body true]) oneLine
        | '\n' :: _ =>
          if oneLine then return items ++ [.mk body false]
          else readItems n (items ++ [.mk body false]) oneLine
        | _ => return items ++ [.mk body false]

end

/-- The bound on the recursion over a text. -/
def bound (chars : List Char) : Nat :=
  8 * chars.length + 64

/-- Reads the commands of the next line; there are none at the end of the script. -/
def readLine (source : ScriptSource) : Except Fault (Option (List Item) × ScriptSource) :=
  let n := bound source.chars
  let reader : Reader (Option (List Item)) := do
    skipLines n
    if (← rest).isEmpty then return none
    let items ← readItems n [] true
    skipBlanks
    match ← rest with
    | [] | '\n' :: _ => return some items
    | _ => unexpected none
  reader.run source

end Runnel.Script
