import Runnel.Number.Decimal
import Runnel.Number.Integer
import Runnel.Text.Ascii

/-!
# Runnel.Config.Toml

Documents of the configuration language TOML 1.1.

* `Toml`: a value. Numbers with a fraction and dates are kept as they are written.
* `Toml.read?`: the table of a document, `none` if the document is malformed.

Tables remember how they came to be, since that decides what may still be added to them: a header
may open a table that only other headers' paths have named, and a dotted key may extend a table that
no header has opened.
-/

namespace Runnel

/-- How a table came to be. -/
inductive TableOrigin where
  /-- By its own header. -/
  | header
  /-- On the path of another header. -/
  | path
  /-- By a dotted key. -/
  | dotted
  /-- By braces. -/
  | inline
  deriving Repr, DecidableEq

/-- A value of a TOML document. -/
inductive Toml where
  /-- Text. -/
  | string (text : String)
  /-- A truth value. -/
  | boolean (value : Bool)
  /-- A whole number. -/
  | integer (value : Int)
  /-- Any other number, as written. -/
  | float (text : String)
  /-- A date, a time or both, as written. -/
  | datetime (text : String)
  /-- A list; its last table can be extended if it was made by headers. -/
  | array (byHeaders : Bool) (values : List Toml)
  /-- Values by name, in the order of the document. -/
  | table (origin : TableOrigin) (entries : List (String × Toml))

namespace Toml

/-- The entries of a table. -/
abbrev Entries : Type := List (String × Toml)

/-! ## Tables -/

/-- Replaces the value of a key. -/
def replace (key : String) (value : Toml) (entries : Entries) : Entries :=
  entries.map fun e => if e.1 == key then (key, value) else e

/-- Adds a key, which must be new. -/
def add? (key : String) (value : Toml) (entries : Entries) : Option Entries :=
  if (entries.lookup key).isSome then none else some (entries ++ [(key, value)])

/-- Changes the table at a path. New tables on the way get the origin `fresh`, and existing ones
must have an origin that `passes`; of a list made by headers the last table is meant. -/
def alter? (fresh : TableOrigin) (passes : TableOrigin → Bool)
    (change : TableOrigin → Entries → Option Entries) :
    List String → TableOrigin → Entries → Option Entries
  | [], origin, entries => change origin entries
  | key :: path, _, entries =>
    match entries.lookup key with
    | none => do
      let inner ← alter? fresh passes change path fresh []
      return entries ++ [(key, .table fresh inner)]
    | some (.table origin inner) => do
      guard (passes origin)
      let inner ← alter? fresh passes change path origin inner
      return replace key (.table origin inner) entries
    | some (.array true values) =>
      match values.reverse with
      | .table origin inner :: before => do
        let inner ← alter? fresh passes change path origin inner
        return replace key (.array true (before.reverse ++ [.table origin inner])) entries
      | _ => none
    | some _ => none

/-- Changes the table that a header's path names. -/
def alterAtHeader? (path : List String) (change : TableOrigin → Entries → Option Entries)
    (document : Entries) : Option Entries :=
  alter? .path (· != .inline) change path .header document

/-- Adds a value under a dotted key to the entries of a table of this origin. -/
def addDotted? (path : List String) (key : String) (value : Toml) (origin : TableOrigin)
    (entries : Entries) : Option Entries :=
  alter? .dotted (fun o => o == .path || o == .dotted)
    (fun o inner => if (o == .dotted) == path.isEmpty then none else add? key value inner)
    path origin entries

/-- Opens the table of a header. -/
def openTable? (path : List String) (key : String) (document : Entries) : Option Entries :=
  alterAtHeader? path (fun _ entries =>
    match entries.lookup key with
    | none => some (entries ++ [(key, .table .header [])])
    | some (.table .path inner) => some (replace key (.table .header inner) entries)
    | some _ => none) document

/-- Opens a new last table of the list of a header in double brackets. -/
def openElement? (path : List String) (key : String) (document : Entries) : Option Entries :=
  alterAtHeader? path (fun _ entries =>
    match entries.lookup key with
    | none => some (entries ++ [(key, .array true [.table .header []])])
    | some (.array true values) =>
      some (replace key (.array true (values ++ [.table .header []])) entries)
    | some _ => none) document

/-! ## Blanks and comments -/

/-- Drops spaces and tabs. -/
def skipBlanks (text : List Char) : List Char :=
  text.dropWhile fun c => c == ' ' || c == '\t'

/-- Text behind a line end in front of it. -/
def newline? : List Char → Option (List Char)
  | '\n' :: rest => some rest
  | '\r' :: '\n' :: rest => some rest
  | _ => none

/-- Characters that may stand in strings and comments. -/
def isPrintable (c : Char) : Bool :=
  c == '\t' || (' ' ≤ c && c != '\x7f')

/-- Drops a comment, if there is one. -/
def skipComment : List Char → List Char
  | '#' :: rest => rest.dropWhile isPrintable
  | text => text

/-- Drops blanks, comments and line ends; the number bounds the lines. -/
def skipLines : Nat → List Char → List Char
  | 0, text => text
  | n + 1, text =>
    let text := skipComment (skipBlanks text)
    match newline? text with
    | some rest => skipLines n rest
    | none => text

/-- Drops blanks, comments and line ends. -/
def skipAll (text : List Char) : List Char :=
  skipLines (text.length + 1) text

/-- The end of a line, or of the text. -/
def lineEnd? (text : List Char) : Option (List Char) :=
  match skipComment (skipBlanks text) with
  | [] => some []
  | rest => newline? rest

/-! ## Strings -/

/-- The character that hexadecimal digits stand for. -/
def scalar? (digits : List Char) : Option Char := do
  let values ← digits.mapM Text.hexValue?
  let n := values.foldl (fun acc v => 16 * acc + v) 0
  if n.isValidChar then some (Char.ofNat n) else none

/-- The character of an escape sequence behind its backslash. -/
def escape? : List Char → Option (Char × List Char)
  | 'b' :: rest => some ('\x08', rest)
  | 't' :: rest => some ('\t', rest)
  | 'n' :: rest => some ('\n', rest)
  | 'f' :: rest => some ('\x0c', rest)
  | 'r' :: rest => some ('\r', rest)
  | 'e' :: rest => some ('\x1b', rest)
  | '"' :: rest => some ('"', rest)
  | '\\' :: rest => some ('\\', rest)
  | 'x' :: rest => digits 2 rest
  | 'u' :: rest => digits 4 rest
  | 'U' :: rest => digits 8 rest
  | _ => none
where
  /-- The character of so many digits. -/
  digits (n : Nat) (rest : List Char) : Option (Char × List Char) := do
    guard (n ≤ rest.length)
    let c ← scalar? (rest.take n)
    return (c, rest.drop n)

/-- The rest of a string on one line; the number bounds its length. -/
def lineString? (mark : Char) : Nat → List Char → Option (List Char × List Char)
  | 0, _ | _ + 1, [] => none
  | n + 1, c :: rest =>
    if c == mark then some ([], rest)
    else if c == '\\' && mark == '"' then do
      let (d, rest) ← escape? rest
      let (text, rest) ← lineString? mark n rest
      return (d :: text, rest)
    else if isPrintable c then do
      let (text, rest) ← lineString? mark n rest
      return (c :: text, rest)
    else none

/-- Text behind a backslash at the end of a line and the blanks and lines that it swallows. -/
def lineContinuation? (text : List Char) : Option (List Char) := do
  let rest ← newline? (skipBlanks text)
  return rest.dropWhile fun c => c == ' ' || c == '\t' || c == '\n' || c == '\r'

/-- The rest of a string over several lines; the number bounds its length. Up to two marks may stand
before the three that end it. -/
def blockString? (mark : Char) : Nat → List Char → Option (List Char × List Char)
  | 0, _ | _ + 1, [] => none
  | n + 1, c :: rest =>
    if c == mark then
      let marks := 1 + (rest.takeWhile (· == mark)).length
      if marks < 3 then do
        let (text, rest) ← blockString? mark n rest
        return (c :: text, rest)
      else
        let extra := min (marks - 3) 2
        some (List.replicate extra mark, rest.drop (extra + 2))
    else if c == '\\' && mark == '"' then
      match lineContinuation? rest with
      | some rest => blockString? mark n rest
      | none => do
        let (d, rest) ← escape? rest
        let (text, rest) ← blockString? mark n rest
        return (d :: text, rest)
    else if isPrintable c || c == '\n' || (c == '\r' && rest.head? == some '\n') then do
      let (text, rest) ← blockString? mark n rest
      return (c :: text, rest)
    else none

/-- A string. -/
def string? (text : List Char) : Option (String × List Char) :=
  match text with
  | '"' :: '"' :: '"' :: rest => block '"' rest
  | '\'' :: '\'' :: '\'' :: rest => block '\'' rest
  | '"' :: rest => line '"' rest
  | '\'' :: rest => line '\'' rest
  | _ => none
where
  /-- A string over several lines; a line end in front does not count. -/
  block (mark : Char) (rest : List Char) : Option (String × List Char) := do
    let rest := (newline? rest).getD rest
    let (text, rest) ← blockString? mark (rest.length + 1) rest
    return (String.ofList text, rest)
  /-- A string on one line. -/
  line (mark : Char) (rest : List Char) : Option (String × List Char) := do
    let (text, rest) ← lineString? mark (rest.length + 1) rest
    return (String.ofList text, rest)

/-! ## Numbers and dates -/

/-- Digits of a base, with single underscores between them. -/
def areDigits (isDigit : Char → Bool) : List Char → Bool
  | [] => false
  | [c] => isDigit c
  | c :: '_' :: rest => isDigit c && areDigits isDigit rest
  | c :: rest => isDigit c && areDigits isDigit rest

/-- The number that digits stand for. -/
def digitsValue (base : Nat) (digits : List Char) : Nat :=
  digits.foldl (fun acc c => base * acc + (Text.hexValue? c).getD 0) 0

/-- The digits of a number that is not in a base of its own. -/
def isWhole (digits : List Char) : Bool :=
  areDigits Char.isDigit digits && (digits.length == 1 || digits.head? != some '0')

/-- A whole number; 128 bits hold it. -/
def integer? (text : List Char) : Option Int :=
  match text with
  | '0' :: 'x' :: digits => based 16 (fun c => (Text.hexValue? c).isSome) digits
  | '0' :: 'o' :: digits => based 8 (fun c => '0' ≤ c && c ≤ '7') digits
  | '0' :: 'b' :: digits => based 2 (fun c => c == '0' || c == '1') digits
  | '+' :: digits => decimal false digits
  | '-' :: digits => decimal true digits
  | digits => decimal false digits
where
  /-- Digits of a base. -/
  based (base : Nat) (isDigit : Char → Bool) (digits : List Char) : Option Int := do
    guard (areDigits isDigit digits)
    let n := digitsValue base (digits.filter (· != '_'))
    guard (n < Number.twoPow 128)
    return n
  /-- Decimal digits behind a sign. -/
  decimal (negative : Bool) (digits : List Char) : Option Int := do
    guard (isWhole digits)
    let n := digitsValue 10 (digits.filter (· != '_'))
    guard (if negative then n ≤ Number.twoPow 127 else n < Number.twoPow 128)
    return if negative then -n else n

/-- Text without a sign in front. -/
def unsigned : List Char → List Char
  | '+' :: rest => rest
  | '-' :: rest => rest
  | text => text

/-- The exponent, if there is one, behind the digits of a number. -/
def isExponent : List Char → Bool
  | 'e' :: rest => areDigits Char.isDigit (unsigned rest)
  | 'E' :: rest => areDigits Char.isDigit (unsigned rest)
  | _ => false

/-- The shape of a number that is not whole. -/
def isFloatShape (text : List Char) : Bool :=
  let text := unsigned text
  let isDigitOrGap := fun c : Char => c.isDigit || c == '_'
  let whole := text.takeWhile isDigitOrGap
  text == ['i', 'n', 'f'] || text == ['n', 'a', 'n'] ||
    isWhole whole &&
      match text.dropWhile isDigitOrGap with
      | '.' :: rest =>
        areDigits Char.isDigit (rest.takeWhile isDigitOrGap) &&
          (rest.dropWhile isDigitOrGap == [] || isExponent (rest.dropWhile isDigitOrGap))
      | rest => isExponent rest

/-- A number that is not whole; only the word for infinity may mean an infinite one. -/
def isFloat (text : List Char) : Bool :=
  isFloatShape text &&
    (unsigned text == ['i', 'n', 'f'] ||
      match Number.readDecimal? Number.double (String.ofList (text.filter (· != '_'))) with
      | some (.infinite _) | none => false
      | some _ => true)

/-- A number of exactly so many digits in front, in the range. -/
def field? (digits low high : Nat) (text : List Char) : Option (Nat × List Char) := do
  let shown := text.take digits
  guard (shown.length == digits && shown.all Char.isDigit)
  let n := digitsValue 10 shown
  guard (low ≤ n && n ≤ high)
  return (n, text.drop digits)

/-- Text behind a character. -/
def expect? (c : Char) : List Char → Option (List Char)
  | d :: rest => if c == d then some rest else none
  | [] => none

/-- How many days a month has. -/
def daysInMonth (year month : Nat) : Nat :=
  if month == 2 then
    if year % 4 == 0 && (year % 100 != 0 || year % 400 == 0) then 29 else 28
  else if month == 4 || month == 6 || month == 9 || month == 11 then 30
  else 31

/-- Text behind a date. -/
def date? (text : List Char) : Option (List Char) := do
  let (year, rest) ← field? 4 0 9999 text
  let (month, rest) ← field? 2 1 12 (← expect? '-' rest)
  let (_, rest) ← field? 2 1 (daysInMonth year month) (← expect? '-' rest)
  return rest

/-- Text behind a time, whose seconds and their fraction may be missing. -/
def time? (text : List Char) : Option (List Char) := do
  let (_, rest) ← field? 2 0 23 text
  let (_, rest) ← field? 2 0 59 (← expect? ':' rest)
  match rest with
  | ':' :: rest =>
    let (_, rest) ← field? 2 0 60 rest
    match rest with
    | '.' :: rest =>
      guard ((rest.head?.map Char.isDigit).getD false)
      return rest.dropWhile Char.isDigit
    | rest => return rest
  | rest => return rest

/-- The end of the text, or the distance from universal time. -/
def isZone (text : List Char) : Bool :=
  match text with
  | [] | ['z'] | ['Z'] => true
  | c :: rest =>
    (c == '+' || c == '-') &&
      ((do
        let (_, rest) ← field? 2 0 23 rest
        let (_, rest) ← field? 2 0 59 (← expect? ':' rest)
        guard rest.isEmpty : Option Unit)).isSome

/-- A date, a time, or both. -/
def isDatetime (text : List Char) : Bool :=
  match date? text with
  | none => time? text == some []
  | some [] => true
  | some (c :: rest) =>
    (c == 'T' || c == 't' || c == ' ') && (((time? rest).map isZone).getD false)

/-- The characters of a value that is not in quotes or brackets; a blank may stand between a date
and a time. -/
def plainText (text : List Char) : List Char :=
  let isPlain := fun c : Char => c.isAlphanum || ['_', '-', '+', '.', ':'].contains c
  let first := text.takeWhile isPlain
  match date? first, text.dropWhile isPlain with
  | some [], ' ' :: rest =>
    if (rest.head?.map Char.isDigit).getD false then first ++ ' ' :: rest.takeWhile isPlain
    else first
  | _, _ => first

/-- A value that is not in quotes or brackets. -/
def plain? (text : List Char) : Option Toml :=
  if text == ['t', 'r', 'u', 'e'] then some (.boolean true)
  else if text == ['f', 'a', 'l', 's', 'e'] then some (.boolean false)
  else if isDatetime text then some (.datetime (String.ofList text))
  else if isFloat text then some (.float (String.ofList text))
  else (integer? text).map .integer

/-! ## Keys and values -/

/-- One segment of a key. -/
def segment? (text : List Char) : Option (String × List Char) :=
  match text with
  | '"' :: rest => do
    let (key, rest) ← lineString? '"' (rest.length + 1) rest
    return (String.ofList key, rest)
  | '\'' :: rest => do
    let (key, rest) ← lineString? '\'' (rest.length + 1) rest
    return (String.ofList key, rest)
  | _ =>
    let isBare := fun c : Char => c.isAlphanum || c == '_' || c == '-'
    let key := text.takeWhile isBare
    if key.isEmpty then none else some (String.ofList key, text.dropWhile isBare)

/-- A dotted key: its path and its last segment; the number bounds the segments. -/
def key? : Nat → List Char → Option ((List String × String) × List Char)
  | 0, _ => none
  | n + 1, text => do
    let (first, rest) ← segment? (skipBlanks text)
    let rest := skipBlanks rest
    match rest with
    | '.' :: rest =>
      let ((path, last), rest) ← key? n rest
      return ((first :: path, last), rest)
    | rest => return (([], first), rest)

/-- A key, an equals sign and a value. -/
def entry? (value : List Char → Option (Toml × List Char)) (text : List Char) :
    Option (List String × String × Toml × List Char) := do
  let ((path, key), rest) ← key? (text.length + 1) text
  let rest ← expect? '=' rest
  let (v, rest) ← value (skipBlanks rest)
  return (path, key, v, rest)

/-- The elements of a list and its closing bracket; the number bounds them. -/
def elements? (value : List Char → Option (Toml × List Char)) :
    Nat → List Char → Option (List Toml × List Char)
  | 0, _ => none
  | n + 1, text =>
    match skipAll text with
    | ']' :: rest => some ([], rest)
    | text => do
      let (v, rest) ← value text
      match skipAll rest with
      | ',' :: rest =>
        let (more, rest) ← elements? value n rest
        return (v :: more, rest)
      | ']' :: rest => return ([v], rest)
      | _ => none

/-- The entries of a table in braces and its closing brace; the number bounds them. -/
def inlineEntries? (value : List Char → Option (Toml × List Char)) :
    Nat → Entries → List Char → Option (Entries × List Char)
  | 0, _, _ => none
  | n + 1, entries, text =>
    match skipAll text with
    | '\x7d' :: rest => some (entries, rest)
    | text => do
      let (path, key, v, rest) ← entry? value text
      let entries ← addDotted? path key v .inline entries
      match skipAll rest with
      | ',' :: rest => inlineEntries? value n entries rest
      | '\x7d' :: rest => return (entries, rest)
      | _ => none

/-- How deep lists and tables may nest. -/
def nestingLimit : Nat := 80

/-- A value in which lists and tables nest at most so deep. -/
def value? : Nat → List Char → Option (Toml × List Char)
  | depth, text =>
    match text, depth with
    | '[' :: rest, depth + 1 => do
      let (values, rest) ← elements? (value? depth) (rest.length + 1) rest
      return (.array false values, rest)
    | '\x7b' :: rest, depth + 1 => do
      let (entries, rest) ← inlineEntries? (value? depth) (rest.length + 1) [] rest
      return (.table .inline entries, rest)
    | text, _ =>
      match string? text with
      | some (s, rest) => some (.string s, rest)
      | none => do
        let shown := plainText text
        let v ← plain? shown
        return (v, text.drop shown.length)

/-! ## Documents -/

/-- The lines of a document, read into a table; the number bounds them. The path names the table
that was opened last. -/
def lines? : Nat → List String → Entries → List Char → Option Entries
  | 0, _, _, _ => none
  | n + 1, current, document, text =>
    match skipAll text with
    | [] => some document
    | '[' :: '[' :: rest => do
      let ((path, key), rest) ← key? (rest.length + 1) rest
      let rest ← lineEnd? (← expect? ']' (← expect? ']' rest))
      let document ← openElement? path key document
      lines? n (path ++ [key]) document rest
    | '[' :: rest => do
      let ((path, key), rest) ← key? (rest.length + 1) rest
      let rest ← lineEnd? (← expect? ']' rest)
      let document ← openTable? path key document
      lines? n (path ++ [key]) document rest
    | text => do
      let (path, key, v, rest) ← entry? (value? nestingLimit) text
      let rest ← lineEnd? rest
      let document ← alterAtHeader? current (addDotted? path key v) document
      lines? n current document rest

/-- The table of a document, which may start with a byte order mark. -/
def read? (text : String) : Option Entries :=
  let chars := match text.toList with
    | '\uFEFF' :: rest => rest
    | chars => chars
  lines? (chars.length + 1) [] [] chars

end Toml
end Runnel
