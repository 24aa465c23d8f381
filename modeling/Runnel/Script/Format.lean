import Runnel.Number.Integer
import Runnel.Text.Ascii
import Runnel.Text.Utf8

/-!
# Runnel.Script.Format

Formatted output of the system shell: text with backslash escapes, and formats with conversions.
-/

namespace Runnel.Script

/-- An octal digit. -/
def isOctal (c : Char) : Bool :=
  '0' ≤ c && c ≤ '7'

/-- The number of octal digits. -/
def octalValue (digits : List Char) : Nat :=
  digits.foldl (fun n c => n * 8 + (c.toNat - '0'.toNat)) 0

/-- The character that a letter behind a backslash stands for. -/
def escapedChar? (c : Char) : Option Char :=
  match c with
  | 'a' => some '\x07'
  | 'b' => some '\x08'
  | 'f' => some '\x0c'
  | 'n' => some '\n'
  | 'r' => some '\r'
  | 't' => some '\t'
  | 'v' => some '\x0b'
  | '\\' => some '\\'
  | _ => none

/-- The bytes of a character. -/
def charBytes (c : Char) : Bytes :=
  Text.encode (String.singleton c)

/-- The octal digits that belong to an escape at the front of a text. Text that is not a format has
a zero in front of them. -/
def octalDigits? (isFormat : Bool) (cs : List Char) : Option (List Char × Nat) :=
  match isFormat, cs with
  | false, '0' :: rest =>
    let digits := (rest.takeWhile isOctal).take 3
    some (digits, digits.length + 1)
  | false, _ => none
  | true, cs =>
    let digits := (cs.takeWhile isOctal).take 3
    if digits.isEmpty then none else some (digits, digits.length)

/-- Bytes of text with escapes, and whether one of them stops the output. -/
def interpretEscapes (isFormat : Bool) (cs : List Char) : Bytes × Bool :=
  match cs with
  | [] => ([], false)
  | '\\' :: c :: rest =>
    if c == 'c' && !isFormat then ([], true)
    else
      match octalDigits? isFormat (c :: rest) with
      | some (digits, n) =>
        let (more, stopped) := interpretEscapes isFormat (rest.drop (n - 1))
        (UInt8.ofNat (octalValue digits) :: more, stopped)
      | none =>
        let (more, stopped) := interpretEscapes isFormat rest
        match escapedChar? c with
        | some d => (charBytes d ++ more, stopped)
        | none => (charBytes '\\' ++ charBytes c ++ more, stopped)
  | c :: rest =>
    let (more, stopped) := interpretEscapes isFormat rest
    (charBytes c ++ more, stopped)
termination_by cs.length
decreasing_by all_goals simp +arith [List.length_drop]

/-- What the shell's own `echo` writes. -/
def echoBytes (args : List String) : Bytes :=
  let (newline, words) := match args with
    | "-n" :: rest => (false, rest)
    | args => (true, args)
  let (bytes, stopped) := interpretEscapes false (" ".intercalate words).toList
  bytes ++ if newline && !stopped then [10] else []

/-! ## Conversions -/

/-- A conversion of a format. -/
structure Conversion where
  /-- The text is set to the left. -/
  left : Bool
  /-- Numbers are filled up with zeros. -/
  zeros : Bool
  /-- Positive numbers get a sign. -/
  plus : Bool
  /-- The least width. -/
  width : Nat
  /-- The greatest length of text, or the least number of digits. -/
  precision : Option Nat
  /-- What is converted. -/
  kind : Char
  deriving Repr, DecidableEq

/-- A part of a format. -/
inductive Directive where
  /-- Text with escapes. -/
  | text (chars : List Char)
  /-- A conversion. -/
  | convert (c : Conversion)
  deriving Repr, DecidableEq

/-- The number of decimal digits. -/
def decimalValue (digits : List Char) : Nat :=
  digits.foldl (fun n c => n * 10 + (c.toNat - '0'.toNat)) 0

/-- A character of a conversion before its width. -/
def isFlag (c : Char) : Bool :=
  ['-', '+', ' ', '0', '#'].contains c

/-- Reads a conversion behind its percent sign, and how long it is. -/
def conversion? (cs : List Char) : Option (Conversion × Nat) :=
  let flags := cs.takeWhile isFlag
  let afterFlags := cs.drop flags.length
  let width := afterFlags.takeWhile Char.isDigit
  let afterWidth := afterFlags.drop width.length
  let (precision, used) := match afterWidth with
    | '.' :: more =>
      let digits := more.takeWhile Char.isDigit
      (some (decimalValue digits), digits.length + 1)
    | _ => (none, 0)
  match afterWidth.drop used with
  | [] => none
  | kind :: _ =>
    some (⟨flags.contains '-', flags.contains '0', flags.contains '+', decimalValue width,
      precision, kind⟩, flags.length + width.length + used + 1)

/-- The parts of a format, of which there are at most so many; a faulty conversion ends it. -/
def directives : Nat → List Char → List Directive × Bool
  | 0, _ | _, [] => ([], true)
  | n + 1, '%' :: '%' :: rest =>
    let (more, ok) := directives n rest
    (.text ['%'] :: more, ok)
  | n + 1, '%' :: rest =>
    match conversion? rest with
    | none => ([], false)
    | some (c, length) =>
      let (more, ok) := directives n (rest.drop length)
      (.convert c :: more, ok)
  | n + 1, c :: rest =>
    let text := (c :: rest).takeWhile (· != '%')
    let (more, ok) := directives n ((c :: rest).drop text.length)
    (.text text :: more, ok)

/-- The digits of a number to a base. -/
def digitsTo (base : Nat) (n : Nat) : List Char :=
  Nat.toDigits base n

/-- The number that an argument stands for, and whether all of it is a number. -/
def argumentNumber (text : String) : Int × Bool :=
  match text.toList with
  | [] => (0, true)
  | '\'' :: c :: _ | '"' :: c :: _ => (c.toNat, true)
  | cs =>
    let (sign, body) := match cs with
      | '-' :: rest => ((-1 : Int), rest)
      | '+' :: rest => (1, rest)
      | cs => (1, cs)
    match body with
    | '0' :: 'x' :: rest =>
      let digits := rest.takeWhile fun c => (Text.hexValue? c).isSome
      let value := digits.foldl (fun n c => n * 16 + (Text.hexValue? c).getD 0) 0
      (sign * value, !digits.isEmpty && digits.length = rest.length)
    | '0' :: rest =>
      let digits := rest.takeWhile isOctal
      (sign * octalValue digits, digits.length = rest.length)
    | body =>
      let digits := body.takeWhile Char.isDigit
      (sign * decimalValue digits, !digits.isEmpty && digits.length = body.length)

/-- Fills text up to a width. -/
def pad (c : Conversion) (bytes : Bytes) : Bytes :=
  let fill := List.replicate (c.width - bytes.length) (32 : UInt8)
  if c.left then bytes ++ fill else fill ++ bytes

/-- A number as a conversion shows it. -/
def numberText (c : Conversion) (value : Int) : Bytes :=
  let unsigned := if value < 0 then (value + Number.twoPow 64).toNat else value.toNat
  let (sign, digits) := match c.kind with
    | 'x' => ("", digitsTo 16 unsigned)
    | 'X' => ("", (digitsTo 16 unsigned).map Char.toUpper)
    | 'o' => ("", digitsTo 8 unsigned)
    | 'u' => ("", digitsTo 10 unsigned)
    | _ =>
      (if value < 0 then "-" else if c.plus then "+" else "", digitsTo 10 value.natAbs)
  let least := match c.precision with
    | some n => n
    | none => if c.zeros && !c.left then c.width - sign.length else 0
  let zeros := List.replicate (least - digits.length) '0'
  pad c (Text.encode (sign ++ String.ofList (zeros ++ digits)))

/-- What a conversion makes of an argument, whether it stops the output, and what is wrong with the
argument. -/
def convertArgument (c : Conversion) (arg : Option String) : Bytes × Bool × Option String :=
  let text := arg.getD ""
  let cut := fun (bytes : Bytes) => match c.precision with
    | some n => bytes.take n
    | none => bytes
  match c.kind with
  | 's' => (pad c (cut (Text.encode text)), false, none)
  | 'b' =>
    let (bytes, stopped) := interpretEscapes false text.toList
    (pad c (cut bytes), stopped, none)
  | 'c' => (pad c ((Text.encode text).take 1), false, none)
  | _ =>
    let (value, ok) := argumentNumber text
    (numberText c value, false, if ok then none else some (text ++ ": expected numeric value"))

/-- What one round through a format writes, whether it stops the output, what is left of the
arguments, and what is wrong with them. -/
def formatRound : List Directive → List String → Bytes × Bool × List String × List String
  | [], args => ([], false, args, [])
  | .text chars :: rest, args =>
    let (more, stopped, left, faults) := formatRound rest args
    ((interpretEscapes true chars).1 ++ more, stopped, left, faults)
  | .convert c :: rest, args =>
    let (bytes, stopped, fault) := convertArgument c args.head?
    if stopped then (bytes, true, [], fault.toList)
    else
      let (more, stopped, left, faults) := formatRound rest args.tail
      (bytes ++ more, stopped, left, fault.toList ++ faults)

/-- Rounds through a format as long as there are arguments, at most so many. -/
def formatRounds (ds : List Directive) : Nat → List String → Bytes × List String
  | 0, _ => ([], [])
  | n + 1, args =>
    let (bytes, stopped, left, faults) := formatRound ds args
    if stopped || left.isEmpty || left.length = args.length then (bytes, faults)
    else
      let (more, later) := formatRounds ds n left
      (bytes ++ more, faults ++ later)

/-- What a format makes of arguments, and what is wrong with them. -/
def formatBytes (format : String) (args : List String) : Bytes × List String :=
  let (ds, ok) := directives (format.length + 1) format.toList
  let (bytes, faults) := formatRounds ds (args.length + 1) args
  (bytes, if ok then faults else faults ++ ["%: missing format character"])

end Runnel.Script
