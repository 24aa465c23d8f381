import Runnel.Number.Integer

/-!
# Runnel.Script.Arithmetic

Expressions of the system shell over integers of 64 bits.

An expression is read and evaluated in one pass; the recursion is bounded by a number that is larger
than any text needs.
-/

namespace Runnel.Script

/-- The variables that an expression reads and assigns. -/
abbrev Bindings : Type := List (String × Int)

/-- The state of an evaluation. -/
structure Evaluation where
  /-- What has not been read. -/
  chars : List Char
  /-- What was assigned, last value first. -/
  assigned : Bindings

/-- A step of an evaluation. -/
abbrev Evaluator (α : Type) : Type := StateT Evaluation (Except String) α

namespace Evaluator

/-- Goes on behind blanks. -/
def skipBlanks : Evaluator Unit :=
  modify fun s => { s with chars := s.chars.dropWhile fun c => c == ' ' || c == '\t' || c == '\n' }

/-- Goes on behind so many characters. -/
def skip (n : Nat) : Evaluator Unit :=
  modify fun s => { s with chars := s.chars.drop n }

/-- The integer of 64 bits that wraps around. -/
def wrap (n : Int) : Int := Int.bmod n (Number.twoPow 64)

/-- Operators with two operands and how tightly they bind. -/
def operators : List (String × Nat) :=
  [("<<", 8), (">>", 8), ("<=", 7), (">=", 7), ("==", 6), ("!=", 6), ("&&", 2), ("||", 1),
    ("*", 10), ("/", 10), ("%", 10), ("+", 9), ("-", 9), ("<", 7), (">", 7), ("&", 5), ("^", 4),
    ("|", 3)]

/-- The value of an operator. -/
def apply (op : String) (a b : Int) : Except String Int :=
  let truth := fun (p : Bool) => if p then (1 : Int) else 0
  match op with
  | "*" => .ok (wrap (a * b))
  | "+" => .ok (wrap (a + b))
  | "-" => .ok (wrap (a - b))
  | "/" => if b = 0 then .error "division by zero" else .ok (wrap (Int.tdiv a b))
  | "%" => if b = 0 then .error "division by zero" else .ok (Int.tmod a b)
  | "<<" => .ok (wrap (a * Number.twoPow (b % 64).toNat))
  | ">>" => .ok (Int.fdiv a (Number.twoPow (b % 64).toNat))
  | "<=" => .ok (truth (a ≤ b))
  | ">=" => .ok (truth (b ≤ a))
  | "<" => .ok (truth (a < b))
  | ">" => .ok (truth (b < a))
  | "==" => .ok (truth (a = b))
  | "!=" => .ok (truth (a ≠ b))
  | "&&" => .ok (truth (a ≠ 0 && b ≠ 0))
  | "||" => .ok (truth (a ≠ 0 || b ≠ 0))
  | "&" => .ok (Int.ofNat ((a % Number.twoPow 64).toNat &&& (b % Number.twoPow 64).toNat) |> wrap)
  | "|" => .ok (Int.ofNat ((a % Number.twoPow 64).toNat ||| (b % Number.twoPow 64).toNat) |> wrap)
  | _ => .ok (Int.ofNat ((a % Number.twoPow 64).toNat ^^^ (b % Number.twoPow 64).toNat) |> wrap)

/-- The operator that is next, if it binds at least so tightly. -/
def nextOperator (least : Nat) : Evaluator (Option (String × Nat)) := do
  skipBlanks
  let cs := (← get).chars
  return (operators.find? fun op => op.1.toList.isPrefixOf cs).filter fun op => least ≤ op.2

/-- A number in front of text and what follows it. A zero in front of other digits makes it octal,
and a zero and the letter `x` hexadecimal; a number that is too large counts as the largest. -/
def number (text : List Char) : Int × List Char :=
  let read := fun (base : Nat) (belongs : Char → Bool) (text : List Char) =>
    let n := (text.takeWhile belongs).foldl (fun n c => n * base + (Text.hexValue? c).getD 0) 0
    (min (Int.ofNat n) Number.int64Max, text.dropWhile belongs)
  let isHex := fun c => (Text.hexValue? c).isSome
  match text with
  | '0' :: x :: d :: rest =>
    if (x == 'x' || x == 'X') && isHex d then read 16 isHex (d :: rest)
    else read 8 (fun c => '0' ≤ c && c ≤ '7') text
  | '0' :: _ => read 8 (fun c => '0' ≤ c && c ≤ '7') text
  | text => read 10 Char.isDigit text

/-- A text that is a number, perhaps with a sign. -/
def number? (text : String) : Option Int :=
  let whole := fun (digits : List Char) =>
    match digits.head?.map Char.isDigit, number digits with
    | some true, (n, []) => some n
    | _, _ => none
  match text.toList with
  | '-' :: digits => (whole digits).map fun n => -n
  | '+' :: digits => whole digits
  | digits => whole digits

/-- The value of a variable; one without a value counts as zero. -/
def value (lookup : String → Option String) (name : String) : Evaluator Int := do
  match (← get).assigned.lookup name with
  | some n => return n
  | none =>
    match lookup name with
    | none => return 0
    | some text =>
      if text.isEmpty then return 0
      else
        match number? text with
        | some n => return n
        | none => throw ("Illegal number: " ++ text)

mutual

/-- Evaluates an operand. -/
def operand (lookup : String → Option String) : Nat → Evaluator Int
  | 0 => throw "expecting primary"
  | n + 1 => do
    skipBlanks
    match (← get).chars with
    | '(' :: _ =>
      skip 1
      let v ← expression lookup n
      skipBlanks
      if (← get).chars.head? == some ')' then
        skip 1
        return v
      else throw "expecting ')'"
    | '-' :: _ =>
      skip 1
      return wrap (-(← operand lookup n))
    | '+' :: _ =>
      skip 1
      operand lookup n
    | '!' :: _ =>
      skip 1
      return if (← operand lookup n) = 0 then 1 else 0
    | '~' :: _ =>
      skip 1
      return -(← operand lookup n) - 1
    | c :: cs =>
      if c.isDigit then
        let (v, rest) := number (c :: cs)
        modify fun s => { s with chars := rest }
        return v
      else if Text.isNameStart c then
        let name := String.ofList ((c :: cs).takeWhile Text.isNameChar)
        skip name.length
        skipBlanks
        match (← get).chars with
        | '=' :: '=' :: _ => value lookup name
        | '=' :: _ =>
          skip 1
          let v ← expression lookup n
          modify fun s => { s with assigned := (name, v) :: s.assigned }
          return v
        | op :: '=' :: _ =>
          if ['+', '-', '*', '/', '%'].contains op then
            skip 2
            let old ← value lookup name
            let v ← apply (String.singleton op) old (← expression lookup n)
            modify fun s => { s with assigned := (name, v) :: s.assigned }
            return v
          else value lookup name
        | _ => value lookup name
      else throw "expecting primary"
    | [] => throw "expecting primary"

/-- Goes on with operators that bind at least so tightly. -/
def operations (lookup : String → Option String) : Nat → Nat → Int → Evaluator Int
  | 0, _, v => pure v
  | n + 1, least, v => do
    match ← nextOperator least with
    | none => return v
    | some (op, strength) =>
      skip op.length
      let right ← operand lookup n
      let right ← operations lookup n (strength + 1) right
      operations lookup n least (← apply op v right)

/-- Evaluates an expression with operators and choices. -/
def expression (lookup : String → Option String) : Nat → Evaluator Int
  | 0 => throw "expecting primary"
  | n + 1 => do
    let first ← operand lookup n
    let v ← operations lookup n 0 first
    skipBlanks
    if (← get).chars.head? == some '?' then
      skip 1
      let yes ← expression lookup n
      skipBlanks
      if (← get).chars.head? == some ':' then
        skip 1
        let no ← expression lookup n
        return if v = 0 then no else yes
      else throw "expecting ':'"
    else return v

end

end Evaluator

/-- Evaluates the text of an expression; what it assigns comes with the value, last one first. -/
def evaluateText (lookup : String → Option String) (text : String) :
    Except String (Int × Bindings) :=
  let fault := fun e => "arithmetic expression: " ++ e ++ ": \"" ++ text ++ "\""
  if (text.toList.all fun c => c == ' ') then .ok (0, [])
  else
    match (Evaluator.expression lookup (4 * text.length + 8)).run ⟨text.toList, []⟩ with
    | .error e => .error (fault e)
    | .ok (v, s) =>
      if s.chars.all fun c => c == ' ' || c == '\n' then .ok (v, s.assigned)
      else .error (fault "expecting EOF")

end Runnel.Script
