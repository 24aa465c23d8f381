import Runnel.Text.Ascii

/-!
# Runnel.Number.Integer

Integers written in decimal: an optional sign and at least one ASCII digit, with no blank anywhere.
A number outside the range asked for is refused. Powers of the bases in which numbers are held and
written.
-/

namespace Runnel.Number

/-- Two to the power `n`. -/
def twoPow (n : Nat) : Nat := Nat.pow 2 n

/-- Ten to the power `n`. -/
def tenPow (n : Nat) : Nat := Nat.pow 10 n

/-- The value of a run of ASCII digits, if all of them are digits. -/
def digitsValue? (chars : List Char) : Option Nat :=
  chars.foldl
    (fun value c => value.bind fun v => if c.isDigit then some (10 * v + (c.toNat - 48)) else none)
    (some 0)

/-- At least one digit, and nothing else. -/
def readDigits? : List Char → Option Nat
  | [] => none
  | chars => digitsValue? chars

/-- An integer between `least` and `greatest`. -/
def readInt? (least greatest : Int) (text : String) : Option Int :=
  let value := match text.toList with
    | '-' :: rest => (readDigits? rest).map fun n => -(n : Int)
    | '+' :: rest => (readDigits? rest).map Int.ofNat
    | chars => (readDigits? chars).map Int.ofNat
  value.bind fun n => if least ≤ n && n ≤ greatest then some n else none

/-- A natural number up to `greatest`; a minus sign is refused. -/
def readNat? (greatest : Nat) (text : String) : Option Nat :=
  let value := match text.toList with
    | '+' :: rest => readDigits? rest
    | chars => readDigits? chars
  value.bind fun n => if n ≤ greatest then some n else none

/-- The least 64-bit integer. -/
def int64Min : Int := -9223372036854775808

/-- The greatest 64-bit integer. -/
def int64Max : Int := 9223372036854775807

/-- The greatest 64-bit natural number. -/
def nat64Max : Nat := 18446744073709551615

/-- A 64-bit integer. -/
def readInt64? : String → Option Int := readInt? int64Min int64Max

/-- A 32-bit integer. -/
def readInt32? : String → Option Int := readInt? (-2147483648) 2147483647

/-- A 64-bit natural number. -/
def readNat64? : String → Option Nat := readNat? nat64Max

end Runnel.Number
