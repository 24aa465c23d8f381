import Runnel.Number.Binary
import Runnel.Number.Integer

/-!
# Runnel.Number.Decimal

Decimal text of floating-point numbers.

* `readDecimal?`: reads a number and rounds it to the nearest value of a format.
* `shortest`: the fewest digits that read back as a value and, among those, the nearest.
* `Binary.text`: a value in positional notation with the fewest digits. There is never an exponent,
  and a whole number has no point.
-/

namespace Runnel.Number

/-- Digits, an optional point and digits, an optional exponent; at least one digit before the
exponent. The result is `(digits, exponent)` for `digits * 10 ^ exponent`. -/
def readScientific? (chars : List Char) : Option (Nat × Int) :=
  let whole := chars.takeWhile Char.isDigit
  let rest := chars.dropWhile Char.isDigit
  let (fraction, rest) := match rest with
    | '.' :: r => (r.takeWhile Char.isDigit, r.dropWhile Char.isDigit)
    | r => ([], r)
  if whole.isEmpty && fraction.isEmpty then none
  else
    let exponent : Option Int := match rest with
      | [] => some 0
      | e :: r =>
        if e == 'e' || e == 'E' then
          match r with
          | '-' :: ds => (readDigits? ds).map fun n => -(n : Int)
          | '+' :: ds => (readDigits? ds).map Int.ofNat
          | ds => (readDigits? ds).map Int.ofNat
        else none
    match exponent, digitsValue? (whole ++ fraction) with
    | some e, some digits => some (digits, e - (fraction.length : Int))
    | _, _ => none

/-- A bound beyond which every exponent means zero or infinity. -/
def farExponent : Int := 2000

/-- The value nearest to `digits * 10 ^ exponent`. -/
def Binary.ofScientific (f : Format) (negative : Bool) (digits : Nat) (exponent : Int) : Binary :=
  let magnitude := exponent + ((Nat.toDigits 10 digits).length : Int)
  if digits == 0 || magnitude < -farExponent then .finite negative 0 f.minExponent
  else if magnitude > farExponent then .infinite negative
  else if exponent < 0 then .ofRatio f negative digits (tenPow exponent.natAbs)
  else .ofRatio f negative (digits * tenPow exponent.natAbs) 1

/-- Reads a number: a sign, then a decimal with an optional exponent, or `inf`, `infinity` or `nan`
in any case. -/
def readDecimal? (f : Format) (text : String) : Option Binary :=
  let (negative, chars) := match text.toList with
    | '-' :: rest => (true, rest)
    | '+' :: rest => (false, rest)
    | chars => (false, chars)
  match readScientific? chars with
  | some (digits, exponent) => some (.ofScientific f negative digits exponent)
  | none =>
    let name := String.ofList (chars.map Char.toLower)
    if name == "inf" || name == "infinity" then some (.infinite negative)
    else if name == "nan" then some .nan
    else none

/-- The largest `e` from `e` upwards, at most `steps` away, with `10 ^ (e - 1) ≤ num / den`. -/
def decimalPoint (num den : Nat) : Nat → Int → Int
  | 0, e => e
  | steps + 1, e =>
    let reached :=
      if e < 0 then den ≤ num * tenPow e.natAbs else den * tenPow e.natAbs ≤ num
    if reached then decimalPoint num den steps (e + 1) else e

/-- `num / den` rounded down to a multiple of `10 ^ exponent`, in such units. -/
def decimalFloor (num den : Nat) (exponent : Int) : Nat :=
  if exponent < 0 then num * tenPow exponent.natAbs / den else num / (den * tenPow exponent.natAbs)

/-- `digits * 10 ^ exponent` as a quotient. -/
def decimalRatio (digits : Nat) (exponent : Int) : Nat × Nat :=
  if exponent < 0 then (digits, tenPow exponent.natAbs) else (digits * tenPow exponent.natAbs, 1)

/-- The reals that round to a value: the quotients between `low / den` and `high / den`, the ends
included if `closed`. -/
structure RoundingInterval where
  /-- Numerator of the lower end. -/
  low : Nat
  /-- Numerator of the value. -/
  value : Nat
  /-- Numerator of the upper end. -/
  high : Nat
  /-- The common denominator. -/
  den : Nat
  /-- Whether the ends round to the value as well. -/
  closed : Bool

/-- The reals that round to `mantissa * 2 ^ exponent`. -/
def RoundingInterval.of (f : Format) (mantissa : Nat) (exponent : Int) : RoundingInterval :=
  let below := if mantissa == twoPow (f.precision - 1) && exponent > f.minExponent then 1 else 2
  let unit := exponent - 2
  let scale := if unit < 0 then 1 else twoPow unit.natAbs
  { low := (4 * mantissa - below) * scale
    value := 4 * mantissa * scale
    high := (4 * mantissa + 2) * scale
    den := if unit < 0 then twoPow unit.natAbs else 1
    closed := mantissa % 2 == 0 }

/-- `digits * 10 ^ exponent` lies in the interval. -/
def RoundingInterval.contains (i : RoundingInterval) (digits : Nat) (exponent : Int) : Bool :=
  let (num, den) := decimalRatio digits exponent
  let x := num * i.den
  if i.closed then i.low * den ≤ x && x ≤ i.high * den else i.low * den < x && x < i.high * den

/-- How far `digits * 10 ^ exponent` is from the value, in units that depend on `exponent` only. -/
def RoundingInterval.distance (i : RoundingInterval) (digits : Nat) (exponent : Int) : Nat :=
  let (num, den) := decimalRatio digits exponent
  (num * i.den : Int) - (i.value * den : Int) |>.natAbs

/-- The first grid of `count`, `count + 1`, … digits on which a neighbour of the value reads back,
and on it the nearer neighbour. -/
def shortestFrom (i : RoundingInterval) (point : Int) : Nat → Nat → Nat × Int
  | 0, count => (decimalFloor i.value i.den (point - count), point - count)
  | steps + 1, count =>
    let exponent := point - count
    let lower := decimalFloor i.value i.den exponent
    let upper := lower + 1
    match i.contains lower exponent, i.contains upper exponent with
    | true, true =>
      let a := i.distance lower exponent
      let b := i.distance upper exponent
      if a < b || (a == b && lower % 2 == 0) then (lower, exponent) else (upper, exponent)
    | true, false => (lower, exponent)
    | false, true => (upper, exponent)
    | false, false => shortestFrom i point steps (count + 1)

/-- The same decimal without up to `steps` zeros at the end of its digits. -/
def withoutZeros : Nat → Nat × Int → Nat × Int
  | 0, d => d
  | steps + 1, (digits, exponent) =>
    if digits % 10 == 0 then withoutZeros steps (digits / 10, exponent + 1) else (digits, exponent)

/-- The fewest digits that read back as `mantissa * 2 ^ exponent`, which is not zero, and the power
of ten that they are multiplied by. -/
def shortest (f : Format) (mantissa : Nat) (exponent : Int) : Nat × Int :=
  let i := RoundingInterval.of f mantissa exponent
  let estimate := ((bitLength i.value : Int) - (bitLength i.den : Int)) * 30103 / 100000 - 2
  withoutZeros 17 (shortestFrom i (decimalPoint i.value i.den 8 estimate) 17 1)

/-- `digits * 10 ^ exponent` in positional notation. -/
def positional (digits : Nat) (exponent : Int) : String :=
  let text := Nat.toDigits 10 digits
  if 0 ≤ exponent then String.ofList (text ++ List.replicate exponent.natAbs '0')
  else
    let places := exponent.natAbs
    if places < text.length then
      String.ofList (text.take (text.length - places) ++ '.' :: text.drop (text.length - places))
    else
      String.ofList ('0' :: '.' :: (List.replicate (places - text.length) '0' ++ text))

/-- A value in positional notation with the fewest digits that read back. -/
def Binary.text (f : Format) : Binary → String
  | .nan => "NaN"
  | .infinite negative => if negative then "-inf" else "inf"
  | .finite negative mantissa exponent =>
    let magnitude :=
      if mantissa == 0 then "0"
      else
        let (digits, e) := shortest f mantissa exponent
        positional digits e
    if negative then "-" ++ magnitude else magnitude

/-- A 64-bit number in positional notation with the fewest digits that read back. -/
def floatText (x : Float) : String :=
  (Binary.ofFloat x).text double

/-- Reads a 64-bit number. -/
def readFloat? (text : String) : Option Float :=
  (readDecimal? double text).map Binary.toFloat

end Runnel.Number
