import Runnel.Number.Integer

/-!
# Runnel.Number.Binary

Binary floating-point formats, exactly.

* `Format`: the precision and the exponents of a format; `double` and `single`.
* `Binary`: a value of a format. A finite one is `mantissa * 2 ^ exponent`.
* `Binary.ofRatio`: the value nearest to a quotient of natural numbers, ties to the even mantissa.
* `Binary.ofBits`, `Binary.toBits`: the interchange encoding.
-/

namespace Runnel.Number

/-- A binary format with `precision` bits in the mantissa and `exponentBits` bits in the
exponent. -/
structure Format where
  /-- Bits of the mantissa, the leading one included. -/
  precision : Nat
  /-- Bits of the encoded exponent. -/
  exponentBits : Nat

/-- The 64-bit format. -/
def double : Format := ⟨53, 11⟩

/-- The 32-bit format. -/
def single : Format := ⟨24, 8⟩

/-- The exponent of the least mantissa unit. -/
def Format.minExponent (f : Format) : Int :=
  3 - twoPow (f.exponentBits - 1) - (f.precision : Int)

/-- The exponent of the mantissa unit of the greatest values. -/
def Format.maxExponent (f : Format) : Int :=
  twoPow (f.exponentBits - 1) - (f.precision : Int)

/-- A value of a binary format. -/
inductive Binary where
  /-- Not a number. -/
  | nan
  /-- An infinity. -/
  | infinite (negative : Bool)
  /-- `mantissa * 2 ^ exponent`, negated if `negative`. -/
  | finite (negative : Bool) (mantissa : Nat) (exponent : Int)
  deriving Repr, DecidableEq

/-- The quotient rounded to the nearest natural number, ties to the even one. -/
def divRoundEven (num den : Nat) : Nat :=
  let q := num / den
  let r := num % den
  if 2 * r < den then q
  else if 2 * r > den then q + 1
  else if q % 2 == 0 then q else q + 1

/-- `num / den` in units of `2 ^ exponent`, rounded to nearest, ties to even. -/
def scaledQuotient (num den : Nat) (exponent : Int) : Nat :=
  if exponent < 0 then divRoundEven (num * twoPow exponent.natAbs) den
  else divRoundEven num (den * twoPow exponent.natAbs)

/-- How many bits the number has; zero has none. -/
def bitLength (n : Nat) : Nat :=
  if n == 0 then 0 else Nat.log2 n + 1

/-- The value of format `f` nearest to `num / den`, ties to the even mantissa. -/
def Binary.ofRatio (f : Format) (negative : Bool) (num den : Nat) : Binary :=
  if num == 0 || den == 0 then .finite negative 0 f.minExponent
  else
    -- The quotient has one more bit than this estimate of its exponent, or as many.
    let estimate : Int := (bitLength num : Int) - (bitLength den : Int) - (f.precision : Int)
    let tight := scaledQuotient num den estimate
    let exponent :=
      max f.minExponent (if bitLength tight > f.precision then estimate + 1 else estimate)
    let mantissa := scaledQuotient num den exponent
    let (mantissa, exponent) :=
      if bitLength mantissa > f.precision then (mantissa / 2, exponent + 1)
      else (mantissa, exponent)
    if exponent > f.maxExponent then .infinite negative
    else .finite negative mantissa exponent

/-- The interchange encoding of a value. -/
def Binary.toBits (f : Format) : Binary → Nat
  | .nan => (twoPow f.exponentBits - 1) * twoPow (f.precision - 1) + twoPow (f.precision - 2)
  | .infinite negative =>
    sign negative + (twoPow f.exponentBits - 1) * twoPow (f.precision - 1)
  | .finite negative mantissa exponent =>
    if mantissa < twoPow (f.precision - 1) then sign negative + mantissa
    else
      sign negative + (exponent - f.minExponent).toNat * twoPow (f.precision - 1) + mantissa
where
  /-- The bit of a minus sign. -/
  sign (negative : Bool) : Nat :=
    if negative then twoPow (f.exponentBits + f.precision - 1) else 0

/-- The value that an interchange encoding stands for. -/
def Binary.ofBits (f : Format) (bits : Nat) : Binary :=
  let negative := bits.testBit (f.exponentBits + f.precision - 1)
  let fraction := bits % twoPow (f.precision - 1)
  let encoded := bits / twoPow (f.precision - 1) % twoPow f.exponentBits
  if encoded == twoPow f.exponentBits - 1 then
    if fraction == 0 then .infinite negative else .nan
  else if encoded == 0 then .finite negative fraction f.minExponent
  else
    .finite negative (fraction + twoPow (f.precision - 1)) (f.minExponent + ((encoded : Int) - 1))

/-- The value of a 64-bit number. -/
def Binary.ofFloat (x : Float) : Binary :=
  .ofBits double x.toBits.toNat

/-- The 64-bit number of a value. -/
def Binary.toFloat (b : Binary) : Float :=
  Float.ofBits (UInt64.ofNat (b.toBits double))

end Runnel.Number
