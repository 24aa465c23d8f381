import Runnel.Number.Decimal
import Runnel.Number.Integer

/-!
# Runnel.Number.Duration

Spans of time in whole nanoseconds, with less than `2 ^ 64` seconds.

`Duration.read?` reads a number with an optional unit: `s`, `m`, `h` or `d`. The number of seconds
is rounded to the nearest nanosecond, a tie to the even one.
-/

namespace Runnel.Number

/-- A span of time. -/
structure Duration where
  /-- Its length in nanoseconds. -/
  nanos : Nat
  deriving Repr, DecidableEq

namespace Duration

/-- The nanoseconds of a second. -/
def second : Nat := 1000000000

/-- The first span that is too long: `2 ^ 64` seconds. -/
def limit : Nat := twoPow 64 * second

/-- No time at all. -/
def zero : Duration := ⟨0⟩

/-- The whole seconds. -/
def seconds (d : Duration) : Nat := d.nanos / second

/-- The nanoseconds beyond the whole seconds. -/
def subsecond (d : Duration) : Nat := d.nanos % second

/-- The whole milliseconds that the span needs, the last one begun or complete. -/
def millis (d : Duration) : Nat := (d.nanos + 999999) / 1000000

/-- The sum, unless it is too long. -/
def add? (a b : Duration) : Option Duration :=
  if a.nanos + b.nanos < limit then some ⟨a.nanos + b.nanos⟩ else none

/-- The sum of all spans, unless it becomes too long on the way. -/
def sum? (spans : List Duration) : Option Duration :=
  spans.foldl (fun total d => total.bind fun t => t.add? d) (some zero)

/-- A number of seconds, rounded to the nearest nanosecond. A negative number, one of `2 ^ 64` or
more, and what is no number have no span. -/
def ofSeconds? : Binary → Option Duration
  | .nan | .infinite _ => none
  | .finite negative mantissa exponent =>
    if negative && mantissa != 0 then none
    else
      let nanos :=
        if exponent < 0 then divRoundEven (mantissa * second) (twoPow exponent.natAbs)
        else mantissa * second * twoPow exponent.natAbs
      if nanos < limit then some ⟨nanos⟩ else none

/-- The seconds of a unit. -/
def unit? : Char → Option Float
  | 's' => some 1
  | 'm' => some 60
  | 'h' => some 3600
  | 'd' => some 86400
  | _ => none

/-- Reads a number with an optional unit; without one it counts seconds. -/
def read? (text : String) : Option Duration :=
  match text.toList.reverse with
  | [] => none
  | last :: front =>
    let (number, scale) := match unit? last with
      | some scale => (String.ofList front.reverse, scale)
      | none => (text, 1)
    (readFloat? number).bind fun x => ofSeconds? (Binary.ofFloat (x * scale))

end Duration
end Runnel.Number
