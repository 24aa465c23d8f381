import Runnel.Number.Integer
import Runnel.Utility.Handler

/-!
# Runnel.Utility.Sequence

The command that counts: `LAST`, `FIRST LAST` or `FIRST STEP LAST`. When all three numbers are
64-bit integers it counts exactly, otherwise in floating-point numbers.
-/

namespace Runnel.Sequence

/-- Why there is nothing to count. -/
inductive CountError where
  /-- There are no numbers. -/
  | missingOperand
  /-- There are too many numbers. -/
  | extraOperand (text : String)
  /-- A number is none. -/
  | badNumber (text : String)
  /-- A step of zero leads nowhere. -/
  | zeroStep
  deriving Repr, DecidableEq

/-- The text of an error. -/
def CountError.message : CountError → String
  | .missingOperand => "missing operand"
  | .extraOperand text => "extra operand '" ++ text ++ "'"
  | .badNumber text => "invalid floating point argument: '" ++ text ++ "'"
  | .zeroStep => "invalid Zero increment value: '0'"

/-- The number lies before the end, or at it. -/
def reaches (step last n : Int) : Bool :=
  (0 < step && n ≤ last) || (step < 0 && last ≤ n)

/-- How far a number is from the end. -/
def distance (step last n : Int) : Nat :=
  if 0 < step then (last - n + 1).toNat else (n - last + 1).toNat

/-- The numbers from `n` on. Counting stops where the next number would not fit in 64 bits. -/
def countFrom (step last n : Int) : List Int :=
  if reaches step last n then
    if Number.int64Min ≤ n + step ∧ n + step ≤ Number.int64Max then
      n :: countFrom step last (n + step)
    else [n]
  else []
termination_by distance step last n
decreasing_by
  rename_i h _
  simp only [reaches, Bool.or_eq_true, Bool.and_eq_true, decide_eq_true_eq] at h
  simp only [distance]
  split <;> omega

/-- Whole numbers, one on each line. -/
def integers (first step last : Int) : Except CountError String :=
  if step = 0 then .error .zeroStep
  else .ok (String.join ((countFrom step last first).map fun n => Text.signedDigits n ++ "\n"))

/-- How far beyond the end a floating-point number still counts. -/
def tolerance : Float := 2.220446049250313e-16

/-- The numbers `first + step * i`, `first + step * (i + 1)` and so on, at most `fuel` of them. -/
def decimalsFrom (first step last : Float) : Nat → Nat → List Float
  | 0, _ => []
  | fuel + 1, i =>
    let n := first + step * Float.ofNat i
    if (step > 0 && n > last + tolerance) || (step < 0 && n < last - tolerance) then []
    else n :: decimalsFrom first step last fuel (i + 1)

/-- A bound that no count reaches. -/
def decimalLimit : Nat := Number.twoPow 64

/-- Floating-point numbers, one on each line. -/
def decimals (first step last : Float) : Except CountError String :=
  if step == 0 then .error .zeroStep
  else
    .ok (String.join ((decimalsFrom first step last decimalLimit 0).map fun n =>
      Number.floatText n ++ "\n"))

/-- A finite number. -/
def number (text : String) : Except CountError Float :=
  match Number.readFloat? text with
  | some x => if x.isFinite then .ok x else .error (.badNumber text)
  | none => .error (.badNumber text)

/-- The numbers from one text to another. -/
def between (first step last : String) : Except CountError String :=
  match Number.readInt64? first, Number.readInt64? step, Number.readInt64? last with
  | some first, some step, some last => integers first step last
  | _, _, _ => do decimals (← number first) (← number step) (← number last)

/-- The numbers that arguments ask for. -/
def text : List String → Except CountError String
  | [] => .error .missingOperand
  | [last] => between "1" "1" last
  | [first, last] => between first "1" last
  | [first, step, last] => between first step last
  | _ :: _ :: _ :: extra :: _ => .error (.extraOperand extra)

/-- The command. -/
def handler : Handler :=
  .pure fun i =>
    match text i.args with
    | .ok shown => .done (.ofText shown)
    | .error e => .failed e.message

end Runnel.Sequence
