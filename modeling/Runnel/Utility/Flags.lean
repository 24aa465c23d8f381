import Runnel.Number.Integer
import Runnel.Text.Ascii

/-!
# Runnel.Utility.Flags

How built-in commands read their arguments.

* `splitFlags`: clusters of letters behind a dash, then operands.
* `lineCount`: the number of lines that the commands for the start and the end of a text show.
-/

namespace Runnel

/-- Arguments that a command does not understand. -/
inductive UsageError where
  /-- A letter that means nothing. -/
  | unknownFlag (letter : Char)
  /-- The number behind `-n` is missing. -/
  | missingCount
  /-- The number of lines is none. -/
  | badCount (text : String)
  deriving Repr, DecidableEq

/-- The text of an error. -/
def UsageError.message : UsageError → String
  | .unknownFlag letter => "invalid option -- '" ++ letter.toString ++ "'"
  | .missingCount => "option requires an argument -- 'n'"
  | .badCount text => "invalid number of lines: '" ++ text ++ "'"

/-- The letters of a cluster behind a dash; nothing for other arguments and for a lone dash. -/
def flagLetters (arg : String) : Option (List Char) :=
  match arg.toList with
  | '-' :: c :: rest => some (c :: rest)
  | _ => none

/-- Splits flags from the operands behind them. Two dashes end the flags, and a lone dash is an
operand. -/
def splitFlags (known : List Char) : List String →
    Except UsageError (List Char × List String)
  | [] => .ok ([], [])
  | arg :: rest =>
    if arg == "--" then .ok ([], rest)
    else
      match flagLetters arg with
      | none => .ok ([], arg :: rest)
      | some letters =>
        match letters.find? fun c => !known.contains c with
        | some c => .error (.unknownFlag c)
        | none =>
          match splitFlags known rest with
          | .error e => .error e
          | .ok (flags, operands) => .ok (letters ++ flags, operands)

/-- A number of lines. -/
def readCount (text : String) : Except UsageError Nat :=
  match Number.readNat64? text with
  | some n => .ok n
  | none => .error (.badCount text)

/-- The text of a number of lines in an argument `-nN` or `-N`. -/
def countText? (arg : String) : Option String :=
  match arg.toList with
  | '-' :: 'n' :: rest => some (String.ofList rest)
  | '-' :: c :: rest =>
    if (c :: rest).all Char.isDigit then some (String.ofList (c :: rest)) else none
  | _ => none

/-- The number of lines, the last one counting, and the operands. -/
def lineCount (default : Nat) : List String → Except UsageError (Nat × List String)
  | [] => .ok (default, [])
  | arg :: rest =>
    if arg == "-n" then
      match rest with
      | [] => .error .missingCount
      | value :: rest =>
        match readCount value with
        | .error e => .error e
        | .ok n => lineCount n rest
    else
      match countText? arg with
      | some value =>
        match readCount value with
        | .error e => .error e
        | .ok n => lineCount n rest
      | none =>
        match lineCount default rest with
        | .error e => .error e
        | .ok (n, operands) => .ok (n, arg :: operands)

end Runnel
