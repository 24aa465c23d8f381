import Runnel.Text.Blank
import Runnel.Utility.Handler

/-!
# Runnel.Utility.Waiting

The commands that do nothing, for a while or at once, and the one that repeats a line for ever.
-/

namespace Runnel.Waiting

/-- The exit code of a pause that was cut short. -/
def cutShortCode : Int := 143

/-- The length of a pause whose parts are given, after the parts before them. -/
def total (sum : Number.Duration) : List String → Except Outcome Number.Duration
  | [] => .ok sum
  | arg :: rest =>
    match Number.Duration.read? arg with
    | none => .error (.failed ("invalid time interval '" ++ arg ++ "'"))
    | some part =>
      match sum.add? part with
      | none => .error (.crashed (some "overflow when adding durations"))
      | some sum => total sum rest

/-- The command that pauses. -/
def sleepHandler : Handler :=
  .pure fun i =>
    if i.args.isEmpty then .failed "missing operand"
    else
      match total .zero i.args with
      | .error outcome => outcome
      | .ok length => .pause length 0 cutShortCode

/-- A command that does nothing. -/
def statusHandler (code : Int) : Handler :=
  .pure fun _ => .done (.ofCode code)

/-- The line that is repeated. -/
def repeatedLine (args : List String) : String :=
  if args.isEmpty then "y\n" else Text.joinWith " " args ++ "\n"

/-- The command that repeats a line until nobody reads it any more. -/
def yesHandler : Handler :=
  .generator ⟨fun i steps refused =>
    if refused then .finish 0
    else if steps % 2 == 0 then .send (Text.encode (repeatedLine i.args))
    else .pause⟩

end Runnel.Waiting
