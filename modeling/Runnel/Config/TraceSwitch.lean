/-!
# Runnel.Config.TraceSwitch

The switch that turns traces on.
-/

namespace Runnel.TraceSwitch

/-- The text turns the switch on. -/
def isOn (text : String) : Bool :=
  text == "true" || text == "1"

/-- The text turns the switch off. -/
def isOff (text : String) : Bool :=
  text == "false" || text == "0"

/-- Traces are on. The variable for traces decides if it is clear; otherwise the one for verbosity
may turn traces on. -/
def isEnabled (trace verbose : Option String) : Bool :=
  if trace.any isOff then false else trace.any isOn || verbose.any isOn

end Runnel.TraceSwitch
