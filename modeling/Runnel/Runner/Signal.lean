/-!
# Runnel.Runner.Signal

Signals that end a command.
-/

namespace Runnel

/-- A signal that ends a command. -/
inductive Signal where
  /-- The terminal is gone. -/
  | hup
  /-- The user interrupts. -/
  | int
  /-- The user interrupts and wants a report. -/
  | quit
  /-- The command ends at once, whatever it wants. -/
  | kill
  /-- The command should end. -/
  | term
  deriving Repr, DecidableEq

namespace Signal

/-- The number of a signal. -/
def number : Signal → Nat
  | hup => 1
  | int => 2
  | quit => 3
  | kill => 9
  | term => 15

/-- The exit code of a command that a signal has ended. -/
def exitCode (s : Signal) : Int :=
  128 + s.number

/-- All signals, by number. -/
def all : List Signal :=
  [hup, int, quit, kill, term]

/-- The name of a signal. -/
def name : Signal → String
  | hup => "hup"
  | int => "int"
  | quit => "quit"
  | kill => "kill"
  | term => "term"

/-- The signal of a name. -/
def ofName? (name : String) : Option Signal :=
  all.find? fun s => s.name == name

end Signal
end Runnel
