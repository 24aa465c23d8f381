import Runnel.Config.Document
import Runnel.Text.Ascii

/-!
# Runnel.Script.Scope

The parameters of a script: its variables, its arguments and those that the shell keeps itself.
-/

namespace Runnel.Script

/-- The parameters of a script. -/
structure Scope where
  /-- What the script is called. -/
  name : String
  /-- Its arguments. -/
  args : List String
  /-- Its variables. -/
  values : Environment
  /-- The variables that programs get to see. -/
  exported : List String
  /-- The exit code of the last command. -/
  status : Int
  /-- The number of the shell. -/
  process : Nat
  /-- The number of the last command in the background. -/
  background : Option Nat
  /-- The letters of the options that are set. -/
  flags : List Char
  deriving Repr, DecidableEq

namespace Scope

/-- The option of a letter is set. -/
def hasFlag (s : Scope) (flag : Char) : Bool :=
  s.flags.contains flag

/-- The characters at which values are split. -/
def separators (s : Scope) : List Char :=
  match s.values.get? "IFS" with
  | some text => text.toList
  | none => [' ', '\t', '\n']

/-- All arguments in a row. -/
def joinedArgs (s : Scope) : String :=
  let separator := match s.values.get? "IFS" with
    | some text => String.ofList (text.toList.take 1)
    | none => " "
  separator.intercalate s.args

/-- The value of an argument; number zero is the name. -/
def argument? (s : Scope) (n : Nat) : Option String :=
  (s.name :: s.args)[n]?

/-- The number that digits stand for. -/
def number (digits : List Char) : Nat :=
  digits.foldl (fun n c => n * 10 + (c.toNat - '0'.toNat)) 0

/-- The value of a parameter. -/
def value? (s : Scope) (name : String) : Option String :=
  match name with
  | "@" | "*" => if s.args.isEmpty then none else some s.joinedArgs
  | "#" => some (Text.digits s.args.length)
  | "?" => some (Text.signedDigits s.status)
  | "-" => some (String.ofList s.flags)
  | "$" => some (Text.digits s.process)
  | "!" => s.background.map Text.digits
  | name =>
    if !name.isEmpty && name.toList.all Char.isDigit then s.argument? (number name.toList)
    else s.values.get? name

/-- Sets a variable. -/
def assign (s : Scope) (name value : String) : Scope :=
  { s with
    values := s.values.set name value
    exported := if s.hasFlag 'a' then s.exported.insert name else s.exported }

/-- The values of variables, by name. -/
def saved (s : Scope) (names : List String) : List (String × Option String) :=
  names.map fun name => (name, s.values.get? name)

/-- Removes a variable. -/
def remove (s : Scope) (name : String) : Scope :=
  { s with values := s.values.unset name, exported := s.exported.erase name }

/-- Lets programs see a variable. -/
def expose (s : Scope) (name : String) : Scope :=
  { s with exported := s.exported.insert name }

/-- Gives variables the values that they had. -/
def rebind (s : Scope) (saved : List (String × Option String)) : Scope :=
  saved.foldl
    (fun s (name, value) =>
      match value with
      | some v => s.assign name v
      | none => s.remove name)
    s

/-- The variables that programs get to see. -/
def environment (s : Scope) : Environment :=
  s.values.filter fun v => s.exported.contains v.1

end Scope
end Runnel.Script
