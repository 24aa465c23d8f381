import Runnel.Host.Program
import Runnel.Text.Blank
import Runnel.Utility.Handler

/-!
# Runnel.Utility.Condition

The command that tests a condition. How many arguments there are decides how they are read.
-/

namespace Runnel.Condition

/-- A condition that cannot be tested. -/
inductive ConditionError where
  /-- An operator before one operand that is none. -/
  | unaryExpected (op : String)
  /-- An operator between two operands that is none. -/
  | binaryExpected (op : String)
  /-- An operand that should be a number. -/
  | integerExpected (text : String)
  /-- Too many arguments. -/
  | tooMany
  deriving Repr, DecidableEq

/-- The text of an error. -/
def ConditionError.message : ConditionError → String
  | .unaryExpected op => op ++ ": unary operator expected"
  | .binaryExpected op => op ++ ": binary operator expected"
  | .integerExpected text => text ++ ": integer expression expected"
  | .tooMany => "too many arguments"

/-- An operator before one operand; a node is looked up through `stat`. -/
def unary (stat : String → Except SystemError Node) (op operand : String) :
    Except ConditionError Bool :=
  let holds := Disk.holds (stat operand)
  match op with
  | "-n" => .ok (operand != "")
  | "-z" => .ok (operand == "")
  | "-e" => .ok (holds fun _ => true)
  | "-f" => .ok (holds Node.isFile)
  | "-d" => .ok (holds Node.isDirectory)
  | "-s" => .ok (holds fun n => 0 < n.size)
  | "-r" => .ok (holds fun n => n.hasMode 0o444)
  | "-w" => .ok (holds fun n => n.hasMode 0o222)
  | "-x" => .ok (holds fun n => n.hasMode 0o111)
  | _ => .error (.unaryExpected op)

/-- A number, perhaps with blanks around it. -/
def integer (text : String) : Except ConditionError Int :=
  match Number.readInt64? (Text.trim text) with
  | some n => .ok n
  | none => .error (.integerExpected text)

/-- A comparison of numbers, the left one being read first. -/
def compareIntegers (holds : Int → Int → Bool) (left right : String) :
    Except ConditionError Bool := do
  let l ← integer left
  let r ← integer right
  return holds l r

/-- An operator between two operands. -/
def binary (left op right : String) : Except ConditionError Bool :=
  match op with
  | "=" | "==" => .ok (left == right)
  | "!=" => .ok (left != right)
  | "-eq" => compareIntegers (· == ·) left right
  | "-ne" => compareIntegers (· != ·) left right
  | "-lt" => compareIntegers (· < ·) left right
  | "-le" => compareIntegers (· ≤ ·) left right
  | "-gt" => compareIntegers (· > ·) left right
  | "-ge" => compareIntegers (· ≥ ·) left right
  | _ => .error (.binaryExpected op)

/-- Whether a condition holds. -/
def evaluate (stat : String → Except SystemError Node) : List String → Except ConditionError Bool
  | [] => .ok false
  | [text] => .ok (text != "")
  | first :: rest =>
    if first == "!" && rest.length ≤ 3 then
      match evaluate stat rest with
      | .ok b => .ok (!b)
      | .error e => .error e
    else
      match rest with
      | [operand] => unary stat first operand
      | [op, right] => binary first op right
      | _ => .error .tooMany

/-- The arguments of a condition; the name `[` asks for a bracket at the end. -/
def operands? (name : String) (args : List String) : Option (List String) :=
  if name == "[" then if args.getLast? == some "]" then some args.dropLast else none
  else some args

/-- The command. -/
def handler : Handler :=
  .reading fun i d =>
    match operands? i.name i.args with
    | none => .done (.ofMessage "[: missing ']'\n" 2)
    | some args =>
      match evaluate (fun path => d.stat (i.resolve path)) args with
      | .ok true => .done (.ofCode 0)
      | .ok false => .done (.ofCode 1)
      | .error e => .done (.ofMessage (i.name ++ ": " ++ e.message ++ "\n") 2)

end Runnel.Condition
