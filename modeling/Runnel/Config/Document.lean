import Runnel.Config.Settings
import Runnel.Config.Toml

/-!
# Runnel.Config.Document

The configuration of a shell and how it is read from a TOML document. Keys that mean nothing are
ignored, and values of the wrong type are refused. A group of settings may also be written as a list
of its values in order.

* `Config`: switches, defaults of runs and variables.
* `Config.parse`: the configuration of a document.
* `Environment`: variables by name.
-/

namespace Runnel

/-- The value of every variable that is set, in the order in which they were set. -/
abbrev Environment : Type := List (String × String)

namespace Environment

/-- The value of a variable. -/
def get? (env : Environment) (name : String) : Option String :=
  env.lookup name

/-- Forgets a variable. -/
def unset (env : Environment) (name : String) : Environment :=
  env.filter fun e => e.1 != name

/-- Sets a variable. -/
def set (env : Environment) (name value : String) : Environment :=
  env.unset name ++ [(name, value)]

/-- Sets several variables, the last value of each name counting. -/
def extend (env : Environment) (more : List (String × String)) : Environment :=
  more.foldl (fun env e => env.set e.1 e.2) env

end Environment

/-- What runs do unless told otherwise. -/
structure RunDefaults where
  /-- Output is copied to the terminal. -/
  display : Option Bool
  /-- Output is kept. -/
  capture : Option Bool
  /-- The real shell. -/
  shell : Option String
  deriving Repr, DecidableEq

/-- The configuration of a shell. -/
structure Config where
  /-- The switches. -/
  settings : Settings
  /-- What runs do unless told otherwise. -/
  run : RunDefaults
  /-- Variables on top of those of the process. -/
  env : Environment
  deriving Repr, DecidableEq

/-- Why a configuration cannot be had. -/
inductive ConfigError where
  /-- The document is malformed or a value has the wrong type. -/
  | malformedDocument
  /-- The document cannot be read. -/
  | unreadableDocument (path : String) (reason : String)
  /-- A line of an environment file is at fault, or reading it is; the reasons lead to each
  other. -/
  | environmentLine (file : String) (reasons : List String)
  deriving Repr, DecidableEq

/-- What an error is about. -/
def ConfigError.summary : ConfigError → String
  | .malformedDocument => "Failed to parse cmdflow.toml"
  | .unreadableDocument path _ => "Failed to read " ++ path
  | .environmentLine file _ => "Invalid line in " ++ file

/-- Why an error has come about, each reason before the one that led to it. -/
def ConfigError.causes : ConfigError → List String
  | .malformedDocument => []
  | .unreadableDocument _ reason => [reason]
  | .environmentLine _ reasons => reasons

/-- The text of an error. What is wrong with a document is left out. -/
def ConfigError.message (e : ConfigError) : String :=
  match e with
  | .environmentLine _ reasons => ": ".intercalate (e.summary :: reasons)
  | e => e.summary

namespace Config

/-- Nothing is configured. -/
def empty : Config :=
  ⟨.off, ⟨none, none, none⟩, []⟩

/-- The value of a key, or the value at its place in a list. -/
def member (key : String) (index : Nat) : Toml → Option Toml
  | .table _ entries => entries.lookup key
  | .array _ values => values[index]?
  | _ => none

/-- The value can hold members. -/
def isGroup : Toml → Bool
  | .table _ _ | .array _ _ => true
  | _ => false

/-- A truth value if there is a value at all. -/
def bool? : Option Toml → Except ConfigError (Option Bool)
  | none => .ok none
  | some (.boolean b) => .ok (some b)
  | some _ => .error .malformedDocument

/-- Text if there is a value at all. -/
def text? : Option Toml → Except ConfigError (Option String)
  | none => .ok none
  | some (.string s) => .ok (some s)
  | some _ => .error .malformedDocument

/-- The switches of a group. -/
def readSettings (group : Toml) : Except ConfigError Settings := do
  unless isGroup group do throw .malformedDocument
  let errexit ← bool? (member "errexit" 0 group)
  let verbose ← bool? (member "verbose" 1 group)
  let xtrace ← bool? (member "xtrace" 2 group)
  let nounset ← bool? (member "nounset" 3 group)
  let pipefail ← bool? (member "pipefail" 4 group)
  return ⟨errexit.getD false, verbose.getD false, xtrace.getD false, nounset.getD false,
    pipefail.getD false⟩

/-- The defaults of a group. -/
def readRun (group : Toml) : Except ConfigError RunDefaults := do
  unless isGroup group do throw .malformedDocument
  let display ← bool? (member "mirror" 0 group)
  let capture ← bool? (member "capture" 1 group)
  let shell ← text? (member "shell" 2 group)
  return ⟨display, capture, shell⟩

/-- The variables of a table. -/
def readVariables : Toml → Except ConfigError Environment
  | .table _ entries =>
    entries.mapM fun e =>
      match e.2 with
      | .string value => .ok (e.1, value)
      | _ => .error .malformedDocument
  | _ => .error .malformedDocument

/-- The configuration of a document. -/
def parse (text : String) : Except ConfigError Config := do
  match Toml.read? text with
  | none => throw .malformedDocument
  | some document =>
    let settings ← ((document.lookup "settings").map readSettings).getD (.ok empty.settings)
    let run ← ((document.lookup "run").map readRun).getD (.ok empty.run)
    let env ← ((document.lookup "env").map readVariables).getD (.ok empty.env)
    return ⟨settings, run, env⟩

end Config
end Runnel
