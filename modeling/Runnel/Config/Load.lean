import Runnel.Config.Document
import Runnel.Config.Dotenv
import Runnel.Host.Disk

/-!
# Runnel.Config.Load

The configuration of a directory: its document, then its environment file on top.
-/

namespace Runnel.Config

/-- The name of the document. -/
def documentName : String := "cmdflow.toml"

/-- The variable that selects an environment file. -/
def selectorVariable : String := "CMDFLOW_ENV"

/-- The name of the environment file. -/
def environmentName (process : Environment) : String :=
  match process.get? selectorVariable with
  | some selected => ".env." ++ selected
  | none => ".env"

/-- The document of a directory; a missing one configures nothing. -/
def loadDocument (d : Disk) (dir : String) : Except ConfigError Config :=
  let path := Path.join dir documentName
  if !d.pathExists path then .ok empty
  else
    match d.readFile path with
    | .error e => .error (.unreadableDocument path e.message)
    | .ok bytes =>
      match Text.decode? bytes with
      | none => .error (.unreadableDocument path "stream did not contain valid UTF-8")
      | some text => parse text

/-- The variables of the environment file of a directory; a missing one has none. -/
def loadVariables (d : Disk) (process : Environment) (dir : String) :
    Except ConfigError (List (String × String)) :=
  let file := environmentName process
  let path := Path.join dir file
  if !d.pathExists path then .ok []
  else
    match d.readFile path with
    | .error e => .error (.environmentLine file [e.message, e.message])
    | .ok bytes =>
      match Dotenv.read process.get? bytes with
      | .ok entries => .ok entries
      | .error (.malformed text position) =>
        .error (.environmentLine file [(DotenvError.malformed text position).message])
      | .error .notUtf8 =>
        .error (.environmentLine file [DotenvError.notUtf8.message, DotenvError.notUtf8.message])

/-- The configuration of a directory, given the variables of the process. -/
def load (d : Disk) (process : Environment) (dir : String) : Except ConfigError Config :=
  match loadDocument d dir with
  | .error e => .error e
  | .ok config =>
    match loadVariables d process dir with
    | .error e => .error e
    | .ok entries => .ok { config with env := config.env.extend entries }

end Runnel.Config
