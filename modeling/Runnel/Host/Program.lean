import Runnel.Host.Change

/-!
# Runnel.Host.Program

Programs on a disk.

* `Installed`: the programs that every host has, and a disk with nothing but them.
* `Search`: how the program of a name is found. A name of several steps is a path below the working
  directory; any other name is looked for in the directories of the search path, of which relative
  ones lie below the working directory.
-/

namespace Runnel.Installed

/-- How the file of an installed program begins; the name of the program follows. -/
def mark : String := "\x7fELF"

/-- Where installed programs are. -/
def directory : String := "/usr/bin"

/-- The names of installed programs. -/
def names : List String :=
  ["[", "basename", "cat", "chmod", "cp", "dirname", "echo", "env", "false", "head", "ls", "mkdir",
    "mv", "printenv", "printf", "pwd", "rm", "seq", "sh", "sleep", "sort", "tail", "tee", "test",
    "touch", "tr", "true", "wc", "yes"]

/-- What the file of an installed program holds. -/
def content (name : String) : Bytes :=
  Text.encode (mark ++ name)

/-- The name of the installed program that a file holds. -/
def name? (bytes : Bytes) : Option String :=
  let start := Text.encode mark
  if start.isPrefixOf bytes then some (Text.decodeLossy (bytes.drop start.length)) else none

/-- The permission bits of programs. -/
def programMode : Nat := 0o755

/-- Installs a program. -/
def install (d : Disk) (name : String) : Disk :=
  let path := Path.join directory name
  ((d.writeFile path (content name)).2.setMode path programMode).2

/-- A disk with nothing but the programs that every host has, which can be found in two places. -/
def disk : Disk :=
  names.foldl install ((Disk.empty.makeDirectories directory).2.makeLink "/bin" "usr/bin").2

end Runnel.Installed

namespace Runnel.Search

/-- The bits that allow to run a file. -/
def executeMask : Nat := 0o111

/-- A program is there. -/
def isProgram (d : Disk) (path : String) : Bool :=
  Disk.holds (d.stat path) fun n => n.isFile && n.hasMode executeMask

/-- The directories of a search path. -/
def directories (searchPath : String) : List String :=
  splitColons searchPath.toList |>.map String.ofList
where
  /-- The runs of characters between colons, empty ones included. -/
  splitColons : List Char → List (List Char)
    | [] => [[]]
    | c :: rest =>
      if c == ':' then [] :: splitColons rest
      else
        match splitColons rest with
        | [] => [[c]]
        | first :: more => (c :: first) :: more

/-- A path of several steps below the working directory, without dots in front. -/
def below (cwd name : String) : String :=
  if Path.isAbsolute name then name
  else
    (Path.components name |>.dropWhile (· == .current)).foldl
      (fun path part => Path.join path part.text) cwd

/-- Where the program of a name may be, the best place first. -/
def candidates (searchPath : Option String) (cwd name : String) : List String :=
  if 1 < (Path.components name).length then [below cwd name]
  else
    match searchPath with
    | none => []
    | some p => (directories p).map fun dir => Path.join (Path.join cwd dir) name

/-- Where the program of a name is. -/
def program? (d : Disk) (searchPath : Option String) (cwd name : String) : Option String :=
  (candidates searchPath cwd name).find? (isProgram d)

end Runnel.Search
