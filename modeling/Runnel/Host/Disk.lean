import Runnel.Host.Path
import Runnel.Host.SystemError
import Runnel.Text.Utf8

/-!
# Runnel.Host.Disk

Files, directories and symbolic links.

* `Disk`: a table of nodes. A node that is no longer in any directory stays in the table, so that a
  file can still be written to through a handle after it was removed.
* `Disk.locate`: follows a path from the root; `Disk.locateEntry` never follows a link at its end.
* `Disk.find?`: the node of a path, which may be asked not to follow a link at the end.
* Permission bits decide what can be run, and nothing else.
-/

namespace Runnel

/-- The number of a node. -/
abbrev NodeId : Type := Nat

/-- What a node holds. -/
inductive NodeContent where
  /-- A regular file. -/
  | file (bytes : Bytes)
  /-- A directory: names and nodes in the order in which they were added. -/
  | directory (entries : List (String × NodeId))
  /-- A symbolic link. -/
  | link (target : String)
  deriving Repr, DecidableEq

/-- A file, a directory or a link. -/
structure Node where
  /-- What it holds. -/
  content : NodeContent
  /-- Its permission bits. -/
  mode : Nat
  deriving Repr, DecidableEq

/-- All nodes; number zero is the root. -/
structure Disk where
  /-- The nodes by number. -/
  nodes : Array Node

namespace Node

/-- The node is a directory. -/
def isDirectory (n : Node) : Bool :=
  match n.content with
  | .directory _ => true
  | _ => false

/-- The node is a regular file. -/
def isFile (n : Node) : Bool :=
  match n.content with
  | .file _ => true
  | _ => false

/-- The node is a symbolic link. -/
def isLink (n : Node) : Bool :=
  match n.content with
  | .link _ => true
  | _ => false

/-- The entries of a directory; anything else has none. -/
def entries (n : Node) : List (String × NodeId) :=
  match n.content with
  | .directory entries => entries
  | _ => []

/-- The content of a file; anything else has none. -/
def bytes (n : Node) : Bytes :=
  match n.content with
  | .file bytes => bytes
  | _ => []

/-- The size that a listing shows. -/
def size (n : Node) : Nat :=
  match n.content with
  | .file bytes => bytes.length
  | .directory _ => 4096
  | .link target => (Text.encode target).length

/-- Some of the permission bits of the mask are set. -/
def hasMode (n : Node) (mask : Nat) : Bool :=
  Nat.land n.mode mask != 0

end Node

namespace Disk

/-- The root and nothing else. -/
def empty : Disk :=
  ⟨#[⟨.directory [], 0o755⟩]⟩

/-- The node of a number. -/
def node (d : Disk) (id : NodeId) : Node :=
  d.nodes.getD id ⟨.directory [], 0⟩

/-- Replaces a node. -/
def update (d : Disk) (id : NodeId) (change : Node → Node) : Disk :=
  ⟨d.nodes.modify id change⟩

/-- Adds a node that is in no directory. -/
def allocate (d : Disk) (n : Node) : NodeId × Disk :=
  (d.nodes.size, ⟨d.nodes.push n⟩)

/-- The node of a name in a directory. -/
def child? (d : Disk) (parent : NodeId) (name : String) : Option NodeId :=
  (d.node parent).entries.lookup name

/-- Changes the entries of a directory. -/
def changeEntries (d : Disk) (parent : NodeId)
    (change : List (String × NodeId) → List (String × NodeId)) : Disk :=
  d.update parent fun n => { n with content := .directory (change n.entries) }

/-- Enters a node into a directory. -/
def attach (d : Disk) (parent : NodeId) (name : String) (id : NodeId) : Disk :=
  d.changeEntries parent fun entries => entries ++ [(name, id)]

/-- Takes a name out of a directory. -/
def detach (d : Disk) (parent : NodeId) (name : String) : Disk :=
  d.changeEntries parent fun entries => entries.filter fun e => e.1 != name

/-- Adds a new node to a directory. -/
def create (d : Disk) (parent : NodeId) (name : String) (n : Node) : NodeId × Disk :=
  let (id, d) := d.allocate n
  (id, d.attach parent name id)

/-- Directories from one up to the root, each with its name; the root itself is not listed. -/
abbrev Trail : Type := List (String × NodeId)

/-- The directory at the near end of a trail. -/
def Trail.here (trail : Trail) : NodeId :=
  match trail with
  | [] => 0
  | (_, id) :: _ => id

/-- The path of the directory at the near end of a trail. -/
def Trail.path (trail : Trail) : String :=
  if trail.isEmpty then "/"
  else String.join (trail.reverse.map fun e => "/" ++ e.1)

/-- Where a path leads. -/
inductive Place where
  /-- To a directory that the path does not call by its name. -/
  | itself (trail : Trail) (viaParent : Bool)
  /-- To a name in a directory, and to a node if the name is there. -/
  | named (trail : Trail) (name : String) (node : Option NodeId)

/-- Where a path leads, and whether a slash at its end asks for a directory. -/
structure Located where
  /-- The place. -/
  place : Place
  /-- A slash is at the end. -/
  slash : Bool

/-- The longest name. -/
def nameLimit : Nat := 255

/-- The first length at which a path is too long. -/
def pathLimit : Nat := 4096

/-- How many links a path may lead through. -/
def linkLimit : Nat := 40

/-- The trail from which a link's target is followed. -/
def linkStart (trail : Trail) (target : String) : Trail :=
  if Path.isAbsolute target then [] else trail

/-- Follows steps from the end of a trail. At most `links` links are followed; one at the end only
if `follow` or a slash asks for it. -/
def walk (d : Disk) (follow : Bool) (links : Nat) (trail : Trail) (steps : List String)
    (slash : Bool) : Except SystemError Located :=
  match steps with
  | [] => .ok ⟨.itself trail false, slash⟩
  | [name] =>
    if name == "." then .ok ⟨.itself trail false, slash⟩
    else if name == ".." then .ok ⟨.itself trail.tail true, slash⟩
    else if (Text.encode name).length > nameLimit then .error .nameTooLong
    else
      match d.child? trail.here name with
      | none => .ok ⟨.named trail name none, slash⟩
      | some id =>
        match (d.node id).content with
        | .link target =>
          if follow || slash then
            match links with
            | 0 => .error .linkLoop
            | links + 1 =>
              walk d follow links (linkStart trail target) (Path.steps target)
                (slash || Path.endsInSlash target)
          else .ok ⟨.named trail name (some id), slash⟩
        | _ => .ok ⟨.named trail name (some id), slash⟩
  | name :: rest =>
    if name == "." then walk d follow links trail rest slash
    else if name == ".." then walk d follow links trail.tail rest slash
    else if (Text.encode name).length > nameLimit then .error .nameTooLong
    else
      match d.child? trail.here name with
      | none => .error .noEntry
      | some id =>
        match (d.node id).content with
        | .file _ => .error .notDirectory
        | .directory _ => walk d follow links ((name, id) :: trail) rest slash
        | .link target =>
          match links with
          | 0 => .error .linkLoop
          | links + 1 =>
            walk d follow links (linkStart trail target) (Path.steps target ++ rest) slash
termination_by (links, steps.length)

/-- What is wrong with the text of a path, before any of it is followed. -/
def pathFault? (path : String) : Option SystemError :=
  if path.toList.contains '\x00' then some .zeroInName
  else if path.isEmpty then some .noEntry
  else if pathLimit ≤ (Text.encode path).length then some .nameTooLong
  else none

/-- Follows an absolute path from the root. -/
def locate (d : Disk) (follow : Bool) (path : String) : Except SystemError Located :=
  match pathFault? path with
  | some e => .error e
  | none => walk d follow linkLimit [] (Path.steps path) (Path.endsInSlash path)

/-- Follows an absolute path from the root to an entry of a directory. A link at the end is not
followed, even if a slash stands behind it. -/
def locateEntry (d : Disk) (path : String) : Except SystemError Located :=
  match pathFault? path with
  | some e => .error e
  | none =>
    (walk d false linkLimit [] (Path.steps path) false).map fun found =>
      { found with slash := Path.endsInSlash path }

/-- The node of a path. -/
def find? (d : Disk) (follow : Bool) (path : String) : Except SystemError NodeId := do
  let found ← d.locate follow path
  match found.place with
  | .itself trail _ => return trail.here
  | .named _ _ none => throw .noEntry
  | .named _ _ (some id) =>
    if found.slash && !(d.node id).isDirectory then throw .notDirectory
    return id

/-- The node of a path, links at its end being followed. -/
def stat (d : Disk) (path : String) : Except SystemError Node :=
  (d.find? true path).map d.node

/-- The node of a path, a link at its end not being followed. -/
def statLink (d : Disk) (path : String) : Except SystemError Node :=
  (d.find? false path).map d.node

/-- What is known of a node, or `false` if there is none. -/
def holds (found : Except SystemError Node) (p : Node → Bool) : Bool :=
  match found with
  | .ok n => p n
  | .error _ => false

/-- Something is there. -/
def pathExists (d : Disk) (path : String) : Bool :=
  holds (d.stat path) fun _ => true

/-- A directory is there. -/
def isDirectory (d : Disk) (path : String) : Bool :=
  holds (d.stat path) Node.isDirectory

/-- A regular file is there. -/
def isFile (d : Disk) (path : String) : Bool :=
  holds (d.stat path) Node.isFile

/-- The path without links and dots. -/
def canonical? (d : Disk) (path : String) : Except SystemError String := do
  let found ← d.locate true path
  match found.place with
  | .itself trail _ => return trail.path
  | .named _ _ none => throw .noEntry
  | .named trail name (some id) =>
    if found.slash && !(d.node id).isDirectory then throw .notDirectory
    return Trail.path ((name, id) :: trail)

/-- The content of a file. -/
def readFile (d : Disk) (path : String) : Except SystemError Bytes := do
  let n ← d.stat path
  match n.content with
  | .file bytes => return bytes
  | _ => throw .isDirectory

/-- The names in a directory. -/
def readDirectory (d : Disk) (path : String) : Except SystemError (List String) := do
  let n ← d.stat path
  match n.content with
  | .directory entries => return entries.map Prod.fst
  | _ => throw .notDirectory

end Disk
end Runnel
