import Runnel.Host.Disk

/-!
# Runnel.Host.Listing

What is below a directory, depth first and with names sorted by their bytes.
-/

namespace Runnel

/-- What stands at a path of a listing. -/
inductive ListedKind where
  /-- A directory. -/
  | directory
  /-- A file with this content. -/
  | file (bytes : Bytes)
  /-- A link to this target. -/
  | link (target : String)
  deriving Repr, DecidableEq

/-- A path and what stands there. -/
structure Listed where
  /-- The path, relative to the directory that was listed. -/
  path : String
  /-- What stands there. -/
  kind : ListedKind
  deriving Repr, DecidableEq

namespace Disk

/-- Names in the order of their bytes. -/
def sortedNames (names : List String) : List String :=
  names.mergeSort fun a b => !(decide (b < a))

/-- All that is below a node. The number bounds the depth. -/
def listingFrom (d : Disk) : Nat → NodeId → String → List Listed
  | 0, _, _ => []
  | depth + 1, id, above =>
    (sortedNames ((d.node id).entries.map Prod.fst)).flatMap fun name =>
      match d.child? id name with
      | none => []
      | some child =>
        let path := above ++ name
        match (d.node child).content with
        | .file bytes => [⟨path, .file bytes⟩]
        | .link target => [⟨path, .link target⟩]
        | .directory _ => ⟨path, .directory⟩ :: listingFrom d depth child (path ++ "/")

/-- All that is below a directory. -/
def listing (d : Disk) (path : String) : List Listed :=
  match d.find? true path with
  | .error _ => []
  | .ok id => listingFrom d (d.nodes.size + 1) id ""

end Disk
end Runnel
