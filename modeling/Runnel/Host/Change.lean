import Runnel.Host.Disk

/-!
# Runnel.Host.Change

Requests that change a disk. A request that fails gives the disk as it is then, since some requests
fail after a part of their work.

* `Disk.makeDirectory`, `Disk.makeDirectories`, `Disk.removeFile`, `Disk.removeTree`, `Disk.rename`.
* `Disk.openOutput`: opens a file for writing, which is created if need be.
* `Disk.copyTree`: copies a directory.
* `Disk.copyFile`: opens the source, then empties the target, then copies; a file that is copied
  onto itself is therefore empty afterwards.
-/

namespace Runnel.Disk

/-- What a request gives, and the disk afterwards. -/
abbrev Change (α : Type) : Type := Except SystemError α × Disk

/-- The permission bits of a new file. -/
def fileMode : Nat := 0o644

/-- The permission bits of a new directory. -/
def directoryMode : Nat := 0o755

/-- Creates a directory. -/
def makeDirectory (d : Disk) (path : String) : Change Unit :=
  match d.locateEntry path with
  | .error e => (.error e, d)
  | .ok found =>
    match found.place with
    | .named trail name none =>
      (.ok (), (d.create trail.here name ⟨.directory [], directoryMode⟩).2)
    | _ => (.error .alreadyExists, d)

/-- Creates a directory and, as far as they are missing, those above it. The number bounds how many
are missing. -/
def makeDirectoriesWithin : Nat → Disk → String → Change Unit
  | 0, d, _ => (.error .noEntry, d)
  | n + 1, d, path =>
    match d.makeDirectory path with
    | (.ok (), d) => (.ok (), d)
    | (.error .noEntry, d) =>
      match Path.parent? path with
      | none => (.error .noEntry, d)
      | some above =>
        match makeDirectoriesWithin n d above with
        | (.error e, d) => (.error e, d)
        | (.ok (), d) =>
          match d.makeDirectory path with
          | (.ok (), d) => (.ok (), d)
          | (.error e, d) => if d.isDirectory path then (.ok (), d) else (.error e, d)
    | (.error e, d) => if d.isDirectory path then (.ok (), d) else (.error e, d)

/-- Creates a directory and, as far as they are missing, those above it. -/
def makeDirectories (d : Disk) (path : String) : Change Unit :=
  makeDirectoriesWithin (path.length + 1) d path

/-- Removes a file or a link. -/
def removeFile (d : Disk) (path : String) : Change Unit :=
  match d.locate false path with
  | .error e => (.error e, d)
  | .ok found =>
    match found.place with
    | .itself _ _ => (.error .isDirectory, d)
    | .named _ _ none => (.error .noEntry, d)
    | .named trail name (some id) =>
      if (d.node id).isDirectory then (.error .isDirectory, d)
      else if found.slash then (.error .notDirectory, d)
      else (.ok (), d.detach trail.here name)

/-- Removes an empty directory. -/
def removeDirectory (d : Disk) (path : String) : Change Unit :=
  match d.locateEntry path with
  | .error e => (.error e, d)
  | .ok found =>
    match found.place with
    | .itself _ viaParent =>
      let isRoot := (Path.steps path).isEmpty
      (.error (if viaParent then .notEmpty else if isRoot then .busy else .invalid), d)
    | .named _ _ none => (.error .noEntry, d)
    | .named trail name (some id) =>
      if !(d.node id).isDirectory then (.error .notDirectory, d)
      else if (d.node id).entries.isEmpty then (.ok (), d.detach trail.here name)
      else (.error .notEmpty, d)

/-- Takes everything out of a directory and out of those below it. The number bounds the depth. -/
def emptied : Nat → Disk → NodeId → Disk
  | 0, d, _ => d
  | depth + 1, d, id =>
    (d.node id).entries.foldl
      (fun d e => (if (d.node e.2).isDirectory then emptied depth d e.2 else d).detach id e.1) d

/-- Removes a directory with all that is in it; a link is removed as such. That the directory is
gone when its turn comes is no failure. -/
def removeTree (d : Disk) (path : String) : Change Unit :=
  match d.find? false path with
  | .error e => (.error e, d)
  | .ok id =>
    if (d.node id).isLink then d.removeFile path
    else if !(d.node id).isDirectory then (.error .notDirectory, d)
    else
      let d := emptied d.nodes.size d id
      match d.removeDirectory path with
      | (.error .noEntry, d) => (.ok (), d)
      | outcome => outcome

/-- The directories that a trail leads through, the root included. -/
def Trail.ids (trail : Trail) : List NodeId :=
  trail.map Prod.snd ++ [0]

/-- Whether, and why not, the node `source` may take the place of `target`. -/
def renameFault? (d : Disk) (source target : NodeId) : Option SystemError :=
  if (d.node source).isDirectory then
    if !(d.node target).isDirectory then some .notDirectory
    else if (d.node target).entries.isEmpty then none
    else some .notEmpty
  else if (d.node target).isDirectory then some .isDirectory
  else none

/-- Moves a file or a directory to another path, in place of what is there. -/
def rename (d : Disk) (source target : String) : Change Unit :=
  match d.locateEntry source with
  | .error e => (.error e, d)
  | .ok old =>
    match d.locateEntry target with
    | .error e => (.error e, d)
    | .ok new =>
      match old.place, new.place with
      | .named _ _ none, .named _ _ _ => (.error .noEntry, d)
      | .named oldTrail oldName (some id), .named newTrail newName replaced =>
        if !(d.node id).isDirectory && (old.slash || new.slash) then (.error .notDirectory, d)
        else if newTrail.ids.contains id then (.error .invalid, d)
        else
          match replaced with
          | none =>
            (.ok (), (d.detach oldTrail.here oldName).attach newTrail.here newName id)
          | some there =>
            if there == id then (.ok (), d)
            else if oldTrail.ids.contains there then (.error .notEmpty, d)
            else
              match d.renameFault? id there with
              | some e => (.error e, d)
              | none =>
                (.ok (), ((d.detach oldTrail.here oldName).detach newTrail.here newName).attach
                  newTrail.here newName id)
      | _, _ => (.error .busy, d)

/-- What becomes of the content of a file that is opened for writing. -/
inductive OutputMode where
  /-- It is dropped. -/
  | overwrite
  /-- It stays, and what is written follows it. -/
  | append
  deriving Repr, DecidableEq

/-- Opens a file for writing; a missing file is created with these permission bits. -/
def openOutput (d : Disk) (path : String) (how : OutputMode) (mode : Nat) : Change NodeId :=
  match d.locate true path with
  | .error e => (.error e, d)
  | .ok found =>
    match found.place with
    | .itself _ _ => (.error .isDirectory, d)
    | .named trail name none =>
      if found.slash then (.error .isDirectory, d)
      else
        let (id, d) := d.create trail.here name ⟨.file [], mode⟩
        (.ok id, d)
    | .named _ _ (some id) =>
      if found.slash || (d.node id).isDirectory then (.error .isDirectory, d)
      else
        match how with
        | .overwrite => (.ok id, d.update id fun n => { n with content := .file [] })
        | .append => (.ok id, d)

/-- Writes bytes at a position of a file; a gap before it reads as zeros. -/
def writeAt (d : Disk) (id : NodeId) (position : Nat) (bytes : Bytes) : Disk :=
  d.update id fun n =>
    let old := n.bytes
    let before := old.take position ++ List.replicate (position - old.length) 0
    { n with content := .file (before ++ bytes ++ old.drop (position + bytes.length)) }

/-- Writes bytes at the end of a file. -/
def appendBytes (d : Disk) (id : NodeId) (bytes : Bytes) : Disk :=
  d.update id fun n => { n with content := .file (n.bytes ++ bytes) }

/-- Copies the content and the permission bits of a file. -/
def copyFile (d : Disk) (source target : String) : Change Unit :=
  match d.find? true source with
  | .error e => (.error e, d)
  | .ok id =>
    if !(d.node id).isFile then (.error .notRegular, d)
    else
      let mode := (d.node id).mode
      match d.openOutput target .overwrite mode with
      | (.error e, d) => (.error e, d)
      | (.ok there, d) =>
        let bytes := (d.node id).bytes
        (.ok (), d.update there fun _ => ⟨.file bytes, mode⟩)

/-- Makes one request after the other, up to the first that fails. -/
def Change.each {α : Type} (request : Disk → α → Change Unit) : Disk → List α → Change Unit
  | d, [] => (.ok (), d)
  | d, a :: rest =>
    match request d a with
    | (.error e, d) => (.error e, d)
    | (.ok (), d) => Change.each request d rest

/-- Copies all that is in a directory into another one, which is created if need be; links are
followed. The number bounds the depth, which the length of paths bounds anyhow. -/
def copyTreeWithin : Nat → Disk → String → String → Change Unit
  | 0, d, _, _ => (.error .nameTooLong, d)
  | depth + 1, d, source, target =>
    match if d.pathExists target then (.ok (), d) else d.makeDirectories target with
    | (.error e, d) => (.error e, d)
    | (.ok (), d) =>
      match d.readDirectory source with
      | .error e => (.error e, d)
      | .ok names =>
        Change.each
          (fun d name =>
            let origin := Path.join source name
            let copy := Path.join target name
            match d.statLink origin with
            | .error e => (.error e, d)
            | .ok n =>
              if n.isDirectory then copyTreeWithin depth d origin copy else d.copyFile origin copy)
          d names

/-- Copies all that is in a directory into another one. -/
def copyTree (d : Disk) (source target : String) : Change Unit :=
  copyTreeWithin pathLimit d source target

/-- Writes a whole file, creating it and the directories above it as far as they are missing. -/
def writeFile (d : Disk) (path : String) (bytes : Bytes) : Change Unit :=
  let d := match Path.parent? path with
    | some above => (d.makeDirectories above).2
    | none => d
  match d.openOutput path .overwrite fileMode with
  | (.error e, d) => (.error e, d)
  | (.ok id, d) => (.ok (), d.appendBytes id bytes)

/-- Creates a symbolic link, and the directories above it as far as they are missing. -/
def makeLink (d : Disk) (path target : String) : Change Unit :=
  let d := match Path.parent? path with
    | some above => (d.makeDirectories above).2
    | none => d
  match d.locate false path with
  | .error e => (.error e, d)
  | .ok found =>
    match found.place with
    | .named trail name none => (.ok (), (d.create trail.here name ⟨.link target, 0o777⟩).2)
    | _ => (.error .alreadyExists, d)

/-- Sets the permission bits of a file or directory. -/
def setMode (d : Disk) (path : String) (mode : Nat) : Change Unit :=
  match d.find? true path with
  | .error e => (.error e, d)
  | .ok id => (.ok (), d.update id fun n => { n with mode })

end Runnel.Disk
