import Runnel.Proofs.Host.Below

/-!
# Runnel.Proofs.Host.Trees

What is in a directory, on all levels, and what is added to one.

* `Disk.Tree`: a directory with what is in it.
* `Disk.Shows`: the tree is what is at a path; `Disk.Shows.keep`: for how long it is.
* `Disk.Holds`: all that is in the tree is also at a path.
* `Disk.Builds`: entries are added to a directory, and nothing else has changed.
-/

namespace Runnel.Disk

theorem Grows.extends {d d' : Disk} (h : d.Grows d') : d.Extends d' where
  kind := h.kind
  child := h.child
  fresh hfree hchild := by
    obtain ⟨bytes, hfile⟩ := h.file hfree hchild
    rw [Node.isLink, hfile]

theorem size_create (d : Disk) (parent : NodeId) (name : String) (n : Node) :
    (d.create parent name n).2.nodes.size = d.nodes.size + 1 := by
  show ((d.allocate n).2.attach parent name d.nodes.size).nodes.size = _
  rw [attach, changeEntries, size_update, allocate, Array.size_push]

/-! ## Trees -/

/-- What is at a path, down to the last file. -/
inductive Tree where
  /-- A file with these bytes. -/
  | file (bytes : Bytes)
  /-- No directory; the tree does not say what it is. -/
  | other
  /-- A directory: its node, and what is in it by name. -/
  | directory (id : NodeId) (entries : List (String × Tree))

namespace Tree

/-- It is a directory. -/
def isDirectory : Tree → Bool
  | directory _ _ => true
  | _ => false

/-- The names of the entries. -/
def names : Tree → List String
  | directory _ entries => entries.map Prod.fst
  | _ => []

mutual

/-- The number of entries, on all levels. -/
def size : Tree → Nat
  | .directory _ entries => sizes entries
  | _ => 0

/-- The number of these entries and of those below them. -/
def sizes : List (String × Tree) → Nat
  | [] => 0
  | (_, tree) :: rest => tree.size + 1 + sizes rest

end

mutual

/-- How many directories are in each other. -/
def levels : Tree → Nat
  | .directory _ entries => deepest entries + 1
  | _ => 0

/-- How many directories are in each other below a directory with these entries. -/
def deepest : List (String × Tree) → Nat
  | [] => 0
  | (_, tree) :: rest => max tree.levels (deepest rest)

end

mutual

/-- The nodes of the directories. -/
def directories : Tree → List NodeId
  | .directory id entries => id :: subdirectories entries
  | _ => []

/-- The nodes of the directories among these entries and below them. -/
def subdirectories : List (String × Tree) → List NodeId
  | [] => []
  | (_, tree) :: rest => tree.directories ++ subdirectories rest

end

variable {e : String × Tree} {entries : List (String × Tree)}

theorem levels_le_deepest (he : e ∈ entries) : e.2.levels ≤ deepest entries := by
  induction entries with
  | nil => cases he
  | cons first rest ih =>
    rw [deepest]
    rcases List.mem_cons.mp he with rfl | he
    · exact Nat.le_max_left ..
    · exact Nat.le_trans (ih he) (Nat.le_max_right ..)

theorem mem_subdirectories {id : NodeId} :
    id ∈ subdirectories entries ↔ ∃ e ∈ entries, id ∈ e.2.directories := by
  induction entries with
  | nil => simp [subdirectories]
  | cons first rest ih => simp [subdirectories, ih]

end Tree

/-- There is a directory of this name in the directory. -/
def hasDirectory (d : Disk) (parent : NodeId) (name : String) : Bool :=
  (d.child? parent name).any fun id => (d.node id).isDirectory

/-- These are the entries of a directory. -/
structure Lists (d : Disk) (id : NodeId) (entries : List (String × Tree)) : Prop where
  names : ∃ listing, (d.node id).content = .directory listing ∧
    listing.map Prod.fst = entries.map Prod.fst
  proper : ∀ e ∈ entries, Path.Proper e.1
  distinct : (entries.map Prod.fst).Nodup
  kind : ∀ e ∈ entries, d.hasDirectory id e.1 = e.2.isDirectory

/-- The tree is what is at the path. -/
inductive Shows (d : Disk) : String → Tree → Prop where
  | file {path : String} {bytes : Bytes} : d.readFile path = .ok bytes → Shows d path (.file bytes)
  | other (path : String) : Shows d path .other
  | directory {path : String} {id : NodeId} {entries : List (String × Tree)} :
    d.find? true path = .ok id → d.Lists id entries →
    (∀ e ∈ entries, Shows d (Path.join path e.1) e.2) → Shows d path (.directory id entries)

/-- All that is in the tree is also at the path, made of nodes from this number on. -/
inductive Holds (d : Disk) (low : NodeId) : String → Tree → Prop where
  | file {path : String} {id : NodeId} {bytes : Bytes} : d.find? true path = .ok id → low ≤ id →
    (d.node id).content = .file bytes → Holds d low path (.file bytes)
  | other (path : String) : Holds d low path .other
  | directory {path : String} {id there : NodeId} {entries : List (String × Tree)} :
    d.find? true path = .ok there → low ≤ there → (d.node there).isDirectory = true →
    (∀ e ∈ entries, Holds d low (Path.join path e.1) e.2) → Holds d low path (.directory id entries)

section

variable {d d' : Disk} {path : String} {id low low' : NodeId} {tree : Tree}
  {entries : List (String × Tree)}

theorem Sound.find?_lt (hd : d.Sound) {follow : Bool} (hid : d.find? follow path = .ok id) :
    id < d.nodes.size := by
  obtain ⟨⟨place, slash⟩, hlocate, hleads⟩ := find?_eq_ok.mp hid
  cases place with
  | itself trail viaParent =>
    obtain rfl : trail.here = id := hleads
    exact (hd.here hlocate).1
  | named trail name node =>
    obtain ⟨rfl, -⟩ := hleads
    exact hd.child (locate_exact hlocate).1.symm

theorem Lists.isDirectory (h : d.Lists id entries) : (d.node id).isDirectory = true := by
  obtain ⟨listing, hcontent, -⟩ := h.names
  rw [Node.isDirectory, hcontent]

theorem readDirectory_eq {listing : List (String × NodeId)} (hid : d.find? true path = .ok id)
    (hcontent : (d.node id).content = .directory listing) :
    d.readDirectory path = .ok (listing.map Prod.fst) := by
  rw [Disk.readDirectory, stat, hid]
  simp [Except.map, bind, Except.bind, hcontent, pure, Except.pure]

theorem Lists.readDirectory (h : d.Lists id entries) (hid : d.find? true path = .ok id) :
    d.readDirectory path = .ok (entries.map Prod.fst) := by
  obtain ⟨listing, hcontent, hnames⟩ := h.names
  rw [readDirectory_eq hid hcontent, hnames]

theorem Extends.hasDirectory (h : d.Extends d') {name : String}
    (hsame : d'.node id = d.node id) : d'.hasDirectory id name = d.hasDirectory id name := by
  rw [Disk.hasDirectory, Disk.hasDirectory, child?, hsame, ← child?]
  cases hchild : d.child? id name with
  | none => rfl
  | some there => exact h.isDirectory_eq hchild

theorem Lists.keep (h : d.Lists id entries) (hextends : d.Extends d')
    (hsame : d'.node id = d.node id) : d'.Lists id entries where
  names := by
    rw [hsame]
    exact h.names
  proper := h.proper
  distinct := h.distinct
  kind e he := by
    rw [hextends.hasDirectory hsame]
    exact h.kind e he

theorem Shows.lt (hd : d.Sound) (h : d.Shows path tree) :
    ∀ id ∈ tree.directories, id < d.nodes.size := by
  induction h with
  | file | other => nofun
  | directory hid _ _ ih =>
    intro there hthere
    rcases List.mem_cons.mp hthere with rfl | hthere
    · exact hd.find?_lt hid
    · obtain ⟨e, he, hthere⟩ := Tree.mem_subdirectories.mp hthere
      exact ih e he there hthere

/-- A tree stays as it is while its directories do and nothing happens to files. -/
theorem Shows.keep (hd : d.Sound) (hextends : d.Extends d') (h : d.Shows path tree)
    (hfiles : ∀ id < d.nodes.size, (d.node id).isDirectory = false → d'.node id = d.node id)
    (hsame : ∀ id ∈ tree.directories, d'.node id = d.node id) : d'.Shows path tree := by
  induction h with
  | file hread =>
    obtain ⟨id, hid, hfile⟩ := hd.names_of_readFile hread
    refine .file ?_
    rw [readFile_eq (hextends.find? hid.find_eq), hfiles id (hd.lt_of_names hid), hfile]
    rw [Node.isDirectory, hfile]
  | other path => exact .other path
  | @directory path id entries hid hlists _ ih =>
    refine .directory (hextends.find? hid) (hlists.keep hextends (hsame id List.mem_cons_self)) ?_
    intro e he
    refine ih e he fun there hthere => hsame there (List.mem_cons_of_mem _ ?_)
    exact Tree.mem_subdirectories.mpr ⟨e, he, hthere⟩

theorem Holds.mono (hle : low' ≤ low) (h : d.Holds low path tree) : d.Holds low' path tree := by
  induction h with
  | file hid hlow hfile => exact .file hid (Nat.le_trans hle hlow) hfile
  | other path => exact .other path
  | directory hid hlow hdirectory _ ih => exact .directory hid (Nat.le_trans hle hlow) hdirectory ih

/-- What is held stays as it is while its nodes do. -/
theorem Holds.keep (hd : d.Sound) (hextends : d.Extends d') (h : d.Holds low path tree)
    (hsame : ∀ id, low ≤ id → id < d.nodes.size → d'.node id = d.node id) :
    d'.Holds low path tree := by
  induction h with
  | file hid hlow hfile =>
    refine .file (hextends.find? hid) hlow ?_
    rw [hsame _ hlow (hd.find?_lt hid), hfile]
  | other path => exact .other path
  | directory hid hlow hdirectory _ ih =>
    refine .directory (hextends.find? hid) hlow ?_ ih
    rw [hsame _ hlow (hd.find?_lt hid), hdirectory]

end

/-! ## What is added to a directory -/

/-- At most so many nodes are new, and nothing else has changed than what the directory says of these
names. -/
structure Builds (root : NodeId) (names : List String) (count : Nat) (d d' : Disk) : Prop
    extends Extends d d' where
  sound : d'.Sound
  directory : d'.Directory root
  same : ∀ {id}, id < d.nodes.size → id ≠ root → d'.node id = d.node id
  other : ∀ {name}, name ∉ names → d'.child? root name = d.child? root name
  size_le : d.nodes.size ≤ d'.nodes.size
  le_size : d'.nodes.size ≤ d.nodes.size + count

namespace Builds

variable {d d' d'' : Disk} {root id : NodeId} {names names' : List String} {count count' : Nat}
  {name : String} {n : Node}

theorem refl (hd : d.Sound) (hroot : d.Directory root) : Builds root names count d d where
  toExtends := .refl d
  sound := hd
  directory := hroot
  same _ _ := rfl
  other _ := rfl
  size_le := Nat.le_refl _
  le_size := Nat.le_add_right ..

theorem mono (h : Builds root names count d d') (hnames : names ⊆ names') (hcount : count ≤ count') :
    Builds root names' count' d d' where
  toExtends := h.toExtends
  sound := h.sound
  directory := h.directory
  same := h.same
  other hname := h.other fun hmem => hname (hnames hmem)
  size_le := h.size_le
  le_size := Nat.le_trans h.le_size (Nat.add_le_add_left hcount _)

theorem trans (h : Builds root names count d d') (h' : Builds root names' count' d' d'') :
    Builds root (names ++ names') (count + count') d d'' where
  toExtends := h.toExtends.trans h'.toExtends
  sound := h'.sound
  directory := h'.directory
  same hid hne := by rw [h'.same (Nat.lt_of_lt_of_le hid h.size_le) hne, h.same hid hne]
  other hname := by
    rw [List.mem_append, not_or] at hname
    rw [h'.other hname.2, h.other hname.1]
  size_le := Nat.le_trans h.size_le h'.size_le
  le_size := by
    rw [← Nat.add_assoc]
    exact Nat.le_trans h'.le_size (Nat.add_le_add_right h.le_size _)

/-- A tree stays as it is if the directory is none of its own. -/
theorem shows {path : String} {tree : Tree} (h : Builds root names count d d') (hd : d.Sound)
    (hroot : d.Directory root) (hshows : d.Shows path tree) (hne : root ∉ tree.directories) :
    d'.Shows path tree := by
  refine hshows.keep hd h.toExtends (fun there hthere hfile => ?_) fun there hthere => ?_
  · refine h.same hthere ?_
    rintro rfl
    rw [hroot.2] at hfile
    cases hfile
  · refine h.same (hshows.lt hd there hthere) ?_
    rintro rfl
    exact hne hthere

/-- What happens to a new directory does not concern the one that it is in. -/
theorem beneath (h : Builds root [name] count d d') (hroot : root < d.nodes.size)
    (hid : d.nodes.size ≤ id) (h' : Builds id names count' d' d'') :
    Builds root [name] (count + count') d d'' where
  toExtends := h.toExtends.trans h'.toExtends
  sound := h'.sound
  directory := by
    have hne : root ≠ id := Nat.ne_of_lt (Nat.lt_of_lt_of_le hroot hid)
    refine ⟨Nat.lt_of_lt_of_le h.directory.1 h'.size_le, ?_⟩
    rw [h'.same h.directory.1 hne]
    exact h.directory.2
  same {there} hthere hne := by
    rw [h'.same (Nat.lt_of_lt_of_le hthere h.size_le)
      (Nat.ne_of_lt (Nat.lt_of_lt_of_le hthere hid)), h.same hthere hne]
  other {x} hx := by
    have hne : root ≠ id := Nat.ne_of_lt (Nat.lt_of_lt_of_le hroot hid)
    rw [child?, h'.same h.directory.1 hne, ← child?, h.other hx]
  size_le := Nat.le_trans h.size_le h'.size_le
  le_size := by
    rw [← Nat.add_assoc]
    exact Nat.le_trans h'.le_size (Nat.add_le_add_right h.le_size _)

/-- A new file may be written to. -/
theorem rewrite (h : Builds root names count d d') (hid : d.nodes.size ≤ id) {old new : Bytes}
    {change : Node → Node} (hold : (d'.node id).content = .file old)
    (hnew : (change (d'.node id)).content = .file new) :
    Builds root names count d (d'.update id change) where
  toExtends := h.toExtends.trans (only_rewrite hold hnew).toGrows.extends
  sound := h.sound.rewrite hold hnew
  directory := by
    have hroot := h.directory.2
    refine ⟨by rw [size_update]; exact h.directory.1, ?_⟩
    rw [node_update, if_neg]
    · exact hroot
    · rintro ⟨rfl, -⟩
      rw [Node.isDirectory, hold] at hroot
      cases hroot
  same {there} hthere hne := by
    rw [node_update, if_neg fun heq => Nat.ne_of_lt (Nat.lt_of_lt_of_le hthere hid) heq.1,
      h.same hthere hne]
  other hname := by rw [child?_rewrite hold hnew, h.other hname]
  size_le := by
    rw [size_update]
    exact h.size_le
  le_size := by
    rw [size_update]
    exact h.le_size

end Builds

/-- A new entry. -/
theorem Sound.builds_create {d : Disk} {root : NodeId} {name : String} {n : Node} (hd : d.Sound)
    (hroot : d.Directory root) (hn : n.entries = [])
    (hlink : n.isLink = false) : Builds root [name] 1 d (d.create root name n).2 where
  kind hchild := kind_create hroot hd hchild
  child hchild := by rw [child?_create hroot hn, hchild, Option.some_or]
  fresh {above x id} hfree' hchild := by
    rw [child?_create hroot hn, hfree', Option.none_or, Option.ite_none_right_eq_some] at hchild
    obtain ⟨-, heq⟩ := hchild
    rw [← Option.some.inj heq, node_create hroot.1, if_neg (Nat.ne_of_gt hroot.1), if_pos rfl, hlink]
  sound := hd.create hn
  directory := by
    refine ⟨?_, ?_⟩
    · rw [size_create]
      exact Nat.lt_succ_of_lt hroot.1
    · rw [node_create hroot.1, if_pos rfl]
      rfl
  same hid hne := by rw [node_create hroot.1, if_neg hne, if_neg (Nat.ne_of_lt hid)]
  other {x} hx := by
    rw [child?_create hroot hn, if_neg fun h => hx (List.mem_singleton.mpr h.2), Option.or_none]
  size_le := by
    rw [size_create]
    exact Nat.le_succ _
  le_size := Nat.le_of_eq (size_create ..)

end Runnel.Disk
