import Runnel.Proofs.Host.Walking

/-!
# Runnel.Proofs.Host.Opening

Files that are opened and written to, and what stays as it is.

* `Disk.Different`: two paths do not lead to the same file, nor to the same free name.
* `Disk.Only`: a disk that differs from another one at most in what is at one spot.
* `Disk.Only.untouched`, `Disk.Only.different`: what paths to other files lead to, and that they go
  on to be different.
* `Disk.openOutput_cases`: either a file is opened, which is empty or as it was then, or the disk
  stays as it is.
-/

namespace Runnel
namespace Disk

/-! ## Files -/

/-- The path leads to a name of this node, and does not ask for a directory. -/
def Names (d : Disk) (path : String) (id : NodeId) : Prop :=
  ∃ trail name, d.locate true path = .ok ⟨.named trail name (some id), false⟩

/-- The path leads to a name that is free, and does not ask for a directory. -/
def Free (d : Disk) (path : String) : Prop :=
  ∃ trail name, d.locate true path = .ok ⟨.named trail name none, false⟩

section

variable {d d' : Disk} {path : String} {found : Located} {id : NodeId} {bytes : Bytes}

theorem locate_exact {follow : Bool} (h : d.locate follow path = .ok found) :
    found.place.Exact d follow := by
  unfold locate at h
  split at h
  · cases h
  · exact (walk_place h).1

theorem Sound.here {follow : Bool} (hd : d.Sound) (h : d.locate follow path = .ok found) :
    d.Directory found.place.here := by
  unfold locate at h
  split at h
  · cases h
  · exact (walk_place h).2 hd nofun

theorem Grows.locate (h : d.Grows d') (path : String) :
    Follows d' (d.locate true path) (d'.locate true path) := by
  unfold Disk.locate
  split
  · exact .error _ _
  · exact h.walk ..

theorem Grows.locate_eq (h : d.Grows d') (hlocate : d.locate true path = .ok found) :
    d'.locate true path = .ok ⟨found.place.on d', found.slash⟩ := by
  have hfollows := h.locate path
  rw [hlocate] at hfollows
  generalize d'.locate true path = r at hfollows
  cases hfollows with
  | found place slash => rfl

/-- What has a name keeps it. -/
theorem Grows.names (h : d.Grows d') (hid : d.Names path id) : d'.Names path id := by
  obtain ⟨trail, name, hlocate⟩ := hid
  obtain ⟨hchild, -⟩ := locate_exact hlocate
  refine ⟨trail, name, ?_⟩
  rw [h.locate_eq hlocate, Place.on, h.child hchild.symm]

theorem Names.unique {there : NodeId} (h : d.Names path id) (h' : d.Names path there) :
    id = there := by
  obtain ⟨trail, name, hlocate⟩ := h
  obtain ⟨trail', name', hlocate'⟩ := h'
  rw [hlocate] at hlocate'
  cases hlocate'
  rfl

theorem Names.find_eq (h : d.Names path id) : d.find? true path = .ok id := by
  obtain ⟨trail, name, hlocate⟩ := h
  rw [find?, hlocate]
  rfl

theorem Names.isLink_eq (h : d.Names path id) : (d.node id).isLink = false := by
  obtain ⟨trail, name, hlocate⟩ := h
  exact (locate_exact hlocate).2 rfl id rfl

theorem readFile_eq (h : d.find? true path = .ok id) :
    d.readFile path = match (d.node id).content with
      | .file bytes => .ok bytes
      | _ => .error .isDirectory := by
  rw [readFile, stat, h]
  rfl

theorem readFile_of_isDirectory (h : d.find? true path = .ok id)
    (hdirectory : (d.node id).isDirectory = true) : d.readFile path = .error .isDirectory := by
  obtain ⟨entries, heq⟩ := Node.exists_entries hdirectory
  rw [readFile_eq h, heq]

theorem Names.readFile_eq (h : d.Names path id) (hfile : (d.node id).content = .file bytes) :
    d.readFile path = .ok bytes := by
  rw [Disk.readFile_eq h.find_eq, hfile]

theorem Free.readFile_eq (h : d.Free path) : d.readFile path = .error .noEntry := by
  obtain ⟨trail, name, hlocate⟩ := h
  rw [readFile, stat, find?, hlocate]
  rfl

/-- What can be read has a name. -/
theorem Sound.names_of_readFile (hd : d.Sound) (h : d.readFile path = .ok bytes) :
    ∃ id, d.Names path id ∧ (d.node id).content = .file bytes := by
  cases hlocate : d.locate true path with
  | error e =>
    rw [readFile, stat, find?, hlocate] at h
    cases h
  | ok found =>
    obtain ⟨place, slash⟩ := found
    cases place with
    | itself trail viaParent =>
      have hfind : d.find? true path = .ok trail.here := by
        rw [find?, hlocate]
        rfl
      rw [readFile_of_isDirectory hfind (hd.here hlocate).2] at h
      cases h
    | named trail name node =>
      cases node with
      | none =>
        rw [readFile, stat, find?, hlocate] at h
        cases h
      | some id =>
        cases slash with
        | false =>
          have hid : d.Names path id := ⟨trail, name, hlocate⟩
          rw [readFile_eq hid.find_eq] at h
          split at h
          · rename_i heq
            cases h
            exact ⟨id, hid, heq⟩
          · cases h
        | true =>
          -- only a directory has such a path
          cases hdirectory : (d.node id).isDirectory with
          | true =>
            have hfind : d.find? true path = .ok id := by
              simp [find?, hlocate, hdirectory, bind, Except.bind, pure, Except.pure]
            rw [readFile_of_isDirectory hfind hdirectory] at h
            cases h
          | false =>
            have hfind : d.find? true path = .error .notDirectory := by
              simp [find?, hlocate, hdirectory, bind, Except.bind, throw, throwThe,
                MonadExceptOf.throw]
            rw [readFile, stat, hfind] at h
            cases h

end

/-! ## What paths lead to -/

/-- What a path leads to: something that is there, or a free name in a directory. -/
inductive Spot where
  | node (id : NodeId)
  | free (parent : NodeId) (name : String)
  deriving Repr, DecidableEq

/-- What is at a place. -/
def Place.spot : Place → Spot
  | .itself trail _ => .node trail.here
  | .named _ _ (some id) => .node id
  | .named trail name none => .free trail.here name

/-- What a path leads to, if it leads anywhere. -/
def spot? (d : Disk) (path : String) : Option Spot :=
  (d.locate true path).toOption.map fun found => found.place.spot

/-- The paths do not lead to the same file, nor to the same free name. -/
def Different (d : Disk) (path path' : String) : Prop :=
  ∀ spot, d.spot? path = some spot → d.spot? path' ≠ some spot

/-- The path leads to the same place on another disk, and the file there has the same bytes. -/
structure Untouched (d d' : Disk) (path : String) : Prop where
  place : ∀ found, d'.locate true path = .ok found ↔ d.locate true path = .ok found
  content : ∀ bytes, d'.readFile path = .ok bytes ↔ d.readFile path = .ok bytes

/-- The other disk differs from this one at most in what is at a spot, where a new file may be. -/
structure Only (spot : Spot) (d d' : Disk) : Prop extends Grows d d' where
  free : ∀ {parent name}, spot ≠ .free parent name → d.child? parent name = none →
    d'.child? parent name = none
  new : ∀ {parent name id}, d.child? parent name = none → d'.child? parent name = some id →
    d.nodes.size ≤ id
  same : ∀ {id bytes}, spot ≠ .node id → id < d.nodes.size → (d.node id).content = .file bytes →
    (d'.node id).content = .file bytes

section

variable {d d' d'' : Disk} {path path' : String} {found : Located} {id : NodeId} {spot : Spot}

theorem spot?_eq (h : d.locate true path = .ok found) : d.spot? path = some found.place.spot := by
  rw [spot?, h]
  rfl

theorem exists_located (h : d.spot? path = some spot) :
    ∃ found, d.locate true path = .ok found ∧ found.place.spot = spot := by
  rw [spot?, Option.map_eq_some_iff] at h
  obtain ⟨found, hfound, hspot⟩ := h
  cases hlocate : d.locate true path with
  | error e =>
    rw [hlocate] at hfound
    cases hfound
  | ok there =>
    rw [hlocate] at hfound
    cases hfound
    exact ⟨found, rfl, hspot⟩

theorem Names.spot?_eq (h : d.Names path id) : d.spot? path = some (.node id) := by
  obtain ⟨trail, name, hlocate⟩ := h
  exact Disk.spot?_eq hlocate

theorem Sound.lt_of_names (hd : d.Sound) (h : d.Names path id) : id < d.nodes.size := by
  obtain ⟨trail, name, hlocate⟩ := h
  exact hd.child (locate_exact hlocate).1.symm

theorem Sound.lt_of_spot (hd : d.Sound) (h : d.spot? path = some (.node id)) :
    id < d.nodes.size := by
  obtain ⟨⟨place, slash⟩, hlocate, hspot⟩ := exists_located h
  cases place with
  | itself trail viaParent =>
    cases hspot
    exact (hd.here hlocate).1
  | named trail name node =>
    cases node with
    | none => cases hspot
    | some there =>
      cases hspot
      exact hd.child (locate_exact hlocate).1.symm

namespace Different

theorem symm (h : d.Different path path') : d.Different path' path :=
  fun spot hspot hspot' => h spot hspot' hspot

end Different

namespace Untouched

theorem refl (d : Disk) (path : String) : d.Untouched d path :=
  ⟨fun _ => Iff.rfl, fun _ => Iff.rfl⟩

theorem trans (h : d.Untouched d' path) (h' : d'.Untouched d'' path) : d.Untouched d'' path :=
  ⟨fun found => (h'.place found).trans (h.place found),
    fun bytes => (h'.content bytes).trans (h.content bytes)⟩

theorem spot_iff (h : d.Untouched d' path) : d'.spot? path = some spot ↔ d.spot? path = some spot := by
  constructor
  · intro hspot
    obtain ⟨found, hlocate, rfl⟩ := exists_located hspot
    exact spot?_eq ((h.place found).mp hlocate)
  · intro hspot
    obtain ⟨found, hlocate, rfl⟩ := exists_located hspot
    exact spot?_eq ((h.place found).mpr hlocate)

theorem free_iff (h : d.Untouched d' path) : d'.Free path ↔ d.Free path := by
  simp only [Free, h.place]

end Untouched

namespace Only

theorem refl (spot : Spot) (d : Disk) : Only spot d d where
  kind _ := .refl _
  child h := h
  file h h' := by
    rw [h] at h'
    cases h'
  free _ h := h
  new h h' := by
    rw [h] at h'
    cases h'
  same _ _ h := h

section

variable (h : Only spot d d')

include h

/-- Places with something else stay as they are. -/
theorem place_on (hlocate : d.locate true path = .ok found) (hspot : found.place.spot ≠ spot) :
    found.place.on d' = found.place := by
  have hexact := locate_exact hlocate
  cases hplace : found.place with
  | itself trail viaParent => rfl
  | named trail name node =>
    rw [hplace] at hexact hspot
    cases node with
    | none => rw [Place.on, h.free hspot.symm hexact.1.symm]
    | some id => rw [Place.on, h.child hexact.1.symm]

/-- What is somewhere else stays as it is. -/
theorem untouched (hd : d.Sound) (hd' : d'.Sound) (hspot : d.spot? path ≠ some spot) :
    d.Untouched d' path := by
  have hkept : ∀ found, d.locate true path = .ok found → d'.locate true path = .ok found := by
    intro found hlocate
    rw [h.locate_eq hlocate, h.place_on hlocate]
    exact fun heq => hspot (heq ▸ spot?_eq hlocate)
  have hplace : ∀ found, d'.locate true path = .ok found ↔ d.locate true path = .ok found := by
    refine fun found => ⟨fun hlocate' => ?_, hkept found⟩
    cases hlocate : d.locate true path with
    | ok there => rw [← hlocate', hkept there hlocate]
    | error e =>
      have hfollows := h.locate path
      rw [hlocate, hlocate'] at hfollows
      cases hfollows
  have hsame : ∀ id bytes, d.Names path id → (d.node id).content = .file bytes →
      (d'.node id).content = .file bytes := by
    intro id bytes hid hfile
    exact h.same (fun heq => hspot (heq ▸ hid.spot?_eq)) (hd.lt_of_names hid) hfile
  refine ⟨hplace, fun bytes => ⟨fun hread => ?_, fun hread => ?_⟩⟩
  · obtain ⟨id, hid, hfile⟩ := hd'.names_of_readFile hread
    obtain ⟨trail, name, hlocate⟩ := hid
    replace hlocate := (hplace _).mp hlocate
    have hkind := h.kind (locate_exact hlocate).1.symm
    rw [hfile] at hkind
    generalize hcontent : (d.node id).content = content at hkind
    cases hkind with
    | file before =>
      have hbefore := hsame id before ⟨trail, name, hlocate⟩ hcontent
      rw [hfile] at hbefore
      cases hbefore
      exact Names.readFile_eq ⟨trail, name, hlocate⟩ hcontent
  · obtain ⟨id, hid, hfile⟩ := hd.names_of_readFile hread
    exact (h.names hid).readFile_eq (hsame id bytes hid hfile)

/-- What was different from something untouched still is. -/
theorem different (hd : d.Sound) (hdiff : d.Different path path') (hkept : d.Untouched d' path') :
    d'.Different path path' := by
  intro there hthere hthere'
  replace hthere' := hkept.spot_iff.mp hthere'
  cases hlocate : d.locate true path with
  | error e =>
    have hfollows := h.locate path
    obtain ⟨found, hlocate', -⟩ := exists_located hthere
    rw [hlocate, hlocate'] at hfollows
    cases hfollows
  | ok found =>
    rw [spot?_eq (h.locate_eq hlocate)] at hthere
    have hexact := locate_exact hlocate
    have hspot := spot?_eq hlocate
    obtain ⟨place, slash⟩ := found
    cases place with
    | itself trail viaParent => exact hdiff _ hspot (hthere ▸ hthere')
    | named trail name node =>
      cases node with
      | some id =>
        rw [Place.on, h.child hexact.1.symm] at hthere
        exact hdiff _ hspot (hthere ▸ hthere')
      | none =>
        cases hchild : d'.child? trail.here name with
        | none =>
          rw [Place.on, hchild] at hthere
          exact hdiff _ hspot (hthere ▸ hthere')
        | some id =>
          -- a new file is nowhere else
          rw [Place.on, hchild] at hthere
          cases hthere
          exact absurd (h.new hexact.1.symm hchild) (Nat.not_le.mpr (hd.lt_of_spot hthere'))

end

end Only

end

/-! ## Files that are written to -/

section

variable {d : Disk} {id : NodeId} {change : Node → Node} {old new : Bytes}

theorem node_update (d : Disk) (id there : NodeId) (change : Node → Node) :
    (d.update id change).node there =
      if there = id ∧ id < d.nodes.size then change (d.node id) else d.node there := by
  simp only [update, node, Array.getD_eq_getD_getElem?, Array.getElem?_modify]
  by_cases h : there = id
  · subst h
    by_cases hid : there < d.nodes.size
    · simp [hid]
    · simp [hid]
  · simp [h, Ne.symm h]

theorem size_update (d : Disk) (id : NodeId) (change : Node → Node) :
    (d.update id change).nodes.size = d.nodes.size := by
  simp [update]

/-- A node may change if the root stays a directory and nothing that is not there gets a name. -/
theorem Sound.update (hd : d.Sound) (hroot : id = 0 → (change (d.node id)).isDirectory = true)
    (hentries : ∀ name there, (change (d.node id)).entries.lookup name = some there →
      there < d.nodes.size) : (d.update id change).Sound := by
  refine ⟨⟨?_, ?_⟩, fun {parent name there} h => ?_⟩
  · rw [size_update]
    exact hd.root.1
  · rw [node_update]
    split
    · rename_i h
      exact hroot h.1.symm
    · exact hd.root.2
  · rw [size_update]
    rw [child?, node_update] at h
    split at h
    · exact hentries name there h
    · exact hd.child h

variable (hold : (d.node id).content = .file old) (hnew : (change (d.node id)).content = .file new)

include hold hnew

theorem child?_rewrite (parent : NodeId) (name : String) :
    (d.update id change).child? parent name = d.child? parent name := by
  rw [child?, child?, node_update]
  split
  · rename_i h
    rw [h.1, Node.entries, Node.entries, hold, hnew]
  · rfl

theorem only_rewrite : Only (.node id) d (d.update id change) where
  kind := by
    intro parent name there _
    rw [node_update]
    split
    · rename_i h
      rw [h.1, hold, hnew]
      exact .file old new
    · exact .refl _
  child h := by rwa [child?_rewrite hold hnew]
  file h h' := by
    rw [child?_rewrite hold hnew, h] at h'
    cases h'
  free _ h := by rwa [child?_rewrite hold hnew]
  new h h' := by
    rw [child?_rewrite hold hnew, h] at h'
    cases h'
  same hne _ h := by
    rw [node_update, if_neg]
    · exact h
    · rintro ⟨rfl, -⟩
      exact hne rfl

theorem readFile_rewrite {path : String} (hid : d.Names path id) :
    (d.update id change).readFile path = .ok new := by
  refine ((only_rewrite hold hnew).names hid).readFile_eq ?_
  have hlt : id < d.nodes.size := by
    refine Nat.lt_of_not_le fun hle => ?_
    rw [node, Array.getD_eq_getD_getElem?, Array.getElem?_eq_none hle] at hold
    cases hold
  rw [node_update, if_pos ⟨rfl, hlt⟩, hnew]

theorem readFile_rewrite_ne {path : String} {there : NodeId} {bytes : Bytes}
    (hthere : d.Names path there) (hne : there ≠ id)
    (hfile : (d.node there).content = .file bytes) :
    (d.update id change).readFile path = .ok bytes := by
  refine ((only_rewrite hold hnew).names hthere).readFile_eq ?_
  rw [node_update, if_neg fun h => hne h.1, hfile]

theorem Sound.rewrite (hd : d.Sound) : (d.update id change).Sound := by
  refine hd.update ?_ fun name there h => ?_
  · rintro rfl
    have hroot := hd.root.2
    rw [Node.isDirectory, hold] at hroot
    cases hroot
  · rw [Node.entries, hnew] at h
    cases h

end

/-! ## New files -/

section

variable {d : Disk} {parent : NodeId} {name : String} {n : Node}

theorem node_allocate (d : Disk) (n : Node) (there : NodeId) :
    (d.allocate n).2.node there = if there = d.nodes.size then n else d.node there := by
  simp only [allocate, node, Array.getD_eq_getD_getElem?, Array.getElem?_push]
  split
  · rfl
  · rfl

/-- A node may get a name if it is there. -/
theorem Sound.attach {id : NodeId} (hd : d.Sound) (hid : id < d.nodes.size) :
    (d.attach parent name id).Sound := by
  refine hd.update (fun _ => rfl) fun x there h => ?_
  rw [Node.entries, List.lookup_append, Option.or_eq_some_iff] at h
  rcases h with h | ⟨-, h⟩
  · exact hd.child h
  · rw [List.lookup_cons] at h
    split at h
    · cases h
      exact hid
    · cases h

/-- A node may be new if nothing is in it. -/
theorem Sound.create (hd : d.Sound) (hn : n.entries = []) : (d.create parent name n).2.Sound := by
  have hnew : (d.allocate n).2.Sound := by
    refine ⟨⟨?_, ?_⟩, fun {above x there} h => ?_⟩
    · simp [allocate]
    · rw [node_allocate, if_neg (Nat.ne_of_lt hd.root.1)]
      exact hd.root.2
    · rw [child?, node_allocate] at h
      split at h
      · rw [hn] at h
        cases h
      · simpa [allocate] using Nat.lt_succ_of_lt (hd.child h)
  exact hnew.attach (by simp [allocate])

theorem node_create (hparent : parent < d.nodes.size) (there : NodeId) :
    (d.create parent name n).2.node there =
      if there = parent then
        { d.node parent with
          content := .directory ((d.node parent).entries ++ [(name, d.nodes.size)]) }
      else if there = d.nodes.size then n
      else d.node there := by
  have hsize : parent < (d.allocate n).2.nodes.size := by
    simpa [allocate] using Nat.lt_succ_of_lt hparent
  show ((d.allocate n).2.attach parent name d.nodes.size).node there = _
  rw [attach, changeEntries, node_update, node_allocate, node_allocate,
    if_neg (Nat.ne_of_lt hparent)]
  by_cases h : there = parent
  · rw [if_pos ⟨h, hsize⟩, if_pos h]
  · rw [if_neg fun h' => h h'.1, if_neg h]

variable (hparent : d.Directory parent)

include hparent

theorem kind_create (hd : d.Sound) {above there : NodeId} {x : String}
    (hchild : d.child? above x = some there) :
    (d.node there).content.Alike ((d.create parent name n).2.node there).content := by
  have hne : there ≠ d.nodes.size := Nat.ne_of_lt (hd.child hchild)
  rw [node_create hparent.1]
  by_cases h : there = parent
  · obtain ⟨entries, heq⟩ := Node.exists_entries hparent.2
    rw [if_pos h, h, heq]
    exact .directory _ _
  · rw [if_neg h, if_neg hne]
    exact .refl _

variable (hn : n.entries = [])

include hn

theorem child?_create (there : NodeId) (x : String) :
    (d.create parent name n).2.child? there x =
      (d.child? there x).or (if there = parent ∧ x = name then some d.nodes.size else none) := by
  rw [child?, node_create hparent.1]
  by_cases h : there = parent
  · rw [if_pos h, Node.entries, List.lookup_append, h, child?]
    by_cases hx : x = name
    · simp [hx]
    · have hne : (x == name) = false := by simpa using hx
      simp [List.lookup_cons, hne, hx]
  · have hother : ¬ (there = parent ∧ x = name) := fun h' => h h'.1
    rw [if_neg h, if_neg hother, Option.or_none]
    by_cases hnew : there = d.nodes.size
    · rw [if_pos hnew, child?, hnew, hn, node, Array.getD_eq_getD_getElem?, Array.getElem?_size]
      rfl
    · rw [if_neg hnew, child?]

theorem child?_create_new (hfree : d.child? parent name = none) :
    (d.create parent name n).2.child? parent name = some d.nodes.size := by
  rw [child?_create hparent hn, hfree]
  simp

theorem only_create (hd : d.Sound) {bytes : Bytes} (hfile : n.content = .file bytes) :
    Only (.free parent name) d (d.create parent name n).2 where
  kind hchild := kind_create hparent hd hchild
  child h := by rw [child?_create hparent hn, h, Option.some_or]
  file := by
    intro above x there h h'
    rw [child?_create hparent hn, h, Option.none_or, Option.ite_none_right_eq_some] at h'
    obtain ⟨-, heq⟩ := h'
    cases heq
    refine ⟨bytes, ?_⟩
    rw [node_create hparent.1, if_neg (Nat.ne_of_gt hparent.1), if_pos rfl, hfile]
  free := by
    intro above x hne h
    rw [child?_create hparent hn, h, Option.none_or, if_neg]
    rintro ⟨rfl, rfl⟩
    exact hne rfl
  new := by
    intro above x there h h'
    rw [child?_create hparent hn, h, Option.none_or, Option.ite_none_right_eq_some] at h'
    exact Nat.le_of_eq (Option.some.inj h'.2)
  same := by
    intro there bytes _ hlt hbytes
    rw [node_create hparent.1, if_neg, if_neg (Nat.ne_of_lt hlt), hbytes]
    rintro rfl
    have hdirectory := hparent.2
    rw [Node.isDirectory, hbytes] at hdirectory
    cases hdirectory

end

/-! ## Opening a file -/

/-- What a file holds. A file that is not there holds nothing. -/
def contents (d : Disk) (path : String) : Bytes :=
  (d.readFile path).toOption.getD []

/-- What is left of a file that is opened for writing. -/
def OutputMode.left : OutputMode → Bytes → Bytes
  | .overwrite, _ => []
  | .append, old => old

/-- The path leads to a file or to a free name. -/
def Writable (d : Disk) (path : String) : Prop :=
  d.Free path ∨ ∃ bytes, d.readFile path = .ok bytes

/-- The file is open for writing on the other disk, where it holds what is left of it. Nothing else
has changed. -/
structure Opens (d : Disk) (path : String) (how : OutputMode) (id : NodeId) (d' : Disk) : Prop where
  sound : d'.Sound
  only : ∃ spot, d.spot? path = some spot ∧ Only spot d d'
  names : d'.Names path id
  content : (d'.node id).content = .file (how.left (d.contents path))

section

variable {d : Disk} {path : String} {how : OutputMode} {mode : Nat} {id : NodeId} {trail : Trail}
  {name : String} {bytes : Bytes} (hd : d.Sound)

theorem contents_eq (h : d.readFile path = .ok bytes) : d.contents path = bytes := by
  rw [contents, h]
  rfl

theorem Untouched.contents_eq {d' : Disk} (h : d.Untouched d' path) :
    d'.contents path = d.contents path := by
  cases hread : d.readFile path with
  | ok bytes => rw [Disk.contents_eq hread, Disk.contents_eq ((h.content bytes).mpr hread)]
  | error e =>
    cases hread' : d'.readFile path with
    | ok bytes =>
      rw [(h.content bytes).mp hread'] at hread
      cases hread
    | error e' =>
      rw [contents, contents, hread, hread']
      rfl

theorem Free.contents_eq (h : d.Free path) : d.contents path = [] := by
  rw [contents, h.readFile_eq]
  rfl

/-- A name that is followed to its end is that of a directory or of a file. -/
theorem Names.exists_bytes (h : d.Names path id) (hdirectory : (d.node id).isDirectory = false) :
    ∃ bytes, (d.node id).content = .file bytes := by
  have hlink := h.isLink_eq
  cases hcontent : (d.node id).content with
  | file bytes => exact ⟨bytes, rfl⟩
  | directory entries =>
    rw [Node.isDirectory, hcontent] at hdirectory
    cases hdirectory
  | link target =>
    rw [Node.isLink, hcontent] at hlink
    cases hlink

include hd

theorem Sound.writable_iff : d.Writable path ↔
    ∃ trail name node, d.locate true path = .ok ⟨.named trail name node, false⟩ ∧
      ∀ id, node = some id → (d.node id).isDirectory = false := by
  constructor
  · rintro (⟨trail, name, hlocate⟩ | ⟨bytes, hread⟩)
    · exact ⟨trail, name, none, hlocate, nofun⟩
    · obtain ⟨id, ⟨trail, name, hlocate⟩, hfile⟩ := hd.names_of_readFile hread
      refine ⟨trail, name, some id, hlocate, ?_⟩
      rintro _ ⟨⟩
      rw [Node.isDirectory, hfile]
  · rintro ⟨trail, name, node, hlocate, hnode⟩
    cases node with
    | none => exact .inl ⟨trail, name, hlocate⟩
    | some id =>
      have hid : d.Names path id := ⟨trail, name, hlocate⟩
      obtain ⟨bytes, hfile⟩ := hid.exists_bytes (hnode id rfl)
      exact .inr ⟨bytes, hid.readFile_eq hfile⟩

theorem opens_new (hlocate : d.locate true path = .ok ⟨.named trail name none, false⟩) :
    d.Opens path how d.nodes.size (d.create trail.here name ⟨.file [], mode⟩).2 := by
  have hhere : d.Directory trail.here := hd.here hlocate
  have hchild : d.child? trail.here name = none := (locate_exact hlocate).1.symm
  have honly : Only (.free trail.here name) d (d.create trail.here name ⟨.file [], mode⟩).2 :=
    only_create hhere rfl hd rfl
  refine ⟨hd.create rfl, ⟨_, spot?_eq hlocate, honly⟩, ⟨trail, name, ?_⟩, ?_⟩
  · rw [honly.locate_eq hlocate, Place.on, child?_create_new hhere rfl hchild]
  · have hfree : d.Free path := ⟨trail, name, hlocate⟩
    rw [node_create hhere.1, if_neg (Nat.ne_of_gt hhere.1), if_pos rfl, hfree.contents_eq]
    cases how with
    | overwrite | append => rfl

theorem opens_old (hid : d.Names path id) (hfile : (d.node id).content = .file bytes) :
    d.Opens path how id (match how with
      | .overwrite => d.update id fun n => { n with content := .file [] }
      | .append => d) := by
  have hcontents := contents_eq (hid.readFile_eq hfile)
  cases how with
  | overwrite =>
    have honly : Only (.node id) d (d.update id fun n => { n with content := .file [] }) :=
      only_rewrite hfile rfl
    refine ⟨hd.rewrite hfile rfl, ⟨_, hid.spot?_eq, honly⟩, honly.names hid, ?_⟩
    rw [node_update, if_pos ⟨rfl, hd.lt_of_names hid⟩]
    rfl
  | append =>
    refine ⟨hd, ⟨_, hid.spot?_eq, .refl _ d⟩, hid, ?_⟩
    rw [hfile, hcontents]
    rfl

/-- A file is opened, or the disk stays as it is. -/
theorem openOutput_cases (path : String) (how : OutputMode) (mode : Nat) :
    (d.Writable path ∧ ∃ id d', d.openOutput path how mode = (.ok id, d') ∧
        d.Opens path how id d') ∨
      ¬ d.Writable path ∧ ∃ e, d.openOutput path how mode = (.error e, d) := by
  rw [hd.writable_iff]
  cases hlocate : d.locate true path with
  | error e => exact .inr ⟨by simp, e, by rw [openOutput, hlocate]⟩
  | ok found =>
    obtain ⟨place, slash⟩ := found
    cases place with
    | itself trail viaParent => exact .inr ⟨by simp, .isDirectory, by rw [openOutput, hlocate]⟩
    | named trail name node =>
      cases slash with
      | true =>
        refine .inr ⟨by simp, .isDirectory, ?_⟩
        rw [openOutput, hlocate]
        cases node with
        | none | some id => rfl
      | false =>
        cases node with
        | none =>
          have hopens := @opens_new d path how mode trail name hd hlocate
          refine .inl ⟨⟨trail, name, none, rfl, nofun⟩, _, _, ?_, hopens⟩
          rw [openOutput, hlocate]
          rfl
        | some id =>
          have hid : d.Names path id := ⟨trail, name, hlocate⟩
          cases hdirectory : (d.node id).isDirectory with
          | true =>
            refine .inr ⟨?_, .isDirectory, by rw [openOutput, hlocate]; simp [hdirectory]⟩
            rintro ⟨_, _, _, ⟨⟩, hnode⟩
            rw [hnode id rfl] at hdirectory
            cases hdirectory
          | false =>
            obtain ⟨bytes, hfile⟩ := hid.exists_bytes hdirectory
            have hopens := @opens_old d path how id bytes hd hid hfile
            refine .inl ⟨⟨trail, name, some id, rfl, ?_⟩, _, _, ?_, hopens⟩
            · rintro _ ⟨⟩
              exact hdirectory
            · rw [openOutput, hlocate]
              cases how with
              | overwrite | append => simp [hdirectory]

end

end Disk
end Runnel
