import Runnel.Proofs.Host.Keeping
import Runnel.Proofs.Host.Trees

/-!
# Runnel.Proofs.Host.Making

Files and directories that are made, under a free name or wherever a path leads.

* `Disk.Sound.withDirectory`, `Disk.Sound.withFile`: what a new entry changes.
* `Disk.Stands.copyFile`: a file is copied to a free name.
* `Disk.Makes`: nothing has changed but for directories.
* `Disk.Sound.destination_spec`: the directory that copies go into is there, or nothing is copied.
-/

namespace Runnel.Disk

variable {d d' : Disk} {origin path name : String} {parent id : NodeId}

/-! ## New entries -/

theorem Refused.find? (h : d.Refused path) (follow : Bool) :
    ∃ e, d.find? follow path = .error e := by
  obtain ⟨e, -, hlocate, -⟩ := h
  refine ⟨e, ?_⟩
  rw [Disk.find?, hlocate follow]
  rfl

theorem child?_of_empty (h : (d.node id).content = .directory []) (name : String) :
    d.child? id name = none := by
  rw [child?, Node.entries, h]
  rfl

/-- The disk with a new directory. -/
def withDirectory (d : Disk) (parent : NodeId) (name : String) : Disk :=
  (d.create parent name ⟨.directory [], directoryMode⟩).2

theorem Sound.withDirectory (hd : d.Sound) (hparent : d.Directory parent)
    (hfree : d.child? parent name = none) :
    Builds parent [name] 1 d (d.withDirectory parent name) ∧
      (d.withDirectory parent name).child? parent name = some d.nodes.size ∧
      (d.withDirectory parent name).Directory d.nodes.size ∧
      ((d.withDirectory parent name).node d.nodes.size).content = .directory [] := by
  have hnew : (d.withDirectory parent name).node d.nodes.size = ⟨.directory [], directoryMode⟩ := by
    rw [Disk.withDirectory, node_create hparent.1, if_neg (Nat.ne_of_gt hparent.1), if_pos rfl]
  refine ⟨hd.builds_create hparent rfl rfl, child?_create_new hparent rfl hfree, ⟨?_, ?_⟩, ?_⟩
  · rw [Disk.withDirectory, size_create]
    exact Nat.lt_succ_self _
  · rw [hnew]
    rfl
  · rw [hnew]

/-- The disk with a new file. -/
def withFile (d : Disk) (parent : NodeId) (name : String) (bytes : Bytes) (mode : Nat) : Disk :=
  (d.create parent name ⟨.file [], mode⟩).2.update d.nodes.size fun _ => ⟨.file bytes, mode⟩

theorem Sound.withFile (hd : d.Sound) (hparent : d.Directory parent)
    (hfree : d.child? parent name = none) (bytes : Bytes) (mode : Nat) :
    Builds parent [name] 1 d (d.withFile parent name bytes mode) ∧
      (d.withFile parent name bytes mode).child? parent name = some d.nodes.size ∧
      ((d.withFile parent name bytes mode).node d.nodes.size).content = .file bytes := by
  have hcreate : Builds parent [name] 1 d (d.create parent name ⟨.file [], mode⟩).2 :=
    hd.builds_create hparent rfl rfl
  have hold : ((d.create parent name ⟨.file [], mode⟩).2.node d.nodes.size).content = .file [] := by
    rw [node_create hparent.1, if_neg (Nat.ne_of_gt hparent.1), if_pos rfl]
  refine ⟨hcreate.rewrite (Nat.le_refl _) hold rfl, ?_, ?_⟩
  · rw [Disk.withFile, child?_rewrite hold rfl, child?_create_new hparent rfl hfree]
  · rw [Disk.withFile, node_update, size_create, if_pos ⟨rfl, Nat.lt_succ_self _⟩]

/-- A file is copied to a free name. -/
theorem Stands.copyFile (h : d.Stands path parent name) (hd : d.Sound)
    (hparent : d.Directory parent) (hfree : d.child? parent name = none) {bytes : Bytes}
    (hread : d.readFile origin = .ok bytes) :
    ∃ mode, d.copyFile origin path = (.ok (), d.withFile parent name bytes mode) := by
  obtain ⟨trail, rfl, hlocate, -⟩ := h.locate_free hfree
  obtain ⟨id, hid, hcontent⟩ := hd.names_of_readFile hread
  have hne : id ≠ trail.here := by
    rintro rfl
    have hdirectory := hparent.2
    rw [Node.isDirectory, hcontent] at hdirectory
    cases hdirectory
  have hsame : ((d.create trail.here name ⟨.file [], (d.node id).mode⟩).2.node id).content =
      .file bytes := by
    rw [node_create hparent.1, if_neg hne, if_neg (Nat.ne_of_lt (hd.lt_of_names hid)), hcontent]
  have hfile : (d.node id).isFile = true := by rw [Node.isFile, hcontent]
  refine ⟨(d.node id).mode, ?_⟩
  unfold Disk.copyFile
  simp only [hid.find_eq, hfile, openOutput, hlocate true, Bool.not_true, Bool.false_eq_true,
    if_false, Node.bytes, hsame]
  rfl

/-- What cannot be read cannot be copied. -/
theorem copyFile_of_error {error : SystemError} (h : d.readFile origin = .error error)
    (path : String) : ∃ e, d.copyFile origin path = (.error e, d) := by
  unfold copyFile
  cases hid : d.find? true origin with
  | error e => exact ⟨e, rfl⟩
  | ok id =>
    rw [readFile_eq hid] at h
    refine ⟨.notRegular, ?_⟩
    cases hcontent : (d.node id).content with
    | file bytes =>
      rw [hcontent] at h
      cases h
    | directory | link => simp [Node.isFile, hcontent]

theorem Refused.copyFile (h : d.Refused path) (origin : String) :
    ∃ e, d.copyFile origin path = (.error e, d) := by
  obtain ⟨e, -, hlocate, -⟩ := h
  rw [Disk.copyFile]
  split
  · exact ⟨_, rfl⟩
  · split
    · exact ⟨_, rfl⟩
    · refine ⟨e, ?_⟩
      simp only [openOutput, hlocate true]

theorem pathExists_eq_false {e : SystemError} (h : d.find? true path = .error e) :
    d.pathExists path = false := by
  rw [pathExists, stat, h]
  rfl

theorem makeDirectories_of_made {d' : Disk} (h : d.makeDirectory path = (.ok (), d')) :
    d.makeDirectories path = (.ok (), d') := by
  rw [makeDirectories, makeDirectoriesWithin, h]

theorem Stands.destination (h : d.Stands path parent name) (hfree : d.child? parent name = none) :
    d.destination path = (.ok (), d.withDirectory parent name) := by
  obtain ⟨trail, rfl, hlocate, hentry⟩ := h.locate_free hfree
  have hfind : d.find? true path = .error .noEntry := by
    rw [Disk.find?, hlocate true]
    rfl
  rw [Disk.destination, pathExists_eq_false hfind, if_neg Bool.false_ne_true]
  refine makeDirectories_of_made ?_
  rw [makeDirectory, hentry]
  rfl

theorem Refused.destination (h : d.Refused path) : ∃ e, d.destination path = (.error e, d) := by
  obtain ⟨e, hfind⟩ := h.find? true
  obtain ⟨e', hne, -, hentry⟩ := h
  have hmake : d.makeDirectory path = (.error e', d) := by rw [makeDirectory, hentry]
  have hdirectory : d.isDirectory path = false := by
    rw [isDirectory, stat, hfind]
    rfl
  refine ⟨e', ?_⟩
  rw [Disk.destination, pathExists_eq_false hfind, if_neg Bool.false_ne_true, makeDirectories,
    makeDirectoriesWithin, hmake]
  split
  · rename_i heq
    cases heq
  · rename_i heq
    cases heq
    exact absurd rfl hne
  · rename_i heq
    cases heq
    rw [hdirectory, if_neg Bool.false_ne_true]

/-! ## The destination -/

/-- Directories are made, and nothing else has changed. -/
structure Makes (d d' : Disk) : Prop extends Extends d d' where
  sound : d'.Sound
  size_le : d.nodes.size ≤ d'.nodes.size
  same : ∀ id < d.nodes.size, (d.node id).isDirectory = false → d'.node id = d.node id

theorem Makes.refl (hd : d.Sound) : d.Makes d where
  toExtends := .refl d
  sound := hd
  size_le := Nat.le_refl _
  same _ _ _ := rfl

theorem Makes.trans {d'' : Disk} (h : d.Makes d') (h' : d'.Makes d'') : d.Makes d'' where
  toExtends := h.toExtends.trans h'.toExtends
  sound := h'.sound
  size_le := Nat.le_trans h.size_le h'.size_le
  same id hid hfile := by
    have hsame := h.same id hid hfile
    rw [h'.same id (Nat.lt_of_lt_of_le hid h.size_le) (by rw [hsame, hfile]), hsame]

theorem Builds.makes {names : List String} {count : Nat} (h : Builds id names count d d')
    (hid : d.Directory id) : d.Makes d' where
  toExtends := h.toExtends
  sound := h.sound
  size_le := h.size_le
  same there hthere hfile := by
    refine h.same hthere ?_
    rintro rfl
    rw [hid.2] at hfile
    cases hfile

theorem locateEntry_eq_ok {found : Located} (h : d.locateEntry path = .ok found) :
    pathFault? path = none ∧ ∃ slash, d.walk false linkLimit [] (Path.steps path) false =
      .ok ⟨found.place, slash⟩ := by
  unfold locateEntry at h
  split at h
  · cases h
  · rename_i hfault
    refine ⟨hfault, ?_⟩
    cases hwalk : d.walk false linkLimit [] (Path.steps path) false with
    | error e =>
      rw [hwalk] at h
      cases h
    | ok there =>
      rw [hwalk] at h
      cases h
      exact ⟨_, rfl⟩

/-- No link is at the end of a path that leads to a free name. -/
theorem walk_free {follow slash slash' : Bool} {links : Nat} {trail trail' : Trail}
    {steps : List String} (hfollow : follow = false) (hslash : slash = false)
    (h : d.walk follow links trail steps slash = .ok ⟨.named trail' name none, slash'⟩)
    (follow' slash'' : Bool) :
    d.walk follow' links trail steps slash'' = .ok ⟨.named trail' name none, slash''⟩ := by
  fun_induction Disk.walk d follow links trail steps slash with
  | case1 | case2 | case3 | case4 | case6 | case8 | case9 | case12 | case13 | case14 | case16 =>
    cases h
  | case5 links trail slash name' hdot hup hlong hchild =>
    cases h
    rw [walk_name hdot hup hlong, hchild]
    intro there hthere
    rw [hchild] at hthere
    cases hthere
  | case7 trail slash name' hdot hup hlong there hchild target hlink hasks links ih =>
    rw [hfollow, hslash] at hasks
    cases hasks
  | case10 links trail slash name' rest hrest hdot ih =>
    rw [walk_cons hrest, if_pos hdot]
    exact ih hslash h
  | case11 links trail slash name' rest hrest hdot hup ih =>
    rw [walk_cons hrest, if_neg hdot, if_pos hup]
    exact ih hslash h
  | case15 links trail slash name' rest hrest hdot hup hlong there hchild entries hcontent ih =>
    rw [walk_cons hrest, if_neg hdot, if_neg hup, if_neg hlong]
    simp only [hchild, hcontent]
    exact ih hslash h
  | case17 trail slash name' rest hrest hdot hup hlong there hchild target hlink links ih =>
    rw [walk_cons hrest, if_neg hdot, if_neg hup, if_neg hlong]
    simp only [hchild, hlink]
    exact ih hslash h

theorem isDirectory_iff :
    d.isDirectory path = true ↔ ∃ id, d.find? true path = .ok id ∧ (d.node id).isDirectory = true := by
  unfold isDirectory stat
  cases d.find? true path with
  | error e => exact ⟨nofun, nofun⟩
  | ok id =>
    constructor
    · exact fun h => ⟨id, rfl, h⟩
    · rintro ⟨_, ⟨⟩, h⟩
      exact h

theorem Sound.makeDirectory_cases (hd : d.Sound) (path : String) :
    (∃ e, d.makeDirectory path = (.error e, d)) ∨
      ∃ d', d.makeDirectory path = (.ok (), d') ∧ d.Makes d' ∧ d'.isDirectory path = true := by
  unfold Disk.makeDirectory
  cases hentry : d.locateEntry path with
  | error e => exact .inl ⟨e, rfl⟩
  | ok found =>
    obtain ⟨hfault, slash, hwalk⟩ := locateEntry_eq_ok hentry
    obtain ⟨place, slash'⟩ := found
    match place with
    | .itself trail viaParent => exact .inl ⟨_, rfl⟩
    | .named trail name (some id) => exact .inl ⟨_, rfl⟩
    | .named trail name none =>
      have hhere : d.Directory trail.here := (walk_place hwalk).2 hd nofun
      have hfree : d.child? trail.here name = none := (walk_place hwalk).1.1.symm
      obtain ⟨hbuilds, hchild, hdirectory, -⟩ := hd.withDirectory hhere hfree
      have hlocate : d.locate true path = .ok ⟨.named trail name none, Path.endsInSlash path⟩ := by
        rw [locate, hfault]
        exact walk_free rfl rfl hwalk true _
      refine .inr ⟨_, rfl, hbuilds.makes hhere, isDirectory_iff.mpr ⟨d.nodes.size, ?_, hdirectory.2⟩⟩
      exact find?_eq_ok.mpr ⟨_, hbuilds.locate hlocate, hchild, fun _ => hdirectory.2⟩

/-- What comes of a request for a directory: only directories are made, and after a success it is
there. -/
structure Made (d : Disk) (path : String) (outcome : Change Unit) : Prop where
  makes : d.Makes outcome.2
  there : outcome.1 = .ok () → outcome.2.isDirectory path = true

theorem Makes.failed (h : d.Makes d') (path : String) (e : SystemError) :
    d.Made path (.error e, d') where
  makes := h
  there hok := by cases hok

/-- A directory that is there after all is a success. -/
theorem Makes.settled (h : d.Makes d') (path : String) (e : SystemError) :
    d.Made path (if d'.isDirectory path then (.ok (), d') else (.error e, d')) := by
  split
  · rename_i hdirectory
    exact ⟨h, fun _ => hdirectory⟩
  · exact h.failed path e

theorem Sound.made_within (hd : d.Sound) (n : Nat) (path : String) :
    d.Made path (Disk.makeDirectoriesWithin n d path) := by
  induction n generalizing d path with
  | zero => exact (Makes.refl hd).failed path .noEntry
  | succ n ih =>
    have hnone := Makes.refl hd
    unfold Disk.makeDirectoriesWithin
    rcases hd.makeDirectory_cases path with ⟨e, heq⟩ | ⟨d', heq, hmakes, hdirectory⟩
    · rw [heq]
      cases e with
      | noEntry =>
        cases Path.parent? path with
        | none => exact hnone.failed path .noEntry
        | some above =>
          have habove := (ih hd above).makes
          dsimp only
          generalize Disk.makeDirectoriesWithin n d above = outcome at habove
          obtain ⟨⟨e⟩ | _, d'⟩ := outcome
          · exact habove.failed path e
          · replace habove : d.Makes d' := habove
            dsimp only
            rcases habove.sound.makeDirectory_cases path with
              ⟨e, heq⟩ | ⟨d'', heq, hmakes, hdirectory⟩
            · rw [heq]
              exact habove.settled path e
            · rw [heq]
              exact ⟨habove.trans hmakes, fun _ => hdirectory⟩
      | _ => exact hnone.settled path _
    · rw [heq]
      exact ⟨hmakes, fun _ => hdirectory⟩

/-- After a success, something is at the destination. -/
theorem Sound.destination_spec (hd : d.Sound) (path : String) :
    d.Makes (d.destination path).2 ∧ ((d.destination path).1 = .ok () →
      ∃ id, (d.destination path).2.find? true path = .ok id) := by
  unfold destination
  split
  · rename_i hexists
    refine ⟨.refl hd, fun _ => ?_⟩
    cases hfind : d.find? true path with
    | error e =>
      rw [pathExists_eq_false hfind] at hexists
      cases hexists
    | ok id => exact ⟨id, rfl⟩
  · have hmade := hd.made_within (path.length + 1) path
    refine ⟨hmade.makes, fun hok => ?_⟩
    obtain ⟨id, hfind, -⟩ := isDirectory_iff.mp (hmade.there hok)
    exact ⟨id, hfind⟩

end Runnel.Disk
