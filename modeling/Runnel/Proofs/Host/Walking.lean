import Runnel.Host.Change

/-!
# Runnel.Proofs.Host.Walking

Where paths lead, and what it takes to change that.

* `Disk.Sound`: the root is a directory, and what is in a directory is there.
* `Disk.walk_place`: what is known of the place where a path ends.
* `Disk.Grows`: a disk with all that is on another one, where files may hold other bytes and more
  files may be.
* `Disk.Grows.walk`: a path that leads somewhere leads to the same place on such a disk.
-/

namespace Runnel

/-- Two contents of the same kind; links have the same target. -/
inductive NodeContent.Alike : NodeContent → NodeContent → Prop where
  | file (bytes bytes' : Bytes) : Alike (.file bytes) (.file bytes')
  | directory (entries entries' : List (String × NodeId)) :
    Alike (.directory entries) (.directory entries')
  | link (target : String) : Alike (.link target) (.link target)

theorem NodeContent.Alike.refl (c : NodeContent) : c.Alike c := by
  cases c with
  | file bytes => exact .file bytes bytes
  | directory entries => exact .directory entries entries
  | link target => exact .link target

theorem Node.exists_entries {n : Node} (h : n.isDirectory = true) :
    ∃ entries, n.content = .directory entries := by
  unfold Node.isDirectory at h
  split at h
  · rename_i entries heq
    exact ⟨entries, heq⟩
  · cases h

theorem Node.exists_target {n : Node} (h : n.isLink = true) :
    ∃ target, n.content = .link target := by
  unfold Node.isLink at h
  split at h
  · rename_i target heq
    exact ⟨target, heq⟩
  · cases h

namespace Disk

/-! ## Places -/

/-- There is such a directory. -/
def Directory (d : Disk) (id : NodeId) : Prop :=
  id < d.nodes.size ∧ (d.node id).isDirectory = true

/-- The root is a directory, and what is in a directory is there. -/
structure Sound (d : Disk) : Prop where
  root : d.Directory 0
  child : ∀ {parent name id}, d.child? parent name = some id → id < d.nodes.size

theorem sound_empty : empty.Sound := by
  refine ⟨⟨Nat.succ_pos 0, rfl⟩, fun {parent name id} h => ?_⟩
  have hentries : (empty.node parent).entries = [] := by
    cases parent with
    | zero | succ n => rfl
  rw [child?, hentries] at h
  cases h

/-- The trail leads through directories that are there. -/
def Trail.Sound (d : Disk) (trail : Trail) : Prop :=
  ∀ e ∈ trail, d.Directory e.2

/-- The directory that is, or has, the place. -/
def Place.here : Place → NodeId
  | .itself trail _ | .named trail _ _ => trail.here

/-- The place shows what its directory says of the name, which is no link if links are followed. -/
def Place.Exact (d : Disk) (follow : Bool) : Place → Prop
  | .itself _ _ => True
  | .named trail name node =>
    node = d.child? trail.here name ∧
      (follow = true → ∀ id, node = some id → (d.node id).isLink = false)

section

variable {d : Disk} {trail : Trail}

theorem Trail.Sound.tail (h : trail.Sound d) : Trail.Sound d trail.tail :=
  fun e he => h e (List.mem_of_mem_tail he)

theorem Trail.Sound.linkStart (h : trail.Sound d) (target : String) :
    Trail.Sound d (linkStart trail target) := by
  unfold Disk.linkStart
  split
  · exact nofun
  · exact h

theorem Trail.Sound.here (hd : d.Sound) (h : trail.Sound d) : d.Directory trail.here := by
  cases trail with
  | nil => exact hd.root
  | cons e trail => exact h e List.mem_cons_self

/-- A directory may be entered. -/
theorem Trail.Sound.enter {name : String} {id : NodeId} {entries : List (String × NodeId)}
    (hd : d.Sound) (h : trail.Sound d) (hchild : d.child? trail.here name = some id)
    (hdirectory : (d.node id).content = .directory entries) :
    Trail.Sound d ((name, id) :: trail) := by
  refine List.forall_mem_cons.mpr ⟨⟨hd.child hchild, ?_⟩, h⟩
  simp [Node.isDirectory, hdirectory]

/-- What is known of the place where a path ends. -/
theorem walk_place {follow : Bool} {links : Nat} {steps : List String} {slash : Bool}
    {found : Located} (h : d.walk follow links trail steps slash = .ok found) :
    found.place.Exact d follow ∧ (d.Sound → trail.Sound d → d.Directory found.place.here) := by
  fun_induction Disk.walk d follow links trail steps slash with
  | case1 | case2 =>
    cases h
    exact ⟨trivial, fun hd htrail => htrail.here hd⟩
  | case3 =>
    cases h
    exact ⟨trivial, fun hd htrail => htrail.tail.here hd⟩
  | case4 | case6 | case12 | case13 | case14 | case16 => cases h
  | case5 links trail slash name hdot hup hlong hchild =>
    cases h
    exact ⟨⟨hchild.symm, fun _ => nofun⟩, fun hd htrail => htrail.here hd⟩
  | case8 links trail slash name hdot hup hlong id hchild target hlink hfollow =>
    cases h
    refine ⟨⟨hchild.symm, fun htrue => ?_⟩, fun hd htrail => htrail.here hd⟩
    exact absurd (by rw [htrue]; rfl) hfollow
  | case9 links trail slash name hdot hup hlong id hchild hlink =>
    cases h
    refine ⟨⟨hchild.symm, fun _ _ hid => ?_⟩, fun hd htrail => htrail.here hd⟩
    cases hid
    unfold Node.isLink
    split
    · rename_i target hlink'
      exact absurd hlink' (hlink target)
    · rfl
  | case7 trail slash name hdot hup hlong id hchild target hlink hfollow links ih
  | case17 trail slash name rest hrest hdot hup hlong id hchild target hlink links ih =>
    exact (ih h).imp_right fun hhere hd htrail => hhere hd (htrail.linkStart target)
  | case10 links trail slash name rest hrest hdot ih => exact ih h
  | case11 links trail slash name rest hrest hdot hup ih =>
    exact (ih h).imp_right fun hhere hd htrail => hhere hd htrail.tail
  | case15 links trail slash name rest hrest hdot hup hlong id hchild entries hdirectory ih =>
    exact (ih h).imp_right fun hhere hd htrail => hhere hd (htrail.enter hd hchild hdirectory)

end

/-! ## Disks with more on them -/

/-- The other disk has all that this one has, perhaps with other bytes in the files, and perhaps
more files. -/
structure Grows (d d' : Disk) : Prop where
  kind : ∀ {parent name id}, d.child? parent name = some id →
    (d.node id).content.Alike (d'.node id).content
  child : ∀ {parent name id}, d.child? parent name = some id → d'.child? parent name = some id
  file : ∀ {parent name id}, d.child? parent name = none → d'.child? parent name = some id →
    ∃ bytes, (d'.node id).content = .file bytes

/-- The place on another disk. -/
def Place.on (d : Disk) : Place → Place
  | .itself trail viaParent => .itself trail viaParent
  | .named trail name _ => .named trail name (d.child? trail.here name)

/-- A path that leads somewhere leads to the same place on another disk. -/
inductive Follows (d' : Disk) :
    Except SystemError Located → Except SystemError Located → Prop where
  | error (e e' : SystemError) : Follows d' (.error e) (.error e')
  | found (place : Place) (slash : Bool) :
    Follows d' (.ok ⟨place, slash⟩) (.ok ⟨place.on d', slash⟩)

section

variable {d d' : Disk} (h : d.Grows d')

include h

namespace Grows

theorem link_iff {parent id : NodeId} {name target : String}
    (hchild : d.child? parent name = some id) :
    (d.node id).content = .link target ↔ (d'.node id).content = .link target := by
  have hkind := h.kind hchild
  generalize (d.node id).content = c, (d'.node id).content = c' at hkind
  cases hkind with
  | file | directory => simp
  | link => rfl

theorem stays_file {parent id : NodeId} {name : String} {bytes : Bytes}
    (hchild : d.child? parent name = some id) (hfile : (d.node id).content = .file bytes) :
    ∃ bytes', (d'.node id).content = .file bytes' := by
  have hkind := h.kind hchild
  rw [hfile] at hkind
  generalize (d'.node id).content = c' at hkind
  cases hkind with
  | file _ bytes' => exact ⟨bytes', rfl⟩

theorem stays_directory {parent id : NodeId} {name : String} {entries : List (String × NodeId)}
    (hchild : d.child? parent name = some id)
    (hdirectory : (d.node id).content = .directory entries) :
    ∃ entries', (d'.node id).content = .directory entries' := by
  have hkind := h.kind hchild
  rw [hdirectory] at hkind
  generalize (d'.node id).content = c' at hkind
  cases hkind with
  | directory _ entries' => exact ⟨entries', rfl⟩

theorem found {trail : Trail} {name : String} {id : NodeId}
    (hchild : d.child? trail.here name = some id) (slash : Bool) :
    Follows d' (.ok ⟨.named trail name (some id), slash⟩)
      (.ok ⟨.named trail name (some id), slash⟩) := by
  have hfound := @Follows.found d' (.named trail name (some id)) slash
  rwa [Place.on, h.child hchild] at hfound

theorem walk (follow : Bool) (links : Nat) (trail : Trail)
    (steps : List String) (slash : Bool) :
    Follows d' (d.walk follow links trail steps slash) (d'.walk follow links trail steps slash) := by
  fun_induction Disk.walk d follow links trail steps slash with
  | case1 links trail slash =>
    rw [Disk.walk]
    exact .found (.itself trail false) slash
  | case2 links trail slash name hdot =>
    rw [Disk.walk, if_pos hdot]
    exact .found (.itself trail false) slash
  | case3 links trail slash name hdot hup =>
    rw [Disk.walk, if_neg hdot, if_pos hup]
    exact .found (.itself trail.tail true) slash
  | case4 links trail slash name hdot hup hlong =>
    rw [Disk.walk, if_neg hdot, if_neg hup, if_pos hlong]
    exact .error _ _
  | case5 links trail slash name hdot hup hlong hchild =>
    cases hchild' : d'.child? trail.here name with
    | none =>
      simp only [Disk.walk, hdot, hup, hlong, hchild', if_false]
      have hfound := @Follows.found d' (.named trail name none) slash
      rwa [Place.on, hchild'] at hfound
    | some id =>
      obtain ⟨bytes, hfile⟩ := h.file hchild hchild'
      simp only [Disk.walk, hdot, hup, hlong, hchild', hfile, if_false]
      have hfound := @Follows.found d' (.named trail name none) slash
      rwa [Place.on, hchild'] at hfound
  | case6 trail slash name hdot hup hlong id hchild target hlink hfollow =>
    simp only [Disk.walk, hdot, hup, hlong, h.child hchild, (h.link_iff hchild).mp hlink, hfollow,
      if_true, if_false]
    exact .error _ _
  | case7 trail slash name hdot hup hlong id hchild target hlink hfollow links ih =>
    rw [Disk.walk]
    simp only [hdot, hup, hlong, h.child hchild, (h.link_iff hchild).mp hlink, hfollow, if_true,
      if_false]
    exact ih
  | case8 links trail slash name hdot hup hlong id hchild target hlink hfollow =>
    simp only [Disk.walk, hdot, hup, hlong, h.child hchild, (h.link_iff hchild).mp hlink, hfollow,
      if_false]
    exact h.found hchild slash
  | case9 links trail slash name hdot hup hlong id hchild hlink =>
    rw [Disk.walk, if_neg hdot, if_neg hup, if_neg hlong]
    simp only [h.child hchild]
    split
    · rename_i target hlink'
      exact absurd ((h.link_iff hchild).mpr hlink') (hlink target)
    · exact h.found hchild slash
  | case10 links trail slash name rest hrest hdot ih =>
    rw [Disk.walk, if_pos hdot]
    · exact ih
    · exact hrest
  | case11 links trail slash name rest hrest hdot hup ih =>
    rw [Disk.walk, if_neg hdot, if_pos hup]
    · exact ih
    · exact hrest
  | case12 links trail slash name rest hrest hdot hup hlong =>
    rw [Disk.walk, if_neg hdot, if_neg hup, if_pos hlong]
    · exact .error _ _
    · exact hrest
  | case13 links trail slash name rest hrest hdot hup hlong hchild =>
    rw [Disk.walk, if_neg hdot, if_neg hup, if_neg hlong]
    · cases hchild' : d'.child? trail.here name with
      | none => exact .error _ _
      | some id =>
        obtain ⟨bytes, hfile⟩ := h.file hchild hchild'
        simp only [hfile]
        exact .error _ _
    · exact hrest
  | case14 links trail slash name rest hrest hdot hup hlong id hchild bytes hfile =>
    obtain ⟨bytes', hfile'⟩ := h.stays_file hchild hfile
    rw [Disk.walk, if_neg hdot, if_neg hup, if_neg hlong]
    · simp only [h.child hchild, hfile']
      exact .error _ _
    · exact hrest
  | case15 links trail slash name rest hrest hdot hup hlong id hchild entries hdirectory ih =>
    obtain ⟨entries', hdirectory'⟩ := h.stays_directory hchild hdirectory
    rw [Disk.walk, if_neg hdot, if_neg hup, if_neg hlong]
    · simp only [h.child hchild, hdirectory']
      exact ih
    · exact hrest
  | case16 trail slash name rest hrest hdot hup hlong id hchild target hlink =>
    rw [Disk.walk, if_neg hdot, if_neg hup, if_neg hlong]
    · simp only [h.child hchild, (h.link_iff hchild).mp hlink]
      exact .error _ _
    · exact hrest
  | case17 trail slash name rest hrest hdot hup hlong id hchild target hlink links ih =>
    rw [Disk.walk, if_neg hdot, if_neg hup, if_neg hlong]
    · simp only [h.child hchild, (h.link_iff hchild).mp hlink]
      exact ih
    · exact hrest

end Grows

end

end Disk

end Runnel
