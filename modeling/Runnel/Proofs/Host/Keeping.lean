import Runnel.Proofs.Host.Opening
import Runnel.Proofs.Registry

/-!
# Runnel.Proofs.Host.Keeping

Requests keep a disk sound, also those that fail after a part of their work.

* `Disk.Sound.create`, `Disk.Sound.attach` and `Disk.Sound.detach` are most of what they are made of.
* `Disk.Sound.rename`: a name is given to another node, which is there.
* `Disk.Sound.removeTree`, `Disk.Sound.copyTree`: requests that work through a tree.
-/

namespace Runnel.Disk

variable {d d' : Disk} {path : String}

theorem locateEntry_exact {found : Located} (h : d.locateEntry path = .ok found) :
    found.place.Exact d false := by
  unfold locateEntry at h
  split at h
  · cases h
  · cases hwalk : d.walk false linkLimit [] (Path.steps path) false with
    | error e =>
      rw [hwalk] at h
      cases h
    | ok there =>
      rw [hwalk] at h
      cases h
      exact (walk_place hwalk).1

/-- A file that was opened for writing is there, and is no directory. -/
theorem Sound.exists_bytes_of_openOutput (hd : d.Sound) {how : OutputMode} {mode : Nat}
    {id : NodeId} (h : d.openOutput path how mode = (.ok id, d')) :
    d'.Sound ∧ ∃ bytes, (d'.node id).content = .file bytes := by
  rcases openOutput_cases hd path how mode with ⟨-, id', there, heq, hopens⟩ | ⟨-, e, heq⟩
  · rw [h] at heq
    cases heq
    exact ⟨hopens.sound, _, hopens.content⟩
  · rw [h] at heq
    cases heq

theorem size_detach (d : Disk) (parent : NodeId) (name : String) :
    (d.detach parent name).nodes.size = d.nodes.size :=
  size_update ..

namespace Sound

variable (hd : d.Sound)

include hd

/-! ## Names -/

theorem detach (parent : NodeId) (name : String) : (d.detach parent name).Sound := by
  refine hd.update (fun _ => rfl) fun x there h => ?_
  simp only [Node.entries, Registry.lookup_filter_ne, Option.ite_none_left_eq_some] at h
  exact hd.child h.2

theorem makeDirectory (path : String) : (d.makeDirectory path).2.Sound := by
  unfold Disk.makeDirectory
  split
  · exact hd
  · split
    · exact hd.create rfl
    · exact hd

theorem removeFile (path : String) : (d.removeFile path).2.Sound := by
  unfold Disk.removeFile
  repeat' split
  all_goals first | exact hd | exact hd.detach _ _

theorem removeDirectory (path : String) : (d.removeDirectory path).2.Sound := by
  unfold Disk.removeDirectory
  repeat' split
  all_goals first | exact hd | exact hd.detach _ _

theorem rename (source target : String) : (d.rename source target).2.Sound := by
  unfold Disk.rename
  split
  · exact hd
  · rename_i old hold
    split
    · exact hd
    · rename_i new hnew
      split
      · exact hd
      · rename_i oldTrail oldName id newTrail newName replaced hplace hplace'
        have hexact := locateEntry_exact hold
        rw [hplace] at hexact
        have hid : id < d.nodes.size := hd.child hexact.1.symm
        have hdetached := hd.detach oldTrail.here oldName
        repeat' split
        all_goals first
          | exact hd
          | exact hdetached.attach (by rwa [size_detach])
          | exact (hdetached.detach _ _).attach (by rwa [size_detach, size_detach])
      · exact hd

/-! ## Trees -/

theorem makeDirectoriesWithin (n : Nat) (path : String) :
    (Disk.makeDirectoriesWithin n d path).2.Sound := by
  induction n generalizing d path with
  | zero => exact hd
  | succ n ih =>
    have hmake := hd.makeDirectory path
    rw [Disk.makeDirectoriesWithin]
    split
    · rename_i d' heq
      rwa [heq] at hmake
    · rename_i d' heq
      rw [heq] at hmake
      split
      · exact hmake
      · rename_i above habove
        have habove := ih hmake above
        split
        · rename_i e d'' heq'
          rwa [heq'] at habove
        · rename_i d'' heq'
          rw [heq'] at habove
          have hagain := habove.makeDirectory path
          split
          · rename_i heq''
            rwa [heq''] at hagain
          · rename_i heq''
            rw [heq''] at hagain
            split
            · exact hagain
            · exact hagain
    · rename_i heq
      rw [heq] at hmake
      split
      · exact hmake
      · exact hmake

theorem makeDirectories (path : String) : (d.makeDirectories path).2.Sound :=
  hd.makeDirectoriesWithin _ path

theorem emptied (depth : Nat) (id : NodeId) : (Disk.emptied depth d id).Sound := by
  induction depth generalizing d id with
  | zero => exact hd
  | succ depth ih =>
    rw [Disk.emptied]
    refine List.foldlRecOn _ _ hd fun d' hd' e _ => ?_
    split
    · exact (ih hd' e.2).detach id e.1
    · exact hd'.detach id e.1

theorem removeTree (path : String) : (d.removeTree path).2.Sound := by
  unfold Disk.removeTree
  split
  · exact hd
  · rename_i id _
    split
    · exact hd.removeFile path
    · split
      · exact hd
      · have hremoved := (hd.emptied d.nodes.size id).removeDirectory path
        simp only
        split
        · rename_i heq
          rwa [heq] at hremoved
        · exact hremoved

/-! ## Files -/

theorem openOutput (path : String) (how : OutputMode) (mode : Nat) :
    (d.openOutput path how mode).2.Sound := by
  rcases openOutput_cases hd path how mode with ⟨-, id, d', heq, hopens⟩ | ⟨-, e, heq⟩
  · rw [heq]
    exact hopens.sound
  · rw [heq]
    exact hd

theorem copyFile (source target : String) : (d.copyFile source target).2.Sound := by
  unfold Disk.copyFile
  split
  · exact hd
  · split
    · exact hd
    · rename_i id _ _
      have hopen := hd.openOutput target .overwrite (d.node id).mode
      simp only
      split
      · rename_i heq
        rwa [heq] at hopen
      · rename_i heq
        obtain ⟨hd', bytes, hfile⟩ := hd.exists_bytes_of_openOutput heq
        exact hd'.rewrite hfile rfl

/-- The directories above a path are made if there are any. -/
theorem makeAbove (path : String) {d' : Disk} (hsome : ∀ there, Path.parent? path = some there →
    d' = (d.makeDirectories there).2) (hnone : Path.parent? path = none → d' = d) : d'.Sound := by
  cases hparent : Path.parent? path with
  | none => exact hnone hparent ▸ hd
  | some there => exact hsome there hparent ▸ hd.makeDirectories there

theorem writeFile (path : String) (bytes : Bytes) : (d.writeFile path bytes).2.Sound := by
  fun_cases Disk.writeFile d path bytes with
  | case1 d' e d'' heq =>
    have hd' : d'.Sound :=
      hd.makeAbove path (fun _ h => by simp only [d', h]) fun h => by simp only [d', h]
    have hopen := hd'.openOutput path .overwrite fileMode
    rwa [heq] at hopen
  | case2 d' id d'' heq =>
    have hd' : d'.Sound :=
      hd.makeAbove path (fun _ h => by simp only [d', h]) fun h => by simp only [d', h]
    obtain ⟨hd'', old, hfile⟩ := hd'.exists_bytes_of_openOutput heq
    exact hd''.rewrite hfile rfl

theorem makeLink (path target : String) : (d.makeLink path target).2.Sound := by
  fun_cases Disk.makeLink d path target with
  | case1 d' | case3 d' =>
    exact hd.makeAbove path (fun _ h => by simp only [d', h]) fun h => by simp only [d', h]
  | case2 d' =>
    have hd' : d'.Sound :=
      hd.makeAbove path (fun _ h => by simp only [d', h]) fun h => by simp only [d', h]
    exact hd'.create rfl

theorem setMode (path : String) (mode : Nat) : (d.setMode path mode).2.Sound := by
  unfold Disk.setMode
  split
  · exact hd
  · rename_i id _
    exact hd.update (fun h => h ▸ hd.root.2) fun _ _ h => hd.child h

end Sound

/-- Requests one after the other. -/
theorem sound_each {α : Type} {request : Disk → α → Change Unit}
    (h : ∀ d a, d.Sound → (request d a).2.Sound) (hd : d.Sound) (as : List α) :
    (Change.each request d as).2.Sound := by
  induction as generalizing d with
  | nil => exact hd
  | cons a as ih =>
    have hfirst := h d a hd
    rw [Change.each]
    split
    · rename_i heq
      rwa [heq] at hfirst
    · rename_i heq
      rw [heq] at hfirst
      exact ih hfirst

/-- The directory that copies go into, which is made if nothing is there. -/
def destination (d : Disk) (path : String) : Change Unit :=
  if d.pathExists path then (.ok (), d) else d.makeDirectories path

/-- Copies an entry of a directory into another one. -/
def copyEntry (depth : Nat) (source target : String) (d : Disk) (name : String) : Change Unit :=
  match d.statLink (Path.join source name) with
  | .error e => (.error e, d)
  | .ok n =>
    if n.isDirectory then
      d.copyTreeWithin depth (Path.join source name) (Path.join target name)
    else d.copyFile (Path.join source name) (Path.join target name)

theorem copyTreeWithin_succ (d : Disk) (depth : Nat) (source target : String) :
    d.copyTreeWithin (depth + 1) source target =
      match d.destination target with
      | (.error e, d) => (.error e, d)
      | (.ok (), d) =>
        match d.readDirectory source with
        | .error e => (.error e, d)
        | .ok names => Change.each (copyEntry depth source target) d names := by
  -- the equation that Lean would state is slow to prove
  delta copyTreeWithin copyEntry destination
  rfl

theorem Sound.copyTreeWithin (hd : d.Sound) (depth : Nat) (source target : String) :
    (Disk.copyTreeWithin depth d source target).2.Sound := by
  induction depth generalizing d source target with
  | zero => exact hd
  | succ depth ih =>
    have hmade : (d.destination target).2.Sound := by
      unfold destination
      split
      · exact hd
      · exact hd.makeDirectories target
    rw [copyTreeWithin_succ]
    split
    · rename_i heq
      rwa [heq] at hmade
    · rename_i d' heq
      rw [heq] at hmade
      split
      · exact hmade
      · refine sound_each (fun d'' name hd'' => ?_) hmade _
        unfold copyEntry
        split
        · exact hd''
        · split
          · exact ih hd'' _ _
          · exact hd''.copyFile _ _

theorem Sound.copyTree (hd : d.Sound) (source target : String) :
    (d.copyTree source target).2.Sound :=
  hd.copyTreeWithin _ source target

end Runnel.Disk
