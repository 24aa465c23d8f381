import Runnel.Proofs.Host.Opening
import Runnel.Utility.Files

/-!
# Runnel.Proofs.Utility.Copying

Files that are copied, and what is left of them.

* `Disk.SameFile`: two paths lead to one file.
* `Disk.Sound.copyFile_cases`: a file is copied if its copy can be opened, and otherwise nothing
  happens.
* `Disk.Sound.readFile_copyFile`: a file that is copied stays as it is, unless it is copied onto
  itself. Then nothing is left of it.
* `Files.OntoItself`: the place that a source goes to is the source, under whatever path.
* `Files.leaves_cp`: with one source that is a file, the command is one request, or none.
* `Files.readFile_cp`: the command empties its source if that goes onto itself, and only then.
-/

namespace Runnel.Disk

/-- Both paths lead to the same file. -/
def SameFile (d : Disk) (path path' : String) : Prop :=
  ∃ id, d.Names path id ∧ d.Names path' id

variable {d d' : Disk} {source target path : String} {how : OutputMode} {id there : NodeId}
  {bytes : Bytes}

/-- The file that is opened is the one that the path led to, or a new one under a free name. -/
theorem Opens.old_or_new (h : d.Opens path how there d') :
    (d.Names path there ∧ Only (.node there) d d') ∨
      d.Free path ∧ d.nodes.size ≤ there ∧ ∃ parent name, Only (.free parent name) d d' := by
  obtain ⟨spot, hspot, honly⟩ := h.only
  obtain ⟨⟨place, slash⟩, hlocate, rfl⟩ := exists_located hspot
  obtain ⟨trail', name', hlocate'⟩ := h.names
  rw [honly.locate_eq hlocate] at hlocate'
  cases place with
  | itself trail viaParent => cases hlocate'
  | named trail name node =>
    simp only [Place.on, Except.ok.injEq, Located.mk.injEq, Place.named.injEq] at hlocate'
    obtain ⟨⟨-, -, hchild⟩, rfl⟩ := hlocate'
    cases node with
    | none =>
      have hnew := honly.new (locate_exact hlocate).1.symm hchild
      exact .inr ⟨⟨trail, name, hlocate⟩, hnew, _, _, honly⟩
    | some old =>
      rw [honly.child (locate_exact hlocate).1.symm, Option.some.injEq] at hchild
      subst hchild
      exact .inl ⟨⟨trail, name, hlocate⟩, honly⟩

section

variable (hd : d.Sound) (h : d.Opens path how there d') (hid : d.Names source id)

include hd h hid

theorem Opens.eq_iff : id = there ↔ d.Names path id := by
  rcases h.old_or_new with ⟨hpath, -⟩ | ⟨⟨trail, name, hfree⟩, hnew, -⟩
  · exact ⟨fun heq => heq ▸ hpath, fun hpath' => hpath'.unique hpath⟩
  · refine iff_of_false (Nat.ne_of_lt (Nat.lt_of_lt_of_le (hd.lt_of_names hid) hnew)) ?_
    rintro ⟨trail', name', hlocate⟩
    rw [hfree] at hlocate
    cases hlocate

/-- Other files hold what they held. -/
theorem Opens.keeps (hne : id ≠ there) (hfile : (d.node id).content = .file bytes) :
    d'.Names source id ∧ (d'.node id).content = .file bytes := by
  rcases h.old_or_new with ⟨-, honly⟩ | ⟨-, -, parent, name, honly⟩
  · exact ⟨honly.names hid, honly.same (by simpa using hne.symm) (hd.lt_of_names hid) hfile⟩
  · exact ⟨honly.names hid, honly.same nofun (hd.lt_of_names hid) hfile⟩

end

/-- A file is copied if its copy can be opened. Otherwise nothing happens. -/
theorem Sound.copyFile_cases (hd : d.Sound) (hid : d.Names source id)
    (hfile : (d.node id).content = .file bytes) (target : String) :
    (∃ there d', d.Opens target .overwrite there d' ∧ d.copyFile source target =
        (.ok (), d'.update there fun _ => ⟨.file (d'.node id).bytes, (d.node id).mode⟩)) ∨
      ¬ d.Writable target ∧ ∃ e, d.copyFile source target = (.error e, d) := by
  have hisFile : (d.node id).isFile = true := by rw [Node.isFile, hfile]
  rw [Disk.copyFile, hid.find_eq]
  simp only [hisFile, Bool.not_true, Bool.false_eq_true, if_false]
  rcases openOutput_cases hd target .overwrite (d.node id).mode with
    ⟨-, there, d', heq, hopens⟩ | ⟨hwritable, e, heq⟩
  · refine .inl ⟨there, d', hopens, ?_⟩
    rw [heq]
  · refine .inr ⟨hwritable, e, ?_⟩
    rw [heq]

/-- Nothing is left of a file that is copied onto itself. Otherwise it stays as it is. -/
theorem Sound.readFile_copyFile (hd : d.Sound) (hread : d.readFile source = .ok bytes)
    (target : String) :
    (d.SameFile source target → (d.copyFile source target).2.readFile source = .ok []) ∧
      (¬ d.SameFile source target →
        (d.copyFile source target).2.readFile source = .ok bytes) := by
  obtain ⟨id, hid, hfile⟩ := hd.names_of_readFile hread
  have hsame : d.SameFile source target ↔ d.Names target id := by
    refine ⟨fun ⟨there, hthere, htarget⟩ => ?_, fun htarget => ⟨id, hid, htarget⟩⟩
    rwa [hid.unique hthere]
  rw [hsame]
  rcases hd.copyFile_cases hid hfile target with
    ⟨there, d', hopens, heq⟩ | ⟨hwritable, e, heq⟩
  · rw [heq, ← hopens.eq_iff hd hid]
    constructor
    · rintro rfl
      -- It was opened before it is read.
      have hbytes : (d'.node id).bytes = [] := by
        rw [Node.bytes, hopens.content]
        rfl
      obtain ⟨spot, -, honly⟩ := hopens.only
      rw [readFile_rewrite hopens.content rfl (honly.names hid), hbytes]
    · intro hne
      obtain ⟨hsource, hkept⟩ := hopens.keeps hd hid hne hfile
      exact readFile_rewrite_ne hopens.content rfl hsource hne hkept
  · rw [heq]
    refine ⟨fun htarget => absurd ?_ hwritable, fun _ => hread⟩
    exact .inr ⟨bytes, htarget.readFile_eq hfile⟩

end Runnel.Disk

namespace Runnel

/-- The disk after the work of a command. -/
def Handler.leaves : Handler → Invocation → Disk → Disk
  | .call c, i, d => (c.run i d).2
  | .generator _, _, d => d

namespace Files

/-- The place that the source goes to is the source. -/
def OntoItself (d : Disk) (i : Invocation) (source target : String) : Prop :=
  ∃ place, destination i target (d.isDirectory (i.resolve target)) source = .ok place ∧
    d.SameFile (i.resolve source) place

section

variable {d : Disk} {i : Invocation} {source target : String} {bytes : Bytes}

theorem eachOperand_singleton (work : Disk → String → Option Outcome × Disk) (d : Disk)
    (operand : String) : (eachOperand work d [operand]).2 = (work d operand).2 := by
  rw [eachOperand]
  split
  · rename_i heq
    rw [heq]
  · rename_i heq
    rw [heq, eachOperand]

theorem attempt_snd {α : Type} (doing : String) (request : Disk.Change α) :
    (attempt doing request).2 = request.2 := by
  obtain ⟨e | a, d⟩ := request
  · rfl
  · rfl

theorem isDirectory_of_readFile {path : String} (h : d.readFile path = .ok bytes) :
    d.pathExists path = true ∧ d.isDirectory path = false := by
  unfold Disk.readFile at h
  cases hstat : d.stat path with
  | error e =>
    rw [hstat] at h
    cases h
  | ok n =>
    rw [hstat] at h
    refine ⟨by rw [Disk.pathExists, hstat]; rfl, ?_⟩
    rw [Disk.isDirectory, hstat, Disk.holds, Node.isDirectory]
    cases hcontent : n.content with
    | file bytes => rfl
    | link target => rfl
    | directory entries =>
      simp only [bind, Except.bind, hcontent] at h
      cases h

variable (hargs : splitFlags ['r', 'R'] i.args = .ok ([], [source, target]))
  (hread : d.readFile (i.resolve source) = .ok bytes)

include hargs hread

/-- One file is copied to its place, if there is one. -/
theorem leaves_cp :
    cpHandler.leaves i d =
      match destination i target (d.isDirectory (i.resolve target)) source with
      | .ok place => (d.copyFile (i.resolve source) place).2
      | .error _ => d := by
  obtain ⟨hexists, hfile⟩ := isDirectory_of_readFile hread
  have hsplit : splitTarget [source, target] = .ok ([source], target) := rfl
  simp only [cpHandler, Handler.changing, Handler.leaves, hargs, eachSource, hsplit,
    List.length_singleton, Nat.lt_irrefl, decide_false, Bool.false_and, Bool.false_eq_true, if_false,
    eachOperand_singleton, hexists, Bool.not_true]
  split
  · rename_i heq
    rw [heq]
  · rename_i heq
    simp only [heq, copySource, hfile, Bool.false_eq_true, if_false, attempt_snd]

/-- A file that is copied is empty afterwards if it goes onto itself. Otherwise it holds what it
held, whether it can be copied or not. -/
theorem readFile_cp (hd : d.Sound) :
    (OntoItself d i source target →
        (cpHandler.leaves i d).readFile (i.resolve source) = .ok []) ∧
      (¬ OntoItself d i source target →
        (cpHandler.leaves i d).readFile (i.resolve source) = .ok bytes) := by
  rw [leaves_cp hargs hread]
  cases hplace : destination i target (d.isDirectory (i.resolve target)) source with
  | error reason =>
    refine ⟨fun ⟨place, hplace', _⟩ => ?_, fun _ => hread⟩
    rw [hplace] at hplace'
    cases hplace'
  | ok place =>
    obtain ⟨hlost, hkept⟩ := hd.readFile_copyFile hread place
    refine ⟨fun ⟨place', hplace', hsame⟩ => ?_, fun hother => hkept fun hsame => ?_⟩
    · rw [hplace] at hplace'
      cases hplace'
      exact hlost hsame
    · exact hother ⟨place, hplace, hsame⟩

end

/-! ### A file alone -/

namespace Lone

/-- The root with one file in it. -/
def disk : Disk :=
  (Disk.empty.create 0 "f" ⟨.file [120], Disk.fileMode⟩).2

def invocation (target : String) : Invocation :=
  ⟨"cp", ["f", target], "", "/", [], 0⟩

theorem sound : disk.Sound :=
  Disk.sound_empty.create rfl

theorem names_f : disk.Names "/f" 1 := by
  refine ⟨[], "f", ?_⟩
  rw [Disk.locate, show Disk.pathFault? "/f" = none from by decide,
    show Path.steps "/f" = ["f"] from by decide]
  simp only []
  rw [Disk.walk]
  rfl

theorem free_g : disk.Free "/g" := by
  refine ⟨[], "g", ?_⟩
  rw [Disk.locate, show Disk.pathFault? "/g" = none from by decide,
    show Path.steps "/g" = ["g"] from by decide]
  simp only []
  rw [Disk.walk]
  rfl

theorem readFile_f : disk.readFile "/f" = .ok [120] :=
  names_f.readFile_eq rfl

theorem destination_f : destination (invocation "f") "f" (disk.isDirectory "/f") "f" = .ok "/f" := by
  rw [(isDirectory_of_readFile readFile_f).2]
  rfl

theorem destination_g : destination (invocation "g") "g" (disk.isDirectory "/g") "f" = .ok "/g" := by
  obtain ⟨trail, name, hlocate⟩ := free_g
  have hstat : disk.stat "/g" = .error .noEntry := by
    rw [Disk.stat, Disk.find?, hlocate]
    rfl
  rw [Disk.isDirectory, hstat]
  rfl

end Lone

/-- A file that is copied to a free name holds what it held. -/
theorem readFile_cp_free :
    (cpHandler.leaves (Lone.invocation "g") Lone.disk).readFile "/f" = .ok [120] := by
  refine (@readFile_cp Lone.disk (Lone.invocation "g") "f" "g" [120] rfl Lone.readFile_f
    Lone.sound).2 ?_
  rintro ⟨place, hplace, id, -, trail, name, hlocate⟩
  obtain ⟨trail', name', hfree⟩ := Lone.free_g
  have hg : place = "/g" := Except.ok.inj (hplace.symm.trans Lone.destination_g)
  rw [hg, hfree] at hlocate
  cases hlocate

/-- A file that is copied to its own name is lost. -/
theorem readFile_cp_own_name :
    Lone.disk.readFile "/f" = .ok [120] ∧
      (cpHandler.leaves (Lone.invocation "f") Lone.disk).readFile "/f" = .ok [] := by
  refine ⟨Lone.readFile_f, ?_⟩
  have hleaves := @leaves_cp Lone.disk (Lone.invocation "f") "f" "f" [120] rfl Lone.readFile_f
  have hplace : destination (Lone.invocation "f") "f"
      (Lone.disk.isDirectory ((Lone.invocation "f").resolve "f")) "f" = .ok "/f" :=
    Lone.destination_f
  rw [hplace] at hleaves
  rw [hleaves]
  exact (Lone.sound.readFile_copyFile Lone.readFile_f "/f").1 ⟨1, Lone.names_f, Lone.names_f⟩

end Files

end Runnel
