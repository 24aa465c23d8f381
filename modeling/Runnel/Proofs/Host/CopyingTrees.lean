import Runnel.Proofs.Host.Making

/-!
# Runnel.Proofs.Host.CopyingTrees

Directories that are copied with all that is in them.

* `Disk.Task`: entries of a directory that are to be copied into another one, where their names are
  free; `Disk.Copies`: what comes of it.
* `Disk.Task.copies_one`, `Disk.Task.copies`: an entry, and one entry after the other, with all that
  is below them.
* `Disk.Task.copyEntry_eq`: the depth that bounds the recursion makes no difference.
* `Disk.Sound.copyTreeWithin_apart`: a directory is copied to a place apart from it.
* `Disk.Sound.copyTreeWithin_itself`: an empty directory is copied into itself again and again.
-/

namespace Runnel.Disk

variable {d d' : Disk} {source target name : String} {s id : NodeId} {e : String × Tree}
  {entries rest : List (String × Tree)} {tree : Tree} {depth : Nat}

/-! ## One entry after the other -/

theorem Change.each_singleton {α : Type} (request : Disk → α → Change Unit) (d : Disk) (a : α) :
    Change.each request d [a] = request d a := by
  rw [Change.each]
  split
  · rename_i heq
    rw [heq]
  · rename_i heq
    rw [heq]
    rfl

theorem copyEntry_error {error : SystemError}
    (h : d.find? false (Path.join source name) = .error error) (depth : Nat) (target : String) :
    copyEntry depth source target d name = (.error error, d) := by
  unfold copyEntry statLink
  simp only [h, Except.map]

theorem copyEntry_found (h : d.find? false (Path.join source name) = .ok id) (depth : Nat)
    (target : String) :
    copyEntry depth source target d name =
      if (d.node id).isDirectory then
        d.copyTreeWithin depth (Path.join source name) (Path.join target name)
      else d.copyFile (Path.join source name) (Path.join target name) := by
  unfold copyEntry statLink
  simp only [h, Except.map]

theorem copyTreeWithin_error {error : SystemError}
    (h : d.destination target = (.error error, d')) (depth : Nat) (source : String) :
    d.copyTreeWithin (depth + 1) source target = (.error error, d') := by
  rw [copyTreeWithin_succ, h]

theorem copyTreeWithin_ok {names : List String} (h : d.destination target = (.ok (), d'))
    (hnames : d'.readDirectory source = .ok names) (depth : Nat) :
    d.copyTreeWithin (depth + 1) source target =
      Change.each (copyEntry depth source target) d' names := by
  rw [copyTreeWithin_succ, h]
  simp only [hnames]

/-- A directory `s` with entries that are to be copied into another directory `id`, where their names
are free. -/
structure Task (d : Disk) (source target : String) (s id : NodeId)
    (entries : List (String × Tree)) : Prop where
  sound : d.Sound
  origin : d.find? true source = .ok s ∧ d.Directory s
  place : d.find? true target = .ok id ∧ d.Directory id
  ne : s ≠ id
  proper : ∀ e ∈ entries, Path.Proper e.1
  distinct : (entries.map Prod.fst).Nodup
  kind : ∀ e ∈ entries, d.hasDirectory s e.1 = e.2.isDirectory
  shows : ∀ e ∈ entries, d.Shows (Path.join source e.1) e.2
  apart : ∀ e ∈ entries, id ∉ e.2.directories
  free : ∀ e ∈ entries, d.child? id e.1 = none

/-- What comes of it: no more is made than these entries, nothing else changes, and after a success
the copies are there. -/
structure Copies (id : NodeId) (target : String) (entries : List (String × Tree)) (d : Disk)
    (outcome : Change Unit) : Prop where
  builds : Builds id (entries.map Prod.fst) (Tree.sizes entries) d outcome.2
  holds : outcome.1 = .ok () →
    ∀ e ∈ entries, outcome.2.Holds d.nodes.size (Path.join target e.1) e.2

/-- All that is in a directory can be copied into another one that is none of its own. -/
theorem Shows.task (hshows : d.Shows source (.directory s entries)) (hd : d.Sound)
    (hplace : d.find? true target = .ok id ∧ d.Directory id)
    (hne : id ∉ (Tree.directory s entries).directories)
    (hfree : ∀ name ∈ (Tree.directory s entries).names, d.child? id name = none) :
    d.Task source target s id entries ∧ d.readDirectory source = .ok (entries.map Prod.fst) := by
  cases hshows with
  | directory hsource hlists hall =>
    refine ⟨?_, hlists.readDirectory hsource⟩
    exact {
      sound := hd
      origin := ⟨hsource, hd.find?_lt hsource, hlists.isDirectory⟩
      place := hplace
      ne := fun heq => hne (heq ▸ List.mem_cons_self)
      proper := hlists.proper
      distinct := hlists.distinct
      kind := hlists.kind
      shows := hall
      apart := fun e he hmem => hne (List.mem_cons_of_mem _
        (Tree.mem_subdirectories.mpr ⟨e, he, hmem⟩))
      free := fun e he => hfree e.1 (List.mem_map_of_mem he) }

namespace Task

section

variable (h : d.Task source target s id entries)

include h

/-- Nothing has been copied. -/
theorem copies_error (e : SystemError) : Copies id target entries d (.error e, d) where
  builds := .refl h.sound h.place.2
  holds := nofun

theorem shows_later {names : List String} {count : Nat} (hbuilds : Builds id names count d d') :
    ∀ e ∈ entries, d'.Shows (Path.join source e.1) e.2 :=
  fun e he => hbuilds.shows h.sound h.place.2 (h.shows e he) (h.apart e he)

/-- The tasks that remain after some of the entries. -/
theorem later {names : List String} {count : Nat} (hbuilds : Builds id names count d d')
    (hsub : rest ⊆ entries) (hrest : (rest.map Prod.fst).Nodup)
    (hnames : ∀ e ∈ rest, e.1 ∉ names) : d'.Task source target s id rest where
  sound := hbuilds.sound
  origin := by
    refine ⟨hbuilds.find? h.origin.1, Nat.lt_of_lt_of_le h.origin.2.1 hbuilds.size_le, ?_⟩
    rw [hbuilds.same h.origin.2.1 h.ne]
    exact h.origin.2.2
  place := ⟨hbuilds.find? h.place.1, hbuilds.directory⟩
  ne := h.ne
  proper e he := h.proper e (hsub he)
  distinct := hrest
  kind e he := by
    rw [hbuilds.hasDirectory (hbuilds.same h.origin.2.1 h.ne)]
    exact h.kind e (hsub he)
  shows e he := h.shows_later hbuilds e (hsub he)
  apart e he := h.apart e (hsub he)
  free e he := by
    rw [hbuilds.other (hnames e he)]
    exact h.free e (hsub he)

end

theorem first (h : d.Task source target s id (e :: rest)) : d.Task source target s id [e] := by
  have hnone : Builds id [] 0 d d := .refl h.sound h.place.2
  exact h.later hnone (by simp) (by simp) fun _ _ => List.not_mem_nil

/-- The task that remains after the first entry. -/
theorem next (h : d.Task source target s id (e :: rest))
    (hbuilds : Builds id [e.1] (Tree.sizes [e]) d d') : d'.Task source target s id rest := by
  have hdistinct := List.nodup_cons.mp h.distinct
  refine h.later hbuilds (List.subset_cons_self e rest) hdistinct.2 fun e' he' hmem => ?_
  rw [List.mem_singleton] at hmem
  exact hdistinct.1 (hmem ▸ List.mem_map_of_mem he')

section

variable {request request' : Disk → String → Change Unit}
  (hstep : ∀ d, ∀ e ∈ entries, d.Task source target s id [e] →
    Copies id target [e] d (request d e.1))

include hstep

/-- Entries are copied one after the other. -/
theorem copies_each (h : d.Task source target s id entries) :
    Copies id target entries d (Change.each request d (entries.map Prod.fst)) := by
  induction entries generalizing d with
  | nil => exact ⟨.refl h.sound h.place.2, fun _ e he => absurd he List.not_mem_nil⟩
  | cons e rest ih =>
    have hfirst := hstep d e List.mem_cons_self h.first
    rw [List.map_cons, Change.each]
    split
    · rename_i error d' heq
      rw [heq] at hfirst
      refine ⟨hfirst.builds.mono (by simp) (by simp [Tree.sizes]), fun hok => ?_⟩
      cases hok
    · rename_i d' heq
      rw [heq] at hfirst
      have hrest := ih (fun d e he => hstep d e (List.mem_cons_of_mem _ he)) (h.next hfirst.builds)
      refine ⟨(hfirst.builds.trans hrest.builds).mono (by simp) (by simp [Tree.sizes]), ?_⟩
      intro hok e' he'
      rcases List.mem_cons.mp he' with rfl | he'
      · -- what is there already is not in the directory itself, and not new
        refine (hfirst.holds rfl e' List.mem_cons_self).keep hfirst.builds.sound
          hrest.builds.toExtends fun there hlow hthere => hrest.builds.same hthere ?_
        exact Nat.ne_of_gt (Nat.lt_of_lt_of_le h.place.2.1 hlow)
      · exact (hrest.holds hok e' he').mono hfirst.builds.size_le

theorem each_congr (h : d.Task source target s id entries)
    (hsame : ∀ d, ∀ e ∈ entries, d.Task source target s id [e] → request d e.1 = request' d e.1) :
    Change.each request d (entries.map Prod.fst) =
      Change.each request' d (entries.map Prod.fst) := by
  induction entries generalizing d with
  | nil => rfl
  | cons e rest ih =>
    have hfirst := hstep d e List.mem_cons_self h.first
    rw [List.map_cons, Change.each, Change.each, ← hsame d e List.mem_cons_self h.first]
    split
    · rfl
    · rename_i d' heq
      rw [heq] at hfirst
      exact ih (fun d e he => hstep d e (List.mem_cons_of_mem _ he)) (h.next hfirst.builds)
        fun d e he => hsame d e (List.mem_cons_of_mem _ he)

end

section

variable (h : d.Task source target s id [e])

include h

/-- An entry cannot be looked at, or it is copied as the tree says. -/
theorem copyEntry_cases :
    (∃ error, ∀ depth, copyEntry depth source target d e.1 = (.error error, d)) ∨
      ∀ depth, copyEntry depth source target d e.1 =
        if e.2.isDirectory then
          d.copyTreeWithin depth (Path.join source e.1) (Path.join target e.1)
        else d.copyFile (Path.join source e.1) (Path.join target e.1) := by
  have hmem : e ∈ [e] := List.mem_singleton_self e
  rcases refused_or_stands h.origin.1 h.origin.2.2 (h.proper e hmem) with hrefused | hstands
  · obtain ⟨error, hfind⟩ := hrefused.find? false
    exact .inl ⟨error, fun depth => copyEntry_error hfind depth target⟩
  · have hkind := h.kind e hmem
    cases hchild : d.child? s e.1 with
    | none =>
      have hfind : d.find? false (Path.join source e.1) = .error .noEntry := by
        obtain ⟨trail, -, hlocate, -⟩ := hstands
        rw [Disk.find?, hlocate, hchild]
        rfl
      exact .inl ⟨.noEntry, fun depth => copyEntry_error hfind depth target⟩
    | some there =>
      rw [hasDirectory, hchild, Option.any_some] at hkind
      refine .inr fun depth => ?_
      rw [copyEntry_found (hstands.find? hchild), hkind]

/-- An entry that is no directory. -/
theorem copies_file (hfile : e.2.isDirectory = false) :
    Copies id target [e] d (d.copyFile (Path.join source e.1) (Path.join target e.1)) := by
  have hmem : e ∈ [e] := List.mem_singleton_self e
  have hfree := h.free e hmem
  rcases refused_or_stands h.place.1 h.place.2.2 (h.proper e hmem) with hrefused | hstands
  · obtain ⟨error, heq⟩ := hrefused.copyFile (Path.join source e.1)
    rw [heq]
    exact h.copies_error error
  cases hread : d.readFile (Path.join source e.1) with
  | error error =>
    obtain ⟨error, heq⟩ := copyFile_of_error hread (Path.join target e.1)
    rw [heq]
    exact h.copies_error error
  | ok bytes =>
    obtain ⟨mode, heq⟩ := hstands.copyFile h.sound h.place.2 hfree hread
    obtain ⟨hbuilds, hchild, hcontent⟩ := h.sound.withFile h.place.2 hfree bytes mode
    rw [heq]
    refine ⟨hbuilds.mono (List.Subset.refl _) (by simp [Tree.sizes]), fun _ e' he' => ?_⟩
    obtain rfl := List.mem_singleton.mp he'
    have hfind := hstands.find?_new hfree hbuilds.toExtends hchild true
    have hshows := h.shows e' hmem
    generalize e'.2 = tree at hshows hfile
    cases hshows with
    | file hread' =>
      rw [hread] at hread'
      cases hread'
      exact .file hfind (Nat.le_refl _) hcontent
    | other => exact .other _
    | directory => cases hfile

/-- A directory's copy is made, and with it comes another task, or nothing happens. -/
theorem deeper {s' : NodeId} {entries' : List (String × Tree)} (he : e.2 = .directory s' entries') :
    (∃ error, ∀ depth, d.copyTreeWithin (depth + 1) (Path.join source e.1) (Path.join target e.1) =
        (.error error, d)) ∨
      ∃ d', Builds id [e.1] 1 d d' ∧
        d'.Task (Path.join source e.1) (Path.join target e.1) s' d.nodes.size entries' ∧
        ∀ depth, d.copyTreeWithin (depth + 1) (Path.join source e.1) (Path.join target e.1) =
          Change.each (copyEntry depth (Path.join source e.1) (Path.join target e.1)) d'
            (entries'.map Prod.fst) := by
  have hmem : e ∈ [e] := List.mem_singleton_self e
  have hfree := h.free e hmem
  rcases refused_or_stands h.place.1 h.place.2.2 (h.proper e hmem) with hrefused | hstands
  · obtain ⟨error, heq⟩ := hrefused.destination
    exact .inl ⟨error, fun depth => copyTreeWithin_error heq depth _⟩
  · obtain ⟨hbuilds, hchild, hdirectory, hempty⟩ := h.sound.withDirectory h.place.2 hfree
    have hshows := h.shows e hmem
    have hkept := h.shows_later hbuilds e hmem
    rw [he] at hshows hkept
    have hfind := hstands.find?_new hfree hbuilds.toExtends hchild true
    have hne : d.nodes.size ∉ (Tree.directory s' entries').directories :=
      fun hnew => Nat.lt_irrefl _ (hshows.lt h.sound d.nodes.size hnew)
    obtain ⟨htask, hnames⟩ := hkept.task hbuilds.sound ⟨hfind, hdirectory⟩ hne
      fun name _ => child?_of_empty hempty name
    exact .inr ⟨_, hbuilds, htask, copyTreeWithin_ok (hstands.destination hfree) hnames⟩

end

/-- What is in a copied directory belongs to its copy. -/
theorem copies_beneath {s' : NodeId} {entries' : List (String × Tree)} {outcome : Change Unit}
    (h : d.Task source target s id [e]) (he : e.2 = .directory s' entries')
    (hbuilds : Builds id [e.1] 1 d d')
    (h' : d'.Task (Path.join source e.1) (Path.join target e.1) s' d.nodes.size entries')
    (hcopies : Copies d.nodes.size (Path.join target e.1) entries' d' outcome) :
    Copies id target [e] d outcome where
  builds := by
    refine (hbuilds.beneath h.place.2.1 (Nat.le_refl _) hcopies.builds).mono (by simp) ?_
    simp [Tree.sizes, he, Tree.size, Nat.add_comm]
  holds hok e' he' := by
    obtain rfl := List.mem_singleton.mp he'
    rw [he]
    refine .directory (hcopies.builds.find? h'.place.1) (Nat.le_refl _)
      hcopies.builds.directory.2 fun x hx => ?_
    exact (hcopies.holds hok x hx).mono hbuilds.size_le

/-- An entry is copied if that is so of a directory. -/
theorem copies_entry (h : d.Task source target s id [e])
    (hdirectory : ∀ s' entries', e.2 = .directory s' entries' → Copies id target [e] d
      (d.copyTreeWithin depth (Path.join source e.1) (Path.join target e.1))) :
    Copies id target [e] d (copyEntry depth source target d e.1) := by
  rcases h.copyEntry_cases with ⟨error, heq⟩ | heq
  · rw [heq]
    exact h.copies_error error
  · have hfile := h.copies_file
    rw [heq]
    cases htree : e.2 with
    | file | other =>
      rw [htree] at hfile
      exact hfile rfl
    | directory s' entries' => exact hdirectory s' entries' htree

/-- An entry is copied, whatever the depth is. -/
theorem copies_one (h : d.Task source target s id [e]) (depth : Nat) :
    Copies id target [e] d (copyEntry depth source target d e.1) := by
  induction depth generalizing d source target s id e with
  | zero => exact h.copies_entry fun _ _ _ => h.copies_error .nameTooLong
  | succ depth ih =>
    refine h.copies_entry fun s' entries' htree => ?_
    rcases h.deeper htree with ⟨error, heq⟩ | ⟨d', hbuilds, h', heq⟩
    · rw [heq]
      exact h.copies_error error
    · rw [heq]
      exact h.copies_beneath htree hbuilds h' (copies_each (fun _ _ _ h => ih h) h')

theorem copies (h : d.Task source target s id entries) (depth : Nat) :
    Copies id target entries d
      (Change.each (copyEntry depth source target) d (entries.map Prod.fst)) :=
  copies_each (fun _ _ _ h => h.copies_one depth) h

theorem copyEntry_congr (h : d.Task source target s id [e]) {depth depth' : Nat}
    (hdirectory : ∀ s' entries', e.2 = .directory s' entries' →
      d.copyTreeWithin depth (Path.join source e.1) (Path.join target e.1) =
        d.copyTreeWithin depth' (Path.join source e.1) (Path.join target e.1)) :
    copyEntry depth source target d e.1 = copyEntry depth' source target d e.1 := by
  rcases h.copyEntry_cases with ⟨error, heq⟩ | heq
  · rw [heq, heq]
  · rw [heq, heq]
    cases htree : e.2 with
    | file | other => rfl
    | directory s' entries' => rw [hdirectory s' entries' htree]

/-- The depth makes no difference as long as it is not less than that of the entry. -/
theorem copyEntry_eq (h : d.Task source target s id [e]) {depth depth' : Nat}
    (hdepth : e.2.levels ≤ depth) (hdepth' : e.2.levels ≤ depth') :
    copyEntry depth source target d e.1 = copyEntry depth' source target d e.1 := by
  induction depth generalizing depth' d source target s id e with
  | zero =>
    refine h.copyEntry_congr fun s' entries' htree => ?_
    rw [htree, Tree.levels] at hdepth
    cases hdepth
  | succ depth ih =>
    refine h.copyEntry_congr fun s' entries' htree => ?_
    rw [htree, Tree.levels] at hdepth hdepth'
    cases depth' with
    | zero => cases hdepth'
    | succ depth' =>
      rcases h.deeper htree with ⟨error, heq⟩ | ⟨d', -, h', heq⟩
      · rw [heq, heq]
      · rw [heq, heq]
        refine each_congr (fun _ _ _ h => h.copies_one depth) h' fun _ _ he h => ih h ?_ ?_
        · exact Nat.le_trans (Tree.levels_le_deepest he) (Nat.le_of_succ_le_succ hdepth)
        · exact Nat.le_trans (Tree.levels_le_deepest he) (Nat.le_of_succ_le_succ hdepth')

theorem each_eq (h : d.Task source target s id entries) {depth depth' : Nat}
    (hdepth : Tree.deepest entries ≤ depth) (hdepth' : Tree.deepest entries ≤ depth') :
    Change.each (copyEntry depth source target) d (entries.map Prod.fst) =
      Change.each (copyEntry depth' source target) d (entries.map Prod.fst) :=
  each_congr (fun _ _ _ h => h.copies_one depth) h fun _ _ he h =>
    h.copyEntry_eq (Nat.le_trans (Tree.levels_le_deepest he) hdepth)
      (Nat.le_trans (Tree.levels_le_deepest he) hdepth')

end Task

/-! ## Whole trees -/

/-- The destination is apart from a directory: it is made without a change to the directories of this
one, it is none of them, and these names are free in it. -/
structure Apart (d : Disk) (tree : Tree) (path : String) : Prop where
  same : ∀ id ∈ tree.directories, (d.destination path).2.node id = d.node id
  room : ∀ id, (d.destination path).2.find? true path = .ok id →
    ((d.destination path).2.node id).isDirectory = true ∧ id ∉ tree.directories ∧
      ∀ name ∈ tree.names, (d.destination path).2.child? id name = none

/-- The path of a directory in which directories of one name are in each other. -/
def nested (name : String) : Nat → String → String
  | 0, path => path
  | k + 1, path => nested name k (Path.join path name)

/-- Copying an empty directory into itself never comes to an end: whatever the depth is, it is used
up, as long as the paths are not too long. -/
theorem Sound.copyTreeWithin_itself (hd : d.Sound) (hsource : d.find? true source = .ok s)
    (hempty : (d.node s).content = .directory []) (hname : Path.Proper name)
    (hlong : ¬ (Text.encode name).length > nameLimit) (depth : Nat) :
    (∃ error, (d.copyTreeWithin depth source (Path.join source name)).1 = .error error) ∧
      ((∀ k ≤ depth, pathFault? (nested name k source) = none) →
        (d.copyTreeWithin depth source (Path.join source name)).2.nodes.size =
          d.nodes.size + depth) := by
  induction depth generalizing d source s with
  | zero => exact ⟨⟨.nameTooLong, rfl⟩, fun _ => rfl⟩
  | succ depth ih =>
    have hdirectory : d.Directory s := by
      refine ⟨hd.find?_lt hsource, ?_⟩
      rw [Node.isDirectory, hempty]
    have hfree := child?_of_empty hempty name
    rcases refused_or_stands hsource hdirectory.2 hname with hrefused | hstands
    · obtain ⟨error, heq⟩ := hrefused.destination
      rw [copyTreeWithin_error heq]
      refine ⟨⟨error, rfl⟩, fun hfits => ?_⟩
      have hstands := stands_below hsource hdirectory.2 hname
        (hfits 1 (Nat.succ_le_succ (Nat.zero_le _))) hlong
      obtain ⟨trail, -, hlocate, -⟩ := hstands
      obtain ⟨error, -, hno, -⟩ := hrefused
      rw [hno] at hlocate
      cases hlocate
    · obtain ⟨hbuilds, hchild, hnew, hempty'⟩ := hd.withDirectory hdirectory hfree
      have hfind := hstands.find?_new hfree hbuilds.toExtends hchild
      have hcontent : ((d.withDirectory s name).node s).content =
          .directory [(name, d.nodes.size)] := by
        rw [Disk.withDirectory, node_create hdirectory.1, if_pos rfl, Node.entries, hempty]
        rfl
      have hnames := readDirectory_eq (hbuilds.find? hsource) hcontent
      rw [copyTreeWithin_ok (hstands.destination hfree) hnames, List.map_singleton,
        Change.each_singleton, copyEntry_found (hfind false), if_pos hnew.2]
      obtain ⟨herror, hsize⟩ := ih hbuilds.sound (hfind true) hempty'
      refine ⟨herror, fun hfits => ?_⟩
      rw [hsize fun k hk => hfits (k + 1) (Nat.succ_le_succ hk), Disk.withDirectory, size_create,
        Nat.add_assoc, Nat.add_comm 1]

/-! ## A directory with a file -/

namespace Shelf

/-- A directory in the root. -/
def bare : Disk := empty.withDirectory 0 "a"

/-- A directory in the root, with a file in it. -/
def filled : Disk := bare.withFile 1 "f" [120] fileMode

theorem proper_a : Path.Proper "a" := ⟨by decide, by decide, by decide, by decide⟩
theorem proper_b : Path.Proper "b" := ⟨by decide, by decide, by decide, by decide⟩
theorem proper_f : Path.Proper "f" := ⟨by decide, by decide, by decide, by decide⟩

theorem find?_root (d : Disk) (follow : Bool) : d.find? follow "/" = .ok 0 := by
  refine find?_eq_ok.mpr ⟨⟨.itself [] false, true⟩, ?_, rfl⟩
  rw [locate, show pathFault? "/" = none from by decide, show Path.steps "/" = [] from by decide,
    show Path.endsInSlash "/" = true from by decide]
  simp only
  rw [walk]

theorem stands_a : empty.Stands "/a" 0 "a" :=
  stands_below (find?_root empty true) sound_empty.root.2 proper_a (by decide) (by decide)

theorem builds_bare : Builds 0 ["a"] 1 empty bare ∧ bare.child? 0 "a" = some 1 ∧ bare.Directory 1 ∧
    (bare.node 1).content = .directory [] :=
  sound_empty.withDirectory sound_empty.root rfl

theorem find?_a : bare.find? true "/a" = .ok 1 :=
  stands_a.find?_new rfl builds_bare.1.toExtends builds_bare.2.1 true

theorem lists_a : bare.Lists 1 [] where
  names := ⟨[], builds_bare.2.2.2, rfl⟩
  proper := nofun
  distinct := List.nodup_nil
  kind := nofun

theorem builds_filled : Builds 1 ["f"] 1 bare filled ∧ filled.child? 1 "f" = some 2 ∧
    (filled.node 2).content = .file [120] :=
  builds_bare.1.sound.withFile builds_bare.2.2.1 (child?_of_empty builds_bare.2.2.2 "f") [120] fileMode

theorem stands_f : bare.Stands "/a/f" 1 "f" :=
  stands_below find?_a builds_bare.2.2.1.2 proper_f (by decide) (by decide)

theorem find?_f (follow : Bool) : filled.find? follow "/a/f" = .ok 2 :=
  stands_f.find?_new (child?_of_empty builds_bare.2.2.2 "f") builds_filled.1.toExtends
    builds_filled.2.1 follow

theorem readFile_f : filled.readFile "/a/f" = .ok [120] := by
  rw [readFile_eq (find?_f true), builds_filled.2.2]

theorem lists_filled : filled.Lists 1 [("f", .file [120])] where
  names := ⟨[("f", 2)], rfl, rfl⟩
  proper := by simpa using proper_f
  distinct := List.nodup_cons.mpr ⟨List.not_mem_nil, List.nodup_nil⟩
  kind := by
    intro e he
    obtain rfl := List.mem_singleton.mp he
    rw [hasDirectory, builds_filled.2.1, Option.any_some, Node.isDirectory, builds_filled.2.2]
    rfl

theorem shows_filled : filled.Shows "/a" (.directory 1 [("f", .file [120])]) := by
  refine .directory (builds_filled.1.find? find?_a) lists_filled fun e he => ?_
  obtain rfl := List.mem_singleton.mp he
  exact .file readFile_f

theorem free_b : filled.child? 0 "b" = none := by
  rw [child?, builds_filled.1.same (by rw [bare, withDirectory, size_create]; decide) (by decide),
    ← child?, builds_bare.1.other (by decide)]
  rfl

theorem stands_b : filled.Stands "/b" 0 "b" :=
  stands_below (find?_root filled true) builds_filled.1.sound.root.2 proper_b (by decide) (by decide)

theorem builds_b : Builds 0 ["b"] 1 filled (filled.withDirectory 0 "b") ∧
    (filled.withDirectory 0 "b").child? 0 "b" = some filled.nodes.size ∧
    (filled.withDirectory 0 "b").Directory filled.nodes.size ∧
    ((filled.withDirectory 0 "b").node filled.nodes.size).content = .directory [] :=
  builds_filled.1.sound.withDirectory builds_filled.1.sound.root free_b

theorem apart_b : filled.Apart (.directory 1 [("f", .file [120])]) "/b" := by
  have hplace := stands_b.destination free_b
  have hlt : 1 < filled.nodes.size := builds_filled.1.directory.1
  refine ⟨fun id hid => ?_, fun id hid => ?_⟩
  · obtain rfl : id = 1 := by simpa [Tree.directories, Tree.subdirectories] using hid
    rw [hplace]
    exact builds_b.1.same hlt (by decide)
  · rw [hplace] at hid ⊢
    have hfind := stands_b.find?_new free_b builds_b.1.toExtends builds_b.2.1 true
    obtain rfl := Except.ok.inj (hfind.symm.trans hid)
    refine ⟨builds_b.2.2.1.2, ?_, fun name _ => child?_of_empty builds_b.2.2.2 name⟩
    simpa [Tree.directories, Tree.subdirectories] using Nat.ne_of_gt hlt

end Shelf

end Runnel.Disk
