import Runnel.Proofs.Host.Opening

/-!
# Runnel.Proofs.Host.Below

Paths below a directory, on a disk to which files and directories are added.

* `Disk.Extends`: a disk with all that is on another one, where new files and directories may be.
* `Disk.Extends.walk`, `Disk.Extends.find?`: a path that leads somewhere leads there on such a disk,
  too.
* `Path.steps_join`: a name below a directory is one more step.
* `Disk.refused_or_stands`: a path below a directory leads to the entry of this name.
* `Disk.Stands.find?_new`: what is given a free name is found under it.
-/

namespace Runnel

/-! ## Names -/

/-- What an entry of a directory can be called. -/
structure Path.Proper (name : String) : Prop where
  ne_nil : name.toList ≠ []
  slash : '/' ∉ name.toList
  current : name ≠ "."
  parent : name ≠ ".."

namespace Path

section

variable {base name : String} (hbase : base ≠ "") (hname : Proper name)

include hname

theorem Proper.isAbsolute : isAbsolute name = false := by
  have hslash := hname.slash
  rw [Path.isAbsolute]
  cases htext : name.toList with
  | nil => rfl
  | cons c cs =>
    rw [htext, List.mem_cons, not_or] at hslash
    simpa using Ne.symm hslash.1

include hbase

/-- A name stands below a directory as one more step. -/
theorem steps_join : steps (join base name) = steps base ++ [name] := by
  have hempty : base.isEmpty = false := by simpa using hbase
  have hsteps : (splitSlashes name.toList).filter (fun s => !s.isEmpty) = [name.toList] := by
    have hnil : name.toList.isEmpty = false := by simpa using hname.ne_nil
    rw [splitSlashes_of_not_mem hname.slash]
    simp [hnil]
  rw [join, hname.isAbsolute, hempty, Bool.or_self, if_neg Bool.false_ne_true]
  split
  · rename_i hlast
    obtain ⟨front, hfront⟩ : ∃ front, base.toList = front ++ ['/'] := by
      rw [beq_iff_eq, List.getLast?_eq_some_iff] at hlast
      exact hlast
    rw [Path.steps, Path.steps, String.toList_append, hfront, List.append_assoc, List.singleton_append,
      splitSlashes_append, splitSlashes_append]
    simp [splitSlashes, hsteps]
  · have htext : (base ++ "/" ++ name).toList = base.toList ++ '/' :: name.toList := by simp
    rw [Path.steps, Path.steps, htext, splitSlashes_append]
    simp [hsteps]

theorem exists_join_eq : ∃ front, join base name = front ++ name := by
  have hempty : base.isEmpty = false := by simpa using hbase
  rw [join, hname.isAbsolute, hempty, Bool.or_self, if_neg Bool.false_ne_true]
  split
  · exact ⟨base, rfl⟩
  · exact ⟨base ++ "/", rfl⟩

theorem join_ne_empty : join base name ≠ "" := by
  obtain ⟨front, heq⟩ := exists_join_eq hbase hname
  rw [heq, Ne, ← String.toList_inj, String.toList_append]
  exact fun h => hname.ne_nil (List.append_eq_nil_iff.mp h).2

theorem endsInSlash_join : endsInSlash (join base name) = false := by
  obtain ⟨front, heq⟩ := exists_join_eq hbase hname
  have hlast : (front ++ name).toList.getLast? = name.toList.getLast? := by
    rw [String.toList_append, List.getLast?_append, List.getLast?_eq_some_getLast hname.ne_nil,
      Option.some_or]
  rw [heq, endsInSlash, hlast, beq_eq_false_iff_ne]
  exact fun hslash => hname.slash (List.mem_of_getLast? hslash)

end

end Path

namespace Disk

/-- The place is that of a node, which is a directory if one is asked for. -/
def Located.Leads (d : Disk) (id : NodeId) : Located → Prop
  | ⟨.itself trail _, _⟩ => trail.here = id
  | ⟨.named _ _ node, slash⟩ => node = some id ∧ (slash = true → (d.node id).isDirectory = true)

section

variable {d : Disk} {follow : Bool} {path : String} {id : NodeId}

theorem find?_of_error {e : SystemError} (h : d.locate follow path = .error e) :
    d.find? follow path = .error e := by
  rw [find?, h]
  rfl

theorem find?_of_some {trail : Trail} {name : String} {slash : Bool}
    (h : d.locate follow path = .ok ⟨.named trail name (some id), slash⟩) :
    d.find? follow path =
      if slash && !(d.node id).isDirectory then .error .notDirectory else .ok id := by
  rw [find?, h]
  rfl

theorem find?_eq_ok :
    d.find? follow path = .ok id ↔ ∃ found, d.locate follow path = .ok found ∧ found.Leads d id := by
  cases hlocate : d.locate follow path with
  | error e =>
    rw [find?_of_error hlocate]
    constructor
    · intro h
      cases h
    · rintro ⟨_, ⟨⟩, -⟩
  | ok found =>
    have hfound : (∃ there, (.ok found : Except SystemError Located) = .ok there ∧
        there.Leads d id) ↔ found.Leads d id := by
      constructor
      · rintro ⟨_, ⟨⟩, hleads⟩
        exact hleads
      · exact fun hleads => ⟨found, rfl, hleads⟩
    rw [hfound]
    obtain ⟨⟨trail, viaParent⟩ | ⟨trail, name, _ | there⟩, slash⟩ := found
    · have hfind : d.find? follow path = .ok trail.here := by
        rw [find?, hlocate]
        rfl
      rw [hfind, Except.ok.injEq]
      rfl
    · have hfind : d.find? follow path = .error .noEntry := by
        rw [find?, hlocate]
        rfl
      rw [hfind]
      constructor
      · intro h
        cases h
      · rintro ⟨⟨⟩, -⟩
    · rw [find?_of_some hlocate, Located.Leads, Option.some.injEq]
      split
      · rename_i hfault
        rw [Bool.and_eq_true, Bool.not_eq_true'] at hfault
        constructor
        · intro h
          cases h
        · rintro ⟨rfl, hdirectory⟩
          rw [hdirectory hfault.1] at hfault
          cases hfault.2
      · rename_i hfault
        rw [Bool.and_eq_true, Bool.not_eq_true', not_and, Bool.not_eq_false] at hfault
        rw [Except.ok.injEq]
        constructor
        · rintro rfl
          exact ⟨rfl, hfault⟩
        · exact And.left

end

theorem walk_name {d : Disk} {follow : Bool} {links : Nat} {trail : Trail} {name : String}
    {slash : Bool}
    (hdot : ¬ (name == ".") = true) (hup : ¬ (name == "..") = true)
    (hlong : ¬ (Text.encode name).length > nameLimit)
    (hlink : ∀ id, d.child? trail.here name = some id → (d.node id).isLink = true →
      (follow || slash) = false) :
    d.walk follow links trail [name] slash =
      .ok ⟨.named trail name (d.child? trail.here name), slash⟩ := by
  rw [walk, if_neg hdot, if_neg hup, if_neg hlong]
  cases hchild : d.child? trail.here name with
  | none => rfl
  | some id =>
    cases hcontent : (d.node id).content with
    | file bytes | directory entries => simp [hcontent]
    | link target =>
      have hstays := hlink id hchild (by rw [Node.isLink, hcontent])
      simp [hcontent, hstays]

/-- A step with others behind it. -/
theorem walk_cons {d : Disk} {follow : Bool} {links : Nat} {trail : Trail} {name : String}
    {rest : List String} {slash : Bool} (hrest : rest ≠ []) :
    d.walk follow links trail (name :: rest) slash =
      if name == "." then d.walk follow links trail rest slash
      else if name == ".." then d.walk follow links trail.tail rest slash
      else if (Text.encode name).length > nameLimit then .error .nameTooLong
      else
        match d.child? trail.here name with
        | none => .error .noEntry
        | some id =>
          match (d.node id).content with
          | .file _ => .error .notDirectory
          | .directory _ => d.walk follow links ((name, id) :: trail) rest slash
          | .link target =>
            match links with
            | 0 => .error .linkLoop
            | links + 1 =>
              d.walk follow links (linkStart trail target) (Path.steps target ++ rest) slash := by
  rw [walk]
  all_goals first | exact hrest | rfl

/-! ## Disks with more on them -/

/-- The other disk has all that this one has, perhaps with other bytes in the files, and perhaps
more files and directories. -/
structure Extends (d d' : Disk) : Prop where
  kind : ∀ {parent name id}, d.child? parent name = some id →
    (d.node id).content.Alike (d'.node id).content
  child : ∀ {parent name id}, d.child? parent name = some id → d'.child? parent name = some id
  fresh : ∀ {parent name id}, d.child? parent name = none → d'.child? parent name = some id →
    (d'.node id).isLink = false

namespace Extends

variable {d d' : Disk} (h : d.Extends d')

include h

theorem link {parent id : NodeId} {name target : String}
    (hchild : d.child? parent name = some id) (hlink : (d.node id).content = .link target) :
    (d'.node id).content = .link target := by
  have hkind := h.kind hchild
  rw [hlink] at hkind
  generalize (d'.node id).content = c at hkind
  cases hkind with
  | link => rfl

theorem directory {parent id : NodeId} {name : String} {entries : List (String × NodeId)}
    (hchild : d.child? parent name = some id)
    (hdirectory : (d.node id).content = .directory entries) :
    ∃ entries', (d'.node id).content = .directory entries' := by
  have hkind := h.kind hchild
  rw [hdirectory] at hkind
  generalize (d'.node id).content = c at hkind
  cases hkind with
  | directory _ entries' => exact ⟨entries', rfl⟩

theorem isLink_eq {parent id : NodeId} {name : String} (hchild : d.child? parent name = some id) :
    (d'.node id).isLink = (d.node id).isLink := by
  have hkind := h.kind hchild
  rw [Node.isLink, Node.isLink]
  generalize (d.node id).content = c, (d'.node id).content = c' at hkind
  cases hkind with
  | file | directory | link => rfl

theorem isDirectory_eq {parent id : NodeId} {name : String}
    (hchild : d.child? parent name = some id) :
    (d'.node id).isDirectory = (d.node id).isDirectory := by
  have hkind := h.kind hchild
  rw [Node.isDirectory, Node.isDirectory]
  generalize (d.node id).content = c, (d'.node id).content = c' at hkind
  cases hkind with
  | file | directory | link => rfl

/-- A path that leads to a place leads to it on the other disk. -/
theorem walk {follow : Bool} {links : Nat} {trail : Trail} {steps : List String} {slash : Bool}
    {found : Located} (hfound : d.walk follow links trail steps slash = .ok found) :
    d'.walk follow links trail steps slash = .ok ⟨found.place.on d', found.slash⟩ := by
  fun_induction Disk.walk d follow links trail steps slash with
  | case1 links trail slash =>
    cases hfound
    rw [Disk.walk]
    rfl
  | case2 links trail slash name hdot =>
    cases hfound
    rw [Disk.walk, if_pos hdot]
    rfl
  | case3 links trail slash name hdot hup =>
    cases hfound
    rw [Disk.walk, if_neg hdot, if_pos hup]
    rfl
  | case4 | case6 | case12 | case13 | case14 | case16 => cases hfound
  | case5 links trail slash name hdot hup hlong hchild =>
    cases hfound
    refine walk_name hdot hup hlong fun id hchild' hlink => ?_
    rw [h.fresh hchild hchild'] at hlink
    cases hlink
  | case7 trail slash name hdot hup hlong id hchild target hlink hfollow links ih =>
    rw [Disk.walk]
    simp only [hdot, hup, hlong, h.child hchild, h.link hchild hlink, hfollow, if_true, if_false]
    exact ih hfound
  | case8 links trail slash name hdot hup hlong id hchild target hlink hfollow =>
    cases hfound
    exact walk_name hdot hup hlong fun _ _ _ => Bool.eq_false_iff.mpr hfollow
  | case9 links trail slash name hdot hup hlong id hchild hno =>
    cases hfound
    refine walk_name hdot hup hlong fun there hthere hlink => ?_
    rw [h.child hchild, Option.some.injEq] at hthere
    rw [← hthere, h.isLink_eq hchild] at hlink
    obtain ⟨target, heq⟩ := Node.exists_target hlink
    exact absurd heq (hno target)
  | case10 links trail slash name rest hrest hdot ih =>
    rw [Disk.walk, if_pos hdot]
    · exact ih hfound
    · exact hrest
  | case11 links trail slash name rest hrest hdot hup ih =>
    rw [Disk.walk, if_neg hdot, if_pos hup]
    · exact ih hfound
    · exact hrest
  | case15 links trail slash name rest hrest hdot hup hlong id hchild entries hdirectory ih =>
    obtain ⟨entries', hdirectory'⟩ := h.directory hchild hdirectory
    rw [Disk.walk, if_neg hdot, if_neg hup, if_neg hlong]
    · simp only [h.child hchild, hdirectory']
      exact ih hfound
    · exact hrest
  | case17 trail slash name rest hrest hdot hup hlong id hchild target hlink links ih =>
    rw [Disk.walk, if_neg hdot, if_neg hup, if_neg hlong]
    · simp only [h.child hchild, h.link hchild hlink]
      exact ih hfound
    · exact hrest

theorem locate {follow : Bool} {path : String} {found : Located}
    (hfound : d.locate follow path = .ok found) :
    d'.locate follow path = .ok ⟨found.place.on d', found.slash⟩ := by
  unfold Disk.locate at hfound ⊢
  split at hfound
  · cases hfound
  · exact h.walk hfound

/-- What a path leads to is still there. -/
theorem find? {follow : Bool} {path : String} {id : NodeId} (hid : d.find? follow path = .ok id) :
    d'.find? follow path = .ok id := by
  obtain ⟨⟨place, slash⟩, hlocate, hleads⟩ := find?_eq_ok.mp hid
  refine find?_eq_ok.mpr ⟨_, h.locate hlocate, ?_⟩
  cases place with
  | itself trail viaParent => exact hleads
  | named trail name node =>
    obtain ⟨rfl, hslash⟩ := hleads
    have hchild : d.child? trail.here name = some id := (locate_exact hlocate).1.symm
    refine ⟨h.child hchild, fun hasks => ?_⟩
    rw [h.isDirectory_eq hchild]
    exact hslash hasks

theorem trans {d'' : Disk} (h' : d'.Extends d'') : d.Extends d'' where
  kind hchild := by
    have hfirst := h.kind hchild
    have hsecond := h'.kind (h.child hchild)
    generalize (d.node _).content = c, (d'.node _).content = c', (d''.node _).content = c''
      at hfirst hsecond
    cases hfirst with
    | file => cases hsecond with
      | file => exact .file _ _
    | directory => cases hsecond with
      | directory => exact .directory _ _
    | link => exact hsecond
  child hchild := h'.child (h.child hchild)
  fresh {parent name id} hfree hchild := by
    cases hmiddle : d'.child? parent name with
    | none => exact h'.fresh hmiddle hchild
    | some there =>
      have hsame := h'.child hmiddle
      rw [hchild, Option.some.injEq] at hsame
      rw [hsame, h'.isLink_eq hmiddle]
      exact h.fresh hfree hmiddle

end Extends

theorem Extends.refl (d : Disk) : d.Extends d where
  kind _ := .refl _
  child hchild := hchild
  fresh hfree hchild := by
    rw [hfree] at hchild
    cases hchild

/-! ## Below a directory -/

theorem pathFault?_ne_noEntry {path : String} (h : path ≠ "") :
    pathFault? path ≠ some .noEntry := by
  unfold pathFault?
  split
  · nofun
  · rw [if_neg (by simpa using h)]
    split
    · nofun
    · nofun

/-- The path leads nowhere, whether there is an entry or not. -/
def Refused (d : Disk) (path : String) : Prop :=
  ∃ e, e ≠ .noEntry ∧ (∀ follow, d.locate follow path = .error e) ∧ d.locateEntry path = .error e

/-- The path leads to what is called so in a directory, or to this name if it is free. -/
def Stands (d : Disk) (path : String) (parent : NodeId) (name : String) : Prop :=
  ∃ trail : Trail, trail.here = parent ∧
    d.locate false path = .ok ⟨.named trail name (d.child? parent name), false⟩ ∧
    d.locateEntry path = .ok ⟨.named trail name (d.child? parent name), false⟩ ∧
    ((∀ id, d.child? parent name = some id → (d.node id).isLink = false) →
      d.locate true path = .ok ⟨.named trail name (d.child? parent name), false⟩)

section

variable {d : Disk} {id : NodeId} {path name : String}

/-- Steps to a directory and then to a name in it. -/
theorem walk_below {follow : Bool} {links : Nat} {trail : Trail} {steps : List String}
    {slash : Bool} {found : Located} (hfollow : follow = true)
    (hfound : d.walk follow links trail steps slash = .ok found) (hleads : found.Leads d id)
    (hdirectory : (d.node id).isDirectory = true) (name : String) :
    ∃ (links' : Nat) (trail' : Trail), trail'.here = id ∧ ∀ follow' slash',
      d.walk follow' links trail (steps ++ [name]) slash' =
        d.walk follow' links' trail' [name] slash' := by
  have hone : [name] ≠ [] := List.cons_ne_nil _ _
  have hmore (rest : List String) : rest ++ [name] ≠ [] := by simp
  fun_induction Disk.walk d follow links trail steps slash with
  | case1 links trail slash =>
    cases hfound
    exact ⟨links, trail, hleads, fun _ _ => rfl⟩
  | case2 links trail slash name' hdot =>
    cases hfound
    refine ⟨links, trail, hleads, fun follow' slash' => ?_⟩
    rw [List.singleton_append, walk_cons hone, if_pos hdot]
  | case3 links trail slash name' hdot hup =>
    cases hfound
    refine ⟨links, trail.tail, hleads, fun follow' slash' => ?_⟩
    rw [List.singleton_append, walk_cons hone, if_neg hdot, if_pos hup]
  | case4 | case6 | case12 | case13 | case14 | case16 => cases hfound
  | case5 links trail slash name' hdot hup hlong hchild =>
    cases hfound
    cases hleads.1
  | case7 trail slash name' hdot hup hlong there hchild target hlink hfollow' links ih =>
    obtain ⟨links', trail', hhere, heq⟩ := ih hfound
    refine ⟨links', trail', hhere, fun follow' slash' => ?_⟩
    rw [List.singleton_append, walk_cons hone, if_neg hdot, if_neg hup, if_neg hlong]
    simp only [hchild, hlink]
    exact heq follow' slash'
  | case8 links trail slash name' hdot hup hlong there hchild target hlink hfollow' =>
    rw [hfollow] at hfollow'
    exact absurd rfl hfollow'
  | case9 links trail slash name' hdot hup hlong there hchild hno =>
    cases hfound
    obtain ⟨hid, -⟩ := hleads
    rw [Option.some.injEq] at hid
    subst hid
    refine ⟨links, (name', there) :: trail, rfl, fun follow' slash' => ?_⟩
    rw [List.singleton_append, walk_cons hone, if_neg hdot, if_neg hup, if_neg hlong]
    obtain ⟨entries, heq⟩ := Node.exists_entries hdirectory
    simp only [hchild, heq]
  | case10 links trail slash name' rest hrest hdot ih =>
    obtain ⟨links', trail', hhere, heq⟩ := ih hfound
    refine ⟨links', trail', hhere, fun follow' slash' => ?_⟩
    rw [List.cons_append, walk_cons (hmore _), if_pos hdot]
    exact heq follow' slash'
  | case11 links trail slash name' rest hrest hdot hup ih =>
    obtain ⟨links', trail', hhere, heq⟩ := ih hfound
    refine ⟨links', trail', hhere, fun follow' slash' => ?_⟩
    rw [List.cons_append, walk_cons (hmore _), if_neg hdot, if_pos hup]
    exact heq follow' slash'
  | case15 links trail slash name' rest hrest hdot hup hlong there hchild entries hcontent ih =>
    obtain ⟨links', trail', hhere, heq⟩ := ih hfound
    refine ⟨links', trail', hhere, fun follow' slash' => ?_⟩
    rw [List.cons_append, walk_cons (hmore _), if_neg hdot, if_neg hup, if_neg hlong]
    simp only [hchild, hcontent]
    exact heq follow' slash'
  | case17 trail slash name' rest hrest hdot hup hlong there hchild target hlink links ih =>
    obtain ⟨links', trail', hhere, heq⟩ := ih hfound
    refine ⟨links', trail', hhere, fun follow' slash' => ?_⟩
    rw [List.cons_append, walk_cons (hmore _), if_neg hdot, if_neg hup, if_neg hlong]
    simp only [hchild, hlink]
    rw [← List.append_assoc]
    exact heq follow' slash'

variable (hid : d.find? true path = .ok id) (hdirectory : (d.node id).isDirectory = true)
  (hname : Path.Proper name)

include hid hdirectory hname

/-- The steps to a name below a directory are those to the directory and then the name. -/
theorem walk_join : path ≠ "" ∧ ∃ (links : Nat) (trail : Trail), trail.here = id ∧ ∀ follow,
    d.walk follow linkLimit [] (Path.steps (Path.join path name)) false =
      d.walk follow links trail [name] false := by
  obtain ⟨found, hlocate, hleads⟩ := find?_eq_ok.mp hid
  rw [locate] at hlocate
  split at hlocate
  · cases hlocate
  · rename_i hfault
    have hbase : path ≠ "" := by
      rintro rfl
      exact absurd hfault (by decide)
    obtain ⟨links, trail, hhere, hwalk⟩ := walk_below rfl hlocate hleads hdirectory name
    refine ⟨hbase, links, trail, hhere, fun follow => ?_⟩
    rw [Path.steps_join hbase hname, hwalk]

/-- A name below a directory leads to its entry if it is not too long. -/
theorem stands_below (hfault : pathFault? (Path.join path name) = none)
    (hlong : ¬ (Text.encode name).length > nameLimit) :
    d.Stands (Path.join path name) id name := by
  obtain ⟨hbase, links, trail, rfl, hwalk⟩ := walk_join hid hdirectory hname
  have hslash := Path.endsInSlash_join hbase hname
  have hdot : ¬ (name == ".") = true := by simpa using hname.current
  have hup : ¬ (name == "..") = true := by simpa using hname.parent
  refine ⟨trail, rfl, ?_, ?_, fun hlink => ?_⟩
  · rw [locate, hfault, hslash]
    simp only [hwalk]
    exact walk_name hdot hup hlong fun _ _ _ => rfl
  · rw [locateEntry, hfault, hslash]
    simp only [hwalk]
    rw [walk_name hdot hup hlong fun _ _ _ => rfl]
    rfl
  · rw [locate, hfault, hslash]
    simp only [hwalk]
    refine walk_name hdot hup hlong fun there hchild htrue => ?_
    rw [hlink there hchild] at htrue
    cases htrue

theorem refused_or_stands :
    d.Refused (Path.join path name) ∨ d.Stands (Path.join path name) id name := by
  obtain ⟨hbase, links, trail, -, hwalk⟩ := walk_join hid hdirectory hname
  cases hfault : pathFault? (Path.join path name) with
  | some e =>
    refine .inl ⟨e, ?_, fun follow => by rw [locate, hfault], by rw [locateEntry, hfault]⟩
    rintro rfl
    exact pathFault?_ne_noEntry (Path.join_ne_empty hbase hname) hfault
  | none =>
    by_cases hlong : (Text.encode name).length > nameLimit
    · have hdot : ¬ (name == ".") = true := by simpa using hname.current
      have hup : ¬ (name == "..") = true := by simpa using hname.parent
      have herror (follow : Bool) :
          d.walk follow linkLimit [] (Path.steps (Path.join path name)) false =
            .error .nameTooLong := by
        rw [hwalk, walk, if_neg hdot, if_neg hup, if_pos hlong]
      refine .inl ⟨.nameTooLong, by decide, fun follow => ?_, ?_⟩
      · rw [locate, hfault, Path.endsInSlash_join hbase hname]
        exact herror follow
      · rw [locateEntry, hfault, herror]
        rfl
    · exact .inr (stands_below hid hdirectory hname hfault hlong)

end

namespace Stands

variable {d : Disk} {path name : String} {parent id : NodeId} (h : d.Stands path parent name)

include h

theorem find? (hchild : d.child? parent name = some id) : d.find? false path = .ok id := by
  obtain ⟨trail, -, hlocate, -, -⟩ := h
  exact find?_eq_ok.mpr ⟨_, hlocate, hchild, nofun⟩

variable (hfree : d.child? parent name = none)

include hfree

theorem locate_free : ∃ trail : Trail, trail.here = parent ∧
    (∀ follow, d.locate follow path = .ok ⟨.named trail name none, false⟩) ∧
    d.locateEntry path = .ok ⟨.named trail name none, false⟩ := by
  obtain ⟨trail, hhere, hstays, hentry, hfollowed⟩ := h
  rw [hfree] at hstays hentry hfollowed
  refine ⟨trail, hhere, fun follow => ?_, hentry⟩
  cases follow with
  | false => exact hstays
  | true => exact hfollowed nofun

/-- What is given the name is found under the path. -/
theorem find?_new {d' : Disk} (hextends : d.Extends d') (hchild : d'.child? parent name = some id)
    (follow : Bool) : d'.find? follow path = .ok id := by
  obtain ⟨trail, rfl, hlocate, -⟩ := h.locate_free hfree
  exact find?_eq_ok.mpr ⟨_, hextends.locate (hlocate follow), hchild, nofun⟩

end Stands

end Disk
end Runnel
