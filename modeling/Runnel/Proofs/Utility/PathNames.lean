import Mathlib.Data.List.DropRight
import Runnel.Utility.PathName

/-!
# Runnel.Proofs.Utility.PathNames

Paths that are taken apart without loss, however many slashes there are in them.

* `Path.pieces_append_slashes`: slashes at the end of a path count for nothing.
* `PathName.pieces_eq`: the components of a path are those of its parent, and its last one.
* `PathName.directory_cases`: what is shown for a component alone, below the root, and otherwise.
* `PathName.base_directory`: what the two commands show, put together, are the steps of the path.
-/

namespace Runnel

namespace Path

/-- The runs of characters between slashes that are not empty. -/
def pieces (path : List Char) : List (List Char) :=
  (splitSlashes path).filter fun s => !s.isEmpty

section

variable {path slashes name : List Char}

theorem steps_ofList (path : List Char) :
    steps (String.ofList path) = (pieces path).map String.ofList := by
  rw [steps, String.toList_ofList]
  rfl

theorem isAbsolute_ofList_iff : isAbsolute (String.ofList path) = true ↔ path.head? = some '/' := by
  rw [isAbsolute, String.toList_ofList, beq_iff_eq]

theorem isAbsolute_ofList_congr {other : List Char} (h : path.head? = other.head?) :
    isAbsolute (String.ofList path) = isAbsolute (String.ofList other) := by
  rw [Bool.eq_iff_iff, isAbsolute_ofList_iff, isAbsolute_ofList_iff, h]

theorem pieces_append (path rest : List Char) :
    pieces (path ++ '/' :: rest) = pieces path ++ pieces rest := by
  rw [pieces, splitSlashes_append, List.filter_append]
  rfl

theorem pieces_name (hne : name ≠ []) (hname : '/' ∉ name) : pieces name = [name] := by
  rw [pieces, splitSlashes_of_not_mem hname]
  exact List.filter_cons_of_pos (by simpa using hne)

theorem pieces_slashes (h : ∀ c ∈ slashes, c = '/') : pieces slashes = [] := by
  induction slashes with
  | nil => rfl
  | cons c slashes ih =>
    rw [List.forall_mem_cons] at h
    obtain rfl := h.1
    exact (pieces_append [] slashes).trans (ih h.2)

/-- Slashes at the end of a path count for nothing. -/
theorem pieces_append_slashes (path : List Char) (h : ∀ c ∈ slashes, c = '/') :
    pieces (path ++ slashes) = pieces path := by
  cases slashes with
  | nil => rw [List.append_nil]
  | cons c slashes =>
    rw [List.forall_mem_cons] at h
    obtain rfl := h.1
    rw [pieces_append, pieces_slashes h.2, List.append_nil]

end

end Path

namespace PathName

open Runnel.Path (pieces)

/-- What stands before the last component of a path. -/
def front (path : List Char) : List Char :=
  path.rdropWhile fun c => !isSlash c

section

variable {path : List Char}

/-! ## Slashes at the end -/

theorem trimmed_eq (path : List Char) : trimmed path = path.rdropWhile isSlash :=
  rfl

theorem trimmed_eq_nil_iff : trimmed path = [] ↔ ∀ c ∈ path, c = '/' := by
  rw [trimmed_eq, List.rdropWhile_eq_nil_iff]
  exact forall₂_congr fun c _ => beq_iff_eq

/-- Only slashes are taken away. -/
theorem exists_slashes (path : List Char) :
    ∃ slashes, (∀ c ∈ slashes, c = '/') ∧ path = trimmed path ++ slashes := by
  refine ⟨path.rtakeWhile isSlash, fun c hc => ?_, List.rdropWhile_append_rtakeWhile.symm⟩
  exact beq_iff_eq.mp (List.mem_rtakeWhile_imp (p := isSlash) hc)

theorem pieces_trimmed (path : List Char) : pieces (trimmed path) = pieces path := by
  obtain ⟨slashes, hslashes, heq⟩ := exists_slashes path
  conv => rhs; rw [heq, Path.pieces_append_slashes _ hslashes]

/-- Where something is left, it does not end in a slash. -/
theorem getLast_trimmed (h : trimmed path ≠ []) : (trimmed path).getLast h ≠ '/' :=
  fun heq => List.rdropWhile_last_not isSlash path h (beq_iff_eq.mpr heq)

theorem endsInSlash_trimmed (h : trimmed path ≠ []) :
    Path.endsInSlash (String.ofList (trimmed path)) = false := by
  rw [Path.endsInSlash, String.toList_ofList, List.getLast?_eq_some_getLast h]
  exact beq_eq_false_iff_ne.mpr fun heq => getLast_trimmed h (Option.some.inj heq)

/-! ## The last component -/

theorem front_append (path : List Char) : front path ++ lastComponent path = path :=
  List.rdropWhile_append_rtakeWhile

theorem slash_not_mem (path : List Char) : '/' ∉ lastComponent path := by
  intro h
  have hc : (!isSlash '/') = true := List.mem_rtakeWhile_imp (p := fun c => !isSlash c) h
  exact absurd hc (by decide)

theorem lastComponent_ne_nil (h : trimmed path ≠ []) : lastComponent (trimmed path) ≠ [] := by
  intro heq
  have hlast : isSlash ((trimmed path).getLast h) = true := by
    simpa using List.rtakeWhile_eq_nil_iff.mp heq h
  exact getLast_trimmed h (beq_iff_eq.mp hlast)

theorem front_cases (path : List Char) : front path = [] ∨ ∃ more, front path = more ++ ['/'] := by
  refine (eq_or_ne (front path) []).imp_right fun hne => ⟨(front path).dropLast, ?_⟩
  have hlast : isSlash ((front path).getLast hne) = true := by
    simpa [front] using List.rdropWhile_last_not (fun c => !isSlash c) path hne
  rw [← beq_iff_eq.mp hlast, List.dropLast_append_getLast hne]

theorem take_length_sub (path : List Char) :
    path.take (path.length - (lastComponent path).length) = front path := by
  have hlength := congrArg List.length (front_append path)
  rw [List.length_append] at hlength
  conv => lhs; arg 2; rw [← front_append path]
  exact List.take_left' (by omega)

/-- The components of a path are those of its front, and the last one. -/
theorem pieces_front (h : lastComponent path ≠ []) :
    pieces path = pieces (front path) ++ [lastComponent path] := by
  have hname := Path.pieces_name h (slash_not_mem path)
  rcases front_cases path with hnil | ⟨more, hmore⟩
  · have hpath := front_append path
    rw [hnil, List.nil_append] at hpath
    rw [hnil, ← hname, hpath]
    rfl
  · conv => lhs; rw [← front_append path, hmore, List.append_assoc, List.singleton_append]
    rw [Path.pieces_append, hname, hmore, Path.pieces_append]
    simp [pieces, Path.splitSlashes]

/-! ## Both together -/

/-- What stands before the last component, without the slashes between them. -/
def parent (path : List Char) : List Char :=
  trimmed (front (trimmed path))

/-- The components of a path are those of its parent, and the last one. -/
theorem pieces_eq (h : trimmed path ≠ []) :
    pieces path = pieces (parent path) ++ [lastComponent (trimmed path)] := by
  rw [← pieces_trimmed, pieces_front (lastComponent_ne_nil h), parent, pieces_trimmed]

theorem base_none (h : trimmed path ≠ []) :
    base (String.ofList path) none = String.ofList (lastComponent (trimmed path)) := by
  rw [base, String.toList_ofList]
  exact if_neg (by simpa using h)

theorem directory_ofList (h : trimmed path ≠ []) :
    directory (String.ofList path) =
      if front (trimmed path) = [] then "."
      else if parent path = [] then "/"
      else String.ofList (parent path) := by
  have hslash : (!(trimmed path).any isSlash) = true ↔ front (trimmed path) = [] := by
    rw [front, List.rdropWhile_eq_nil_iff]
    simp
  simp only [directory, String.toList_ofList, List.isEmpty_iff, if_neg h, take_length_sub, hslash]
  rfl

/-! ## The first character -/

theorem head?_of_isPrefix {start : List Char} (h : start <+: path) (hne : start ≠ []) :
    path.head? = start.head? := by
  obtain ⟨rest, rfl⟩ := h
  exact List.head?_append_of_ne_nil start hne

theorem trimmed_isPrefix (path : List Char) : trimmed path <+: path :=
  List.rdropWhile_prefix isSlash path

theorem front_isPrefix (path : List Char) : front (trimmed path) <+: path :=
  (List.rdropWhile_prefix _ _).trans (trimmed_isPrefix path)

theorem parent_isPrefix (path : List Char) : parent path <+: path :=
  (trimmed_isPrefix _).trans (front_isPrefix path)

/-- A path without a slash before its last component begins with this component. -/
theorem head?_of_front_nil (h : trimmed path ≠ []) (hfront : front (trimmed path) = []) :
    path.head? ≠ some '/' := by
  have hname := front_append (trimmed path)
  rw [hfront, List.nil_append] at hname
  rw [head?_of_isPrefix (trimmed_isPrefix path) h]
  intro hhead
  refine slash_not_mem (trimmed path) ?_
  rw [hname]
  exact List.mem_of_mem_head? hhead

/-- Where the parent is empty, there are only slashes before the last component. -/
theorem head?_of_parent_nil (hfront : front (trimmed path) ≠ []) (hparent : parent path = []) :
    path.head? = some '/' := by
  rw [head?_of_isPrefix (front_isPrefix path) hfront]
  have hslashes := trimmed_eq_nil_iff.mp hparent
  cases hcase : front (trimmed path) with
  | nil => exact absurd hcase hfront
  | cons c rest =>
    rw [hcase] at hslashes
    rw [hslashes c List.mem_cons_self]
    rfl

/-- What the command shows for a component alone, for one below the root, and for all others. -/
theorem directory_cases (h : trimmed path ≠ []) :
    (directory (String.ofList path) = "." ∧ pieces (parent path) = [] ∧
        path.head? ≠ some '/') ∨
      (directory (String.ofList path) = "/" ∧ pieces (parent path) = [] ∧
        path.head? = some '/') ∨
      (directory (String.ofList path) = String.ofList (parent path) ∧ parent path ≠ [] ∧
        pieces (parent path) ≠ [] ∧ path.head? = (parent path).head?) := by
  rw [directory_ofList h]
  split
  · rename_i hfront
    have hparent : parent path = [] := by rw [parent, hfront]; rfl
    exact .inl ⟨rfl, by rw [hparent]; rfl, head?_of_front_nil h hfront⟩
  · rename_i hfront
    split
    · rename_i hparent
      exact .inr (.inl ⟨rfl, by rw [hparent]; rfl, head?_of_parent_nil hfront hparent⟩)
    · rename_i hparent
      refine .inr (.inr ⟨rfl, hparent, ?_, head?_of_isPrefix (parent_isPrefix path) hparent⟩)
      -- A parent is trimmed, so it has a last component of its own.
      rw [parent, pieces_front (lastComponent_ne_nil hparent)]
      exact List.append_ne_nil_of_right_ne_nil _ (List.cons_ne_nil _ _)

end

/-- The last component of a path and what stands before it: together they have the components of the
path, the directory is absolute if the path is, and it ends in a slash only if it is the root. -/
theorem base_directory (path : String) (h : Path.steps path ≠ []) :
    (Path.steps path).getLast? = some (base path none) ∧
      ((Path.steps path).length = 1 ∧ Path.isAbsolute path = false → directory path = ".") ∧
      (¬ ((Path.steps path).length = 1 ∧ Path.isAbsolute path = false) →
        Path.steps (directory path) = (Path.steps path).dropLast ∧
          Path.isAbsolute (directory path) = Path.isAbsolute path) ∧
      (Path.endsInSlash (directory path) = true ↔ directory path = "/") := by
  obtain ⟨chars, rfl⟩ : ∃ chars, path = String.ofList chars :=
    ⟨path.toList, String.ofList_toList.symm⟩
  have hkept : trimmed chars ≠ [] := by
    intro hnil
    rw [Path.steps_ofList, ← pieces_trimmed, hnil] at h
    exact h rfl
  have hsteps : Path.steps (String.ofList chars) =
      (pieces (parent chars)).map String.ofList ++ [base (String.ofList chars) none] := by
    rw [Path.steps_ofList, pieces_eq hkept, List.map_append, base_none hkept]
    rfl
  rw [hsteps, List.getLast?_concat, List.dropLast_concat]
  refine ⟨rfl, ?_⟩
  rcases directory_cases hkept with
    ⟨hdir, hnil, hhead⟩ | ⟨hdir, hnil, hhead⟩ | ⟨hdir, hparent, hsome, hhead⟩
  · have habsolute : Path.isAbsolute (String.ofList chars) = false :=
      Bool.eq_false_iff.mpr (mt Path.isAbsolute_ofList_iff.mp hhead)
    rw [hdir, hnil]
    exact ⟨fun _ => rfl, fun hother => absurd ⟨rfl, habsolute⟩ hother, by decide⟩
  · have habsolute : Path.isAbsolute (String.ofList chars) = true :=
      Path.isAbsolute_ofList_iff.mpr hhead
    rw [hdir, hnil, habsolute]
    exact ⟨fun hrelative => Bool.noConfusion hrelative.2, fun _ => ⟨rfl, rfl⟩, by decide⟩
  · have hlength : 0 < (pieces (parent chars)).length := List.length_pos_iff.mpr hsome
    have hends : Path.endsInSlash (String.ofList (parent chars)) = false :=
      endsInSlash_trimmed hparent
    have habsolute := Path.isAbsolute_ofList_congr hhead.symm
    rw [hdir]
    refine ⟨fun ⟨hone, _⟩ => ?_, fun _ => ⟨Path.steps_ofList _, habsolute⟩, ?_⟩
    · rw [List.length_append, List.length_map, List.length_singleton] at hone
      omega
    · rw [hends]
      refine ⟨nofun, fun hroot => ?_⟩
      rw [hroot] at hends
      exact absurd hends (by decide)

/-- Slashes of all kinds. -/
theorem base_directory_slashes :
    Path.steps "//a//b///" = ["a", "b"] ∧ base "//a//b///" none = "b" ∧
      Path.steps (directory "//a//b///") = ["a"] ∧
      Path.isAbsolute (directory "//a//b///") = true := by
  have hsteps : Path.steps "//a//b///" = ["a", "b"] := by decide
  obtain ⟨hbase, -, hdirectory, -⟩ := base_directory "//a//b///" (by rw [hsteps]; decide)
  rw [hsteps] at hbase hdirectory
  obtain ⟨hparent, habsolute⟩ := hdirectory (by decide)
  exact ⟨hsteps, (Option.some.inj hbase).symm, hparent, habsolute⟩

end PathName

end Runnel
