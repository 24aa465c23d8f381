import Mathlib.Data.List.Induction
import Mathlib.Data.List.Pairwise
import Runnel.Flow.Activity
import Runnel.Proofs.Flow.Attaining
import Runnel.Proofs.Host.Opening

/-!
# Runnel.Proofs.Flow.Redirects

Redirects one after the other.

* `Redirect.fault?`: what is said of a redirect whose file cannot be opened.
* `Redirect.Opened`: what some redirects leave behind, all of which are open.
* `Redirect.opened_all`: redirects to different files that could each be opened at first are opened
  one after the other, and leave this behind.
* `Redirect.attains_redirected`: a command gets as far as its redirects are open.
-/

namespace Runnel

open Activity Work

namespace Redirect

variable (ctx : Context)

/-- The path of the file, unless a variable is unset. -/
def path? (r : Redirect) : Option String :=
  (ctx.expand r.target).toOption.map fun fields => ctx.resolve (Text.joinWith " " fields)

/-- What is said of a redirect whose file cannot be opened on this disk: it names the variable that
is unset, or the file and what is wrong with it. -/
def fault? (d : Disk) (r : Redirect) : Option String :=
  match ctx.expand r.target with
  | .error name => some (unboundMessage name)
  | .ok fields =>
    let target := Text.joinWith " " fields
    let failure := fun e : SystemError => target ++ ": " ++ e.message ++ "\n"
    match r.mode with
    | .input =>
      match d.readFile (ctx.resolve target) with
      | .error e => some (failure e)
      | .ok _ => none
    | mode =>
      match (d.openOutput (ctx.resolve target) (outputMode mode) Disk.fileMode).1 with
      | .error e => some (failure e)
      | .ok _ => none

/-- What is noted of a redirect whose file is to be opened. -/
def notes (r : Redirect) : List Note :=
  match r.path? ctx, r.mode with
  | none, _ => []
  | some path, .input => [.loaded path]
  | some path, mode => [.opened path (outputMode mode)]

/-- Where writing begins in a file that was opened so. -/
def position : Disk.OutputMode → Option Nat
  | .overwrite => some 0
  | .append => none

/-- The store once the file is open. -/
def store (s : Store) (r : Redirect) : Store :=
  match r.path? ctx, r.mode with
  | none, _ | some _, .input => s
  | some path, mode => (s.openFile path (outputMode mode)).2

/-- The streams once the file is open. -/
def streams (s : Store) (io : Streams) (r : Redirect) : Streams :=
  match r.path? ctx, r.mode with
  | none, _ => io
  | some path, .input => { io with stdin := .bytes (s.disk.contents path) }
  | some _, _ => { io with stdout := .file s.files.size }

/-- The store once all files are open. -/
def storeAll (s : Store) (rs : List Redirect) : Store :=
  rs.foldl (store ctx) s

/-- The streams once all files are open. -/
def streamsAll : Store → Streams → List Redirect → Streams
  | _, io, [] => io
  | s, io, r :: rs => streamsAll (r.store ctx s) (r.streams ctx s io) rs

/-- All files can be opened, one after the other. -/
def Openable : Store → List Redirect → Prop
  | _, [] => True
  | s, r :: rs => r.fault? ctx s.disk = none ∧ Openable (r.store ctx s) rs

/-- What the file of a redirect holds once it is open. -/
def kept (d : Disk) (r : Redirect) (path : String) : Bytes :=
  match r.mode with
  | .overwrite => []
  | .append | .input => d.contents path

/-- The files of the two redirects are not the same. -/
def Apart (d : Disk) (r r' : Redirect) : Prop :=
  ∀ path path', r.path? ctx = some path → r'.path? ctx = some path' → d.Different path path'

/-- None of the redirects opens the file of this path for writing. -/
def Avoid (d : Disk) (rs : List Redirect) (path : String) : Prop :=
  ∀ r ∈ rs, r.mode ≠ .input → ∀ there, r.path? ctx = some there → d.Different there path

/-- What is left behind when all the files are open. -/
structure Opened (s s' : Store) (rs : List Redirect) : Prop where
  sound : s'.disk.Sound
  /-- Nothing loses its name. -/
  names : ∀ path id, s.disk.Names path id → s'.disk.Names path id
  /-- Nothing else is touched. -/
  untouched : ∀ path, Avoid ctx s.disk rs path → s.disk.Untouched s'.disk path
  /-- What was different from something else still is. -/
  different : ∀ path path', Avoid ctx s.disk rs path' → s.disk.Different path path' →
    s'.disk.Different path path'
  apart : rs.Pairwise (Apart ctx s'.disk)
  /-- A file that is overwritten is empty, all others are as they were. A file that was missing is
  there and empty. -/
  content : ∀ r ∈ rs, ∀ path, r.path? ctx = some path →
    s'.disk.readFile path = .ok (r.kept s.disk path)
  files : s.files.size ≤ s'.files.size
  registry : s'.registry = s.registry

variable {ctx}

/-- The file of this path can be opened as the redirect demands. -/
def Fits (d : Disk) (r : Redirect) (path : String) : Prop :=
  match r.mode with
  | .input => ∃ bytes, d.readFile path = .ok bytes
  | _ => d.Writable path

section

variable {d d' : Disk} {r : Redirect} {path : String}

theorem fault?_eq_none (hd : d.Sound) :
    r.fault? ctx d = none ↔ ∃ path, r.path? ctx = some path ∧ r.Fits d path := by
  unfold fault? path? Fits
  cases ctx.expand r.target with
  | error name => simp [Except.toOption]
  | ok fields =>
    simp only [Except.toOption, Option.map_some, Option.some.injEq, exists_eq_left']
    generalize ctx.resolve (Text.joinWith " " fields) = path
    cases r.mode with
    | input =>
      simp only
      cases d.readFile path with
      | error e => simp
      | ok bytes => simp
    | overwrite | append =>
      simp only
      generalize outputMode _ = how
      rcases Disk.openOutput_cases hd path how Disk.fileMode with
        ⟨hwritable, id, d', heq, -⟩ | ⟨hwritable, e, heq⟩
      · simp [heq, hwritable]
      · simp [heq, hwritable]

theorem fits_iff (h : d.Untouched d' path) : r.Fits d' path ↔ r.Fits d path := by
  unfold Fits
  split
  · simp only [h.content]
  · simp only [Disk.Writable, h.free_iff, h.content]

end

/-! ## One after the other -/

section

variable {s s' s'' : Store} {r : Redirect} {rs : List Redirect} {path : String}

instance (d : Disk) : Std.Symm (Apart ctx d) :=
  ⟨fun _ _ h path path' hpath hpath' => (h path' path hpath' hpath).symm⟩

theorem opened_nil (hs : s.disk.Sound) : Opened ctx s s [] where
  sound := hs
  names _ _ h := h
  untouched path _ := .refl _ path
  different _ _ _ h := h
  apart := .nil
  content := nofun
  files := Nat.le_refl _
  registry := rfl

/-- What becomes of the store when a file is opened for writing. -/
theorem store_output (hs : s.disk.Sound) (hpath : r.path? ctx = some path)
    (hmode : r.mode ≠ .input) (hfits : r.Fits s.disk path) :
    ∃ id d', s.disk.Opens path (outputMode r.mode) id d' ∧
      s.openFile path (outputMode r.mode) = (.ok s.files.size, r.store ctx s) ∧
      r.store ctx s = ⟨d', s.files.push ⟨id, position (outputMode r.mode)⟩, s.registry⟩ := by
  have hwritable : s.disk.Writable path := by
    unfold Fits at hfits
    split at hfits
    · exact absurd ‹_› hmode
    · exact hfits
  have hstore : r.store ctx s = (s.openFile path (outputMode r.mode)).2 := by
    unfold store
    rw [hpath]
    cases hr : r.mode with
    | input => exact absurd hr hmode
    | overwrite | append => rfl
  rcases Disk.openOutput_cases hs path (outputMode r.mode) Disk.fileMode with
    ⟨-, id, d', heq, hopens⟩ | ⟨hnot, -⟩
  · have hopen : s.openFile path (outputMode r.mode) =
        (.ok s.files.size, ⟨d', s.files.push ⟨id, position (outputMode r.mode)⟩, s.registry⟩) := by
      simp only [Store.openFile, heq]
      rfl
    rw [hstore, hopen]
    exact ⟨id, d', hopens, rfl, rfl⟩
  · exact absurd hwritable hnot

theorem opened_one (hs : s.disk.Sound) (hfault : r.fault? ctx s.disk = none) :
    Opened ctx s (r.store ctx s) [r] := by
  obtain ⟨path, hpath, hfits⟩ := (fault?_eq_none hs).mp hfault
  have hsingle : ∀ {P : Redirect → String → Prop}, P r path →
      ∀ r₀ ∈ [r], ∀ there, r₀.path? ctx = some there → P r₀ there := by
    intro P h r₀ hr₀ there hthere
    rw [List.mem_singleton.mp hr₀] at hthere ⊢
    rw [hpath] at hthere
    cases hthere
    exact h
  by_cases hmode : r.mode = .input
  · have hstore : r.store ctx s = s := by simp only [store, hpath, hmode]
    rw [Fits, hmode] at hfits
    obtain ⟨bytes, hread⟩ := hfits
    rw [hstore]
    refine ⟨hs, fun _ _ h => h, fun there _ => .refl _ there, fun _ _ _ h => h,
      List.pairwise_singleton _ _, hsingle ?_, Nat.le_refl _, rfl⟩
    rw [kept, hmode, Disk.contents_eq hread, hread]
  · obtain ⟨id, d', hopens, -, hstore⟩ := store_output hs hpath hmode hfits
    obtain ⟨spot, hspot, honly⟩ := hopens.only
    rw [hstore]
    have huntouched : ∀ there, Avoid ctx s.disk [r] there → s.disk.Untouched d' there :=
      fun there h => honly.untouched hs hopens.sound
        (h r (List.mem_singleton_self r) hmode path hpath spot hspot)
    refine ⟨hopens.sound, fun _ _ h => honly.names h, huntouched, fun there there' h hdiff =>
      honly.different hs hdiff (huntouched there' h), List.pairwise_singleton _ _, hsingle ?_,
      by simp, rfl⟩
    have hkept : r.kept s.disk path = (outputMode r.mode).left (s.disk.contents path) := by
      unfold kept
      cases hr : r.mode with
      | input => exact absurd hr hmode
      | overwrite | append => rfl
    rw [hkept]
    exact hopens.names.readFile_eq hopens.content

theorem Opened.concat (h : Opened ctx s s' rs) (h' : Opened ctx s' s'' [r])
    (hpath : r.path? ctx = some path) (hapart : ∀ r₀ ∈ rs, Apart ctx s.disk r₀ r) :
    Opened ctx s s'' (rs ++ [r]) := by
  have havoid : Avoid ctx s.disk rs path := fun r₀ hr₀ _ there hthere =>
    hapart r₀ hr₀ there path hthere hpath
  have havoid' : ∀ q, s'.disk.Different path q → Avoid ctx s'.disk [r] q := by
    intro q hq r₀ hr₀ _ there hthere
    rw [List.mem_singleton.mp hr₀, hpath] at hthere
    cases hthere
    exact hq
  have hlast : ∀ q, Avoid ctx s.disk (rs ++ [r]) q → Avoid ctx s'.disk [r] q := by
    intro q hq r₀ hr₀ hmode there hthere
    rw [List.mem_singleton.mp hr₀] at hmode hthere
    exact h.different there q (fun r₁ hr₁ => hq r₁ (List.mem_append_left _ hr₁))
      (hq r (List.mem_append_right _ (List.mem_singleton_self r)) hmode there hthere)
  have hfirst : ∀ q, Avoid ctx s.disk (rs ++ [r]) q → Avoid ctx s.disk rs q :=
    fun q hq r₁ hr₁ => hq r₁ (List.mem_append_left _ hr₁)
  -- the files that are open already are not the one that is opened now
  have hopen : ∀ r₀ ∈ rs, ∀ there, r₀.path? ctx = some there → s'.disk.Different there path :=
    fun r₀ hr₀ there hthere =>
      h.different there path havoid (hapart r₀ hr₀ there path hthere hpath)
  have hstill : ∀ r₀ ∈ rs, ∀ there, r₀.path? ctx = some there →
      s'.disk.Untouched s''.disk there :=
    fun r₀ hr₀ there hthere =>
      h'.untouched there (havoid' there (hopen r₀ hr₀ there hthere).symm)
  refine ⟨h'.sound, fun q id hid => h'.names q id (h.names q id hid),
    fun q hq => (h.untouched q (hfirst q hq)).trans (h'.untouched q (hlast q hq)),
    fun q q' hq' hdiff => h'.different q q' (hlast q' hq') (h.different q q' (hfirst q' hq') hdiff),
    List.pairwise_append.mpr ⟨?_, List.pairwise_singleton _ _, ?_⟩,
    List.forall_mem_append.mpr ⟨?_, ?_⟩, Nat.le_trans h.files h'.files,
    h'.registry.trans h.registry⟩
  · refine h.apart.imp_of_mem fun {r₁ r₂} _ hr₂ hdiff q q' hq hq' => ?_
    exact h'.different q q' (havoid' q' (hopen r₂ hr₂ q' hq').symm) (hdiff q q' hq hq')
  · intro r₀ hr₀ r₁ hr₁ q q' hq hq'
    rw [List.mem_singleton.mp hr₁, hpath] at hq'
    cases hq'
    have hdiff := (hopen r₀ hr₀ q hq).symm
    exact (h'.different path q (havoid' q hdiff) hdiff).symm
  · intro r₀ hr₀ there hthere
    exact ((hstill r₀ hr₀ there hthere).content _).mpr (h.content r₀ hr₀ there hthere)
  · intro r₀ hr₀ there hthere
    have hcontent := h'.content r₀ hr₀ there hthere
    rw [List.mem_singleton.mp hr₀] at hthere hcontent ⊢
    rw [hpath] at hthere
    cases hthere
    rw [hcontent, kept, kept, (h.untouched path havoid).contents_eq]

/-- Whether a file can be opened does not depend on others that are open. -/
theorem Opened.fault?_eq_none (h : Opened ctx s s' rs) (hs : s.disk.Sound)
    (hapart : ∀ r₀ ∈ rs, Apart ctx s.disk r₀ r) :
    r.fault? ctx s'.disk = none ↔ r.fault? ctx s.disk = none := by
  rw [Redirect.fault?_eq_none hs, Redirect.fault?_eq_none h.sound]
  refine exists_congr fun path => and_congr_right fun hpath => ?_
  exact fits_iff (h.untouched path fun r₀ hr₀ _ there hthere =>
    hapart r₀ hr₀ there path hthere hpath)

theorem openable_append {more : List Redirect} :
    Openable ctx s (rs ++ more) ↔ Openable ctx s rs ∧ Openable ctx (storeAll ctx s rs) more := by
  induction rs generalizing s with
  | nil => exact ⟨fun h => ⟨trivial, h⟩, And.right⟩
  | cons r rs ih =>
    rw [List.cons_append, Openable, Openable, ih, and_assoc]
    rfl

/-- Files that could all be opened at first are opened one after the other. -/
theorem opened_all (hs : s.disk.Sound) (hapart : rs.Pairwise (Apart ctx s.disk))
    (hfault : ∀ r ∈ rs, r.fault? ctx s.disk = none) :
    Openable ctx s rs ∧ Opened ctx s (storeAll ctx s rs) rs := by
  induction rs using List.reverseRecOn with
  | nil => exact ⟨trivial, opened_nil hs⟩
  | append_singleton rs r ih =>
    obtain ⟨hrs, -, hlast⟩ := List.pairwise_append.mp hapart
    replace hlast : ∀ r₀ ∈ rs, Apart ctx s.disk r₀ r :=
      fun r₀ hr₀ => hlast r₀ hr₀ r (List.mem_singleton_self r)
    obtain ⟨hfront, hr⟩ := List.forall_mem_append.mp hfault
    obtain ⟨hopenable, hopened⟩ := ih hrs hfront
    have hthen := (hopened.fault?_eq_none hs hlast).mpr (hr r (List.mem_singleton_self r))
    obtain ⟨path, hpath, -⟩ := (Redirect.fault?_eq_none hopened.sound).mp hthen
    refine ⟨openable_append.mpr ⟨hopenable, hthen, trivial⟩, ?_⟩
    rw [storeAll, List.foldl_append]
    exact hopened.concat (opened_one hopened.sound hthen) hpath hlast

/-! ## Streams -/

/-- The redirect that the input comes from in the end. -/
def input? (rs : List Redirect) : Option Redirect :=
  (rs.filter fun r => r.mode == .input).getLast?

/-- The redirect that the output goes to in the end. -/
def output? (rs : List Redirect) : Option Redirect :=
  (rs.filter fun r => r.mode != .input).getLast?

/-- Where the input comes from in the end: from the last file that is read, if there is one. -/
def source (ctx : Context) (d : Disk) (io : Streams) (rs : List Redirect) : Source :=
  match input? rs with
  | none => io.stdin
  | some r => .bytes (((r.path? ctx).map d.contents).getD [])

/-- The output goes to a file that was opened for it, where writing begins at the right place. -/
structure Receives (s : Store) (io : Streams) (r : Redirect) (path : String) (sink : Sink)
    (s' : Store) (handle : HandleId) (id : NodeId) : Prop where
  sink_eq : sink = .file handle
  new : s.files.size ≤ handle
  file : s'.files[handle]? = some ⟨id, position (outputMode r.mode)⟩
  names : s'.disk.Names path id

theorem streamsAll_append {io : Streams} {more : List Redirect} :
    streamsAll ctx s io (rs ++ more) =
      streamsAll ctx (storeAll ctx s rs) (streamsAll ctx s io rs) more := by
  induction rs generalizing s io with
  | nil => rfl
  | cons r rs ih => exact ih

/-- The streams once all files are open. -/
theorem streams_all {io : Streams} (hs : s.disk.Sound) (hapart : rs.Pairwise (Apart ctx s.disk))
    (hfault : ∀ r ∈ rs, r.fault? ctx s.disk = none) :
    (streamsAll ctx s io rs).stderr = io.stderr ∧
      (streamsAll ctx s io rs).stdin = source ctx s.disk io rs ∧
      (output? rs = none → (streamsAll ctx s io rs).stdout = io.stdout) ∧
      ∀ r, output? rs = some r → ∃ path handle id, r.path? ctx = some path ∧
        Receives s io r path (streamsAll ctx s io rs).stdout (storeAll ctx s rs) handle id := by
  induction rs using List.reverseRecOn with
  | nil => exact ⟨rfl, rfl, fun _ => rfl, nofun⟩
  | append_singleton rs r ih =>
    obtain ⟨hrs, -, hlast⟩ := List.pairwise_append.mp hapart
    replace hlast : ∀ r₀ ∈ rs, Apart ctx s.disk r₀ r :=
      fun r₀ hr₀ => hlast r₀ hr₀ r (List.mem_singleton_self r)
    obtain ⟨hfront, hr⟩ := List.forall_mem_append.mp hfault
    obtain ⟨hstderr, hstdin, hnone, hsome⟩ := ih hrs hfront
    obtain ⟨-, hopened⟩ := opened_all hs hrs hfront
    have hthen := (hopened.fault?_eq_none hs hlast).mpr (hr r (List.mem_singleton_self r))
    obtain ⟨path, hpath, hfits⟩ := (Redirect.fault?_eq_none hopened.sound).mp hthen
    have hkept := hopened.untouched path fun r₀ hr₀ _ there hthere =>
      hlast r₀ hr₀ there path hthere hpath
    have hstore : storeAll ctx s (rs ++ [r]) = r.store ctx (storeAll ctx s rs) := by
      rw [storeAll, List.foldl_append]
      rfl
    rw [streamsAll_append, hstore]
    simp only [streamsAll]
    by_cases hmode : r.mode = .input
    · have hstreams : ∀ io', r.streams ctx (storeAll ctx s rs) io' =
          { io' with stdin := .bytes ((storeAll ctx s rs).disk.contents path) } := fun io' => by
        simp only [streams, hpath, hmode]
      have hsame : r.store ctx (storeAll ctx s rs) = storeAll ctx s rs := by
        simp only [store, hpath, hmode]
      have hinput : input? (rs ++ [r]) = some r := by simp [input?, hmode]
      have houtput : output? (rs ++ [r]) = output? rs := by simp [output?, hmode]
      rw [hstreams, hsame, houtput]
      refine ⟨hstderr, ?_, hnone, hsome⟩
      simp only [source, hinput, hpath, hkept.contents_eq]
      rfl
    · obtain ⟨id, d', hopens, -, hopen⟩ := store_output hopened.sound hpath hmode hfits
      have hstreams : ∀ io', r.streams ctx (storeAll ctx s rs) io' =
          { io' with stdout := .file (storeAll ctx s rs).files.size } := fun io' => by
        unfold streams
        rw [hpath]
        cases hr : r.mode with
        | input => exact absurd hr hmode
        | overwrite | append => rfl
      have hinput : input? (rs ++ [r]) = input? rs := by simp [input?, hmode]
      have houtput : output? (rs ++ [r]) = some r := by simp [output?, hmode]
      rw [hstreams, hopen, houtput, source, hinput]
      refine ⟨hstderr, hstdin, nofun, ?_⟩
      rintro _ ⟨⟩
      exact ⟨path, _, id, hpath, rfl, hopened.files, Array.getElem?_push_size, hopens.names⟩

/-! ## Work -/

/-- The note of a message. -/
def said (io : Streams) (message : String) : Note :=
  .happened (.wrote io.stderr (Text.encode message))

theorem exists_fields {path : String} (hpath : r.path? ctx = some path) :
    ∃ fields, ctx.expand r.target = .ok fields ∧
      path = ctx.resolve (Text.joinWith " " fields) := by
  unfold path? at hpath
  cases hexpand : ctx.expand r.target with
  | error name =>
    rw [hexpand] at hpath
    cases hpath
  | ok fields =>
    rw [hexpand] at hpath
    cases hpath
    exact ⟨fields, rfl, rfl⟩

variable {Q : List Note → Store → Work → Prop} {ns : List Note} {io : Streams} {body : Activity}
  {next : Int → Context → Work}

/-- The next file is opened. -/
theorem attains_open (hs : s.disk.Sound) (hfault : r.fault? ctx s.disk = none)
    (h : Attains Q (ns ++ r.notes ctx) (r.store ctx s)
      (redirected body rs ctx (r.streams ctx s io) next)) :
    Attains Q ns s (redirected body (r :: rs) ctx io next) := by
  obtain ⟨path, hpath, hfits⟩ := (Redirect.fault?_eq_none hs).mp hfault
  obtain ⟨fields, hexpand, rfl⟩ := exists_fields hpath
  simp only [redirected, hexpand]
  by_cases hmode : r.mode = .input
  · rw [Fits, hmode] at hfits
    obtain ⟨bytes, hread⟩ := hfits
    simp only [notes, store, streams, hpath, hmode, Disk.contents_eq hread] at h
    simp only [hmode]
    refine .rest (.load ?_)
    simp only [hread]
    exact .abandon h
  · obtain ⟨id, d', -, hopen, -⟩ := store_output hs hpath hmode hfits
    cases hr : r.mode with
    | input => exact absurd hr hmode
    | overwrite | append =>
      rw [hr] at hopen
      simp only [notes, streams, hpath, hr] at h
      simp only
      refine .rest (.openFile ?_)
      simp only [hopen]
      exact .release h

/-- Files are opened one after the other. -/
theorem attains_redirected {more : List Redirect} (hs : s.disk.Sound) (hopen : Openable ctx s rs)
    (h : Attains Q (ns ++ rs.flatMap (notes ctx)) (storeAll ctx s rs)
      (redirected body more ctx (streamsAll ctx s io rs) next)) :
    Attains Q ns s (redirected body (rs ++ more) ctx io next) := by
  induction rs generalizing s ns io with
  | nil =>
    rw [List.flatMap_nil, List.append_nil] at h
    exact h
  | cons r rs ih =>
    obtain ⟨hr, hopen⟩ := hopen
    rw [List.flatMap_cons, ← List.append_assoc] at h
    exact attains_open hs hr (ih (opened_one hs hr).sound hopen h)

/-- Once all files are open, the command follows. -/
theorem attains_body (hs : s.disk.Sound) (hopen : Openable ctx s rs)
    (h : Attains Q (ns ++ rs.flatMap (notes ctx)) (storeAll ctx s rs)
      (body ctx (streamsAll ctx s io rs) next)) :
    Attains Q ns s (redirected body rs ctx io next) := by
  have hall := @attains_redirected ctx s rs Q ns io body next [] hs hopen h
  rwa [List.append_nil] at hall

theorem encode_ne_nil (text : String) {ending : String} (h : Text.encode ending ≠ []) :
    Text.encode (text ++ ending) ≠ [] := by
  simp only [Text.encode, String.toList_append, List.flatMap_append]
  exact List.append_ne_nil_of_right_ne_nil _ h

theorem attains_say {message : String} {w : Work} (hmessage : Text.encode message ≠ [])
    (herr : ∀ handle, io.stderr ≠ .file handle) (h : Attains Q (ns ++ [said io message]) s w) :
    Attains Q ns s (Work.say io.stderr message w) := by
  have hnotes : (writing io.stderr (Text.encode message)).map Note.happened = [said io message] := by
    rw [writing, chunks, if_neg (by simpa using hmessage)]
    rfl
  refine .write fun ok => ?_
  rw [hnotes, Store.write_eq herr]
  exact h

theorem attains_complain {message : String} (hmessage : Text.encode message ≠ [])
    (herr : ∀ handle, io.stderr ≠ .file handle)
    (h : Q (ns ++ [said io message]) s (.done 1 (ctx.withStatus 1))) :
    Attains Q ns s (complain message ctx io .done) :=
  attains_say hmessage herr (.abandon (.release (.release (.ended rfl h))))

/-- The next file is not opened. -/
theorem attains_fault {message : String} (hs : s.disk.Sound)
    (herr : ∀ handle, io.stderr ≠ .file handle) (hfault : r.fault? ctx s.disk = some message)
    (h : Q (ns ++ r.notes ctx ++ [said io message]) s (.done 1 (ctx.withStatus 1))) :
    Attains Q ns s (redirected body (r :: rs) ctx io .done) := by
  have hlast : Text.encode "\n" ≠ [] := by decide
  unfold fault? at hfault
  cases hexpand : ctx.expand r.target with
  | error name =>
    simp only [hexpand, Option.some.injEq] at hfault
    simp only [notes, path?, hexpand, Except.toOption, Option.map_none, List.append_nil] at h
    simp only [redirected, hexpand]
    rw [← hfault] at h
    exact attains_complain (encode_ne_nil name (by decide)) herr h
  | ok fields =>
    have hpath : r.path? ctx = some (ctx.resolve (Text.joinWith " " fields)) := by
      rw [path?, hexpand]
      rfl
    simp only [hexpand] at hfault
    simp only [redirected, hexpand]
    cases hmode : r.mode with
    | input =>
      simp only [hmode] at hfault
      simp only [notes, hpath, hmode] at h
      refine .rest (.load ?_)
      cases hread : s.disk.readFile (ctx.resolve (Text.joinWith " " fields)) with
      | ok bytes =>
        rw [hread] at hfault
        cases hfault
      | error e =>
        rw [hread] at hfault
        cases hfault
        exact attains_complain (encode_ne_nil _ hlast) herr h
    | overwrite | append =>
      simp only [hmode] at hfault
      simp only [notes, hpath, hmode] at h
      refine .rest (.openFile ?_)
      generalize outputMode _ = how at hfault h ⊢
      rcases Disk.openOutput_cases hs (ctx.resolve (Text.joinWith " " fields)) how Disk.fileMode with
        ⟨-, id, d', heq, -⟩ | ⟨-, e, heq⟩
      · rw [heq] at hfault
        cases hfault
      · rw [heq] at hfault
        cases hfault
        have hopen : s.openFile (ctx.resolve (Text.joinWith " " fields)) how = (.error e, s) := by
          simp only [Store.openFile, heq]
        rw [hopen]
        exact attains_complain (encode_ne_nil _ hlast) herr h

end
end Redirect
end Runnel
