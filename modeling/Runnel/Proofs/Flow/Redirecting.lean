import Runnel.Proofs.Flow.Redirects
import Runnel.Proofs.Flow.Staging

/-!
# Runnel.Proofs.Flow.Redirecting

Commands with redirects to different files.

* `Redirect.Refused`: a command that ends before anything is called or started.
* `Redirect.Served`: a call that reads its input from a file and writes its output to another one.
* `Activity.simple_redirects`: if a word is unset, no file is opened; if a file cannot be opened,
  those before it have been; and otherwise the call is served.
-/

namespace Runnel

open Activity Work

/-- What a call hands back in the end, which depends on whether its pause was cut short. -/
def Outcome.Gives (name : String) (outcome : Outcome) (o : Output) : Prop :=
  match outcome with
  | .pause _ complete cutShort => o = .ofCode complete ∨ o = .ofCode cutShort
  | outcome => o = outcome.output name

/-- Neither output is a file that is open already. Only redirects make it one. -/
structure Streams.Plain (io : Streams) : Prop where
  stdout : ∀ handle, io.stdout ≠ .file handle
  stderr : ∀ handle, io.stderr ≠ .file handle

/-- The path leads to the same place on the other disk, and what is there is the same. -/
structure Disk.Spares (d d' : Disk) (path : String) : Prop where
  place : ∀ found, d.locate true path = .ok found → d'.locate true path = .ok found
  node : ∀ id, d.Names path id → d'.node id = d.node id

namespace Redirect

/-- The command has ended with this message and the code one. Before the message, nothing has
happened but this. -/
structure Refused (ctx : Context) (io : Streams) (before : List Note) (message : String)
    (ns : List Note) (w : Work) : Prop where
  notes : ns = before ++ [said io message]
  ended : w = .done 1 (ctx.withStatus 1)

/-- The line that shows the words, if it is wanted. -/
def shown (ctx : Context) (io : Streams) (words : List String) : List Note :=
  if ctx.settings.xtrace then [said io (traceLine words)] else []

/-- What a call gets to see. -/
def invocation (ctx : Context) (name : String) (args : List String) (input : Bytes) : Invocation :=
  ⟨name, args, Text.decodeLossy input, ctx.cwd, ctx.env, ctx.status⟩

variable (ctx : Context) (s : Store) (io : Streams) (rs : List Redirect) (name : String)
  (args : List String) (c : Call)

/-- What comes of a command up to its call. -/
def prelude : List Note :=
  rs.flatMap (notes ctx) ++ shown ctx io (name :: args)

/-- The command has called `c` with this input; it has handed back `o`, the output of which went to
this sink. -/
structure Served (input : Bytes) (o : Output) (sink : Sink) (ns : List Note) (s' : Store)
    (w : Work) : Prop where
  /-- The input is that of the last file that is read, if there is one. -/
  gives : (source ctx s.disk io rs).Gives input
  output : (c.run (invocation ctx name args input) (storeAll ctx s rs).disk).1.Gives name o
  /-- The call is made once, and nothing else is called or started. -/
  notes : ns = prelude ctx io rs name args ++
    ([Happening.received (source ctx s.disk io rs) input,
        .called c (invocation ctx name args input)] ++
      writing sink o.stdout ++ writing io.stderr o.stderr).map .happened
  ended : w = .done o.code ((ctx.enter o.chdir).withStatus o.code)
  original : output? rs = none → sink = io.stdout
  /-- The output goes to a file that was not open before, if there is such a redirect. -/
  file : ∀ r, output? rs = some r → ∃ handle, sink = .file handle ∧ s.files.size ≤ handle
  /-- The last file that is written to holds what was left of it and then the output; the others are
  as they were when they were opened. -/
  content : ∀ r ∈ rs, ∀ path, r.path? ctx = some path → s'.disk.readFile path =
    .ok (r.kept s.disk path ++ if output? rs = some r then o.stdout else [])

end Redirect

section

variable {Q : List Note → Store → Work → Prop} {ns : List Note} {s : Store} {ctx : Context}
  {io : Streams} {name : String} {args : List String}

/-- What is written to a file that was opened for it follows what was left of the file. Other files
stay as they are. -/
theorem readFile_write {handle : HandleId} {id : NodeId} {how : Disk.OutputMode} {old : Bytes}
    (data : Bytes) (hfile : s.files[handle]? = some ⟨id, Redirect.position how⟩)
    (hold : (s.disk.node id).content = .file old) (hempty : how = .overwrite → old = []) :
    (∀ path, s.disk.Names path id →
        (s.write (.file handle) data).disk.readFile path = .ok (old ++ data)) ∧
      ∀ path there bytes, s.disk.Names path there → there ≠ id →
        (s.disk.node there).content = .file bytes →
          (s.write (.file handle) data).disk.readFile path = .ok bytes := by
  cases data with
  | nil =>
    rw [Store.write_nil, List.append_nil]
    exact ⟨fun path hid => hid.readFile_eq hold, fun path there bytes hid _ h => hid.readFile_eq h⟩
  | cons b rest =>
    have hwrite : s.write (.file handle) (b :: rest) = s.writeFile handle (b :: rest) := rfl
    rw [hwrite]
    generalize b :: rest = data
    cases how with
    | overwrite =>
      have hdisk : (s.writeFile handle data).disk = s.disk.writeAt id 0 data := by
        rw [Store.writeFile, hfile]
        rfl
      rw [hdisk, hempty rfl]
      rw [hempty rfl] at hold
      have hnew : ({ s.disk.node id with
          content := .file ((s.disk.node id).bytes.take 0 ++
            List.replicate (0 - (s.disk.node id).bytes.length) 0 ++ data ++
            (s.disk.node id).bytes.drop (0 + data.length)) } : Node).content
          = .file ([] ++ data) := by
        simp [Node.bytes, hold]
      exact ⟨fun path hid => Disk.readFile_rewrite hold hnew hid,
        fun path there bytes hid hne h => Disk.readFile_rewrite_ne hold hnew hid hne h⟩
    | append =>
      have hdisk : (s.writeFile handle data).disk = s.disk.appendBytes id data := by
        rw [Store.writeFile, hfile]
        rfl
      have hnew : ({ s.disk.node id with
          content := .file ((s.disk.node id).bytes ++ data) } : Node).content
          = .file (old ++ data) := by
        simp [Node.bytes, hold]
      rw [hdisk]
      exact ⟨fun path hid => Disk.readFile_rewrite hold hnew hid,
        fun path there bytes hid hne h => Disk.readFile_rewrite_ne hold hnew hid hne h⟩

theorem attains_deliver (herr : ∀ handle, io.stderr ≠ .file handle) (o : Output)
    (h : Q (ns ++ (writing io.stdout o.stdout ++ writing io.stderr o.stderr).map .happened)
      (s.write io.stdout o.stdout) (.done o.code ((ctx.enter o.chdir).withStatus o.code))) :
    Attains Q ns s (deliver o ctx io .done) := by
  refine .write fun _ => .write fun _ => .abandon (.release (.release (.ended rfl ?_)))
  rw [Store.write_eq herr, List.append_assoc, ← List.map_append]
  exact h

theorem attains_conclude (herr : ∀ handle, io.stderr ≠ .file handle) {outcome : Outcome}
    (h : ∀ o, outcome.Gives name o →
      Q (ns ++ (writing io.stdout o.stdout ++ writing io.stderr o.stderr).map .happened)
        (s.write io.stdout o.stdout) (.done o.code ((ctx.enter o.chdir).withStatus o.code))) :
    Attains Q ns s (conclude name outcome ctx io .done) := by
  cases outcome with
  | done output => exact attains_deliver herr output (h output rfl)
  | failed reason | crashed message =>
    -- there is no output, only a message
    have hend := h _ rfl
    refine .write fun _ => .abandon (.release (.release (.ended rfl ?_)))
    simp only [Outcome.output, Output.ofMessage, Store.write_nil] at hend
    rw [Store.write_eq herr]
    exact hend
  | pause length complete cutShort =>
    refine .pause fun cut => attains_deliver herr _ (h _ ?_)
    cases cut with
    | true => exact .inr rfl
    | false => exact .inl rfl

/-- The part of a served command that is behind its redirects. -/
theorem attains_invoke {c : Call} (herr : ∀ handle, io.stderr ≠ .file handle)
    (hbuiltins : ctx.builtins = true) (hfound : s.registry.get? name = some (.call c))
    (hcrash : c.demand args = .crash →
      Q (ns ++ Redirect.shown ctx io (name :: args)) s .crash)
    (h : ∀ input o, io.stdin.Gives input →
      (c.run (Redirect.invocation ctx name args input) s.disk).1.Gives name o →
      Q (ns ++ Redirect.shown ctx io (name :: args) ++
          ([Happening.received io.stdin input,
              .called c (Redirect.invocation ctx name args input)] ++
            writing io.stdout o.stdout ++ writing io.stderr o.stderr).map .happened)
        ((s.call c (Redirect.invocation ctx name args input)).write io.stdout o.stdout)
        (.done o.code ((ctx.enter o.chdir).withStatus o.code))) :
    Attains Q ns s (invoke (name :: args) ctx io .done) := by
  have hcall : Attains Q (ns ++ Redirect.shown ctx io (name :: args)) s
      (builtin name (.call c) args ctx io .done) := by
    unfold builtin
    cases hdemand : c.demand args with
    | crash =>
      simp only [demanded, hdemand]
      exact .ended rfl (hcrash hdemand)
    | everything | lines n =>
      simp only [demanded, hdemand]
      have herr' : ∀ handle, ({ io with stdin := .empty } : Streams).stderr ≠ .file handle := herr
      refine .read fun input hinput => .call (attains_conclude herr' fun o ho => ?_)
      have hend := h input o hinput ho
      simpa [Redirect.invocation] using hend
  simp only [invoke, traced, hbuiltins, if_true]
  unfold Redirect.shown at hcall
  split
  · rename_i htrace
    rw [if_pos htrace] at hcall
    refine Redirect.attains_say (Redirect.encode_ne_nil _ (by decide)) herr (.lookUp ?_)
    rw [hfound]
    exact hcall
  · rename_i htrace
    rw [if_neg htrace, List.append_nil] at hcall
    refine .lookUp ?_
    rw [hfound]
    exact hcall

variable {rs : List Redirect}

/-- What the files hold after a call that has left them alone, once its output is written. -/
theorem content_served {t : Store} (hio : io.Plain) (hs : s.disk.Sound)
    (hapart : rs.Pairwise (Redirect.Apart ctx s.disk))
    (hfault : ∀ r ∈ rs, r.fault? ctx s.disk = none)
    (hfiles : t.files = (Redirect.storeAll ctx s rs).files)
    (hspares : ∀ r ∈ rs, ∀ path, r.path? ctx = some path →
      (Redirect.storeAll ctx s rs).disk.Spares t.disk path) (data : Bytes) :
    ∀ r ∈ rs, ∀ path, r.path? ctx = some path →
      (t.write (Redirect.streamsAll ctx s io rs).stdout data).disk.readFile path =
        .ok (r.kept s.disk path ++ if Redirect.output? rs = some r then data else []) := by
  obtain ⟨-, hopened⟩ := Redirect.opened_all hs hapart hfault
  obtain ⟨-, -, hnone, hsome⟩ := @Redirect.streams_all ctx s rs io hs hapart hfault
  -- after the call, each file has the name and the content that it had before
  have hfile : ∀ r ∈ rs, ∀ path, r.path? ctx = some path →
      ∃ id, (Redirect.storeAll ctx s rs).disk.Names path id ∧ t.disk.Names path id ∧
        (t.disk.node id).content = .file (r.kept s.disk path) := by
    intro r hr path hpath
    obtain ⟨id, hid, hcontent⟩ := hopened.sound.names_of_readFile (hopened.content r hr path hpath)
    have hspare := hspares r hr path hpath
    obtain ⟨trail, last, hlocate⟩ := hid
    refine ⟨id, ⟨trail, last, hlocate⟩, ⟨trail, last, hspare.place _ hlocate⟩, ?_⟩
    rw [hspare.node id ⟨trail, last, hlocate⟩, hcontent]
  intro r hr path hpath
  obtain ⟨id, hid, hid₂, hcontent⟩ := hfile r hr path hpath
  cases hout : Redirect.output? rs with
  | none =>
    rw [hnone hout, Store.write_eq hio.stdout, if_neg nofun, List.append_nil]
    exact hid₂.readFile_eq hcontent
  | some r₀ =>
    obtain ⟨path₀, handle, id₀, hpath₀, hreceives⟩ := hsome r₀ hout
    obtain ⟨hr₀, hmode⟩ := List.mem_filter.mp (List.mem_of_getLast? hout)
    obtain ⟨id₁, hid₁, hid₁₂, hcontent₁⟩ := hfile r₀ hr₀ path₀ hpath₀
    obtain rfl := hreceives.names.unique hid₁
    have hempty : outputMode r₀.mode = .overwrite → r₀.kept s.disk path₀ = [] := by
      unfold Redirect.kept
      cases hr₀ : r₀.mode with
      | overwrite => exact fun _ => rfl
      | append => nofun
      | input => simp [hr₀] at hmode
    have hwritten := readFile_write data (hfiles ▸ hreceives.file) hcontent₁ hempty
    rw [hreceives.sink_eq]
    by_cases heq : r₀ = r
    · subst heq
      rw [hpath] at hpath₀
      cases hpath₀
      rw [if_pos rfl]
      exact hwritten.1 path (hid.unique hid₁ ▸ hid₂)
    · rw [if_neg fun h => heq (Option.some.inj h), List.append_nil]
      refine hwritten.2 path id _ hid₂ ?_ hcontent
      rintro rfl
      have hdiff := hopened.apart.forall hr hr₀ (Ne.symm heq) path path₀ hpath hpath₀
      exact hdiff _ hid.spot?_eq hid₁.spot?_eq

end

/-- A command with redirects to different files, with which nobody interferes.
* If a word is unset, this is said and nothing else is done.
* If a file is the first that cannot be opened, those before it have been opened, one after the
  other, and this is said; nothing else is touched.
* Otherwise a call that leaves the files alone is served, unless the question how much it reads
  breaks everything down.
-/
theorem Activity.simple_redirects {name : Word} {args : List Word} {redirects : List Redirect}
    {ctx : Context} {io : Streams} {s : Store} (hio : io.Plain) (hs : s.disk.Sound)
    (hapart : redirects.Pairwise (Redirect.Apart ctx s.disk)) :
    (∀ unset, ctx.expandAll (name :: args) = .error unset →
      Achieves s (simple name args redirects ctx io .done) fun ns s' w =>
        Redirect.Refused ctx io [] (unboundMessage unset) ns w ∧ s' = s) ∧
    (∀ words before r after, ctx.expandAll (name :: args) = .ok words →
      redirects = before ++ r :: after → (∀ r₀ ∈ before, r₀.fault? ctx s.disk = none) →
      r.fault? ctx s.disk ≠ none →
      Achieves s (simple name args redirects ctx io .done) fun ns s' w =>
        (∃ message, r.fault? ctx s'.disk = some message ∧
          Redirect.Refused ctx io (before.flatMap (Redirect.notes ctx) ++ r.notes ctx) message ns w) ∧
        Redirect.Opened ctx s s' before ∧
        ∀ r' ∈ r :: after, ∀ path, r'.path? ctx = some path → s.disk.Untouched s'.disk path) ∧
    ∀ command words c, ctx.expandAll (name :: args) = .ok (command :: words) →
      (∀ r ∈ redirects, r.fault? ctx s.disk = none) → ctx.builtins = true →
      s.registry.get? command = some (.call c) →
      (∀ input, ∀ r ∈ redirects, ∀ path, r.path? ctx = some path →
        (Redirect.storeAll ctx s redirects).disk.Spares
          (c.run (Redirect.invocation ctx command words input)
            (Redirect.storeAll ctx s redirects).disk).2 path) →
      Achieves s (simple name args redirects ctx io .done) fun ns s' w =>
        (c.demand words = .crash ∧ w = .crash ∧
          ns = Redirect.prelude ctx io redirects command words) ∨
        ∃ input o sink, Redirect.Served ctx s io redirects command words c input o sink ns s' w := by
  refine ⟨fun unset hexpand => ?_, fun words before r after hexpand hsplit hbefore hr => ?_,
    fun command words c hexpand hfault hbuiltins hfound hspares => ?_⟩
  · refine Attains.achieves ?_
    simp only [simple, hexpand]
    exact Redirect.attains_complain (Redirect.encode_ne_nil unset (by decide)) hio.stderr
      ⟨⟨rfl, rfl⟩, rfl⟩
  · subst hsplit
    obtain ⟨hfirst, hrest, hlast⟩ := List.pairwise_append.mp hapart
    obtain ⟨hopenable, hopened⟩ := Redirect.opened_all hs hfirst hbefore
    obtain ⟨hstderr, -⟩ := @Redirect.streams_all ctx s before io hs hfirst hbefore
    have hthen : r.fault? ctx (Redirect.storeAll ctx s before).disk ≠ none :=
      fun h => hr ((hopened.fault?_eq_none hs fun r₀ hr₀ =>
        hlast r₀ hr₀ r List.mem_cons_self).mp h)
    obtain ⟨message, hmessage⟩ := Option.ne_none_iff_exists'.mp hthen
    refine Attains.achieves ?_
    simp only [simple, hexpand]
    refine Redirect.attains_redirected hs hopenable
      (Redirect.attains_fault hopened.sound (hstderr ▸ hio.stderr) hmessage ?_)
    refine ⟨⟨message, hmessage, ?_, rfl⟩, hopened, fun r' hr' path hpath => ?_⟩
    · rw [Redirect.said, hstderr]
      rfl
    · exact hopened.untouched path fun r₀ hr₀ _ there hthere =>
        hlast r₀ hr₀ r' hr' there path hthere hpath
  · obtain ⟨hopenable, hopened⟩ := Redirect.opened_all hs hapart hfault
    obtain ⟨hstderr, hstdin, hnone, hsome⟩ := @Redirect.streams_all ctx s redirects io hs hapart hfault
    refine Attains.achieves ?_
    simp only [simple, hexpand]
    refine Redirect.attains_body hs hopenable (attains_invoke (hstderr ▸ hio.stderr) hbuiltins
      (hopened.registry ▸ hfound) (fun hcrash => .inl ⟨hcrash, rfl, ?_⟩)
      fun input o hinput ho =>
        .inr ⟨input, o, (Redirect.streamsAll ctx s io redirects).stdout, ?_⟩)
    · rw [List.nil_append, Redirect.prelude, Redirect.shown, Redirect.shown, Redirect.said,
        Redirect.said, hstderr]
    · rw [hstdin] at hinput
      refine ⟨hinput, ho, ?_, rfl, hnone, fun r hr => ?_, ?_⟩
      · rw [List.nil_append, Redirect.prelude, Redirect.shown, Redirect.shown, Redirect.said,
          Redirect.said, hstderr, hstdin]
      · obtain ⟨path, handle, id, -, hreceives⟩ := hsome r hr
        exact ⟨handle, hreceives.sink_eq, hreceives.new⟩
      · exact content_served (t := (Redirect.storeAll ctx s redirects).call c
          (Redirect.invocation ctx command words input)) hio hs hapart hfault rfl (hspares input)
          o.stdout

/-! ### An example -/

namespace Copying

/-- The root with two files in it. -/
def disk : Disk :=
  ((Disk.empty.create 0 "a" ⟨.file [97], Disk.fileMode⟩).2.create 0 "b"
    ⟨.file [98], Disk.fileMode⟩).2

/-- Hands back its input. -/
def cat : Call :=
  ⟨fun _ => .everything, fun i d => (.done (.ofText i.stdin), d)⟩

def store : Store :=
  ⟨disk, #[], (Registry.empty.register 0 "cat" (.call cat)).2⟩

def context : Context :=
  ⟨"/", [], 7, Settings.off, true, ⟨"/bin/sh", ["-c"]⟩, 0, 0⟩

def streams : Streams :=
  ⟨.empty, .channel 0 .stdout, .channel 0 .stderr⟩

/-- A redirect to a file of this name. -/
def redirect (mode : RedirectMode) (name : String) : Redirect :=
  ⟨mode, ⟨[.literal name], false⟩⟩

theorem sound : disk.Sound := by
  have hfirst : (Disk.empty.create 0 "a" ⟨.file [97], Disk.fileMode⟩).2.Sound :=
    Disk.sound_empty.create rfl
  exact hfirst.create rfl

theorem locate_a : disk.locate true "/a" = .ok ⟨.named [] "a" (some 1), false⟩ := by
  rw [Disk.locate, show Disk.pathFault? "/a" = none from by decide,
    show Path.steps "/a" = ["a"] from by decide]
  simp only []
  rw [Disk.walk]
  rfl

theorem locate_b : disk.locate true "/b" = .ok ⟨.named [] "b" (some 2), false⟩ := by
  rw [Disk.locate, show Disk.pathFault? "/b" = none from by decide,
    show Path.steps "/b" = ["b"] from by decide]
  simp only []
  rw [Disk.walk]
  rfl

theorem locate_c : disk.locate true "/c" = .ok ⟨.named [] "c" none, false⟩ := by
  rw [Disk.locate, show Disk.pathFault? "/c" = none from by decide,
    show Path.steps "/c" = ["c"] from by decide]
  simp only []
  rw [Disk.walk]
  rfl

theorem names_a : disk.Names "/a" 1 :=
  ⟨[], "a", locate_a⟩

theorem names_b : disk.Names "/b" 2 :=
  ⟨[], "b", locate_b⟩

theorem path_a (mode : RedirectMode) : (redirect mode "a").path? context = some "/a" :=
  rfl

theorem path_b (mode : RedirectMode) : (redirect mode "b").path? context = some "/b" :=
  rfl

theorem path_c (mode : RedirectMode) : (redirect mode "c").path? context = some "/c" :=
  rfl

theorem fault_a (mode : RedirectMode) : (redirect mode "a").fault? context disk = none := by
  refine (Redirect.fault?_eq_none sound).mpr ⟨"/a", path_a mode, ?_⟩
  have hread : disk.readFile "/a" = .ok [97] := names_a.readFile_eq rfl
  cases mode with
  | input => exact ⟨_, hread⟩
  | overwrite | append => exact .inr ⟨_, hread⟩

theorem fault_b : (redirect .append "b").fault? context disk = none :=
  (Redirect.fault?_eq_none sound).mpr ⟨"/b", path_b _, .inr ⟨_, names_b.readFile_eq rfl⟩⟩

theorem fault_c : (redirect .input "c").fault? context disk ≠ none := by
  intro h
  obtain ⟨path, hpath, bytes, hread⟩ := (Redirect.fault?_eq_none sound).mp h
  rw [path_c] at hpath
  cases hpath
  rw [Disk.Free.readFile_eq ⟨[], "c", locate_c⟩] at hread
  cases hread

theorem apart {name : String} {mode mode' : RedirectMode} {path : String}
    (hpath : (redirect mode' name).path? context = some path)
    (hspot : disk.spot? path ≠ some (.node 1)) :
    [redirect mode "a", redirect mode' name].Pairwise (Redirect.Apart context disk) := by
  refine List.pairwise_pair.mpr fun first second hfirst hsecond => ?_
  rw [path_a] at hfirst
  cases hfirst
  rw [hpath] at hsecond
  cases hsecond
  intro spot hspot₁
  rw [names_a.spot?_eq] at hspot₁
  cases hspot₁
  exact hspot

end Copying

/-- A command copies a file to the end of another one; and a command whose input is missing empties
the file of the redirect before it. -/
theorem Activity.simple_redirects_copy :
    (∃ xs, Runs (simple ⟨[.literal "cat"], false⟩ []
        [Copying.redirect .input "a", Copying.redirect .append "b"] Copying.context
          Copying.streams .done) xs (.done 0 (Copying.context.withStatus 0)) ∧
      (left Copying.store xs).disk.readFile "/b" = .ok [98, 97]) ∧
    ∃ xs, Runs (simple ⟨[.literal "cat"], false⟩ []
        [Copying.redirect .overwrite "a", Copying.redirect .input "c"] Copying.context
          Copying.streams .done) xs (.done 1 (Copying.context.withStatus 1)) ∧
      (left Copying.store xs).disk.readFile "/a" = .ok [] := by
  have hio : Copying.streams.Plain := ⟨nofun, nofun⟩
  constructor
  · have hapart := @Copying.apart "b" .input .append _ (Copying.path_b .append)
      (by rw [Copying.names_b.spot?_eq]; decide)
    obtain ⟨-, -, hserved⟩ := @Activity.simple_redirects ⟨[.literal "cat"], false⟩ [] _ _ _
      Copying.store hio Copying.sound hapart
    obtain ⟨xs, w, hruns, hend⟩ := (hserved "cat" [] Copying.cat rfl
      (by simp [Copying.fault_a, Copying.fault_b, Copying.store]) rfl rfl
      fun _ _ _ _ _ => ⟨fun _ h => h, fun _ _ => rfl⟩).exists_end
    rcases hend with ⟨hcrash, -⟩ | ⟨input, o, sink, hserved⟩
    · cases hcrash
    · have hinput : input = [97] := hserved.gives.trans
        (Disk.contents_eq (Copying.names_a.readFile_eq rfl))
      subst hinput
      obtain rfl := hserved.output
      have hcontent := hserved.content (Copying.redirect .append "b") (by simp) "/b"
        (Copying.path_b _)
      rw [hserved.ended] at hruns
      refine ⟨xs, hruns, hcontent.trans ?_⟩
      have hkept : (Copying.redirect .append "b").kept Copying.disk "/b" = [98] :=
        Disk.contents_eq (Copying.names_b.readFile_eq rfl)
      rw [show Copying.store.disk = Copying.disk from rfl, hkept, if_pos (by decide)]
      rfl
  · have hapart := @Copying.apart "c" .overwrite .input _ (Copying.path_c .input)
      (by rw [Disk.spot?_eq Copying.locate_c]; decide)
    obtain ⟨-, hrefused, -⟩ := @Activity.simple_redirects ⟨[.literal "cat"], false⟩ [] _ _ _
      Copying.store hio Copying.sound hapart
    obtain ⟨xs, w, hruns, ⟨message, -, hw⟩, hopened, -⟩ := (hrefused ["cat"]
      [Copying.redirect .overwrite "a"] (Copying.redirect .input "c") [] rfl rfl
      (by simp [Copying.fault_a, Copying.store]) Copying.fault_c).exists_end
    rw [hw.ended] at hruns
    exact ⟨xs, hruns, hopened.content _ List.mem_cons_self "/a" (Copying.path_a _)⟩

end Runnel
