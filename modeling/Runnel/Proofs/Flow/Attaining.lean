import Runnel.Proofs.Flow.Happenings
import Runnel.Proofs.Flow.Linking

/-!
# Runnel.Proofs.Flow.Attaining

Work that nobody interferes with. Nobody else writes to files or changes what the names of commands
stand for; channels, tokens and the clock are still those of everybody.

* `Store`: the files, and what names stand for.
* `Work.Note`, `Work.notes`: what comes of a run, together with the files that are opened and the
  programs that are started.
* `Work.Attains`: work that comes to an end of this kind, request by request.
* `Work.Attains.serves`: whoever is served, this goes on to hold.
* `Work.Achieves`, `Work.Attains.achieves`: each run can go on to its end, which is of this kind.
-/

namespace Runnel

/-- What lasts from one request to the next if nobody interferes. -/
structure Store where
  /-- The files. -/
  disk : Disk
  /-- The files that were opened. -/
  files : Array OpenFile
  /-- What names stand for. -/
  registry : Registry

/-- The store of a machine. -/
def Machine.store (m : Machine) : Store :=
  ⟨m.disk, m.files, m.registry⟩

namespace Store

/-- A machine with this store on which nobody else is. -/
def machine (s : Store) (clock : Nat) : Machine :=
  { Machine.ofDisk s.disk s.registry with files := s.files, clock, budget := Machine.turnBudget }

/-- The store after a call. -/
def call (s : Store) (c : Call) (i : Invocation) : Store :=
  { s with disk := (c.run i s.disk).2 }

/-- Opens a file for writing. -/
def openFile (s : Store) (path : String) (how : Disk.OutputMode) :
    Except SystemError HandleId × Store :=
  match s.disk.openOutput path how Disk.fileMode with
  | (.error e, disk) => (.error e, { s with disk })
  | (.ok node, disk) =>
    let position := match how with
      | .overwrite => some 0
      | .append => none
    (.ok s.files.size, { s with disk, files := s.files.push ⟨node, position⟩ })

/-- Writes into an open file. -/
def writeFile (s : Store) (handle : HandleId) (data : Bytes) : Store :=
  match s.files[handle]? with
  | none => s
  | some ⟨node, none⟩ => { s with disk := s.disk.appendBytes node data }
  | some ⟨node, some position⟩ =>
    { s with
      disk := s.disk.writeAt node position data
      files := s.files.setIfInBounds handle ⟨node, some (position + data.length)⟩ }

/-- The store after a chunk was handed over. -/
def write (s : Store) (sink : Sink) (data : Bytes) : Store :=
  match sink with
  | .file handle => if data.isEmpty then s else s.writeFile handle data
  | _ => s

theorem write_eq {s : Store} {sink : Sink} (h : ∀ handle, sink ≠ .file handle) (data : Bytes) :
    s.write sink data = s := by
  cases sink with
  | file handle => exact absurd rfl (h handle)
  | channel | discard => rfl

theorem write_nil (s : Store) (sink : Sink) : s.write sink [] = s := by
  cases sink with
  | _ => rfl

end Store

namespace Machine

variable {m m' : Machine}

theorem store_machine (s : Store) (clock : Nat) : (s.machine clock).store = s :=
  rfl

theorem store_openFile (path : String) (how : Disk.OutputMode) :
    ((m.openFile path how).1, (m.openFile path how).2.store) = m.store.openFile path how := by
  rcases h : m.disk.openOutput path how Disk.fileMode with ⟨e | node, disk⟩
  · simp only [openFile, Store.openFile, h, store]
  · cases how with
    | overwrite | append => simp only [openFile, Store.openFile, h, store]

theorem store_writeFile (handle : HandleId) (data : Bytes) :
    (m.writeFile handle data).store = m.store.writeFile handle data := by
  rcases h : m.files[handle]? with _ | ⟨node, _ | position⟩
  all_goals simp only [writeFile, Store.writeFile, h, store]

theorem store_offer (id : ChannelId) (ticket : Option Ticket) (chunk : Chunk) :
    (m.offer id ticket chunk).1.store = m.store := by
  unfold offer
  split
  · rfl
  · cases ticket with
    | none | some t =>
      simp only
      split
      all_goals rfl

theorem store_write_delivered {sink : Sink} {ticket : Option Ticket} {data : Bytes} {ok : Bool}
    (h : m.write sink ticket data = (m', .delivered ok)) : m'.store = m.store.write sink data := by
  unfold write at h
  split at h
  · rename_i hempty
    cases h
    cases sink with
    | channel | discard => rfl
    | file handle => rw [Store.write, if_pos hempty]
  · rename_i hdata
    cases sink with
    | channel id kind =>
      have hoffer := @store_offer m id ticket ⟨kind, data⟩
      rwa [show m.offer id ticket ⟨kind, data⟩ = _ from h] at hoffer
    | file handle =>
      cases h
      rw [Store.write, if_neg hdata, store_writeFile]
    | discard =>
      cases h
      rfl

theorem store_write_held {sink : Sink} {ticket held : Option Ticket} {data : Bytes}
    (h : m.write sink ticket data = (m', .held held)) : m'.store = m.store := by
  unfold write at h
  split at h
  · cases h
  · cases sink with
    | channel id kind =>
      have hoffer := @store_offer m id ticket ⟨kind, data⟩
      rwa [show m.offer id ticket ⟨kind, data⟩ = _ from h] at hoffer
    | file | discard => cases h

theorem store_take (id : ChannelId) : (m.take id).1.store = m.store := by
  unfold take
  split
  · rfl
  · simp only
    split
    · rfl
    · split
      all_goals rfl

theorem store_gatherChunks {id : ChannelId} {lines : Option Nat} {n : Nat} {pieces : List Bytes}
    {seen : Nat} : (gatherChunks id lines n m pieces seen).1.store = m.store := by
  induction n generalizing m pieces seen with
  | zero => rfl
  | succ n ih =>
    have htake := @store_take m id
    rw [gatherChunks]
    split
    · rfl
    · split
      all_goals
        rename_i h
        rw [h] at htake
      · exact ih.trans htake
      all_goals exact htake

theorem store_release (sink : Sink) : (m.release sink).store = m.store := by
  cases sink with
  | _ => rfl

theorem store_abandon (source : Source) : (m.abandon source).store = m.store := by
  cases source with
  | _ => rfl

theorem store_gather {source : Source} {lines : Option Nat} {gathered bytes : Bytes} {enough : Bool}
    (h : m.gather source lines gathered = (m', bytes, enough)) : m'.store = m.store := by
  cases source with
  | empty | inherited | bytes data =>
    cases h
    rfl
  | channel id =>
    have hgather := @store_gatherChunks m id lines (turnBudget + 1) [] (gathered.count 10)
    simp only [gather] at h
    cases henough : (gatherChunks id lines (turnBudget + 1) m [] (gathered.count 10)).2.2 with
    | true | false =>
      simp only [henough] at h
      cases h
      exact hgather

end Machine
namespace Work

/-! ## Runs that nobody interferes with -/

/-- What comes of a run, and what it does to files and programs. -/
inductive Note where
  /-- A file was to be read. -/
  | loaded (path : String)
  /-- A file was to be opened for writing. -/
  | opened (path : String) (how : Disk.OutputMode)
  /-- A generator was run. -/
  | generated (g : Generator) (i : Invocation)
  /-- A program was to be started. -/
  | launched (l : Launch)
  | happened (h : Happening)

/-- The notes of an exchange. -/
def Exchange.notes (x : Exchange) : List Note :=
  match x.request with
  | .load path => [.loaded path]
  | .openFile path how => [.opened path how]
  | .generate g i _ _ _ _ _ => [.generated g i]
  | .launch l _ => [.launched l]
  | _ => x.happenings.map .happened

/-- The notes of some exchanges. -/
def notes (xs : List Exchange) : List Note :=
  xs.flatMap Exchange.notes

/-- Nobody interferes with these exchanges. -/
def Alone : Store → List Exchange → Prop
  | _, [] => True
  | s, x :: xs => x.before.store = s ∧ Alone x.after.store xs

/-- The store after these exchanges. -/
def left : Store → List Exchange → Store
  | s, [] => s
  | _, x :: xs => left x.after.store xs

theorem Alone.append {s : Store} {xs ys : List Exchange} (h : Alone s xs)
    (h' : Alone (left s xs) ys) : Alone s (xs ++ ys) := by
  induction xs generalizing s with
  | nil => exact h'
  | cons x xs ih => exact ⟨h.1, ih h.2 h'⟩

end Work

/-- What a reader may get from a source. -/
def Source.Gives (source : Source) (bytes : Bytes) : Prop :=
  match source with
  | .channel _ => True
  | .bytes data => bytes = data
  | .empty | .inherited => bytes = []

theorem Machine.gives_of_gather {m m' : Machine} {source : Source} {lines : Option Nat}
    {gathered bytes : Bytes} (h : m.gather source lines gathered = (m', bytes, true)) :
    source.Gives bytes := by
  cases source with
  | channel id => trivial
  | empty | inherited | bytes data =>
    cases h
    rfl

namespace Work

/-- If nobody interferes from this store on, the work comes to an end that satisfies `Q`, with
these notes before it. Nothing holds of the answers but what the store says. -/
inductive Attains (Q : List Note → Store → Work → Prop) : List Note → Store → Work → Prop where
  | ended {ns : List Note} {s : Store} {w : Work} (hw : w.isComplete = true) (h : Q ns s w) :
    Attains Q ns s w
  | rest {ns : List Note} {s : Store} {begun : Bool} {next : Work} (h : Attains Q ns s next) :
    Attains Q ns s (.rest begun next)
  | write {ns : List Note} {s : Store} {ticket : Option Ticket} {sink : Sink} {data : Bytes}
      {next : Bool → Work}
      (h : ∀ ok, Attains Q (ns ++ (writing sink data).map .happened) (s.write sink data) (next ok)) :
    Attains Q ns s (.write ticket sink data next)
  | read {ns : List Note} {s : Store} {source : Source} {lines : Option Nat} {gathered : Bytes}
      {next : Bytes → Work}
      (h : ∀ bytes, source.Gives bytes →
        Attains Q (ns ++ [.happened (.received source bytes)]) s (next bytes)) :
    Attains Q ns s (.read source lines gathered next)
  | load {ns : List Note} {s : Store} {path : String} {next : Except SystemError Bytes → Work}
      (h : Attains Q (ns ++ [.loaded path]) s (next (s.disk.readFile path))) :
    Attains Q ns s (.load path next)
  | openFile {ns : List Note} {s : Store} {path : String} {how : Disk.OutputMode}
      {next : Except SystemError HandleId → Work}
      (h : Attains Q (ns ++ [.opened path how]) (s.openFile path how).2
        (next (s.openFile path how).1)) :
    Attains Q ns s (.openFile path how next)
  | lookUp {ns : List Note} {s : Store} {name : String} {next : Option Handler → Work}
      (h : Attains Q ns s (next (s.registry.get? name))) : Attains Q ns s (.lookUp name next)
  | call {ns : List Note} {s : Store} {c : Call} {i : Invocation} {next : Outcome → Work}
      (h : Attains Q (ns ++ [.happened (.called c i)]) (s.call c i) (next (c.run i s.disk).1)) :
    Attains Q ns s (.call c i next)
  | pause {ns : List Note} {s : Store} {length : Number.Duration} {moment : Option Nat}
      {token : TokenId} {next : Bool → Work} (h : ∀ cut, Attains Q ns s (next cut)) :
    Attains Q ns s (.pause length moment token next)
  | release {ns : List Note} {s : Store} {sink : Sink} {next : Work} (h : Attains Q ns s next) :
    Attains Q ns s (.release sink next)
  | abandon {ns : List Note} {s : Store} {source : Source} {next : Work}
      (h : Attains Q ns s next) : Attains Q ns s (.abandon source next)

/-- Each run that nobody interferes with can go on to its end, and there `Q` holds of what has come
of it, of the store, and of what is left. -/
def Achieves (s : Store) (w : Work) (Q : List Note → Store → Work → Prop) : Prop :=
  ∀ xs w', Runs w xs w' → Alone s xs →
    (∃ ys w'', Runs w' ys w'' ∧ w''.isComplete = true ∧ Alone s (xs ++ ys)) ∧
      (w'.isComplete = true → Q (notes xs) (left s xs) w')

namespace Attains

variable {Q : List Note → Store → Work → Prop} {ns : List Note} {s : Store} {w w' : Work}

/-- Whoever is served, the work still comes to such an end. -/
theorem serve {m : Machine} {r : Request} (h : Attains Q ns m.store w) (hr : w.request? = some r)
    (m' : Machine) :
    Attains Q (ns ++ (⟨m, r, m'⟩ : Exchange).notes) (w.serve m).1.store (w.serve m).2 := by
  cases h with
  | ended hw =>
    cases w with
    | done | crash => cases hr
    | _ => cases hw
  | @rest _ _ begun next h =>
    cases hr
    simp only [Exchange.notes, Exchange.happenings, List.map_nil, List.append_nil]
    cases begun with
    | true => exact h
    | false => exact .rest h
  | @write _ _ ticket sink data next h =>
    cases hr
    rcases hw : m.write sink ticket data with ⟨m₁, ok | held⟩
    · simp only [Work.serve, Exchange.notes, Exchange.happenings, hw]
      rw [Machine.store_write_delivered hw]
      exact h ok
    · simp only [Work.serve, Exchange.notes, Exchange.happenings, hw, List.map_nil, List.append_nil]
      rw [Machine.store_write_held hw]
      exact .write h
  | @read _ _ source lines gathered next h =>
    cases hr
    rcases hg : m.gather source lines gathered with ⟨m₁, bytes, _ | _⟩
    · simp only [Work.serve, Exchange.notes, Exchange.happenings, hg, List.map_nil, List.append_nil]
      rw [Machine.store_gather hg]
      exact .read h
    · simp only [Work.serve, Exchange.notes, Exchange.happenings, hg]
      rw [Machine.store_gather hg]
      exact h bytes (Machine.gives_of_gather hg)
  | load h =>
    cases hr
    exact h
  | openFile h =>
    cases hr
    rw [← Machine.store_openFile] at h
    exact h
  | lookUp h =>
    cases hr
    simp only [Exchange.notes, Exchange.happenings, List.map_nil, List.append_nil]
    exact h
  | call h =>
    cases hr
    exact h
  | @pause _ _ length moment token next h =>
    cases hr
    simp only [Work.serve, Exchange.notes, Exchange.happenings, List.map_nil, List.append_nil]
    split
    · exact h false
    split
    · exact h true
    · exact .pause h
  | @release _ _ sink next h =>
    cases hr
    simp only [Work.serve, Exchange.notes, Exchange.happenings, List.map_nil, List.append_nil]
    rwa [Machine.store_release]
  | @abandon _ _ source next h =>
    cases hr
    simp only [Work.serve, Exchange.notes, Exchange.happenings, List.map_nil, List.append_nil]
    rwa [Machine.store_abandon]

theorem serves {x : Exchange} (h : Attains Q ns s w) (hx : Serves w x w')
    (hs : x.before.store = s) : Attains Q (ns ++ x.notes) x.after.store w' := by
  subst hs
  cases hx with
  | branch before after next hx => cases h with | ended hw => cases hw
  | here hr hserve =>
    have hstep := h.serve hr x.after
    rwa [hserve] at hstep

theorem runs {xs : List Exchange} (h : Attains Q ns s w) (hruns : Runs w xs w')
    (halone : Alone s xs) : Attains Q (ns ++ notes xs) (left s xs) w' := by
  induction hruns generalizing ns s with
  | none w => simpa [notes, left] using h
  | serve hx _ ih =>
    have hstep := h.serves hx halone.1
    simpa [notes, left] using ih hstep halone.2

end Attains

/-! ## The way to the end -/

/-- If nobody interferes, the work can come to its end. -/
def Completes (s : Store) (w : Work) : Prop :=
  ∃ xs w', Runs w xs w' ∧ w'.isComplete = true ∧ Alone s xs

section

variable {s : Store} {w : Work}

theorem Completes.serve {r : Request} (m : Machine) (hr : w.request? = some r)
    (h : Completes (w.serve m).1.store (w.serve m).2) : Completes m.store w := by
  obtain ⟨xs, w', hruns, hcomplete, halone⟩ := h
  exact ⟨⟨m, r, (w.serve m).1⟩ :: xs, w', .serve (.here hr rfl) hruns, hcomplete, rfl, halone⟩

theorem Completes.pause {length : Number.Duration} {token : TokenId} {next : Bool → Work}
    (h : Completes s (next false)) (moment : Option Nat) :
    Completes s (.pause length moment token next) := by
  have hset : ∀ t, Completes s (.pause length (some t) token next) := by
    intro t
    refine .serve (s.machine t) rfl ?_
    rw [Work.serve, if_pos (by exact Nat.le_refl t)]
    exact h
  cases moment with
  | some t => exact hset t
  | none =>
    refine .serve (s.machine 0) rfl ?_
    rw [Work.serve]
    split
    · exact h
    · exact hset _

/-- Nobody keeps a writer waiting. -/
theorem delivered (s : Store) (sink : Sink) (ticket : Option Ticket) (data : Bytes) :
    ∃ m' ok, (s.machine 0).write sink ticket data = (m', .delivered ok) := by
  have hdeserted : sink.Within fun id => (s.machine 0).channel id = Machine.deserted := by
    cases sink with
    | channel id kind => rfl
    | file | discard => trivial
  obtain ⟨ok, h⟩ := Machine.exists_delivered_of_deserted
    (Nat.ne_of_gt (Nat.succ_pos _) : (s.machine 0).budget ≠ 0) hdeserted ticket data
  exact ⟨_, ok, by rw [← h]⟩

/-- Nobody keeps a reader waiting. -/
theorem gathered (s : Store) (source : Source) (lines : Option Nat) (before : Bytes) :
    ∃ m' bytes, (s.machine 0).gather source lines before = (m', bytes, true) := by
  have henough : ((s.machine 0).gather source lines before).2.2 = true := by
    cases source with
    | channel id =>
      show (Machine.gatherChunks id lines (Machine.turnBudget + 1) (s.machine 0) [] _).2.2 = true
      have htake : (s.machine 0).take id = ((s.machine 0).spend, .ended) :=
        Machine.take_of_isEnded (Nat.ne_of_gt (Nat.succ_pos _)) rfl
      rw [Machine.gatherChunks]
      split
      · rfl
      · rw [htake]
    | empty | inherited | bytes data => rfl
  exact ⟨_, _, by rw [← henough]⟩

/-- Work that comes to an end can do so on a machine that nobody else uses. -/
theorem Attains.completes {Q : List Note → Store → Work → Prop} {ns : List Note}
    (h : Attains Q ns s w) : Completes s w := by
  induction h with
  | ended hw => exact ⟨[], _, .none _, hw, trivial⟩
  | @rest _ s begun next _ ih =>
    have hbegun : Completes s (.rest true next) := .serve (s.machine 0) rfl ih
    cases begun with
    | true => exact hbegun
    | false => exact .serve (s.machine 0) rfl hbegun
  | @write _ s ticket sink data next _ ih =>
    obtain ⟨m', ok, hwrite⟩ := delivered s sink ticket data
    refine .serve (s.machine 0) rfl ?_
    simp only [Work.serve, hwrite]
    rw [Machine.store_write_delivered hwrite]
    exact ih ok
  | @read _ s source lines before next _ ih =>
    obtain ⟨m', bytes, hgather⟩ := gathered s source lines before
    refine .serve (s.machine 0) rfl ?_
    simp only [Work.serve, hgather]
    rw [Machine.store_gather hgather]
    exact ih bytes (Machine.gives_of_gather hgather)
  | @load _ s _ _ _ ih | @lookUp _ s _ _ _ ih | @call _ s _ _ _ _ ih =>
    exact .serve (s.machine 0) rfl ih
  | @openFile _ s path how next _ ih =>
    have hopen := @Machine.store_openFile (s.machine 0) path how
    refine .serve (s.machine 0) rfl ?_
    rw [Machine.store_machine] at hopen
    rw [← hopen] at ih
    exact ih
  | pause _ ih => exact .pause (ih false) _
  | @release _ s sink _ _ ih =>
    refine .serve (s.machine 0) rfl ?_
    rw [Work.serve, Machine.store_release]
    exact ih
  | @abandon _ s source _ _ ih =>
    refine .serve (s.machine 0) rfl ?_
    rw [Work.serve, Machine.store_abandon]
    exact ih

/-- Each run of work that comes to such an end can go on to it. -/
theorem Attains.achieves {Q : List Note → Store → Work → Prop} (h : Attains Q [] s w) :
    Achieves s w Q := by
  intro xs w' hruns halone
  have hrest : Attains Q (notes xs) (left s xs) w' := h.runs hruns halone
  refine ⟨?_, fun hw => ?_⟩
  · obtain ⟨ys, w'', hruns', hcomplete, halone'⟩ := hrest.completes
    exact ⟨ys, w'', hruns', hcomplete, halone.append halone'⟩
  · cases hrest with
    | ended _ h => exact h
    | _ => cases hw

theorem Achieves.exists_end {Q : List Note → Store → Work → Prop} (h : Achieves s w Q) :
    ∃ xs w', Runs w xs w' ∧ Q (notes xs) (left s xs) w' := by
  obtain ⟨⟨xs, w', hruns, hcomplete, halone⟩, -⟩ := h [] w (.none w) trivial
  exact ⟨xs, w', hruns, (h xs w' hruns halone).2 hcomplete⟩

end

end Work
end Runnel
