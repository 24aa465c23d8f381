import Runnel.Proofs.Flow.TurnSteps

/-!
# Runnel.Proofs.Flow.Confined

Which channels work may use. Work uses the channels of the streams that it was given and those that
it makes itself, and no other.

* `Work.Within`: the condition on a tree of requests.
* `Machine.Touches`: a change of the machine that leaves all other channels alone.
* `Work.advance_stayed`: a turn of such work is such a change.
-/

namespace Runnel

/-! ## Channels in use -/

/-- The source reads from no channel but those of `P`. -/
def Source.Within (P : ChannelId → Prop) : Source → Prop
  | .channel id => P id
  | _ => True

/-- The sink writes to no channel but those of `P`. -/
def Sink.Within (P : ChannelId → Prop) : Sink → Prop
  | .channel id _ => P id
  | _ => True

/-- The streams use no channel but those of `P`. -/
structure Streams.Within (P : ChannelId → Prop) (io : Streams) : Prop where
  stdin : io.stdin.Within P
  stdout : io.stdout.Within P
  stderr : io.stderr.Within P

section

variable {P Q : ChannelId → Prop} (h : ∀ id, P id → Q id)

include h

theorem Source.Within.mono {source : Source} (hs : source.Within P) : source.Within Q := by
  cases source with
  | channel id => exact h id hs
  | empty | inherited | bytes data => trivial

theorem Sink.Within.mono {sink : Sink} (hs : sink.Within P) : sink.Within Q := by
  cases sink with
  | channel id kind => exact h id hs
  | file handle | discard => trivial

theorem Streams.Within.mono {io : Streams} (hio : io.Within P) : io.Within Q :=
  ⟨hio.stdin.mono h, hio.stdout.mono h, hio.stderr.mono h⟩

end

namespace Work

mutual

/-- The work uses no channel but those of `P` and those that it makes. -/
def Within : (ChannelId → Prop) → Work → Prop
  | _, .done _ _ => True
  | _, .crash => True
  | P, .rest _ next => Within P next
  | P, .ask _ next => ∀ cancelled, Within P (next cancelled)
  | P, .write _ sink _ next => sink.Within P ∧ ∀ ok, Within P (next ok)
  | P, .read source _ _ next => source.Within P ∧ ∀ bytes, Within P (next bytes)
  | P, .load _ next => ∀ loaded, Within P (next loaded)
  | P, .openFile _ _ next => ∀ opened, Within P (next opened)
  | P, .lookUp _ next => ∀ handler, Within P (next handler)
  | P, .call _ _ next => ∀ outcome, Within P (next outcome)
  | P, .pause _ _ _ next => ∀ cut, Within P (next cut)
  | P, .generate _ _ stdout stderr _ _ _ next =>
    stdout.Within P ∧ stderr.Within P ∧ ∀ how, Within P (next how)
  | P, .retain sink next => sink.Within P ∧ Within P next
  | P, .release sink next => sink.Within P ∧ Within P next
  | P, .abandon source next => source.Within P ∧ Within P next
  | P, .connect next => ∀ id, Within (fun c => P c ∨ c = id) (next id)
  | P, .together branches next => WithinAll P branches ∧ ∀ codes, Within P (next codes)
  | P, .seek _ _ _ next => ∀ program, Within P (next program)
  | P, .launch l _ next => l.stdin.Within P ∧ ∀ started, Within P (next started)
  | P, .attend stdout stderr _ _ _ next =>
    stdout.Within P ∧ stderr.Within P ∧ ∀ code, Within P (next code)

/-- Each branch uses no channel but those of `P` and those that it makes. -/
def WithinAll : (ChannelId → Prop) → List Work → Prop
  | _, [] => True
  | P, b :: more => Within P b ∧ WithinAll P more

end

theorem withinAll_iff {P : ChannelId → Prop} {branches : List Work} :
    WithinAll P branches ↔ ∀ b ∈ branches, Within P b := by
  induction branches with
  | nil => simp [WithinAll]
  | cons b more ih => simp only [WithinAll, ih, List.forall_mem_cons]

mutual

theorem Within.mono : {w : Work} → {P Q : ChannelId → Prop} → (∀ id, P id → Q id) → Within P w →
    Within Q w
  | .done _ _, _, _, _, _ | .crash, _, _, _, _ => by simp only [Within]
  | .rest _ next, _, _, hPQ, h => by
    simp only [Within] at h ⊢
    exact h.mono hPQ
  | .ask _ _, _, _, hPQ, h | .load _ _, _, _, hPQ, h | .openFile _ _ _, _, _, hPQ, h
  | .lookUp _ _, _, _, hPQ, h | .call _ _ _, _, _, hPQ, h | .pause _ _ _ _, _, _, hPQ, h
  | .seek _ _ _ _, _, _, hPQ, h => by
    simp only [Within] at h ⊢
    exact fun answer => (h answer).mono hPQ
  | .write _ _ _ _, _, _, hPQ, h | .read _ _ _ _, _, _, hPQ, h | .launch _ _ _, _, _, hPQ, h => by
    simp only [Within] at h ⊢
    exact ⟨h.1.mono hPQ, fun answer => (h.2 answer).mono hPQ⟩
  | .generate _ _ _ _ _ _ _ _, _, _, hPQ, h | .attend _ _ _ _ _ _, _, _, hPQ, h => by
    simp only [Within] at h ⊢
    exact ⟨h.1.mono hPQ, h.2.1.mono hPQ, fun answer => (h.2.2 answer).mono hPQ⟩
  | .retain _ _, _, _, hPQ, h | .release _ _, _, _, hPQ, h | .abandon _ _, _, _, hPQ, h => by
    simp only [Within] at h ⊢
    exact ⟨h.1.mono hPQ, h.2.mono hPQ⟩
  | .connect _, _, _, hPQ, h => by
    simp only [Within] at h ⊢
    exact fun id => (h id).mono fun c hc => hc.imp_left (hPQ c)
  | .together _ _, _, _, hPQ, h => by
    simp only [Within] at h ⊢
    exact ⟨h.1.mono hPQ, fun codes => (h.2 codes).mono hPQ⟩

theorem WithinAll.mono : {branches : List Work} → {P Q : ChannelId → Prop} → (∀ id, P id → Q id) →
    WithinAll P branches → WithinAll Q branches
  | [], _, _, _, _ => by simp only [WithinAll]
  | _ :: _, _, _, hPQ, h => by
    simp only [WithinAll] at h ⊢
    exact ⟨h.1.mono hPQ, h.2.mono hPQ⟩

end

end Work

/-! ## Changes of the machine -/

namespace Machine

/-- A channel of `P`, or one that has been made in between. -/
def OrNew (P : ChannelId → Prop) (m m' : Machine) (id : ChannelId) : Prop :=
  P id ∨ m.channels.size ≤ id ∧ id < m'.channels.size

/-- Only channels of `P` have changed, and no tokens have. Whoever newly feeds a child process reads
from such a channel or from a new one. -/
structure Touches (P : ChannelId → Prop) (m m' : Machine) : Prop where
  size : m.channels.size ≤ m'.channels.size
  others : ∀ id < m.channels.size, ¬ P id → m'.channel id = m.channel id
  tokens : m'.tokens = m.tokens
  feeds : ∀ f ∈ m'.feeds, f ∈ m.feeds ∨ f.source.Within (OrNew P m m')

section

variable {P Q : ChannelId → Prop} {m m' m'' : Machine}

theorem Touches.of_same (hc : m'.channels = m.channels) (ht : m'.tokens = m.tokens)
    (hf : m'.feeds = m.feeds) : Touches P m m' :=
  ⟨Nat.le_of_eq (by rw [hc]), fun id _ _ => by rw [channel, channel, hc], ht,
    fun f h => .inl (hf ▸ h)⟩

theorem Touches.refl (P : ChannelId → Prop) (m : Machine) : Touches P m m :=
  .of_same rfl rfl rfl

/-- What has been made before the second change is there already when that begins. -/
theorem OrNew.trans (h : Touches P m m') (h' : Touches Q m' m'')
    {id : ChannelId} : OrNew (OrNew P m m') m' m'' id → OrNew P m m'' id := by
  rintro ((hid | ⟨hle, hlt⟩) | ⟨hle, hlt⟩)
  · exact .inl hid
  · exact .inr ⟨hle, Nat.lt_of_lt_of_le hlt h'.size⟩
  · exact .inr ⟨Nat.le_trans h.size hle, hlt⟩

theorem Touches.trans_new (h : Touches P m m') (h' : Touches (OrNew P m m') m' m'') :
    Touches P m m'' := by
  refine ⟨Nat.le_trans h.size h'.size, fun id hid hnot => ?_, h'.tokens.trans h.tokens,
    fun f hf => ?_⟩
  · rw [h'.others id (Nat.lt_of_lt_of_le hid h.size), h.others id hid hnot]
    rintro (hid' | ⟨hle, -⟩)
    · exact hnot hid'
    · exact Nat.not_lt_of_le hle hid
  · rcases h'.feeds f hf with hf | hf
    · refine (h.feeds f hf).imp_right fun hs => hs.mono fun id hid => ?_
      exact OrNew.trans h h' (.inl hid)
    · exact .inr (hf.mono fun id => OrNew.trans h h')

theorem Touches.mono (h : Touches P m m') (hPQ : ∀ id, P id → Q id) : Touches Q m m' :=
  ⟨h.size, fun id hid hnot => h.others id hid fun hp => hnot (hPQ id hp), h.tokens,
    fun f hf => (h.feeds f hf).imp_right fun hs => hs.mono fun id hid => hid.imp_left (hPQ id)⟩

theorem Touches.trans (h : Touches P m m') (h' : Touches P m' m'') : Touches P m m'' :=
  h.trans_new (h'.mono fun _ => .inl)

theorem Touches.of_pair {α : Type} {p : Machine × α} {a : α} (h : Touches P m p.1)
    (heq : p = (m', a)) : Touches P m m' := by
  rwa [heq] at h

end

section

variable {P : ChannelId → Prop} (m : Machine)

theorem channel_updateChannel (id id' : ChannelId) (change : Channel → Channel) :
    (m.updateChannel id change).channel id'
      = if id' = id ∧ id < m.channels.size then change (m.channel id) else m.channel id' := by
  simp only [updateChannel, channel, Array.getD_eq_getD_getElem?, Array.getElem?_modify]
  by_cases h : id' = id
  · subst h
    by_cases hid : id' < m.channels.size
    · simp [hid]
    · simp [hid]
  · simp [h, Ne.symm h]

theorem size_updateChannel (id : ChannelId) (change : Channel → Channel) :
    (m.updateChannel id change).channels.size = m.channels.size := by
  simp [updateChannel]

theorem updateChannel_touches {id : ChannelId} (h : P id) (change : Channel → Channel) :
    Touches P m (m.updateChannel id change) := by
  refine ⟨Nat.le_of_eq (size_updateChannel m id change).symm, fun id' _ hnot => ?_, rfl,
    fun f hf => .inl hf⟩
  rw [channel_updateChannel, if_neg]
  rintro ⟨rfl, -⟩
  exact hnot h

theorem newChannel_touches (P : ChannelId → Prop) (capacity : Nat) :
    Touches P m (m.newChannel capacity).2 := by
  refine ⟨?_, fun id hid _ => ?_, rfl, fun f hf => .inl hf⟩
  · simp [newChannel]
  · simp only [newChannel, channel, Array.getD_eq_getD_getElem?, Array.getElem?_push,
      if_neg (Nat.ne_of_lt hid)]

theorem offer_touches {id : ChannelId} (h : P id) (ticket : Option Ticket) (chunk : Chunk) :
    Touches P m (m.offer id ticket chunk).1 := by
  have hupdate : ∀ (ticket : Ticket) (c : Channel),
      Touches P m (({ m with ticket } : Machine).updateChannel id fun _ => c) :=
    fun ticket c =>
      have hticket : Touches P m { m with ticket } := .of_same rfl rfl rfl
      hticket.trans (updateChannel_touches _ h _)
  have hspend : ∀ m' : Machine, Touches P m m' → Touches P m m'.spend :=
    fun m' h' => h'.trans (.of_same rfl rfl rfl)
  unfold offer
  split
  · exact .refl P m
  · cases ticket with
    | none =>
      simp only
      split
      · exact hspend _ (hupdate _ _)
      · exact hspend _ (hupdate _ _)
      · exact hupdate _ _
    | some t =>
      simp only
      split
      · exact hspend _ (updateChannel_touches m h _)
      · exact hspend _ (updateChannel_touches m h _)
      · exact updateChannel_touches m h _

theorem take_touches {id : ChannelId} (h : P id) : Touches P m (m.take id).1 := by
  have hspend : ∀ m' : Machine, Touches P m m' → Touches P m m'.spend :=
    fun m' h' => h'.trans (.of_same rfl rfl rfl)
  unfold take
  split
  · exact .refl P m
  simp only
  split
  · exact hspend _ (updateChannel_touches m h _)
  split
  · exact hspend m (.refl P m)
  · exact .refl P m

theorem openFile_touches (path : String) (mode : Disk.OutputMode) :
    Touches P m (m.openFile path mode).2 := by
  unfold openFile
  split
  all_goals exact .of_same rfl rfl rfl

theorem writeFile_touches (handle : HandleId) (data : Bytes) :
    Touches P m (m.writeFile handle data) := by
  unfold writeFile
  split
  all_goals exact .of_same rfl rfl rfl

theorem write_touches {sink : Sink} (h : sink.Within P) (ticket : Option Ticket) (data : Bytes) :
    Touches P m (m.write sink ticket data).1 := by
  unfold write
  split
  · exact .refl P m
  · cases sink with
    | channel id kind => exact offer_touches m h ticket _
    | file handle => exact writeFile_touches m handle data
    | discard => exact .refl P m

theorem withdraw_touches {sink : Sink} (h : sink.Within P) (ticket : Option Ticket) :
    Touches P m (m.withdraw sink ticket) := by
  unfold withdraw
  split
  · exact updateChannel_touches m h _
  · exact .refl P m

theorem retain_touches {sink : Sink} (h : sink.Within P) : Touches P m (m.retain sink) := by
  cases sink with
  | channel id kind => exact updateChannel_touches m h _
  | file handle | discard => exact .refl P m

theorem release_touches {sink : Sink} (h : sink.Within P) : Touches P m (m.release sink) := by
  cases sink with
  | channel id kind => exact updateChannel_touches m h _
  | file handle | discard => exact .refl P m

theorem abandon_touches (source : Source) (h : source.Within P) :
    Touches P m (m.abandon source) := by
  cases source with
  | channel id => exact updateChannel_touches m h _
  | empty | inherited | bytes data => exact .refl P m

theorem gatherChunks_touches {id : ChannelId} (h : P id) (lines : Option Nat) (n : Nat)
    (pieces : List Bytes) (seen : Nat) :
    Touches P m (gatherChunks id lines n m pieces seen).1 := by
  induction n generalizing m pieces seen with
  | zero => exact .refl P m
  | succ n ih =>
    have htake := take_touches m h
    unfold gatherChunks
    split
    · exact .refl P m
    · split
      · rename_i heq
        exact (htake.of_pair heq).trans (ih _ _ _)
      · rename_i heq
        exact htake.of_pair heq
      · rename_i heq
        exact htake.of_pair heq

theorem gather_touches {source : Source} (h : source.Within P) (lines : Option Nat)
    (gathered : Bytes) : Touches P m (m.gather source lines gathered).1 := by
  cases source with
  | empty | inherited | bytes data => exact .refl P m
  | channel id =>
    have hgather := gatherChunks_touches m h lines (turnBudget + 1) [] (gathered.count 10)
    simp only [gather]
    split
    · exact hgather.trans (abandon_touches _ (.channel id) h)
    · exact hgather

/-! ### Generators -/

theorem send_touches {sink : Sink} (h : sink.Within P) (token : TokenId) (ticket : Option Ticket)
    (data : Bytes) : Touches P m (m.send token sink ticket data).1 := by
  unfold send
  split
  · exact withdraw_touches m h ticket
  · exact write_touches m h ticket data

theorem produceWithin_touches (g : Generator) (i : Invocation) {stdout stderr : Sink}
    (hout : stdout.Within P) (herr : stderr.Within P) (token : TokenId) (n : Nat)
    (p : GeneratorProgress) (ticket : Option Ticket) :
    Touches P m (produceWithin g i stdout stderr token n m p ticket).1 := by
  induction n generalizing m p ticket with
  | zero => exact .refl P m
  | succ n ih =>
    have hsend : ∀ sink : Sink, sink.Within P → ∀ data,
        Touches P m (m.send token sink ticket data).1 :=
      fun sink h data => send_touches m h token ticket data
    unfold produceWithin
    split
    · rename_i data _
      simp only
      split
      · rename_i heq
        exact ((hsend stdout hout data).of_pair heq).trans (ih _ _ _)
      · rename_i heq
        exact (hsend stdout hout data).of_pair heq
    · rename_i data _
      simp only
      split
      · rename_i heq
        exact ((hsend stderr herr data).of_pair heq).trans (ih _ _ _)
      · rename_i heq
        exact (hsend stderr herr data).of_pair heq
    · split
      · exact ih m _ _
      · exact .refl P m
    · split
      · exact ih m _ _
      · exact .refl P m
    all_goals exact .refl P m

/-! ### Child processes -/

theorem become_unconnected {m m' : Machine} {id : ProcessId} {path name : String}
    {args : List String} {env : Environment} (h : m.become id path name args env = .ok m') :
    m'.channels = m.channels ∧ m'.tokens = m.tokens ∧ m'.feeds = m.feeds := by
  unfold become at h
  simp only at h
  split at h
  · cases h
  · cases h
    exact ⟨rfl, rfl, rfl⟩

theorem becomeFirst_unconnected {m m' : Machine} {id : ProcessId} {name : String}
    {args : List String} {env : Environment} {paths : List String} {e : SystemError}
    (h : m.becomeFirst id name args env e paths = .ok m') :
    m'.channels = m.channels ∧ m'.tokens = m.tokens ∧ m'.feeds = m.feeds := by
  induction paths generalizing e with
  | nil => cases h
  | cons path rest ih =>
    rw [becomeFirst_cons] at h
    split at h
    · rename_i hbecome
      cases h
      exact become_unconnected hbecome
    · exact ih h
    · exact ih h
    · exact ih h
    · cases h

theorem openFeed_touches {source : Source} (h : source.Within P) :
    Touches P m (m.openFeed source).2 := by
  have hpush : ∀ f : Feed, f.source = source →
      Touches P m { (m.newPipe [] false).2 with feeds := m.feeds.push f } := by
    intro f hsource
    refine ⟨Nat.le_refl _, fun _ _ _ => rfl, rfl, fun f' hf' => ?_⟩
    rcases Array.mem_push.mp hf' with hf' | rfl
    · exact .inl hf'
    · rw [hsource]
      exact .inr (h.mono fun _ => .inl)
  cases source with
  | empty | inherited => exact .refl P m
  | bytes data | channel id => exact hpush _ rfl

theorem launch_touches {l : Launch} (h : l.stdin.Within P) (group : GroupId) :
    Touches P m (m.launch l group).1 := by
  unfold launch
  split
  · exact abandon_touches m _ h
  split
  · exact abandon_touches m _ h
  simp only
  split
  · exact abandon_touches m _ h
  · rename_i started hstarted
    unfold becomeNamed at hstarted
    split at hstarted
    · cases hstarted
    · obtain ⟨hchannels, htokens, hfeeds⟩ := becomeFirst_unconnected hstarted
      have hpipes : Touches P m ((m.newPipe [] true).2.newPipe [] true).2 := .of_same rfl rfl rfl
      have hfeed := hpipes.trans (openFeed_touches _ h)
      exact hfeed.trans (.of_same hchannels htokens hfeeds)

theorem receivePipe_touches (id : PipeId) (choose : Bytes → Nat) :
    Touches P m (m.receivePipe id choose).1 := by
  unfold receivePipe
  simp only
  split
  all_goals exact .of_same rfl rfl rfl

theorem signal_touches (id : ProcessId) (signal : Nat) : Touches P m (m.signal id signal) := by
  unfold Machine.signal
  simp only
  split
  · exact .refl P m
  split
  · exact .refl P m
  split
  all_goals exact .of_same rfl rfl rfl

theorem closeOutlet_touches {sink : Sink} (h : sink.Within P) (o : Outlet) :
    Touches P m (m.closeOutlet sink o).1 := by
  unfold closeOutlet
  cases o.held with
  | none => exact .of_same rfl rfl rfl
  | some held => exact (withdraw_touches m h held.1).trans (.of_same rfl rfl rfl)

theorem deliverOutlet_touches {sink : Sink} (h : sink.Within P) (n : Nat) (o : Outlet) :
    Touches P m (deliverOutlet sink n m o).1 := by
  induction n generalizing m o with
  | zero => exact .refl P m
  | succ n ih =>
    unfold deliverOutlet
    split
    · exact .refl P m
    split
    · rename_i ticket data _
      have hwrite := write_touches m h ticket data
      split
      · rename_i heq
        exact (hwrite.of_pair heq).trans (ih _ _)
      · rename_i heq
        exact (hwrite.of_pair heq).trans (closeOutlet_touches _ h _)
      · rename_i heq
        exact hwrite.of_pair heq
    · have hreceive := receivePipe_touches (P := P) m o.pipe wholePiece
      split
      · rename_i heq
        exact (hreceive.of_pair heq).trans (ih _ _)
      · rename_i heq
        exact (hreceive.of_pair heq).trans (closeOutlet_touches _ h _)
      · rename_i heq
        exact hreceive.of_pair heq

theorem attend_touches {stdout stderr : Sink} (hout : stdout.Within P) (herr : stderr.Within P)
    (group : GroupId) (token : TokenId) (a : Attendance) :
    Touches P m (m.attend stdout stderr group token a).1 := by
  have hleave : ∀ m' : Machine, Touches P m m' → Touches P m (m'.leaveGroup group a.process) :=
    fun m' h => h.trans (.of_same rfl rfl rfl)
  unfold attend
  by_cases hset : (m.isSet token && !a.terminated) = true
  · have h := ((closeOutlet_touches m hout a.stdout).trans
      (closeOutlet_touches _ herr a.stderr)).trans (signal_touches _ a.process endSignal)
    simp only [hset, if_true]
    split
    · exact h
    split
    · exact hleave _ h
    · exact h
  · have h := (deliverOutlet_touches m hout (2 * turnBudget) a.stdout).trans
      (deliverOutlet_touches _ herr (2 * turnBudget) a.stderr)
    simp only [if_neg hset]
    split
    · exact h
    split
    · exact hleave _ h
    · exact h

end

end Machine

/-! ## Turns -/

namespace Work

open Machine

variable {P : ChannelId → Prop}

/-- After a turn work still uses no channel but those of `P` and those that it has made. -/
structure Stayed (P : ChannelId → Prop) (m : Machine) (p : Machine × Work) : Prop where
  touches : Touches P m p.1
  within : Within (OrNew P m p.1) p.2

theorem Stayed.of_within {m m' : Machine} {w : Work} (h : Touches P m m') (hw : Within P w) :
    Stayed P m (m', w) :=
  ⟨h, hw.mono fun _ => .inl⟩

/-- The rest of a turn, after a first part of it. -/
theorem Stayed.after {m m' : Machine} {p : Machine × Work} (h : Touches P m m')
    (h' : Stayed (OrNew P m m') m' p) : Stayed P m p :=
  ⟨h.trans_new h'.touches, h'.within.mono fun _ => OrNew.trans h h'.touches⟩

/-- The rest of a turn, with work that uses what the turn began with. -/
theorem Stayed.goOn {m m' : Machine} {w : Work} (h : Touches P m m') (hw : Within P w)
    (hadvance : ∀ {Q : ChannelId → Prop}, Within Q w → Stayed Q m' (w.advance m')) :
    Stayed P m (w.advance m') :=
  .after h (hadvance (hw.mono fun _ => .inl))

theorem orNew_newChannel (m : Machine) (capacity : Nat) {id : ChannelId} :
    P id ∨ id = (m.newChannel capacity).1 → OrNew P m (m.newChannel capacity).2 id := by
  rintro (hid | rfl)
  · exact .inl hid
  · refine .inr ⟨Nat.le_refl _, ?_⟩
    simp [newChannel]

mutual

/-- In a turn, work touches no channel that it may not use. -/
theorem advance_stayed : (w : Work) → {P : ChannelId → Prop} → Within P w → (m : Machine) →
    Stayed P m (w.advance m)
  | .done code ctx, P, h, m => by
    simp only [advance]
    exact .of_within (.refl P m) h
  | .crash, P, h, m => by
    simp only [advance]
    exact .of_within (.refl P m) h
  | .rest begun next, P, h, m => by
    simp only [Within] at h
    simp only [advance]
    split
    · exact advance_stayed next h m
    · refine .of_within (.refl P m) ?_
      simp only [Within]
      exact h
  | .ask token next, P, h, m => by
    simp only [Within] at h
    simp only [advance]
    exact advance_stayed _ (h _) m
  | .write ticket sink data next, P, h, m => by
    have hw := h
    simp only [Within] at h
    have hwrite := write_touches m h.1 ticket data
    rcases heq : m.write sink ticket data with ⟨m', ok | held⟩
    · simp only [advance, heq]
      exact .goOn (hwrite.of_pair heq) (h.2 ok) fun h => advance_stayed _ h _
    · simp only [advance, heq]
      refine .of_within (hwrite.of_pair heq) ?_
      simp only [Within]
      exact h
  | .read source lines gathered next, P, h, m => by
    simp only [Within] at h
    have hgather := gather_touches m h.1 lines gathered
    rcases heq : m.gather source lines gathered with ⟨m', bytes, _ | _⟩
    · simp only [advance, heq]
      refine .of_within (hgather.of_pair heq) ?_
      simp only [Within]
      exact h
    · simp only [advance, heq]
      exact .goOn (hgather.of_pair heq) (h.2 bytes) fun h => advance_stayed _ h _
  | .load path next, P, h, m => by
    simp only [Within] at h
    simp only [advance]
    exact advance_stayed _ (h _) m
  | .openFile path mode next, P, h, m => by
    simp only [Within] at h
    simp only [advance]
    exact .goOn (openFile_touches m path mode) (h _) fun h => advance_stayed _ h _
  | .lookUp name next, P, h, m => by
    simp only [Within] at h
    simp only [advance]
    exact advance_stayed _ (h _) m
  | .call c i next, P, h, m => by
    simp only [Within] at h
    simp only [advance]
    exact .goOn (.of_same rfl rfl rfl) (h _) fun h => advance_stayed _ h _
  | .pause length moment token next, P, h, m => by
    have hw := h
    simp only [Within] at h
    simp only [advance]
    split
    · exact advance_stayed _ (h _) m
    split
    · exact advance_stayed _ (h _) m
    · refine .of_within (.refl P m) ?_
      simp only [Within]
      exact h
  | .generate g i stdout stderr token progress ticket next, P, h, m => by
    simp only [Within] at h
    have hproduce := produceWithin_touches m g i h.1 h.2.1 token (2 * turnBudget) progress ticket
    rcases heq : m.produce g i stdout stderr token progress ticket with ⟨m', how | ⟨p, held⟩⟩
    · simp only [advance, heq]
      exact .goOn (hproduce.of_pair heq) (h.2.2 how) fun h => advance_stayed _ h _
    · simp only [advance, heq]
      refine .of_within (hproduce.of_pair heq) ?_
      simp only [Within]
      exact h
  | .retain sink next, P, h, m => by
    simp only [Within] at h
    simp only [advance]
    exact .goOn (retain_touches m h.1) h.2 fun h => advance_stayed _ h _
  | .release sink next, P, h, m => by
    simp only [Within] at h
    simp only [advance]
    exact .goOn (release_touches m h.1) h.2 fun h => advance_stayed _ h _
  | .abandon source next, P, h, m => by
    simp only [Within] at h
    simp only [advance]
    exact .goOn (abandon_touches m _ h.1) h.2 fun h => advance_stayed _ h _
  | .connect next, P, h, m => by
    simp only [Within] at h
    simp only [advance]
    refine .after (newChannel_touches m P pipeCapacity) (advance_stayed _ ?_ _)
    exact (h _).mono fun _ => orNew_newChannel m pipeCapacity
  | .together branches next, P, h, m => by
    simp only [Within] at h
    obtain ⟨htouches, hwithin⟩ := advanceAll_stayed branches h.1 m
    simp only [advance]
    cases codes? (advanceAll branches m).2 with
    | some codes =>
      simp only
      exact .goOn htouches (h.2 codes) fun h => advance_stayed _ h _
    | none =>
      simp only
      split
      · refine ⟨htouches, ?_⟩
        simp only [Within]
      · refine ⟨htouches, ?_⟩
        simp only [Within]
        exact ⟨hwithin, fun codes => (h.2 codes).mono fun _ => .inl⟩
  | .seek searchPath cwd name next, P, h, m => by
    simp only [Within] at h
    simp only [advance]
    exact advance_stayed _ (h _) m
  | .launch l group next, P, h, m => by
    simp only [Within] at h
    simp only [advance]
    exact .goOn (launch_touches m h.1 group) (h.2 _) fun h => advance_stayed _ h _
  | .attend stdout stderr group token a next, P, h, m => by
    simp only [Within] at h
    have hattend := attend_touches m h.1 h.2.1 group token a
    rcases heq : m.attend stdout stderr group token a with ⟨m', code | a'⟩
    · simp only [advance, heq]
      exact .goOn (hattend.of_pair heq) (h.2.2 code) fun h => advance_stayed _ h _
    · simp only [advance, heq]
      refine .of_within (hattend.of_pair heq) ?_
      simp only [Within]
      exact h

theorem advanceAll_stayed : (branches : List Work) → {P : ChannelId → Prop} →
    WithinAll P branches → (m : Machine) →
    Touches P m (advanceAll branches m).1 ∧
      WithinAll (OrNew P m (advanceAll branches m).1) (advanceAll branches m).2
  | [], P, _, m => by
    simp only [advanceAll, WithinAll, and_true]
    exact .refl P m
  | b :: more, P, h, m => by
    simp only [WithinAll] at h
    obtain ⟨hb, hbwithin⟩ := advance_stayed b h.1 m
    simp only [advanceAll]
    split
    · simp only [WithinAll]
      exact ⟨hb, hbwithin, h.2.mono fun _ => .inl⟩
    · obtain ⟨hmore, hmorewithin⟩ := advanceAll_stayed more
        (h.2.mono fun _ hid => (.inl hid : OrNew P m (b.advance m).1 _)) (b.advance m).1
      simp only [WithinAll]
      refine ⟨hb.trans_new hmore, hbwithin.mono fun id hid => ?_, hmorewithin.mono fun _ => ?_⟩
      · exact OrNew.trans hb hmore (.inl hid)
      · exact OrNew.trans hb hmore

end

end Work
end Runnel
