import Runnel.Proofs.Runner.Handling

/-!
# Runnel.Proofs.Runner.Attending

How others come to read along, and leave again.

* `System.leads_openStream`, `System.leads_dropStream`: streams are opened and dropped by acts.
* `System.Blind`: a change that takes no notice of streams, as a kill does.
-/

namespace Runnel.System

section

variable {R : StreamId → Prop} {D : Loads} {s s' : System}

/-! ## Streams that are opened -/

theorem openStream_eq (s : System) (r : RunnerId) :
    s.openStream r = (s.streams.size, (s.opened r).ensureStarted r) := by
  unfold openStream opened
  dsimp only
  split
  · rfl
  · rfl

/-- The new stream is on the runner. -/
theorem opened_openStream {r : RunnerId} (hs : Sound D s) (hr : r < s.runners.size) :
    s.streams.size < (s.openStream r).2.streams.size ∧
      ((s.openStream r).2.stream s.streams.size).runner = r := by
  have hopened := opened_opened s r
  have hlt : s.streams.size < (s.opened r).streams.size := by
    rw [hopened.size]
    exact Nat.lt_succ_self _
  have hs' := (sound_join hs hr).1
  have ho := ((leads_ensureStarted (R := fun _ => True) (s.opened r) r hs').sound hs').2
  rw [openStream_eq]
  refine ⟨Nat.lt_of_lt_of_le hlt ho.streams, ?_⟩
  rw [(ho.stream _ hlt).2, hopened.new]

theorem leads_openStream {r : RunnerId} (hr : r < s.runners.size) :
    Leads R (D, s) (D, (s.openStream r).2) := by
  rw [openStream_eq]
  exact (Leads.of_act (.join hr)).trans (leads_ensureStarted _ r)

end

/-! ## Streams that are dropped

The runner of a stream that is dropped is killed after the stream is marked; a kill takes no notice of
streams, so it may as well be first. -/

/-- The system with other streams. -/
def withStreams (s : System) (streams : Array ChunkStream) : System :=
  { s with streams }

/-- The change takes no notice of streams. -/
def Blind (f : System → System) : Prop :=
  ∀ s streams, f (s.withStreams streams) = (f s).withStreams streams

namespace Blind

variable {f g : System → System}

theorem comp (hf : Blind f) (hg : Blind g) : Blind fun s => g (f s) := by
  intro s streams
  dsimp only
  rw [hf, hg]

theorem foldl {α : Type} {step : System → α → System} (h : ∀ a, Blind fun s => step s a)
    (list : List α) : Blind fun s => list.foldl step s := by
  intro s streams
  induction list generalizing s with
  | nil => rfl
  | cons a list ih =>
    have hfirst : step (s.withStreams streams) a = (step s a).withStreams streams := h a s streams
    dsimp only [List.foldl_cons]
    rw [hfirst]
    exact ih _

theorem streams (h : Blind f) (s : System) : (f s).streams = s.streams := by
  have hsame := congrArg System.streams (h s s.streams)
  exact hsame

end Blind

theorem blind_tell {react : Signal → System → System} (h : ∀ signal, Blind (react signal))
    (r : RunnerId) (listeners : List Listener) (e : Event) :
    Blind fun s => tell react r listeners s e := by
  refine Blind.foldl (fun l s streams => ?_) _
  cases l.reaction with
  | none => rfl
  | some signal => exact h signal { s with journal := (r, e) :: s.journal } streams

theorem blind_closeWriter (w : WriterId) : Blind fun s => s.closeWriter w := by
  intro s streams
  have hsame : (s.withStreams streams).writer w = s.writer w := rfl
  dsimp only
  unfold closeWriter
  rw [hsame]
  dsimp only
  split
  · rfl
  · rfl

theorem blind_dropSubscribers (channels : List ChannelId) :
    Blind fun s => s.dropSubscribers channels :=
  Blind.foldl (fun _ _ _ => rfl) channels

theorem blind_closeInput (stdin : Option WriterId) : Blind fun s => s.closeInput stdin := by
  cases stdin with
  | none => exact fun _ _ => rfl
  | some writer => exact blind_closeWriter writer

theorem blind_record (r : RunnerId) (code : Int) : Blind fun s => s.record r code := by
  intro s streams
  have hlet : (s.withStreams streams).letGo r = (s.letGo r).withStreams streams := by
    have hgone := (blind_dropSubscribers (s.runner r).subscribers).comp
      (blind_closeInput (s.runner r).stdin) s streams
    have hsame : (s.withStreams streams).runner r = s.runner r := rfl
    rw [letGo_eq, letGo_eq, hsame]
    split
    · exact congrArg (fun s => s.unregister r) hgone
    · exact hgone
  exact congrArg (fun s => s.updateRunner r (ended code)) hlet

theorem blind_finishWith {react : Signal → System → System} (h : ∀ signal, Blind (react signal))
    (r : RunnerId) (code : Int) : Blind (finishWith react r code) := by
  intro s streams
  have hsame : (s.withStreams streams).runner r = s.runner r := rfl
  cases hx : (s.runner r).result with
  | some result => simp [finishWith, hx, hsame]
  | none =>
    rw [finishWith_eq react code hx, finishWith_eq react code (by rw [hsame]; exact hx), hsame]
    rw [show (s.withStreams streams).record r code = (s.record r code).withStreams streams from
      blind_record r code s streams]
    exact Blind.foldl (fun e => blind_tell h r _ e) _ _ streams

theorem blind_killWithin (depth : Nat) (signal : Signal) (r : RunnerId) :
    Blind (killWithin depth signal r) := by
  induction depth generalizing signal r with
  | zero => exact fun _ _ => rfl
  | succ depth ih =>
    have hreach : ∀ signal, Blind (reach depth r signal) := fun signal s streams =>
      Blind.foldl (fun stage => ih signal stage) (s.runner r).job.stages
        (s.signalChildren r signal) streams
    intro s streams
    rw [killWithin_succ, killWithin_succ, hreach signal s streams]
    show (if ((reach depth r signal s).runner r).isFinished then _ else _) = _
    simp only
    split
    · rfl
    · exact blind_finishWith hreach r signal.exitCode ((reach depth r signal s).updateMachine fun m =>
        m.setToken ((reach depth r signal s).runner r).token) streams

theorem blind_kill (signal : Signal) (r : RunnerId) : Blind fun s => s.kill signal r :=
  blind_killWithin (r + 1) signal r

section

variable {R : StreamId → Prop} {D : Loads} {s : System}

/-- Stopping to read along: if need be, the runner is killed first. -/
theorem leads_dropStream (s : System) (id : StreamId) : Leads R (D, s) (D, s.dropStream id) := by
  refine .given fun hs => ?_
  unfold dropStream
  simp only
  split
  · exact .refl R _
  · rename_i hheld
    have hid : id < s.streams.size := by
      refine Nat.lt_of_not_le fun hle => hheld ?_
      rw [stream, Array.getD_eq_getD_getElem?, Array.getElem?_eq_none hle]
      rfl
    have howner := hs.attended.owner id hid
    split
    · rename_i hdone
      refine .of_act (.leave hid ?_)
      rcases Bool.or_eq_true_iff.mp hdone with he | hf
      · exact hs.closed.ended id hid he
      · exact Runner.isFinished_iff.mp hf
    · have hblind := blind_kill .term (s.stream id).runner
      have hstreams : (s.kill .term (s.stream id).runner).streams = s.streams := hblind.streams s
      have hsame : (s.kill .term (s.stream id).runner).stream id = s.stream id := by
        rw [stream, hstreams]
        rfl
      have hleft : ((s.updateStream id fun x => { x with held := false }).kill .term
          (s.stream id).runner).updateChannel (s.stream id).channel Channel.hangUp
            = (s.kill .term (s.stream id).runner).left id := by
        unfold left
        rw [hsame]
        refine congrArg (fun s => updateChannel s _ _) ?_
        rw [updateStream, updateStream, hstreams]
        exact hblind s (s.streams.modify id fun x => { x with held := false })
      rw [hleft]
      refine (leads_kill s .term _).trans (.of_act (.leave ?_ ?_))
      · rw [hstreams]
        exact hid
      · rw [hsame]
        exact finished_killWithin hs.inv howner _ .term

end

end Runnel.System
