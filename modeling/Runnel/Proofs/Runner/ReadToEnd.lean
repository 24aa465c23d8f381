import Runnel.Proofs.Runner.Following

/-!
# Runnel.Proofs.Runner.ReadToEnd

Who reads a stream to its end has read what was captured, whenever the stream was opened and whatever
happened while it was read.

* `System.Reading`: somebody reads a stream, and other things happen in between.
* `System.replica_of_reading`: what has been read at the end.
-/

namespace Runnel.System

/-- Somebody reads a stream, piece by piece; in between, anything happens but that somebody else
reads it. -/
inductive Reading (id : StreamId) (s : System) : List Chunk → System → Prop where
  /-- Nothing has been read. -/
  | refl : Reading id s [] s
  /-- Something happens. -/
  | move {read : List Chunk} {t u : System} (h : Reading id s read t) (hmove : Move (· ≠ id) t u) :
      Reading id s read u
  /-- The stream is read. -/
  | read {read : List Chunk} {t : System} (h : Reading id s read t)
      (hheld : (t.stream id).held = true) :
      Reading id s (read ++ (t.readStream id).2.chunks) (t.readStream id).1

/-- What somebody has read of the output of a runner that is over. -/
structure Replica (s : System) (r : RunnerId) (read : List Chunk) : Prop where
  /-- Every chunk has been read, and each once. -/
  perm : read.Perm (s.runner r).chunks.toList
  /-- The chunks of the output proper come in the order in which they were captured. -/
  stdout : read.filter Chunk.isStdout = (s.runner r).chunks.toList.filter Chunk.isStdout
  /-- They are what the result says. -/
  result : ∃ result, (s.runner r).result = some result ∧ Chunk.gather .stdout read = result.stdout
  /-- The chunks of a command line all come in this order. -/
  line : ∀ text, (s.runner r).job = .line text → read = (s.runner r).chunks.toList ∧
    ∃ result, (s.runner r).result = some result ∧ Chunk.gather .stderr read = result.stderr

section

variable {R : StreamId → Prop} {k : Chunk → Bool} {s s' : System} {id : StreamId}
  {read : List Chunk}

theorem Acts.noOvertaking {x y : Loads × System} (hacts : Acts R x y) (hs : Sound x.1 x.2)
    (h : NoOvertaking k x.1 x.2) : NoOvertaking k y.1 y.2 := by
  induction hacts with
  | refl => exact h
  | tail hfirst hact ih => exact hact.noOvertaking (Acts.sound hfirst hs).1 ih

theorem Strides.noOvertaking (h : Strides R s s') (hs : s.Stands)
    (hk : NoOvertaking k s.loads s) : NoOvertaking k s'.loads s' := by
  obtain ⟨u, hacts, heq⟩ := h.acts
  have hnext := hacts.noOvertaking hs hk
  generalize s'.loads = D at hnext
  rw [heq]
  exact hnext

/-- In a system in which nothing ran at first, no chunk overtakes another one of its kind. -/
theorem noOvertaking_of_moves {machine : Machine} (hfeeds : machine.feeds = #[]) {shell : Shell}
    (h : Moves (fun _ => True) (ofShell machine shell) s) : NoOvertaking k s.loads s := by
  induction h with
  | refl => exact fun r hr => absurd hr (Nat.not_lt_zero r)
  | tail hmoves hmove ih =>
    have hs := stands_of_moves hfeeds hmoves
    exact (hmove.strides hs (fun _ _ _ _ => trivial) fun _ _ => trivial).noOvertaking hs ih

theorem Acts.follows {x y : Loads × System} (hacts : Acts R x y) (hs : Sound x.1 x.2)
    (hid : id < x.2.streams.size) (hR : ∀ id', R id' → id' ≠ id) (hk : NoOvertaking k x.1 x.2)
    (hturn : InTurn k (x.2.runner (x.2.stream id).runner).job) (h : Follows k x.1 x.2 id read) :
    Follows k y.1 y.2 id read := by
  induction hacts with
  | refl => exact h
  | tail hfirst hact ih =>
    obtain ⟨hs', ho⟩ := Acts.sound hfirst hs
    have howner := hs.attended.owner id hid
    refine hact.follows hs' (Nat.lt_of_lt_of_le hid ho.streams) hR (Acts.noOvertaking hfirst hs hk) ?_ ih
    rw [(ho.stream id hid).2, ho.jobs _ howner]
    exact hturn

/-- Somebody has read this much of a stream on a runner with this job; nobody else reads it. -/
structure Reader (k : Chunk → Bool) (r : RunnerId) (job : Job) (s : System) (id : StreamId)
    (read : List Chunk) : Prop where
  stands : s.Stands
  readsOnly : ReadsOnly (· ≠ id) s
  lt : id < s.streams.size
  owner : (s.stream id).runner = r
  job : (s.runner r).job = job
  noOvertaking : NoOvertaking k s.loads s
  follows : Follows k s.loads s id read

section

variable {r : RunnerId} {job : Job} (hturn : InTurn k job)

theorem Reader.onwards (h : Reader k r job s id read) (hs' : s'.Stands)
    (hreads : ReadsOnly (· ≠ id) s') (ho : Onwards s s') (hk : NoOvertaking k s'.loads s')
    {read' : List Chunk} (hfollows : Follows k s'.loads s' id read') :
    Reader k r job s' id read' := by
  have howner := h.stands.attended.owner id h.lt
  rw [h.owner] at howner
  exact ⟨hs', hreads, Nat.lt_of_lt_of_le h.lt ho.streams, (ho.stream id h.lt).2.trans h.owner,
    (ho.jobs r howner).trans h.job, hk, hfollows⟩

theorem Reader.reads (h : Reader k r job s id read) (hheld : (s.stream id).held = true) :
    Reader k r job (s.readStream id).1 id (read ++ (s.readStream id).2.chunks) := by
  have hleads : Leads (fun _ => True) (s.loads, s) (s.loads, (s.readStream id).1) :=
    .of_act (.read trivial)
  obtain ⟨hacts, hstands⟩ := hleads.stands h.stands
  refine h.onwards hstands (hacts.readsOnly h.readsOnly) (hacts.sound h.stands).2
    (hacts.noOvertaking h.stands h.noOvertaking) ?_
  rw [show (s.readStream id).1.loads = s.loads from hacts.loads]
  exact follows_read h.follows h.stands h.lt hheld

include hturn

theorem Reader.move (h : Reader k r job s id read) (hmove : Move (· ≠ id) s s') :
    Reader k r job s' id read := by
  have hstrides := hmove.strides h.stands h.readsOnly fun _ hle heq =>
    Nat.not_lt_of_le hle (heq ▸ h.lt)
  refine h.onwards hstrides.stands hstrides.readsOnly (hstrides.onwards h.stands)
    (hstrides.noOvertaking h.stands h.noOvertaking) ?_
  obtain ⟨u, hacts, heq⟩ := hstrides.acts
  have hnext := hacts.follows h.stands h.lt (fun _ hne => hne) h.noOvertaking
    (by rw [h.owner, h.job]; exact hturn) h.follows
  generalize s'.loads = D at hnext
  rw [heq]
  exact hnext.same rfl (fun hrec => ⟨hrec.live, hrec.capture⟩) (fun _ _ => rfl) (fun _ => rfl) rfl

theorem Reading.reader {t : System} (hreading : Reading id s read t) (h : Reader k r job s id []) :
    Reader k r job t id read := by
  induction hreading with
  | refl => exact h
  | move _ hmove ih => exact ih.move hturn hmove
  | read _ hheld ih => exact ih.reads hheld

end

/-! ## The beginning -/

/-- Tasks only read streams that exist. -/
theorem Stands.readsOnly (hs : s.Stands) : ReadsOnly (· < s.streams.size) s := by
  intro routine hr id hid
  obtain ⟨t, ht, rfl⟩ := mem_routines.mp hr
  have hproper := hs.apart.routines t ht
  cases hx : t.routine with
  | runPipe r p =>
    rw [hx] at hproper hid
    rcases List.mem_cons.mp hid with rfl | hid
    · exact hproper.2.1
    · rw [List.mem_singleton.mp hid]
      exact hproper.2.2.1
  | ended | work w io | beginLine r start | runLine r run | beginPipe r | watch r token
  | forward pieces c ticket | await token =>
    rw [hx] at hid
    cases hid

/-- At the seam between what was captured before and what comes afterwards, nothing is lost and
nothing comes twice. -/
theorem follows_opened {D : Loads} {r : RunnerId} (hs : Sound D s) (hr : r < s.runners.size) :
    Follows k D (s.opened r) s.streams.size [] := by
  have hopened := opened_opened s r
  have hrunner := hopened.runner r hr
  have hflight : inFlight D s.machine.channels.size = [] := by
    unfold inFlight
    rw [List.map_eq_nil_iff, List.filter_eq_nil_iff]
    intro e he hc
    have hu := hs.attended.underway e he
    obtain ⟨id, hid, -, hchannel⟩ := hu.readers _ (hu.remaining.subset (of_decide_eq_true hc))
    exact Nat.ne_of_lt (hs.attended.lt id hid) hchannel
  refine ⟨fun hrec _ => ?_, fun _ hended => ?_⟩
  · rw [hopened.new] at hrec ⊢
    have hreplay : (if (s.runner r).options.capture then (s.runner r).chunks.toList else []) =
        (s.runner r).chunks.toList := by
      split
      · rfl
      · rename_i hno
        have hpending : (s.runner r).phase = .pending := by
          have hcapture := hrec.capture
          rw [hrunner] at hcapture
          exact hcapture.resolve_right hno
        rw [((hs.inv.runners r hr).untouched hpending).1]
    show (([] ++ (if (s.runner r).options.capture then _ else _) ++
      ((s.opened r).machine.channel s.machine.channels.size).queue ++
        inFlight D s.machine.channels.size).filter k) = _
    rw [hreplay, hopened.tap, hflight, hrunner]
    simp only [List.nil_append, List.append_nil]
  · rw [hopened.new] at hended
    cases hended

theorem reader_openStream {r : RunnerId} (hs : s.Stands) (hr : r < s.runners.size)
    (hk : NoOvertaking k s.loads s) (hturn : InTurn k (s.runner r).job) :
    Reader k r (s.runner r).job (s.openStream r).2 s.streams.size [] := by
  have hleads : Leads (· ≠ s.streams.size) (s.loads, s) (s.loads, (s.openStream r).2) :=
    leads_openStream hr
  have hreads : ReadsOnly (· ≠ s.streams.size) s := fun routine hroutine id hid =>
    Nat.ne_of_lt (hs.readsOnly routine hroutine id hid)
  have hstrides := strides_of_leads hleads hs hreads
  have ho := hstrides.onwards hs
  obtain ⟨hlt, howner⟩ := opened_openStream hs hr
  refine ⟨hstrides.stands, hstrides.readsOnly, hlt, howner, ho.jobs r hr,
    hstrides.noOvertaking hs hk, ?_⟩
  -- the stream is there before the runner is started for it
  have hopened := opened_opened s r
  have hlt' : s.streams.size < (s.opened r).streams.size := by
    rw [hopened.size]
    exact Nat.lt_succ_self _
  obtain ⟨hs', ho'⟩ := sound_join hs hr
  have hk' := (Act.join (R := (· ≠ s.streams.size)) (D := s.loads) hr).noOvertaking hs hk
  have hstart := leads_ensureStarted (R := (· ≠ s.streams.size)) (D := s.loads) (s.opened r) r hs'
  have hloads : (s.openStream r).2.loads = s.loads := (hleads.stands hs).1.loads.trans rfl
  rw [hloads, openStream_eq]
  refine hstart.follows hs' hlt' (fun _ hne => hne) hk' ?_ (follows_opened hs hr)
  rw [hopened.new, ho'.jobs r hr]
  exact hturn

/-! ## The end -/

/-- Chunks that come as often and in any order, if they do so one kind after the other. -/
theorem perm_of_filter {l l' : List Chunk} (h : ∀ c : Chunk, l.filter (decide <| · = c) =
    l'.filter (decide <| · = c)) : l.Perm l' := by
  refine List.perm_iff_count.mpr fun c => ?_
  rw [List.count_eq_length_filter, List.count_eq_length_filter]
  exact congrArg List.length (h c)

/-- Whoever reads a stream of a runner to its end has read what was captured, if the runner keeps its
output and has not been killed: whenever the stream was opened, and whatever happened while it was
read. Chunks of one output come in their order, and all chunks of a command line do. Those of the
error output of a pipe need not, since both of its stages write it. -/
theorem replica_of_reading {disk : Disk} {registry : Registry} {shell : Shell} {t : System}
    {r : RunnerId} (hmoves : Moves (fun _ => True) (ofShell (Machine.ofDisk disk registry) shell) s)
    (hr : r < s.runners.size) (hreading : Reading s.streams.size (s.openStream r).2 read t)
    (hended : (t.stream s.streams.size).ended = true)
    (hcapture : (t.runner r).options.capture = true)
    (hlive : t.machine.isSet (t.runner r).token = false) : Replica t r read := by
  have hs := stands_of_moves rfl hmoves
  have hreader : ∀ {k : Chunk → Bool}, InTurn k (s.runner r).job →
      Reader k r (s.runner r).job t s.streams.size read := fun hturn =>
    hreading.reader hturn (reader_openStream hs hr (noOvertaking_of_moves rfl hmoves) hturn)
  have hread : ∀ k : Chunk → Bool, InTurn k (s.runner r).job →
      read.filter k = (t.runner r).chunks.toList.filter k := by
    intro k hturn
    have h := hreader hturn
    have hfollows := h.follows.ended
    rw [h.owner] at hfollows
    exact hfollows ⟨hlive, .inr hcapture⟩ hended
  have hstdout := hread Chunk.isStdout (.stdout fun c hc => beq_iff_eq.mp hc)
  obtain ⟨hstands, -, hlt, howner, hjob, -, -⟩ := hreader (.stdout fun c hc => beq_iff_eq.mp hc)
  -- the stream has ended, so there is a result
  have hfinished := hstands.closed.ended _ hlt hended
  have hr' := hstands.attended.owner _ hlt
  rw [howner] at hfinished hr'
  have hsound := hstands.inv.runners r hr'
  obtain ⟨result, hresult⟩ := Option.isSome_iff_exists.mp (hsound.result_iff.mpr hfinished)
  have hrecorded := hsound.recorded result hresult
  refine ⟨perm_of_filter fun c => hread _ (.same fun x y hx hy => ?_), hstdout,
    ⟨result, hresult, ?_⟩, fun text htext => ?_⟩
  · exact (of_decide_eq_true hx).trans (of_decide_eq_true hy).symm
  · rw [hrecorded]
    exact congrArg (List.flatMap Chunk.data) hstdout
  · have hall := hread (fun _ => true) (.line text (hjob.symm.trans htext))
    rw [List.filter_true, List.filter_true] at hall
    refine ⟨hall, result, hresult, ?_⟩
    rw [hrecorded, hall]
    rfl

/-- A shell that repeats all lines repeats a comment for whoever reads along. -/
theorem replica_of_reading_comment :
    let first := ofShell (Machine.ofDisk .empty .empty)
      ⟨{ Settings.off with verbose := true }, "/", [], ⟨"/bin/sh", ["-c"]⟩, true, true, true⟩
    let s := (first.newRunner (.line "# lo") .standard).2
    let later := (((s.openStream 0).2.takeTurn 0).takeTurn 1).takeTurn 0
    let t := ((later.readStream 0).1.readStream 0).1
    let chunk : Chunk := ⟨.stderr, Text.encode "# lo\n"⟩
    Moves (fun _ => True) first s ∧ Reading 0 (s.openStream 0).2 [chunk] t ∧
      (t.stream 0).ended = true ∧ (t.runner 0).options.capture = true ∧
      t.machine.isSet (t.runner 0).token = false ∧ Replica t 0 [chunk] := by
  intro first s later t chunk
  have hmoves : Moves (fun _ => True) first s := .single (.newRunner "# lo" .standard)
  have hturns : ∀ u : System, Reading 0 u [] (((u.takeTurn 0).takeTurn 1).takeTurn 0) := fun _ =>
    .move (.move (.move .refl (.takeTurn 0)) (.takeTurn 1)) (.takeTurn 0)
  have hreads : ∀ u v : System, Reading 0 u [] v → (v.stream 0).held = true →
      ((v.readStream 0).1.stream 0).held = true → (v.readStream 0).2 = .chunk chunk →
      ((v.readStream 0).1.readStream 0).2 = .ended →
      Reading 0 u [chunk] ((v.readStream 0).1.readStream 0).1 := by
    intro u v h hheld hheld' hchunk hend
    have hboth := (h.read hheld).read hheld'
    rwa [hchunk, hend] at hboth
  have hreading : Reading 0 (s.openStream 0).2 [chunk] t :=
    hreads _ _ (hturns _) (by decide +kernel) (by decide +kernel) (by decide +kernel)
      (by decide +kernel)
  have hended : (t.stream 0).ended = true := by decide +kernel
  have hcapture : (t.runner 0).options.capture = true := by decide +kernel
  have hlive : t.machine.isSet (t.runner 0).token = false := by decide +kernel
  exact ⟨hmoves, hreading, hended, hcapture, hlive,
    replica_of_reading hmoves (by decide +kernel) hreading hended hcapture hlive⟩

end

end Runnel.System
