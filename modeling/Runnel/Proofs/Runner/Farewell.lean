import Runnel.Proofs.Runner.Incidents
import Runnel.Proofs.Runner.Interrupting

/-!
# Runnel.Proofs.Runner.Farewell

What listeners are told when a run ends. Whoever listens to the end is told of the result first, then
of the exit code and at last of the close, and this is one farewell, whatever listeners do in return.
A listener that is told of a chunk may kill the runner: then the farewell comes before others are told
of the chunk, since it is settled before who is told of it.

* `System.events`: what was told, oldest first; `Event.OutputFirst` and `Event.EndsInOrder` are orders
  of it.
* `Listener.Calm`: nobody kills the runner between a chunk and others that have to be told of it.
* `System.Parts`: what a kill does to all runners; `parts_finishWith` is one end, `parts_kill` all of
  them.
* `System.Speaks`, `speaks_foldl`: what is told of a runner that is finished.
* `System.Breaks`, `foldl_say_of_open`: what is told of one that is not, and how it may end meanwhile.
* `System.announce_cases`: what comes of a chunk.
-/

namespace Runnel

/-- The topic is about output. -/
def Topic.isOutput : Topic → Bool
  | .data | .stdout | .stderr => true
  | _ => false

/-- The place of a topic in a farewell. -/
def Topic.place : Topic → Nat
  | .exit => 1
  | .close => 2
  | _ => 0

/-- The topic of chunks of a kind. -/
def Topic.ofKind : ChunkKind → Topic
  | .stdout => .stdout
  | .stderr => .stderr

theorem Topic.isOutput_of_isEnd {t : Topic} (h : t.isEnd = true) : t.isOutput = false := by
  cases t with
  | result | exit | close => rfl
  | data | stdout | stderr | error => cases h

theorem Topic.isEnd_of_isOutput {t : Topic} (h : t.isOutput = true) : t.isEnd = false :=
  Bool.eq_false_iff.mpr fun hend => Bool.false_ne_true ((isOutput_of_isEnd hend).symm.trans h)

namespace Event

/-- No output is told of after anything that is about the end. -/
def OutputFirst (events : List Event) : Prop :=
  events.Pairwise fun a b => b.topic.isOutput = true → a.topic.isEnd = false

/-- What is about the end is told in the order of a farewell. -/
def EndsInOrder (events : List Event) : Prop :=
  events.Pairwise fun a b =>
    a.topic.isEnd = true → b.topic.isEnd = true → a.topic.place ≤ b.topic.place

instance (events : List Event) : Decidable (OutputFirst events) :=
  inferInstanceAs (Decidable (List.Pairwise _ _))

variable {before after : List Event}

theorem outputFirst_append (h : OutputFirst before) (h' : OutputFirst after)
    (hnone : (∀ e ∈ before, e.topic.isEnd = false) ∨ ∀ e ∈ after, e.topic.isOutput = false) :
    OutputFirst (before ++ after) := by
  refine List.pairwise_append.mpr ⟨h, h', fun a ha b hb houtput => ?_⟩
  rcases hnone with hnone | hnone
  · exact hnone a ha
  · rw [hnone b hb] at houtput
    cases houtput

theorem outputFirst_of_noEnd {events : List Event} (h : ∀ e ∈ events, e.topic.isEnd = false) :
    OutputFirst events :=
  List.pairwise_of_forall_mem_list fun a ha _ _ _ => h a ha

theorem outputFirst_of_noOutput {events : List Event}
    (h : ∀ e ∈ events, e.topic.isOutput = false) : OutputFirst events :=
  List.pairwise_of_forall_mem_list fun _ _ b hb houtput => by
    rw [h b hb] at houtput
    cases houtput

theorem endsInOrder_of_noEnd {events : List Event} (h : ∀ e ∈ events, e.topic.isEnd = false) :
    EndsInOrder events :=
  List.pairwise_of_forall_mem_list fun a ha _ _ hend => by
    rw [h a ha] at hend
    cases hend

theorem endsInOrder_append (h : EndsInOrder before) (h' : EndsInOrder after)
    (hnone : (∀ e ∈ before, e.topic.isEnd = false) ∨ ∀ e ∈ after, e.topic.isEnd = false) :
    EndsInOrder (before ++ after) := by
  refine List.pairwise_append.mpr ⟨h, h', fun a ha b hb hend hend' => ?_⟩
  rcases hnone with hnone | hnone
  · rw [hnone a ha] at hend
    cases hend
  · rw [hnone b hb] at hend'
    cases hend'

/-- A farewell in the middle of output is no good, unless it is empty or at the end. -/
theorem outputFirst_broken_iff {pre farewell post : List Event}
    (hpre : ∀ e ∈ pre, e.topic.isEnd = false) (hfarewell : ∀ e ∈ farewell, e.topic.isEnd = true)
    (hpost : ∀ e ∈ post, e.topic.isOutput = true) :
    OutputFirst (pre ++ farewell ++ post) ↔ (farewell ≠ [] → post = []) := by
  constructor
  · intro h hne
    obtain ⟨a, ha⟩ := List.exists_mem_of_ne_nil farewell hne
    refine List.eq_nil_iff_forall_not_mem.mpr fun b hb => ?_
    have hend := (List.pairwise_append.mp h).2.2 a (List.mem_append_right pre ha) b hb (hpost b hb)
    rw [hfarewell a ha] at hend
    cases hend
  · intro h
    have hlast : OutputFirst post :=
      outputFirst_of_noEnd fun e he => Topic.isEnd_of_isOutput (hpost e he)
    by_cases hne : farewell = []
    · rw [hne, List.append_nil]
      exact outputFirst_append (outputFirst_of_noEnd hpre) hlast (.inl hpre)
    · rw [h hne, List.append_nil]
      have hout : ∀ e ∈ farewell, e.topic.isOutput = false := fun e he =>
        Topic.isOutput_of_isEnd (hfarewell e he)
      exact outputFirst_append (outputFirst_of_noEnd hpre) (outputFirst_of_noOutput hout) (.inr hout)

end Event

namespace Listener

/-- Who hears of chunks of a kind, in the order in which they are told. -/
def audience (listeners : List Listener) (kind : ChunkKind) : List Listener :=
  (listeners.filter fun l => l.topic == .data)
    ++ listeners.filter fun l => l.topic == Topic.ofKind kind

/-- If anybody is told of the end, then nobody who hears of chunks of a kind kills the runner, except
for the last one who hears of them. -/
def Calm (listeners : List Listener) (kind : ChunkKind) : Prop :=
  (∃ l ∈ listeners, l.topic.isEnd = true) →
    ∀ l ∈ (audience listeners kind).dropLast, l.reaction = none

instance (listeners : List Listener) (kind : ChunkKind) : Decidable (Calm listeners kind) :=
  inferInstanceAs (Decidable (_ → _))

/-- What is told of several events, and to whom. -/
def speeches (listeners : List Listener) (events : List Event) : List (Event × Listener) :=
  events.flatMap fun e => (hearing listeners e).map fun l => (e, l)

/-- What is told at the end of a run. -/
def farewell (listeners : List Listener) (result : RunResult) : List Event :=
  (speeches listeners (Event.ofResult result)).map Prod.fst

theorem mem_speeches {listeners : List Listener} {events : List Event} {x : Event × Listener} :
    x ∈ speeches listeners events ↔ x.1 ∈ events ∧ x.2 ∈ listeners ∧ x.2.topic = x.1.topic := by
  obtain ⟨e, l⟩ := x
  simp [speeches, hearing]

theorem speeches_ofChunk (listeners : List Listener) (chunk : Chunk) :
    (speeches listeners (Event.ofChunk chunk)).map Prod.snd = audience listeners chunk.kind := by
  obtain ⟨kind, data⟩ := chunk
  cases kind <;> simp [speeches, Event.ofChunk, hearing, audience, Event.topic, Topic.ofKind,
    Function.comp_def]

theorem calm_of_forall {listeners : List Listener} {kind : ChunkKind}
    (h : ∀ l ∈ audience listeners kind, l.reaction = none) : Calm listeners kind :=
  fun _ l hl => h l (List.dropLast_subset _ hl)

/-- When somebody kills the runner, it depends on whether others still have to be told. -/
theorem calm_iff_of_split {listeners : List Listener} {kind : ChunkKind}
    {before after : List Listener} {l : Listener}
    (hsplit : audience listeners kind = before ++ l :: after)
    (hbefore : ∀ l ∈ before, l.reaction = none) (hl : l.reaction ≠ none) :
    Calm listeners kind ↔ ((∃ l ∈ listeners, l.topic.isEnd = true) → after = []) := by
  refine imp_congr_right fun _ => ?_
  rw [hsplit]
  constructor
  · intro hcalm
    by_contra hafter
    refine hl (hcalm l ?_)
    rw [List.dropLast_append_of_ne_nil (List.cons_ne_nil l after),
      List.dropLast_cons_of_ne_nil hafter]
    exact List.mem_append_right _ List.mem_cons_self
  · rintro rfl
    rwa [List.dropLast_concat]

theorem isEnd_of_mem_farewell {listeners : List Listener} {result : RunResult} {e : Event}
    (h : e ∈ farewell listeners result) : e.topic.isEnd = true := by
  obtain ⟨x, hx, rfl⟩ := List.mem_map.mp h
  have hmem := (mem_speeches.mp hx).1
  simp only [Event.ofResult, List.mem_cons, List.not_mem_nil, or_false] at hmem
  rcases hmem with heq | heq | heq <;> rw [heq] <;> rfl

/-- There is a farewell if and only if somebody listens to the end. -/
theorem farewell_eq_nil_iff {listeners : List Listener} {result : RunResult} :
    farewell listeners result = [] ↔ ¬ ∃ l ∈ listeners, l.topic.isEnd = true := by
  rw [farewell, List.map_eq_nil_iff, List.eq_nil_iff_forall_not_mem]
  constructor
  · rintro hnone ⟨l, hl, hend⟩
    have htold : ∃ e ∈ Event.ofResult result, l.topic = e.topic := by
      cases ht : l.topic with
      | result => exact ⟨.result result, by simp [Event.ofResult], rfl⟩
      | exit => exact ⟨.exit result.code, by simp [Event.ofResult], rfl⟩
      | close => exact ⟨.close result.code, by simp [Event.ofResult], rfl⟩
      | data | stdout | stderr | error =>
        rw [ht] at hend
        cases hend
    obtain ⟨e, he, htopic⟩ := htold
    exact hnone (e, l) (mem_speeches.mpr ⟨he, hl, htopic⟩)
  · rintro hnone x hx
    obtain ⟨-, hl, htopic⟩ := mem_speeches.mp hx
    exact hnone ⟨x.2, hl, htopic ▸ isEnd_of_mem_farewell (List.mem_map_of_mem hx)⟩

theorem endsInOrder_farewell (listeners : List Listener) (result : RunResult) :
    Event.EndsInOrder (farewell listeners result) := by
  rw [Event.EndsInOrder, farewell, List.pairwise_map, speeches, List.pairwise_flatMap]
  have htold : ∀ {e : Event} {x : Event × Listener},
      x ∈ (hearing listeners e).map (fun l => (e, l)) → x.1 = e := by
    rintro e x hx
    obtain ⟨l, -, rfl⟩ := List.mem_map.mp hx
    rfl
  constructor
  · intro e _
    refine List.pairwise_of_forall_mem_list fun a ha b hb _ _ => ?_
    exact Nat.le_of_eq (by rw [htold ha, htold hb])
  · have hplaces : (Event.ofResult result).Pairwise fun a b => a.topic.place ≤ b.topic.place := by
      simp [Event.ofResult, Event.topic, Topic.place]
    refine hplaces.imp fun {a b} hle x hx y hy _ _ => ?_
    rwa [htold hx, htold hy]

end Listener

namespace System

/-! ## What was told -/

/-- What the listeners of a runner were told, oldest first. -/
def events (s : System) (r : RunnerId) : List Event :=
  s.journal.reverse.filterMap fun e => if e.1 = r then some e.2 else none

theorem events_congr {s s' : System} (h : s'.journal = s.journal) (r : RunnerId) :
    s'.events r = s.events r := by
  rw [events, events, h]

theorem events_cons (s : System) (r r' : RunnerId) (e : Event) :
    events { s with journal := (r, e) :: s.journal } r'
      = s.events r' ++ if r = r' then [e] else [] := by
  by_cases h : r = r' <;> simp [events, h]

theorem isEnd_of_mem_events {s : System} {r : RunnerId} (h : ∀ t : Topic, t.isEnd = true →
    s.told r t = 0) {e : Event} (he : e ∈ s.events r) : e.topic.isEnd = false := by
  obtain ⟨⟨r', e'⟩, hmem, heq⟩ := List.mem_filterMap.mp he
  by_cases hr : r' = r
  · rw [if_pos hr] at heq
    cases heq
    refine Bool.eq_false_iff.mpr fun hend => ?_
    have hnone := List.countP_eq_zero.mp (h _ hend) (r', e') (List.mem_reverse.mp hmem)
    simp [hr] at hnone
  · rw [if_neg hr] at heq
    cases heq

/-- One of those who hear of an event is told, and may react. -/
def say (react : Signal → System → System) (r : RunnerId) (s : System) (x : Event × Listener) :
    System :=
  let s := { s with journal := (r, x.1) :: s.journal }
  match x.2.reaction with
  | some signal => react signal s
  | none => s

/-- Telling of several events is telling one listener after the other. -/
theorem foldl_tell (react : Signal → System → System) (r : RunnerId) (listeners : List Listener)
    (events : List Event) (s : System) :
    events.foldl (tell react r listeners) s
      = (Listener.speeches listeners events).foldl (say react r) s := by
  rw [Listener.speeches, List.foldl_flatMap]
  congr
  funext s e
  rw [List.foldl_map]
  rfl

/-! ## What becomes of runners -/

section

variable {s s' s'' : System} {r r' : RunnerId} {out out' : List Event}

/-- The runners that have a result are those that are finished. -/
def Concluded (s : System) : Prop :=
  ∀ r < s.runners.size, (s.runner r).result.isSome = true ↔ (s.runner r).phase = .finished

theorem concluded_congr {x y : Runner} (h : y.standing = x.standing)
    (hc : x.result.isSome = true ↔ x.phase = .finished) :
    y.result.isSome = true ↔ y.phase = .finished := by
  rwa [Runner.result_congr h, Runner.phase_congr h]

theorem concluded_of_ended {x : Runner} {result : RunResult}
    (h : x.standing = ⟨.finished, some result, false, []⟩) :
    x.result.isSome = true ↔ x.phase = .finished :=
  have hresult : x.result = some result := congrArg Runner.Standing.result h
  iff_of_true (congrArg Option.isSome hresult) (congrArg Runner.Standing.phase h)

theorem Inv.concluded (hi : s.Inv) : s.Concluded :=
  fun r hr => (hi.runners r hr).result_iff

/-- What a kill may be to a runner. -/
inductive Parted (s s' : System) (r : RunnerId) : Prop where
  /-- Nothing. -/
  | same (hstanding : (s'.runner r).standing = (s.runner r).standing)
      (hevents : s'.events r = s.events r)
  /-- Its end, and all who listen are told. -/
  | ended (result : RunResult) (hopen : (s.runner r).phase ≠ .finished)
      (hstanding : (s'.runner r).standing = ⟨.finished, some result, false, []⟩)
      (hevents : s'.events r = s.events r ++ Listener.farewell (s.runner r).listeners result)

/-- What a kill may be to all runners. -/
structure Parts (s s' : System) : Prop where
  size : s'.runners.size = s.runners.size
  parted : ∀ r, Parted s s' r

theorem Parted.trans (h : Parted s s' r) (h' : Parted s' s'' r) : Parted s s'' r := by
  cases h with
  | same hstanding hevents =>
    cases h' with
    | same hstanding' hevents' =>
      exact .same (hstanding'.trans hstanding) (hevents'.trans hevents)
    | ended result hopen hstanding' hevents' =>
      rw [Runner.phase_congr hstanding] at hopen
      rw [Runner.listeners_congr hstanding, hevents] at hevents'
      exact .ended result hopen hstanding' hevents'
  | ended result hopen hstanding hevents =>
    cases h' with
    | same hstanding' hevents' =>
      exact .ended result hopen (hstanding'.trans hstanding) (hevents'.trans hevents)
    | ended result' hopen' =>
      exact absurd (congrArg Runner.Standing.phase hstanding) hopen'

/-- Nothing happens to a runner that is finished. -/
theorem Parted.of_finished (h : Parted s s' r) (hf : (s.runner r).phase = .finished) :
    (s'.runner r).standing = (s.runner r).standing ∧ s'.events r = s.events r := by
  cases h with
  | same hstanding hevents => exact ⟨hstanding, hevents⟩
  | ended result hopen => exact absurd hf hopen

theorem Parted.concluded (h : Parted s s' r)
    (hc : (s.runner r).result.isSome = true ↔ (s.runner r).phase = .finished) :
    (s'.runner r).result.isSome = true ↔ (s'.runner r).phase = .finished := by
  cases h with
  | same hstanding => exact concluded_congr hstanding hc
  | ended result hopen hstanding => exact concluded_of_ended hstanding

namespace Parts

theorem refl (s : System) : Parts s s :=
  ⟨rfl, fun _ => .same rfl rfl⟩

theorem trans (h : Parts s s') (h' : Parts s' s'') : Parts s s'' :=
  ⟨h'.size.trans h.size, fun r => (h.parted r).trans (h'.parted r)⟩

theorem concluded (h : Parts s s') (hc : s.Concluded) : s'.Concluded := by
  intro r hr
  exact (h.parted r).concluded (hc r (h.size ▸ hr))

theorem foldl {α : Type} {step : System → α → System}
    (h : ∀ s a, s.Concluded → Parts s (step s a)) (hc : s.Concluded) (list : List α) :
    Parts s (list.foldl step s) := by
  induction list generalizing s with
  | nil => exact refl s
  | cons a list ih =>
    have ha := h s a hc
    exact ha.trans (ih (ha.concluded hc))

end Parts

theorem Quiet.parts (h : Quiet s s') : Parts s s' :=
  ⟨h.size, fun r => .same (h.standing r) (events_congr h.journal r)⟩

/-- The listeners of a runner are told, which is what it was. Others may have ended. -/
structure Speaks (r : RunnerId) (out : List Event) (s s' : System) : Prop where
  size : s'.runners.size = s.runners.size
  standing : (s'.runner r).standing = (s.runner r).standing
  events : s'.events r = s.events r ++ out
  others : ∀ r', r' ≠ r → Parted s s' r'

namespace Speaks

theorem phase (h : Speaks r out s s') : (s'.runner r).phase = (s.runner r).phase :=
  Runner.phase_congr h.standing

theorem listeners (h : Speaks r out s s') : (s'.runner r).listeners = (s.runner r).listeners :=
  Runner.listeners_congr h.standing

theorem trans (h : Speaks r out s s') (h' : Speaks r out' s' s'') :
    Speaks r (out ++ out') s s'' where
  size := h'.size.trans h.size
  standing := h'.standing.trans h.standing
  events := by rw [h'.events, h.events, List.append_assoc]
  others := fun r' hne => (h.others r' hne).trans (h'.others r' hne)

theorem refl (r : RunnerId) (s : System) : Speaks r [] s s :=
  ⟨rfl, rfl, (List.append_nil _).symm, fun _ _ => .same rfl rfl⟩

theorem concluded (h : Speaks r out s s') (hc : s.Concluded) : s'.Concluded := by
  intro r' hr'
  rw [h.size] at hr'
  by_cases heq : r' = r
  · subst heq
    exact concluded_congr h.standing (hc r' hr')
  · exact (h.others r' heq).concluded (hc r' hr')

theorem journal (s : System) (r : RunnerId) (e : Event) :
    Speaks r [e] s { s with journal := (r, e) :: s.journal } := by
  refine ⟨rfl, rfl, ?_, fun r' hne => .same rfl ?_⟩
  · rw [events_cons, if_pos rfl]
  · rw [events_cons, if_neg hne.symm, List.append_nil]

end Speaks

/-- What is killed while a runner is finished makes no difference to it. -/
theorem Parts.speaks (h : Parts s s') (hf : (s.runner r).phase = .finished) :
    Speaks r [] s s' := by
  obtain ⟨hstanding, hevents⟩ := (h.parted r).of_finished hf
  exact ⟨h.size, hstanding, by rw [hevents, List.append_nil], fun r' _ => h.parted r'⟩

end

/-! ## One end -/

theorem events_record (s : System) (r : RunnerId) (code : Int) (r' : RunnerId) :
    (s.record r code).events r' = s.events r' :=
  events_congr (frame_letGo s r).journal r'

theorem parted_record_of_ne (s : System) {r r' : RunnerId} (h : r' ≠ r) (code : Int) :
    Parted s (s.record r code) r' :=
  .same (congrArg Runner.standing (runner_record_of_ne s h code)) (events_record s r code r')

theorem concluded_record {s : System} (hc : s.Concluded) (r : RunnerId) (code : Int) :
    (s.record r code).Concluded := by
  intro r' hr'
  rw [size_record] at hr'
  by_cases heq : r' = r
  · subst heq
    rw [runner_record_self hr']
    exact iff_of_true rfl rfl
  · exact (parted_record_of_ne s heq code).concluded (hc r' hr')

section React

variable {react : Signal → System → System}
  (h : ∀ signal s, s.Concluded → Parts s (react signal s)) {s : System} {r : RunnerId}

include h

/-- Of a runner that is finished all that is to be told is told, whatever listeners do. -/
theorem speaks_foldl (hc : s.Concluded) (hf : (s.runner r).phase = .finished)
    (list : List (Event × Listener)) :
    Speaks r (list.map Prod.fst) s (list.foldl (say react r) s) := by
  induction list generalizing s with
  | nil => exact .refl r s
  | cons x list ih =>
    have hjournal := Speaks.journal s r x.1
    have hsay : Speaks r [x.1] s (say react r s x) := by
      unfold say
      cases x.2.reaction with
      | none => exact hjournal
      | some signal =>
        have hreact := h signal _ (hjournal.concluded hc)
        simpa using hjournal.trans (hreact.speaks (hjournal.phase.trans hf))
    exact hsay.trans (ih (hsay.concluded hc) (hsay.phase.trans hf))

/-- The end of a run is a farewell. -/
theorem parts_finishWith (hc : s.Concluded) (code : Int) :
    Parts s (finishWith react r code s) ∧
      (r < s.runners.size → ((finishWith react r code s).runner r).phase = .finished) := by
  by_cases hr : r < s.runners.size
  · cases hx : (s.runner r).result with
    | some result =>
      rw [finishWith_of_some react code hx]
      exact ⟨.refl s, fun _ => (hc r hr).mp (by rw [hx]; rfl)⟩
    | none =>
      have hopen : (s.runner r).phase ≠ .finished := fun hf => by
        have hsome := (hc r hr).mpr hf
        rw [hx] at hsome
        cases hsome
      have hself : ((s.record r code).runner r).standing = ⟨.finished, _, false, []⟩ :=
        congrArg Runner.standing (runner_record_self hr code)
      have hfin : ((s.record r code).runner r).phase = .finished :=
        congrArg Runner.Standing.phase hself
      have hspeaks := speaks_foldl h (concluded_record hc r code) hfin
        (Listener.speeches (s.runner r).listeners
          (Event.ofResult (RunResult.ofChunks code (s.runner r).chunks.toList)))
      rw [finishWith_eq react code hx, foldl_tell]
      refine ⟨⟨hspeaks.size.trans (size_record s r code), fun r' => ?_⟩,
        fun _ => hspeaks.phase.trans hfin⟩
      by_cases heq : r' = r
      · rw [heq]
        refine .ended _ hopen (hspeaks.standing.trans hself) ?_
        rw [hspeaks.events, events_record]
        rfl
      · exact (parted_record_of_ne s heq code).trans (hspeaks.others r' heq)
  · rw [finishWith_of_le react (Nat.le_of_not_lt hr)]
    exact ⟨.refl s, fun hlt => absurd hlt hr⟩

end React

/-! ## Kills -/

theorem parts_reach {depth : Nat}
    (h : ∀ signal stage s, s.Concluded → Parts s (killWithin depth signal stage s)) (r : RunnerId)
    (signal : Signal) {s : System} (hc : s.Concluded) : Parts s (reach depth r signal s) := by
  have hsignal := (quiet_updateMachine s fun m =>
    m.signalGroup (s.runner r).group signal.number).parts
  exact hsignal.trans (.foldl (fun s stage hc => h signal stage s hc) (hsignal.concluded hc) _)

/-- A kill ends the runner and some of those that it runs, and these are farewells, too. -/
theorem parts_killWithin (depth : Nat) (signal : Signal) (r : RunnerId) {s : System}
    (hc : s.Concluded) : Parts s (killWithin depth signal r s) := by
  induction depth generalizing signal r s with
  | zero => exact .refl s
  | succ depth ih =>
    have hreact : ∀ signal s, s.Concluded → Parts s (reach depth r signal s) :=
      fun signal s hc => parts_reach (fun signal stage s hc => ih signal stage hc) r signal hc
    have hreach := hreact signal s hc
    rw [killWithin_succ]
    simp only
    split
    · exact hreach
    · have htoken := (quiet_updateMachine (reach depth r signal s) fun m =>
        m.setToken ((reach depth r signal s).runner r).token).parts
      have hc' := htoken.concluded (hreach.concluded hc)
      exact (hreach.trans htoken).trans (parts_finishWith hreact hc' _).1

theorem parts_kill {s : System} (hc : s.Concluded) (signal : Signal) (r : RunnerId) :
    Parts s (s.kill signal r) :=
  parts_killWithin (r + 1) signal r hc

theorem parts_finish {s : System} (hc : s.Concluded) (r : RunnerId) (code : Int) :
    Parts s (s.finish r code) :=
  (parts_finishWith (fun signal _ hc => parts_kill hc signal r) hc code).1

theorem finished_kill {s : System} (hc : s.Concluded) {r : RunnerId} (hr : r < s.runners.size)
    (signal : Signal) : ((s.kill signal r).runner r).phase = .finished := by
  have hreact : ∀ signal s, s.Concluded → Parts s (reach r r signal s) := fun signal s hc =>
    parts_reach (fun signal stage s hc => parts_killWithin r signal stage hc) r signal hc
  have hreach := hreact signal s hc
  rw [kill, killWithin_succ]
  simp only
  split
  · rename_i hf
    exact Runner.isFinished_iff.mp hf
  · have htoken := (quiet_updateMachine (reach r r signal s) fun m =>
      m.setToken ((reach r r signal s).runner r).token).parts
    refine (parts_finishWith hreact (htoken.concluded (hreach.concluded hc)) _).2 ?_
    rw [htoken.size, hreach.size]
    exact hr

/-! ## Chunks and errors -/

section

variable {s s' s'' : System} {r : RunnerId} {out pre post : List Event}

/-- A runner ends while its listeners are told of something else. -/
structure Breaks (r : RunnerId) (pre post : List Event) (s s' : System) : Prop where
  size : s'.runners.size = s.runners.size
  open_ : (s.runner r).phase ≠ .finished
  ended : ∃ result, (s'.runner r).standing = ⟨.finished, some result, false, []⟩ ∧
    s'.events r = s.events r ++ (pre ++ Listener.farewell (s.runner r).listeners result ++ post)
  others : ∀ r', r' ≠ r → Parted s s' r'

theorem Parts.breaks (h : Parts s s') (hopen : (s.runner r).phase ≠ .finished)
    (hf : (s'.runner r).phase = .finished) : Breaks r [] [] s s' := by
  refine ⟨h.size, hopen, ?_, fun r' _ => h.parted r'⟩
  cases h.parted r with
  | same hstanding => exact absurd ((Runner.phase_congr hstanding).symm.trans hf) hopen
  | ended result _ hstanding hevents => exact ⟨result, hstanding, by simpa using hevents⟩

theorem Speaks.breaks (h : Speaks r out s s') (h' : Breaks r pre post s' s'') :
    Breaks r (out ++ pre) post s s'' := by
  obtain ⟨result, hstanding, hevents⟩ := h'.ended
  refine ⟨h'.size.trans h.size, h.phase ▸ h'.open_, ⟨result, hstanding, ?_⟩,
    fun r' hne => (h.others r' hne).trans (h'.others r' hne)⟩
  rw [hevents, h.events, h.listeners]
  simp only [List.append_assoc]

theorem Breaks.speaks (h : Breaks r pre post s s') (h' : Speaks r out s' s'') :
    Breaks r pre (post ++ out) s s'' := by
  obtain ⟨result, hstanding, hevents⟩ := h.ended
  refine ⟨h'.size.trans h.size, h.open_, ⟨result, h'.standing.trans hstanding, ?_⟩,
    fun r' hne => (h.others r' hne).trans (h'.others r' hne)⟩
  rw [h'.events, hevents]
  simp only [List.append_assoc]

theorem Breaks.concluded (h : Breaks r pre post s s') (hc : s.Concluded) : s'.Concluded := by
  intro r' hr'
  rw [h.size] at hr'
  by_cases heq : r' = r
  · obtain ⟨result, hstanding, -⟩ := h.ended
    rw [heq]
    exact concluded_of_ended hstanding
  · exact (h.others r' heq).concluded (hc r' hr')

/-- The first listener that kills the runner comes between those who were told before and those who
are told in spite of the end. -/
theorem foldl_say_of_open (hc : s.Concluded) (hopen : (s.runner r).phase ≠ .finished)
    (list : List (Event × Listener)) :
    let s' := list.foldl (say (fun signal s => s.kill signal r) r) s
    (∀ x ∈ list, x.2.reaction = none) ∧ Speaks r (list.map Prod.fst) s s' ∨
      ∃ before x after, list = before ++ x :: after ∧ (∀ y ∈ before, y.2.reaction = none) ∧
        x.2.reaction ≠ none ∧
        Breaks r ((before ++ [x]).map Prod.fst) (after.map Prod.fst) s s' := by
  have hreact : ∀ signal s, s.Concluded → Parts s (s.kill signal r) :=
    fun signal _ hc => parts_kill hc signal r
  induction list generalizing s with
  | nil => exact .inl ⟨List.forall_mem_nil _, .refl r s⟩
  | cons x list ih =>
    have hjournal := Speaks.journal s r x.1
    have hc' := hjournal.concluded hc
    have hopen' : _ ≠ Phase.finished := hjournal.phase ▸ hopen
    cases hx : x.2.reaction with
    | none =>
      have hsay : say (fun signal s => s.kill signal r) r s x
          = { s with journal := (r, x.1) :: s.journal } := by simp only [say, hx]
      rw [List.foldl_cons, hsay]
      rcases ih hc' hopen' with ⟨hnone, hspeaks⟩ | ⟨before, y, after, rfl, hbefore, hy, hbreaks⟩
      · exact .inl ⟨List.forall_mem_cons.mpr ⟨hx, hnone⟩, hjournal.trans hspeaks⟩
      · exact .inr ⟨x :: before, y, after, rfl, List.forall_mem_cons.mpr ⟨hx, hbefore⟩, hy,
          hjournal.breaks hbreaks⟩
    | some signal =>
      have hsay : say (fun signal s => s.kill signal r) r s x
          = System.kill { s with journal := (r, x.1) :: s.journal } signal r := by
        simp only [say, hx]
      have hf := finished_kill hc' (lt_of_not_finished hopen') signal
      have hkill := parts_kill hc' signal r
      have hbreaks := hjournal.breaks (hkill.breaks hopen' hf)
      -- The others in the list are told all the same, of a runner that has finished.
      have hspeaks := speaks_foldl hreact (hkill.concluded hc') hf list
      rw [List.foldl_cons, hsay]
      exact .inr ⟨[], x, list, rfl, List.forall_mem_nil _, by simp [hx],
        by simpa using hbreaks.speaks hspeaks⟩

/-- What comes of telling of a chunk: nobody kills the runner, or somebody does, and then it depends
on the listeners whether others are told of the chunk after the end. -/
theorem announce_cases (hc : s.Concluded) (hopen : (s.runner r).phase ≠ .finished) (chunk : Chunk) :
    let s' := s.emitAll r (Event.ofChunk chunk)
    let listeners := (s.runner r).listeners
    (∃ out, (∀ e ∈ out, e.topic.isOutput = true) ∧ Listener.Calm listeners chunk.kind ∧
        Speaks r out s s') ∨
      ∃ pre post, (∀ e ∈ pre ++ post, e.topic.isOutput = true) ∧ Breaks r pre post s s' ∧
        (Listener.Calm listeners chunk.kind ↔
          ((∃ l ∈ listeners, l.topic.isEnd = true) → post = [])) := by
  intro s' listeners
  have hs' : s' = _ := foldl_tell _ r listeners (Event.ofChunk chunk) s
  have houtput : ∀ x ∈ Listener.speeches listeners (Event.ofChunk chunk),
      x.1.topic.isOutput = true := by
    intro x hx
    have hmem := (Listener.mem_speeches.mp hx).1
    simp only [Event.ofChunk, List.mem_cons, List.not_mem_nil, or_false] at hmem
    rcases hmem with heq | heq
    · rw [heq]
      rfl
    · rw [heq]
      cases chunk.kind <;> rfl
  have haudience := Listener.speeches_ofChunk listeners chunk
  rw [hs']
  rcases foldl_say_of_open hc hopen (Listener.speeches listeners (Event.ofChunk chunk)) with
    ⟨hnone, hspeaks⟩ | ⟨before, x, after, hsplit, hbefore, hx, hbreaks⟩
  · refine .inl ⟨_, List.forall_mem_map.mpr houtput, Listener.calm_of_forall ?_, hspeaks⟩
    rw [← haudience]
    exact List.forall_mem_map.mpr hnone
  · rw [hsplit, List.map_append, List.map_cons] at haudience
    refine .inr ⟨_, _, ?_, hbreaks, ?_⟩
    · rw [hsplit] at houtput
      rw [← List.map_append, List.append_assoc, List.singleton_append]
      exact List.forall_mem_map.mpr houtput
    · rw [Listener.calm_iff_of_split haudience.symm (List.forall_mem_map.mpr hbefore) hx]
      simp only [List.map_eq_nil_iff]

end

end System
end Runnel
