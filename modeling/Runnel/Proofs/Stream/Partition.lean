import Runnel.Proofs.Stream.Routing

/-!
# Runnel.Proofs.Stream.Partition

The two halves of a split partition its source, whatever happens in which order. A reader that has
stayed was given the first chunks of its share, and all of them once it was told that there are no
more; and it is told so if the router has turns enough and the reader asks often enough.

* `Split.calls_performAll`: a router that wants more has taken a chunk at each turn.
* `Split.told_ended`: who empties its half after the router has stopped is told the end.
* `split_partitions`: the main result.
* `splitChunks_eq`: both halves of a finite stream are the shares of its chunks.
-/

namespace Runnel

namespace Split

variable {test : Nat → Chunk → Bool} {answers : Nat → Option Chunk} {chunks : List Chunk}
  {s : Split} {side : Side} {m : Move} {moves : List Move}

/-! ## Who stays -/

theorem held_perform (hstays : m ≠ .drop side) :
    ((s.perform test answers m).1.router.half side).held = (s.router.half side).held := by
  cases m with
  | poll other => exact held_poll s other side
  | turn => exact held_turn test answers s side
  | drop other =>
    have hother : side ≠ other := fun h => hstays (h ▸ rfl)
    rw [(aside_drop s other).half side hother]

theorem held_performAll (hstays : .drop side ∉ moves) :
    ((s.performAll test answers moves).1.router.half side).held = (s.router.half side).held := by
  induction moves generalizing s with
  | nil => rfl
  | cons m moves ih =>
    have hm := List.ne_of_not_mem_cons hstays
    have hlater := List.not_mem_of_not_mem_cons hstays
    rw [performAll_cons, ih hlater, held_perform (Ne.symm hm)]

theorem held_start (side : Side) : (start.router.half side).held = true := by
  cases side <;> rfl

theorem held_of_stays (test : Nat → Chunk → Bool) (answers : Nat → Option Chunk)
    (hstays : .drop side ∉ moves) :
    ((start.performAll test answers moves).1.router.half side).held = true := by
  rw [held_performAll hstays, held_start]

/-! ## The router begins -/

theorem started_poll (hheld : (s.router.half side).held = true) :
    (s.perform test answers (.poll side)).1.started = true := by
  cases hqueue : (s.router.half side).queue with
  | nil => rw [perform_poll_of_empty hheld hqueue]
  | cons c queue => rw [perform_poll_of_item hheld hqueue]

theorem started_perform (h : s.started = true) : (s.perform test answers m).1.started = true := by
  cases m with
  | poll other =>
    cases hheld : (s.router.half other).held with
    | false => rwa [perform_poll_of_left hheld]
    | true => exact started_poll hheld
  | turn =>
    simp only [perform, turn]
    split <;> exact h
  | drop other => exact h

theorem started_performAll (h : s.started = true) :
    (s.performAll test answers moves).1.started = true := by
  induction moves generalizing s with
  | nil => exact h
  | cons m moves ih => exact ih (started_perform h)

/-- Whoever asks first starts the router. -/
theorem started_of_poll (hheld : (s.router.half side).held = true) (hstays : .drop side ∉ moves)
    (hasks : .poll side ∈ moves) : (s.performAll test answers moves).1.started = true := by
  induction moves generalizing s with
  | nil => cases hasks
  | cons m moves ih =>
    have hm := List.ne_of_not_mem_cons hstays
    have hlater := List.not_mem_of_not_mem_cons hstays
    rcases List.mem_cons.mp hasks with rfl | hasks
    · rw [performAll_cons]
      exact started_performAll (started_poll hheld)
    · exact ih ((held_perform (Ne.symm hm)).trans hheld) hlater hasks

/-! ## The router stops -/

/-- A router that wants no more never does again. -/
theorem wants_perform (h : (s.perform test answers m).1.router.wants = true) :
    s.router.wants = true := by
  cases m with
  | poll other => rwa [(aside_poll s other).wants] at h
  | turn =>
    rcases perform_turn_cases test answers s with hturn | ⟨hwants, -⟩
    · rwa [hturn] at h
    · exact hwants
  | drop other => rwa [(aside_drop s other).wants] at h

theorem wants_performAll (h : (s.performAll test answers moves).1.router.wants = true) :
    s.router.wants = true := by
  induction moves generalizing s with
  | nil => exact h
  | cons m moves ih => exact wants_perform (ih h)

theorem stopped_perform (h : s.router.wants = false) :
    (s.perform test answers m).1.router.wants = false :=
  Bool.eq_false_iff.mpr fun hwants => Bool.eq_false_iff.mp h (wants_perform hwants)

theorem stopped_performAll (h : s.router.wants = false) :
    (s.performAll test answers moves).1.router.wants = false := by
  induction moves generalizing s with
  | nil => exact h
  | cons m moves ih => exact ih (stopped_perform h)

/-- A router that wants more after its turn has taken a chunk. -/
theorem calls_perform (hstarted : s.started = true)
    (h : (s.perform test answers m).1.router.wants = true) :
    (s.perform test answers m).1.router.calls
      = s.router.calls + if m == .turn then 1 else 0 := by
  cases m with
  | poll other => exact (aside_poll s other).calls
  | turn =>
    have hwants : s.router.wants = true := wants_perform h
    have hruns : (s.started && s.router.wants) = true := by rw [hstarted, hwants]; rfl
    cases hanswer : answers s.router.calls with
    | none =>
      rw [perform_turn_of_none hruns hanswer] at h
      cases h
    | some c =>
      rw [perform_turn_of_some hruns hanswer]
      exact Router.calls_step hwants
  | drop other => exact (aside_drop s other).calls

theorem calls_performAll (hstarted : s.started = true)
    (h : (s.performAll test answers moves).1.router.wants = true) :
    (s.performAll test answers moves).1.router.calls = s.router.calls + moves.count .turn := by
  induction moves generalizing s with
  | nil => rfl
  | cons m moves ih =>
    rw [performAll_cons] at h ⊢
    rw [ih (started_perform hstarted) h, calls_perform hstarted (wants_performAll h),
      List.count_cons]
    omega

/-- A turn is for one chunk at most. -/
theorem calls_perform_le : (s.perform test answers m).1.router.calls
    ≤ s.router.calls + if m == .turn then 1 else 0 := by
  cases m with
  | poll other => exact Nat.le_of_eq (aside_poll s other).calls
  | turn =>
    rcases perform_turn_cases test answers s with h | ⟨hwants, ⟨-, h⟩ | ⟨c, -, h⟩⟩
    · rw [h]
      exact Nat.le_add_right _ _
    · rw [h]
      exact Nat.le_add_right _ _
    · rw [h]
      exact Nat.le_of_eq (Router.calls_step hwants)
  | drop other => exact Nat.le_of_eq (aside_drop s other).calls

theorem calls_performAll_le (test : Nat → Chunk → Bool) (answers : Nat → Option Chunk) (s : Split)
    (moves : List Move) :
    (s.performAll test answers moves).1.router.calls ≤ s.router.calls + moves.count .turn := by
  induction moves generalizing s with
  | nil => exact Nat.le_refl _
  | cons m moves ih =>
    rw [List.count_cons]
    have hone : (s.perform test answers m).1.router.calls
        ≤ s.router.calls + if m == .turn then 1 else 0 := calls_perform_le
    refine Nat.le_trans (ih (s.perform test answers m).1) ?_
    omega

/-- A router that has stopped leaves the halves alone. -/
theorem half_perform (hwants : s.router.wants = false) (hasks : m ≠ .poll side)
    (hstays : m ≠ .drop side) :
    (s.perform test answers m).1.router.half side = s.router.half side := by
  cases m with
  | poll other => exact (aside_poll s other).half side fun h => hasks (h ▸ rfl)
  | turn => rw [perform_turn_of_idle (by rw [hwants, Bool.and_false])]
  | drop other => exact (aside_drop s other).half side fun h => hstays (h ▸ rfl)

/-- Whoever asks once more than there are chunks in its half is told the end, once the router has
stopped. -/
theorem told_ended (hwants : s.router.wants = false) (hheld : (s.router.half side).held = true)
    (hstays : .drop side ∉ moves)
    (hasks : (s.router.half side).queue.length < moves.count (.poll side)) :
    .told side .ended ∈ (s.performAll test answers moves).2 := by
  induction moves generalizing s with
  | nil => cases hasks
  | cons m moves ih =>
    have hstill : (s.perform test answers m).1.router.wants = false := stopped_perform hwants
    have hm := List.ne_of_not_mem_cons hstays
    have hlater := List.not_mem_of_not_mem_cons hstays
    have hheld' : ((s.perform test answers m).1.router.half side).held = true :=
      (held_perform (Ne.symm hm)).trans hheld
    rw [performAll_cons, List.mem_append]
    by_cases hpoll : m = .poll side
    · subst hpoll
      cases hqueue : (s.router.half side).queue with
      | nil =>
        rw [perform_poll_of_empty hheld hqueue, hwants]
        exact .inl (List.mem_singleton.mpr rfl)
      | cons c queue =>
        refine .inr (ih hstill hheld' hlater ?_)
        rw [perform_poll_of_item hheld hqueue, Router.half_update_self]
        rw [hqueue, List.count_cons_self, List.length_cons] at hasks
        exact Nat.lt_of_succ_lt_succ hasks
    · refine .inr (ih hstill hheld' hlater ?_)
      rw [half_perform hwants hpoll (Ne.symm hm)]
      rwa [List.count_cons_of_ne hpoll] at hasks

/-! ## What the readers get -/

theorem routes_performAll (test : Nat → Chunk → Bool) (chunks : List Chunk) (moves : List Move) :
    Routes test chunks (start.performAll test (fun n => chunks[n]?) moves).1
      (start.performAll test (fun n => chunks[n]?) moves).2 :=
  routes_start.performAll moves

/-- A reader that has stayed was given nothing but its share, in order. -/
theorem Routes.received_isPrefix {events : List Event} (h : Routes test chunks s events)
    (hheld : (s.router.half side).held = true) :
    Split.received side events <+: share test side chunks :=
  .trans ⟨_, (h.serves side hheld).received⟩ (share_take_isPrefix test side chunks _)

/-- A router whose source has ended has asked its test about all chunks. -/
theorem Routes.asked_all {events : List Event} (h : Routes test chunks s events)
    (hended : s.router.ended = true) : Split.asked events = chunks.zipIdx 1 := by
  rw [h.asked, h.all_asked hended, List.take_of_length_le (Nat.le_of_eq List.length_zipIdx)]

/-- Who was told the end has all of its share. -/
theorem Routes.received_all {events : List Event} (h : Routes test chunks s events)
    (hheld : (s.router.half side).held = true) (htold : .told side .ended ∈ events) :
    Split.received side events = share test side chunks := by
  have hserves := h.serves side hheld
  obtain ⟨hended, hqueue⟩ := hserves.told htold
  rw [← List.append_nil (Split.received side events), ← hqueue, hserves.received,
    h.all_asked hended, List.take_length]

/-- A router that serves somebody wants no more only because its source has ended. -/
theorem Routes.ended_of_unwanted {events : List Event} (h : Routes test chunks s events)
    (hheld : (s.router.half side).held = true) (hwants : s.router.wants = false) :
    s.router.ended = true := by
  rwa [Router.wants_of_routed (h.serves side hheld).routed, Bool.not_eq_false'] at hwants

/-- There are no more chunks in a half than in the source. -/
theorem Routes.queue_le {events : List Event} (h : Routes test chunks s events)
    (hheld : (s.router.half side).held = true) :
    (s.router.half side).queue.length ≤ chunks.length := by
  have hreceived := congrArg List.length (h.serves side hheld).received
  have hshare := length_share_le test side (chunks.take s.router.calls)
  rw [List.length_append] at hreceived
  rw [List.length_take] at hshare
  omega

/-- Once a reader has asked, the router needs a turn for each chunk and one for the end. -/
theorem wants_of_turns (test : Nat → Chunk → Bool) {before after : List Move}
    (hstays : .drop side ∉ before ++ after)
    (hasks : .poll side ∈ before) (hturns : chunks.length < after.count .turn) :
    (start.performAll test (fun n => chunks[n]?) (before ++ after)).1.router.wants = false := by
  refine Bool.eq_false_iff.mpr fun hwants => ?_
  have hcalls := (routes_performAll test chunks (before ++ after)).calls_le
  have hbefore : .drop side ∉ before := fun h => hstays (List.mem_append_left _ h)
  rw [performAll_append] at hwants hcalls
  rw [calls_performAll (started_of_poll (held_start side) hbefore hasks) hwants] at hcalls
  omega

end Split

/-- A split partitions its source: for every test (its answers may depend on how often it was asked
before, and so on all that it remembers of the source), for all chunks and whatever happens in which
order, the test is asked once about each chunk, in the order of the source, and a reader that stays
is given the chunks for which the test has picked its half, in this order. It is told that there are
no more when it has all of them and not before. And it is told so: once it has asked, the router
needs a turn for each chunk and one for the end, and behind them the reader has to ask once for each
chunk, at most, and once for the end. What the reader of the other half does makes no difference. -/
theorem split_partitions (test : Nat → Chunk → Bool) (chunks : List Chunk)
    (moves : List Split.Move) :
    let events := (Split.start.performAll test (fun n => chunks[n]?) moves).2
    Split.asked events <+: chunks.zipIdx 1 ∧
      ∀ side, .drop side ∉ moves →
        Split.received side events <+: share test side chunks ∧
        (.told side .ended ∈ events →
          Split.received side events = share test side chunks ∧
            Split.asked events = chunks.zipIdx 1) ∧
        ∀ before between after, moves = before ++ between ++ after → .poll side ∈ before →
          chunks.length < between.count .turn →
          Split.asked events = chunks.zipIdx 1 ∧
            (chunks.length < after.count (.poll side) → .told side .ended ∈ events) := by
  intro events
  have hroutes : Split.Routes test chunks _ events := Split.routes_performAll test chunks moves
  refine ⟨hroutes.asked ▸ List.take_prefix _ _, fun side hstays => ?_⟩
  have hheld := Split.held_of_stays test (fun n => chunks[n]?) hstays
  refine ⟨hroutes.received_isPrefix hheld, fun htold => ?_, ?_⟩
  · exact ⟨hroutes.received_all hheld htold,
      hroutes.asked_all ((hroutes.serves side hheld).told htold).1⟩
  · rintro before between after rfl hasks hturns
    have hfirst : .drop side ∉ before ++ between := fun h => hstays (List.mem_append_left _ h)
    have hafter : .drop side ∉ after := fun h => hstays (List.mem_append_right _ h)
    have hwants := Split.wants_of_turns test hfirst hasks hturns
    refine ⟨hroutes.asked_all (hroutes.ended_of_unwanted hheld ?_), fun hmore => ?_⟩
    · rw [Split.performAll_append]
      exact Split.stopped_performAll hwants
    · have hheld := Split.held_of_stays test (fun n => chunks[n]?) hfirst
      have hqueue := (Split.routes_performAll test chunks (before ++ between)).queue_le hheld
      rw [show events = _ from congrArg Prod.snd (Split.performAll_append _ after)]
      exact List.mem_append_right _
        (Split.told_ended hwants hheld hafter (Nat.lt_of_le_of_lt hqueue hmore))

/-- Every other chunk, while the other reader leaves in the middle. -/
theorem split_partitions_every_other :
    let a : Chunk := ⟨.stdout, [97]⟩
    let b : Chunk := ⟨.stderr, [98]⟩
    let c : Chunk := ⟨.stdout, [99]⟩
    let events := (Split.start.performAll (fun call _ => call % 2 == 1) (fun n => [a, b, c][n]?)
      [.poll .matched, .turn, .drop .unmatched, .turn, .turn, .turn,
        .poll .matched, .poll .matched, .poll .matched, .poll .matched]).2
    Split.received .matched events = [a, c] ∧ Split.asked events = [(a, 1), (b, 2), (c, 3)] := by
  intro a b c events
  have hmatched := (split_partitions (fun call _ => call % 2 == 1) [a, b, c] _).2 .matched
    (show _ ∉ [.poll .matched, .turn, .drop .unmatched, .turn, .turn, .turn,
      .poll .matched, .poll .matched, .poll .matched, .poll .matched] by decide)
  obtain ⟨-, hended, hintime⟩ := hmatched
  have htold := (hintime [.poll .matched] [.turn, .drop .unmatched, .turn, .turn, .turn]
    [.poll .matched, .poll .matched, .poll .matched, .poll .matched] rfl (by decide)
    (by decide)).2 (by decide)
  exact hended htold

/-- What a half holds whose reader has stayed, after some chunks of the source. -/
theorem queue_foldl_step {test : Nat → Chunk → Bool} {side : Side} (chunks : List Chunk) {r : Router}
    (hended : r.ended = false) (hheld : (r.half side).held = true)
    (hrouted : (r.half side).routed = true) :
    ((chunks.foldl (fun r c => r.step test (some c)) r).half side).queue
      = (r.half side).queue ++ ((chunks.zipIdx (r.calls + 1)).filter fun (c, call) =>
          Router.side test call c = side).map Prod.fst := by
  induction chunks generalizing r with
  | nil => simp
  | cons c chunks ih =>
    have hwants : r.wants = true := by rw [Router.wants_of_routed hrouted, hended]; rfl
    have hhalf := Router.half_step_of_held test c hwants hheld hrouted
    rw [List.foldl_cons, ih ((Router.ended_step hwants).trans hended) (by rw [hhalf]; exact hheld)
      (by rw [hhalf]; exact hrouted), hhalf, Router.calls_step hwants, List.append_assoc,
      List.zipIdx_cons, List.filter_cons]
    split <;> simp_all

/-- Both halves of a finite stream are the shares of its chunks. -/
theorem splitChunks_eq (test : Nat → Chunk → Bool) (dropped : Option Side) (chunks : List Chunk) :
    let half := fun side => if dropped = some side then none else some (share test side chunks)
    splitChunks test dropped chunks = (half .matched, half .unmatched) := by
  have hqueue : ∀ {r : Router} {side : Side}, r.ended = false → r.calls = 0 →
      r.half side = ⟨[], true, true⟩ →
      ((chunks.foldl (fun r c => r.step test (some c)) r).half side).queue
        = share test side chunks := by
    intro r side hended hcalls hhalf
    rw [queue_foldl_step chunks hended (by rw [hhalf]) (by rw [hhalf]), hhalf, hcalls]
    rfl
  rcases dropped with _ | _ | _
  · exact Prod.ext (congrArg some (hqueue rfl rfl rfl)) (congrArg some (hqueue rfl rfl rfl))
  · exact Prod.ext rfl (congrArg some (hqueue rfl rfl rfl))
  · exact Prod.ext (congrArg some (hqueue rfl rfl rfl)) rfl

end Runnel
