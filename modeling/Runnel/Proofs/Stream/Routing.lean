import Runnel.Stream.Split

/-!
# Runnel.Proofs.Stream.Routing

A split partitions its source. The readers ask their halves whenever they like and leave whenever
they like, and the router takes its turns in between; who stays and reads on gets exactly the chunks
for which the test has picked its half.

* `Split.Move`, `Split.Event`: what can happen to a split, and what is seen of it.
* `Split.performAll`: the events of any moves in any order.
* `share`: the chunks of one half, told from the source and the test alone.
* `Split.Routes`: what the events so far have to do with the source; each move keeps it.
* `split_partitions`: what both readers get, and when.
-/

namespace Runnel

namespace Router

variable {r : Router} {side other : Side} {f : Half → Half}

@[simp] theorem half_update_self : (r.update side f).half side = f (r.half side) := by
  cases side <;> rfl

theorem half_update_ne (h : other ≠ side) : (r.update side f).half other = r.half other := by
  cases side <;> cases other <;> first | rfl | exact absurd rfl h

theorem calls_update : (r.update side f).calls = r.calls := by
  cases side <;> rfl

theorem ended_update : (r.update side f).ended = r.ended := by
  cases side <;> rfl

/-- Readers do not change what the router wants. -/
theorem wants_update (hf : ∀ h : Half, (f h).routed = h.routed) :
    (r.update side f).wants = r.wants := by
  cases side <;> simp [wants, update, hf]

theorem wants_iff : r.wants = true ↔ r.ended = false ∧ ∃ side, (r.half side).routed = true := by
  have hsides : (∃ side, (r.half side).routed = true)
      ↔ r.matched.routed = true ∨ r.unmatched.routed = true :=
    ⟨fun ⟨side, h⟩ => by cases side with
      | matched => exact .inl h
      | unmatched => exact .inr h,
      fun h => h.elim (fun h => ⟨.matched, h⟩) fun h => ⟨.unmatched, h⟩⟩
  rw [hsides, wants, Bool.and_eq_true, Bool.not_eq_true', Bool.or_eq_true]

/-- The router wants no more only if its source has ended, as long as it sends to some half. -/
theorem wants_of_routed (h : (r.half side).routed = true) : r.wants = !r.ended := by
  rw [Bool.eq_iff_iff, wants_iff, Bool.not_eq_true']
  exact and_iff_left ⟨side, h⟩

@[simp] theorem half_step_none (test : Nat → Chunk → Bool) (side : Side) :
    (r.step test none).half side = r.half side := by
  cases side <;> rfl

section

variable {test : Nat → Chunk → Bool} {c : Chunk}

theorem step_some (h : r.wants = true) :
    r.step test (some c)
      = Router.update { r with calls := r.calls + 1 } (Router.side test (r.calls + 1) c)
          fun h => h.send c := by
  simp [step, h]

theorem calls_step (h : r.wants = true) : (r.step test (some c)).calls = r.calls + 1 := by
  rw [step_some h, calls_update]

theorem ended_step (h : r.wants = true) : (r.step test (some c)).ended = r.ended := by
  rw [step_some h, ended_update]

/-- A chunk is sent to the half that the test picks, and the other one does not hear of it. -/
theorem half_step (h : r.wants = true) (side : Side) :
    (r.step test (some c)).half side
      = if Router.side test (r.calls + 1) c = side then (r.half side).send c else r.half side := by
  rw [step_some h]
  split
  · rename_i hside
    rw [hside, half_update_self]
    rfl
  · rename_i hside
    rw [half_update_ne (Ne.symm hside)]
    rfl

/-- The router finds out that a reader has left when it sends something there. -/
theorem routed_step_of_left (h : r.wants = true) (hleft : (r.half side).held = false) :
    ((r.step test (some c)).half side).routed = true
      ↔ (r.half side).routed = true ∧ Router.side test (r.calls + 1) c ≠ side := by
  have hsend : ((r.half side).send c).routed = false := by
    rw [Half.send, hleft]
    cases hrouted : (r.half side).routed <;> simp [hrouted]
  rw [half_step h]
  split <;> simp_all

/-- A half whose reader is there gets the chunks that the test picks for it. -/
theorem half_step_of_held (test : Nat → Chunk → Bool) (c : Chunk) (h : r.wants = true)
    (hheld : (r.half side).held = true) (hrouted : (r.half side).routed = true) :
    (r.step test (some c)).half side
      = { r.half side with
          queue := (r.half side).queue
            ++ if Router.side test (r.calls + 1) c = side then [c] else [] } := by
  have hsend : (r.half side).send c
      = { r.half side with queue := (r.half side).queue ++ [c] } := by
    rw [Half.send, if_pos hrouted, if_pos hheld]
  rw [half_step h, hsend]
  split
  · rfl
  · rw [List.append_nil]

end

end Router

/-- The chunks of one half: those for which the test picks it. -/
def share (test : Nat → Chunk → Bool) (side : Side) (chunks : List Chunk) : List Chunk :=
  ((chunks.zipIdx 1).filter fun (c, call) => Router.side test call c = side).map Prod.fst

theorem share_concat (test : Nat → Chunk → Bool) (side : Side) (chunks : List Chunk) (c : Chunk) :
    share test side (chunks ++ [c])
      = share test side chunks
        ++ if Router.side test (chunks.length + 1) c = side then [c] else [] := by
  rw [share, List.zipIdx_append, List.filter_append, List.map_append, ← share, Nat.add_comm 1]
  by_cases h : Router.side test (chunks.length + 1) c = side <;> simp [h]

theorem share_take_isPrefix (test : Nat → Chunk → Bool) (side : Side) (chunks : List Chunk)
    (n : Nat) : share test side (chunks.take n) <+: share test side chunks := by
  have hzip : (chunks.take n).zipIdx 1 <+: chunks.zipIdx 1 :=
    ⟨(chunks.drop n).zipIdx (1 + (chunks.take n).length), by
      rw [← List.zipIdx_append, List.take_append_drop]⟩
  exact (hzip.filter _).map _

theorem length_share_le (test : Nat → Chunk → Bool) (side : Side) (chunks : List Chunk) :
    (share test side chunks).length ≤ chunks.length := by
  rw [share, List.length_map]
  exact Nat.le_trans (List.length_filter_le _ _) (Nat.le_of_eq List.length_zipIdx)

namespace Split

/-- What can happen to a split. -/
inductive Move where
  /-- The reader of a half asks for a chunk. -/
  | poll (side : Side)
  /-- The source answers the router. -/
  | turn
  /-- The reader of a half leaves. -/
  | drop (side : Side)
  deriving Repr, DecidableEq

/-- What is seen of it. -/
inductive Event where
  /-- The test is asked about a chunk. Its calls are counted from one. -/
  | asked (call : Nat) (c : Chunk)
  /-- A reader has an answer. -/
  | told (side : Side) (answer : Polled)
  deriving Repr, DecidableEq

/-- The chunks that the test was asked about, with the numbers of its calls. -/
def asked (events : List Event) : List (Chunk × Nat) :=
  events.filterMap fun
    | .asked call c => some (c, call)
    | .told _ _ => none

/-- The chunks that the reader of a half was given. -/
def received (side : Side) (events : List Event) : List Chunk :=
  events.filterMap fun
    | .told other (.item c) => if other = side then some c else none
    | _ => none

section

variable (test : Nat → Chunk → Bool) (answers : Nat → Option Chunk)

/-- Something happens to a split. A reader that has left asks no more. -/
def perform (s : Split) : Move → Split × List Event
  | .poll side =>
    if (s.router.half side).held then
      let (answer, s) := s.poll side
      (s, [.told side answer])
    else (s, [])
  | .turn =>
    (s.turn test answers,
      if s.started && s.router.wants then
        ((answers s.router.calls).map (.asked (s.router.calls + 1))).toList
      else [])
  | .drop side => (s.drop side, [])

/-- One thing after the other happens to a split. -/
def performAll : Split → List Move → Split × List Event
  | s, [] => (s, [])
  | s, m :: moves =>
    let (s, events) := s.perform test answers m
    let (s, more) := performAll s moves
    (s, events ++ more)

end

variable {test : Nat → Chunk → Bool} {answers : Nat → Option Chunk} {s : Split} {side : Side}

theorem asked_append (before after : List Event) :
    asked (before ++ after) = asked before ++ asked after :=
  List.filterMap_append

theorem received_append (before after : List Event) :
    received side (before ++ after) = received side before ++ received side after :=
  List.filterMap_append

@[simp] theorem performAll_nil : s.performAll test answers [] = (s, []) := rfl

theorem performAll_cons (m : Move) (moves : List Move) :
    s.performAll test answers (m :: moves)
      = (((s.perform test answers m).1.performAll test answers moves).1,
          (s.perform test answers m).2
            ++ ((s.perform test answers m).1.performAll test answers moves).2) :=
  rfl

theorem performAll_append (before after : List Move) :
    s.performAll test answers (before ++ after)
      = (((s.performAll test answers before).1.performAll test answers after).1,
          (s.performAll test answers before).2
            ++ ((s.performAll test answers before).1.performAll test answers after).2) := by
  induction before generalizing s with
  | nil => simp
  | cons m before ih => simp [performAll_cons, ih]

/-! ## One move -/

theorem perform_poll_of_empty (hheld : (s.router.half side).held = true)
    (hqueue : (s.router.half side).queue = []) :
    s.perform test answers (.poll side)
      = (⟨s.router, true⟩,
          [.told side (if s.router.wants then .pending else .ended)]) := by
  simp [perform, hheld, poll, Router.read, hqueue]

theorem perform_poll_of_item (hheld : (s.router.half side).held = true) {c : Chunk}
    {queue : List Chunk} (hqueue : (s.router.half side).queue = c :: queue) :
    s.perform test answers (.poll side)
      = (⟨s.router.update side fun h => { h with queue }, true⟩, [.told side (.item c)]) := by
  simp [perform, hheld, poll, Router.read, hqueue]

theorem perform_poll_of_left (hheld : (s.router.half side).held = false) :
    s.perform test answers (.poll side) = (s, []) := by
  simp [perform, hheld]

theorem perform_turn_of_idle (h : (s.started && s.router.wants) = false) :
    s.perform test answers .turn = (s, []) := by
  simp only [perform, turn, h, Bool.false_eq_true, if_false]

theorem perform_turn_of_none (h : (s.started && s.router.wants) = true)
    (hanswer : answers s.router.calls = none) :
    s.perform test answers .turn = ({ s with router := s.router.step test none }, []) := by
  simp only [perform, turn, h, hanswer, if_true, Option.map_none, Option.toList_none]

theorem perform_turn_of_some (h : (s.started && s.router.wants) = true) {c : Chunk}
    (hanswer : answers s.router.calls = some c) :
    s.perform test answers .turn
      = ({ s with router := s.router.step test (some c) }, [.asked (s.router.calls + 1) c]) := by
  simp only [perform, turn, h, hanswer, if_true, Option.map_some, Option.toList_some]

/-- What a turn can be: the router does not run, or it hears the end of its source, or a chunk. -/
theorem perform_turn_cases (test : Nat → Chunk → Bool) (answers : Nat → Option Chunk) (s : Split) :
    s.perform test answers .turn = (s, []) ∨
      s.router.wants = true ∧
        (answers s.router.calls = none ∧
            s.perform test answers .turn = ({ s with router := s.router.step test none }, []) ∨
          ∃ c, answers s.router.calls = some c ∧
            s.perform test answers .turn
              = ({ s with router := s.router.step test (some c) },
                  [.asked (s.router.calls + 1) c])) := by
  cases hruns : s.started && s.router.wants with
  | false => exact .inl (perform_turn_of_idle hruns)
  | true =>
    refine .inr ⟨(Bool.and_eq_true_iff.mp hruns).2, ?_⟩
    cases hanswer : answers s.router.calls with
    | none => exact .inl ⟨rfl, perform_turn_of_none hruns hanswer⟩
    | some c => exact .inr ⟨c, rfl, perform_turn_of_some hruns hanswer⟩

/-- Only the half of one reader has changed, and nobody else has seen anything. -/
structure Aside (side : Side) (s s' : Split) (new : List Event) : Prop where
  wants : s'.router.wants = s.router.wants
  calls : s'.router.calls = s.router.calls
  ended : s'.router.ended = s.router.ended
  half : ∀ other, other ≠ side → s'.router.half other = s.router.half other
  asked : asked new = []
  received : ∀ other, other ≠ side → received other new = []
  told : ∀ other, other ≠ side → .told other .ended ∉ new

theorem aside_poll (s : Split) (side : Side) :
    Aside side s (s.perform test answers (.poll side)).1
      (s.perform test answers (.poll side)).2 := by
  cases hheld : (s.router.half side).held with
  | false =>
    rw [perform_poll_of_left hheld]
    exact ⟨rfl, rfl, rfl, fun _ _ => rfl, rfl, fun _ _ => rfl, fun _ _ => nofun⟩
  | true =>
    cases hqueue : (s.router.half side).queue with
    | nil =>
      rw [perform_poll_of_empty hheld hqueue]
      refine ⟨rfl, rfl, rfl, fun _ _ => rfl, rfl, fun other hother => ?_, fun other hother => ?_⟩
      · split <;> rfl
      · simp [hother]
    | cons c queue =>
      rw [perform_poll_of_item hheld hqueue]
      refine ⟨Router.wants_update fun _ => rfl, Router.calls_update, Router.ended_update,
        fun other hother => ?_, rfl, fun other hother => ?_, fun other hother => ?_⟩
      · exact Router.half_update_ne hother
      · simp [Split.received, hother.symm]
      · simp

theorem aside_drop (s : Split) (side : Side) :
    Aside side s (s.perform test answers (.drop side)).1
      (s.perform test answers (.drop side)).2 :=
  ⟨Router.wants_update fun _ => rfl, Router.calls_update, Router.ended_update,
    fun _ hother => Router.half_update_ne hother, rfl, fun _ _ => rfl, fun _ _ => nofun⟩

theorem held_poll (s : Split) (side other : Side) :
    ((s.perform test answers (.poll side)).1.router.half other).held
      = (s.router.half other).held := by
  by_cases hother : other = side
  · subst hother
    cases hheld : (s.router.half other).held with
    | false => rw [perform_poll_of_left hheld, hheld]
    | true =>
      cases hqueue : (s.router.half other).queue with
      | nil => rw [perform_poll_of_empty hheld hqueue, hheld]
      | cons c queue =>
        rw [perform_poll_of_item hheld hqueue, Router.half_update_self]
        exact hheld
  · rw [(aside_poll s side).half other hother]

theorem held_drop (s : Split) (side : Side) :
    ((s.perform test answers (.drop side)).1.router.half side).held = false := by
  rw [perform, Split.drop, Router.drop, Router.half_update_self]
  rfl

/-- The router does not hear of it when a reader leaves. -/
theorem routed_drop (s : Split) (side other : Side) :
    ((s.perform test answers (.drop side)).1.router.half other).routed
      = (s.router.half other).routed := by
  by_cases hother : other = side
  · rw [hother, perform, Split.drop, Router.drop, Router.half_update_self]
    rfl
  · rw [(aside_drop s side).half other hother]

theorem held_turn (test : Nat → Chunk → Bool) (answers : Nat → Option Chunk) (s : Split)
    (side : Side) :
    ((s.perform test answers .turn).1.router.half side).held = (s.router.half side).held := by
  rcases perform_turn_cases test answers s with h | ⟨hwants, ⟨-, h⟩ | ⟨c, -, h⟩⟩
  · rw [h]
  · rw [h, Router.half_step_none]
  · rw [h, Router.half_step hwants]
    split
    · rw [Half.send]
      grind
    · rfl

/-! ## All moves -/

/-- The reader of a half, who has stayed, was given or will find the chunks of this half. -/
structure Serves (test : Nat → Chunk → Bool) (chunks : List Chunk) (s : Split)
    (events : List Event) (side : Side) : Prop where
  routed : (s.router.half side).routed = true
  received : received side events ++ (s.router.half side).queue
    = share test side (chunks.take s.router.calls)
  told : .told side .ended ∈ events → s.router.ended = true ∧ (s.router.half side).queue = []

/-- After these events the router has asked its test about the first chunks of the source, one after
the other, and serves each reader that has stayed. -/
structure Routes (test : Nat → Chunk → Bool) (chunks : List Chunk) (s : Split)
    (events : List Event) : Prop where
  calls_le : s.router.calls ≤ chunks.length
  asked : asked events = (chunks.zipIdx 1).take s.router.calls
  all_asked : s.router.ended = true → s.router.calls = chunks.length
  serves : ∀ side, (s.router.half side).held = true → Serves test chunks s events side

variable {chunks : List Chunk} {s' : Split} {events new : List Event}

theorem routes_start : Routes test chunks start [] where
  calls_le := Nat.zero_le _
  asked := rfl
  all_asked := nofun
  serves side _ := by cases side <;> exact ⟨rfl, rfl, nofun⟩

/-- What happens to the other half makes no difference. -/
theorem Serves.keep (h : Serves test chunks s events side)
    (hhalf : s'.router.half side = s.router.half side)
    (hcalls : s'.router.calls = s.router.calls)
    (hended : s.router.ended = true → s'.router.ended = true)
    (hreceived : Split.received side new = []) (htold : .told side .ended ∉ new) :
    Serves test chunks s' (events ++ new) side where
  routed := hhalf ▸ h.routed
  received := by rw [received_append, hreceived, List.append_nil, hhalf, hcalls, h.received]
  told hmem := by
    rw [hhalf]
    have hbefore := (List.mem_append.mp hmem).resolve_right htold
    exact ⟨hended (h.told hbefore).1, (h.told hbefore).2⟩

theorem Serves.poll (h : Serves test chunks s events side)
    (hheld : (s.router.half side).held = true) :
    Serves test chunks (s.perform test answers (.poll side)).1
      (events ++ (s.perform test answers (.poll side)).2) side := by
  cases hqueue : (s.router.half side).queue with
  | nil =>
    rw [perform_poll_of_empty hheld hqueue, Router.wants_of_routed h.routed]
    have hnone : Split.received side [.told side (if (!s.router.ended) = true then .pending
        else .ended)] = [] := by
      cases s.router.ended <;> rfl
    refine ⟨h.routed, ?_, fun hmem => ?_⟩
    · rw [received_append, hnone, List.append_nil]
      exact h.received
    · rcases List.mem_append.mp hmem with hmem | hmem
      · exact h.told hmem
      · refine ⟨?_, hqueue⟩
        cases hended : s.router.ended with
        | true => rfl
        | false => simp [hended] at hmem
  | cons c queue =>
    rw [perform_poll_of_item hheld hqueue]
    refine ⟨?_, ?_, fun hmem => ?_⟩
    · rw [Router.half_update_self]
      exact h.routed
    · have hone : Split.received side [.told side (.item c)] = [c] := by simp [Split.received]
      rw [received_append, hone, Router.half_update_self, Router.calls_update, ← h.received, hqueue,
        List.append_assoc, List.singleton_append]
    · -- a half in which there is a chunk has not been said to have ended
      have hbefore : .told side .ended ∈ events := by simpa using hmem
      rw [(h.told hbefore).2] at hqueue
      cases hqueue

theorem Serves.turn (h : Serves test chunks s events side) (hwants : s.router.wants = true)
    (hheld : (s.router.half side).held = true) {c : Chunk}
    (hanswer : chunks[s.router.calls]? = some c) :
    Serves test chunks { s with router := s.router.step test (some c) }
      (events ++ [.asked (s.router.calls + 1) c]) side := by
  have hcalls : s.router.calls ≤ chunks.length :=
    Nat.le_of_lt (List.getElem?_eq_some_iff.mp hanswer).1
  have htake : chunks.take (s.router.calls + 1) = chunks.take s.router.calls ++ [c] := by
    rw [List.take_add_one, hanswer, Option.toList_some]
  have hhalf := Router.half_step_of_held test c hwants hheld h.routed
  refine ⟨?_, ?_, fun hmem => ?_⟩
  · rw [hhalf]
    exact h.routed
  · have hnone : Split.received side [.asked (s.router.calls + 1) c] = [] := rfl
    rw [received_append, hnone, List.append_nil, hhalf, Router.calls_step hwants, htake,
      share_concat, List.length_take_of_le hcalls, ← h.received, List.append_assoc]
  · have hbefore : .told side .ended ∈ events := by simpa using hmem
    -- a router whose source has ended wants no more
    rw [Router.wants_of_routed h.routed, (h.told hbefore).1] at hwants
    cases hwants

/-- What concerns one reader only does not touch the other one. -/
theorem Routes.aside (h : Routes test chunks s events) (ha : Aside side s s' new)
    (hserves : (s'.router.half side).held = true → Serves test chunks s' (events ++ new) side) :
    Routes test chunks s' (events ++ new) where
  calls_le := ha.calls ▸ h.calls_le
  asked := by rw [asked_append, ha.asked, List.append_nil, ha.calls, h.asked]
  all_asked hended := by
    rw [ha.calls]
    exact h.all_asked (ha.ended ▸ hended)
  serves other hheld := by
    by_cases hother : other = side
    · subst hother
      exact hserves hheld
    · have hhalf := ha.half other hother
      exact (h.serves other (hhalf ▸ hheld)).keep hhalf ha.calls (fun hended => ha.ended ▸ hended)
        (ha.received other hother) (ha.told other hother)

/-- The router sends the next chunk to its half, or it hears that there is none. -/
theorem Routes.turn (h : Routes test chunks s events) :
    Routes test chunks (s.perform test (fun n => chunks[n]?) .turn).1
      (events ++ (s.perform test (fun n => chunks[n]?) .turn).2) := by
  have hheld := held_turn test (fun n => chunks[n]?) s
  rcases perform_turn_cases test (fun n => chunks[n]?) s with
    hturn | ⟨hwants, ⟨hanswer, hturn⟩ | ⟨c, hanswer, hturn⟩⟩
  · rw [hturn, List.append_nil]
    exact h
  · rw [hturn] at hheld ⊢
    refine ⟨h.calls_le, ?_, fun _ => ?_, fun side hstays => ?_⟩
    · rw [List.append_nil]
      exact h.asked
    · exact Nat.le_antisymm h.calls_le (List.getElem?_eq_none_iff.mp hanswer)
    · rw [hheld] at hstays
      exact (h.serves side hstays).keep (Router.half_step_none test side) rfl (fun _ => rfl) rfl
        nofun
  · rw [hturn] at hheld ⊢
    have hcalls : s.router.calls < chunks.length := (List.getElem?_eq_some_iff.mp hanswer).1
    refine ⟨?_, ?_, fun hended => ?_, fun side hstays => ?_⟩
    · rw [Router.calls_step hwants]
      exact hcalls
    · rw [asked_append, h.asked, Router.calls_step hwants, List.take_add_one, List.getElem?_zipIdx,
        hanswer, Nat.add_comm s.router.calls]
      rfl
    · rw [Router.ended_step hwants] at hended
      exact absurd (h.all_asked hended) (Nat.ne_of_lt hcalls)
    · rw [hheld] at hstays
      exact (h.serves side hstays).turn hwants hstays hanswer

theorem Routes.perform (h : Routes test chunks s events) (m : Move) :
    Routes test chunks (s.perform test (fun n => chunks[n]?) m).1
      (events ++ (s.perform test (fun n => chunks[n]?) m).2) := by
  cases m with
  | poll side =>
    refine h.aside (aside_poll s side) fun hheld => ?_
    rw [held_poll] at hheld
    exact (h.serves side hheld).poll hheld
  | turn => exact h.turn
  | drop side =>
    refine h.aside (aside_drop s side) fun hheld => ?_
    rw [held_drop] at hheld
    cases hheld

theorem Routes.performAll (h : Routes test chunks s events) (moves : List Move) :
    Routes test chunks (s.performAll test (fun n => chunks[n]?) moves).1
      (events ++ (s.performAll test (fun n => chunks[n]?) moves).2) := by
  induction moves generalizing s events with
  | nil => simpa using h
  | cons m moves ih =>
    rw [performAll_cons, ← List.append_assoc]
    exact ih (h.perform m)

end Split
end Runnel
