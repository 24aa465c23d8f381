import Runnel.Proofs.Stream.Partition

/-!
# Runnel.Proofs.Stream.Abandoning

When the router of a split lets its source go after both readers have left. It is not told that they
have: it finds out about a half when it sends something there. So it goes on until its test has
picked each of the two halves once more, and for ever if the test does not pick one of them again.

* `Split.Abandoned`: both readers have left a split whose router has begun.
* `Split.LetsGo`: what it means that a split lets its source go after some more chunks.
* `Split.CountsOn`: the router has had no chunk yet for a half.
* `Split.Since`: what has become of a split since its readers left; each move keeps it.
* `abandoned_letsGo_iff`: the split lets go exactly if there is soon a chunk for either half.
* `abandoned_for_ever`: a split that never lets its source go.
-/

namespace Runnel

namespace Split

/-- The router has begun, and both readers have left. -/
structure Abandoned (s : Split) : Prop where
  started : s.started = true
  left : ∀ side, (s.router.half side).held = false

section

variable (test : Nat → Chunk → Bool) (answers : Nat → Option Chunk)

/-- Whatever happens next, the router takes no more than some chunks of its source, and it lets the
source go when it has had turns enough. -/
structure LetsGo (s : Split) (n : Nat) : Prop where
  calls_le : ∀ moves, (s.performAll test answers moves).1.router.calls ≤ s.router.calls + n
  released : ∃ turns, ∀ moves, turns ≤ moves.count .turn →
    (s.performAll test answers moves).1.holdsSource = false

/-- The test picks a half for a chunk of the source. -/
def Picks (side : Side) (n : Nat) : Prop :=
  ∃ c, answers n = some c ∧ Router.side test (n + 1) c = side

/-- Before a chunk of the source the router still sends to a half: it has had no chunk for it. -/
def CountsOn (s : Split) (side : Side) (n : Nat) : Prop :=
  (s.router.half side).routed = true ∧
    ∀ k, s.router.calls ≤ k → k < n → ¬ Picks test answers side k

/-- What has become of a split since both readers left. The router takes a chunk only while it counts
on one of them. -/
structure Since (s t : Split) : Prop extends Abandoned t where
  calls_le : s.router.calls ≤ t.router.calls
  routed : ∀ side, (t.router.half side).routed = true ↔ CountsOn test answers s side t.router.calls
  ended : s.router.ended = true → t.router.ended = true
  heard : t.router.ended = true → s.router.ended = true ∨ answers t.router.calls = none
  took : ∀ n, s.router.calls ≤ n → n < t.router.calls →
    s.router.ended = false ∧ answers n ≠ none ∧ ∃ side, CountsOn test answers s side n

end

variable {test : Nat → Chunk → Bool} {answers : Nat → Option Chunk} {s t : Split} {side : Side}
  {n : Nat}

theorem countsOn_calls : CountsOn test answers s side s.router.calls
    ↔ (s.router.half side).routed = true :=
  and_iff_left fun _ hle hlt => absurd hlt (Nat.not_lt.mpr hle)

theorem countsOn_succ (hle : s.router.calls ≤ n) :
    CountsOn test answers s side (n + 1)
      ↔ CountsOn test answers s side n ∧ ¬ Picks test answers side n := by
  constructor
  · rintro ⟨hrouted, hnone⟩
    exact ⟨⟨hrouted, fun k hk hlt => hnone k hk (Nat.lt_succ_of_lt hlt)⟩,
      hnone n hle (Nat.lt_succ_self n)⟩
  · rintro ⟨⟨hrouted, hnone⟩, hn⟩
    refine ⟨hrouted, fun k hk hlt => ?_⟩
    rcases Nat.lt_succ_iff_lt_or_eq.mp hlt with hlt | rfl
    · exact hnone k hk hlt
    · exact hn

theorem Since.refl (h : s.Abandoned) : Since test answers s s where
  toAbandoned := h
  calls_le := Nat.le_refl _
  routed _ := countsOn_calls.symm
  ended := id
  heard := .inl
  took _ hle hlt := absurd hlt (Nat.not_lt.mpr hle)

/-- A router that wants more counts on somebody. -/
theorem Since.countsOn (h : Since test answers s t) (hwants : t.router.wants = true) :
    s.router.ended = false ∧ ∃ side, CountsOn test answers s side t.router.calls := by
  obtain ⟨hended, side, hrouted⟩ := Router.wants_iff.mp hwants
  refine ⟨Bool.eq_false_iff.mpr fun hs => ?_, side, (h.routed side).mp hrouted⟩
  rw [h.ended hs] at hended
  cases hended

theorem Since.wants (h : Since test answers s t) (hended : s.router.ended = false)
    (hanswer : answers t.router.calls ≠ none)
    (hcounts : CountsOn test answers s side t.router.calls) : t.router.wants = true := by
  refine Router.wants_iff.mpr ⟨Bool.eq_false_iff.mpr fun ht => ?_, side, (h.routed side).mpr hcounts⟩
  rcases h.heard ht with hs | hnone
  · rw [hs] at hended
    cases hended
  · exact hanswer hnone

theorem Since.turn (h : Since test answers s t) :
    Since test answers s (t.perform test answers .turn).1 := by
  have hleft : ∀ side, ((t.perform test answers .turn).1.router.half side).held = false :=
    fun side => (held_turn test answers t side).trans (h.left side)
  rcases perform_turn_cases test answers t with
    hturn | ⟨hwants, ⟨hanswer, hturn⟩ | ⟨c, hanswer, hturn⟩⟩
  · rw [hturn]
    exact h
  · rw [hturn] at hleft ⊢
    refine ⟨⟨h.started, hleft⟩, h.calls_le, fun side => ?_, fun _ => rfl, fun _ => .inr hanswer,
      h.took⟩
    rw [Router.half_step_none]
    exact h.routed side
  · have hpicks : ∀ side, Picks test answers side t.router.calls
        ↔ Router.side test (t.router.calls + 1) c = side := by
      simp [Picks, hanswer]
    rw [hturn] at hleft ⊢
    have hcalls : (t.router.step test (some c)).calls = t.router.calls + 1 :=
      Router.calls_step hwants
    have hended : (t.router.step test (some c)).ended = t.router.ended := Router.ended_step hwants
    refine ⟨⟨h.started, hleft⟩, ?_, fun side => ?_, fun hs => ?_, fun ht => ?_,
      fun n hle hlt => ?_⟩
    · rw [hcalls]
      exact Nat.le_succ_of_le h.calls_le
    · rw [Router.routed_step_of_left hwants (h.left side), hcalls, countsOn_succ h.calls_le,
        hpicks, h.routed]
    · rw [hended]
      exact h.ended hs
    · -- a router that takes a chunk has not heard the end
      rw [hended, (Router.wants_iff.mp hwants).1] at ht
      cases ht
    · rw [hcalls] at hlt
      rcases Nat.lt_succ_iff_lt_or_eq.mp hlt with hlt | rfl
      · exact h.took n hle hlt
      · obtain ⟨hs, hcounts⟩ := h.countsOn hwants
        exact ⟨hs, by rw [hanswer]; nofun, hcounts⟩

theorem Since.drop (h : Since test answers s t) (side : Side) :
    Since test answers s (t.perform test answers (.drop side)).1 := by
  have haside : Aside side t (t.perform test answers (.drop side)).1
      (t.perform test answers (.drop side)).2 := aside_drop t side
  refine ⟨⟨h.started, fun other => ?_⟩, haside.calls ▸ h.calls_le, fun other => ?_,
    haside.ended ▸ h.ended, haside.ended ▸ haside.calls ▸ h.heard, haside.calls ▸ h.took⟩
  · by_cases hother : other = side
    · rw [hother]
      exact held_drop t side
    · rw [haside.half other hother]
      exact h.left other
  · rw [routed_drop, haside.calls]
    exact h.routed other

theorem Since.perform (h : Since test answers s t) (m : Move) :
    Since test answers s (t.perform test answers m).1 := by
  cases m with
  | poll side =>
    rw [perform_poll_of_left (h.left side)]
    exact h
  | turn => exact h.turn
  | drop side => exact h.drop side

theorem Since.performAll (h : Since test answers s t) (moves : List Move) :
    Since test answers s (t.performAll test answers moves).1 := by
  induction moves generalizing t with
  | nil => exact h
  | cons m moves ih => exact ih (h.perform m)

section

variable (h : s.Abandoned)
include h

theorem Abandoned.since (test : Nat → Chunk → Bool) (answers : Nat → Option Chunk)
    (moves : List Move) : Since test answers s (s.performAll test answers moves).1 :=
  (Since.refl h).performAll moves

/-- As long as the source goes on and the router counts on somebody, it takes a chunk at each
turn. -/
theorem Abandoned.calls_of_counts (hended : s.router.ended = false) (moves : List Move)
    (hanswers : ∀ k, k ≤ moves.count .turn → answers (s.router.calls + k) ≠ none)
    (hcounts : CountsOn test answers s side (s.router.calls + moves.count .turn)) :
    (s.performAll test answers moves).1.router.wants = true ∧
      (s.performAll test answers moves).1.router.calls
        = s.router.calls + moves.count .turn := by
  have hthen := h.since test answers moves
  have hle := calls_performAll_le test answers s moves
  have hwants := hthen.wants hended (by
    rw [← Nat.add_sub_of_le hthen.calls_le]
    exact hanswers _ (by omega)) ⟨hcounts.1, fun k hk hlt => hcounts.2 k hk (by omega)⟩
  exact ⟨hwants, calls_performAll h.started hwants⟩

theorem Abandoned.letsGo
    (hsoon : s.router.ended = true ∨ (∃ k, k ≤ n ∧ answers (s.router.calls + k) = none) ∨
      ∀ side, (s.router.half side).routed = true →
        ∃ k, k < n ∧ Picks test answers side (s.router.calls + k)) :
    LetsGo test answers s n := by
  have hcalls : ∀ moves,
      (s.performAll test answers moves).1.router.calls ≤ s.router.calls + n := by
    refine fun moves => Nat.not_lt.mp fun hlt => ?_
    have htook := (h.since test answers moves).took
    obtain ⟨hended, -, side, hrouted, hnone⟩ := htook _ (Nat.le_add_right _ n) hlt
    rcases hsoon with hs | ⟨k, hk, hend⟩ | hpicked
    · rw [hs] at hended
      cases hended
    · exact (htook _ (Nat.le_add_right _ k) (by omega)).2.1 hend
    · obtain ⟨k, hk, hpicks⟩ := hpicked side hrouted
      exact hnone _ (Nat.le_add_right _ k) (by omega) hpicks
  refine ⟨hcalls, n + 1, fun moves hturns => ?_⟩
  rw [holdsSource, (h.since test answers moves).started, if_pos rfl]
  refine Bool.eq_false_iff.mpr fun hwants => ?_
  have hle := hcalls moves
  rw [calls_performAll h.started hwants] at hle
  omega

theorem Abandoned.soon (hgo : LetsGo test answers s n) (hended : s.router.ended = false)
    (hanswers : ∀ k, k ≤ n → answers (s.router.calls + k) ≠ none)
    (hrouted : (s.router.half side).routed = true) :
    ∃ k, k < n ∧ Picks test answers side (s.router.calls + k) := by
  refine Classical.byContradiction fun hnever => ?_
  have hcounts : CountsOn test answers s side (s.router.calls + n) := by
    refine ⟨hrouted, fun k hk hlt hpicks => hnever ⟨k - s.router.calls, by omega, ?_⟩⟩
    rwa [Nat.add_sub_of_le hk]
  have hcount : (List.replicate n Move.turn).count .turn = n := List.count_replicate_self
  obtain ⟨hwants, hcalls⟩ := h.calls_of_counts hended (.replicate n .turn)
    (by rwa [hcount]) (by rwa [hcount])
  rw [hcount] at hcalls
  -- one turn more than the router is allowed to have
  have hle := hgo.calls_le (.replicate n .turn ++ [.turn])
  obtain ⟨c, hanswer⟩ := Option.ne_none_iff_exists'.mp (hanswers n (Nat.le_refl n))
  have hthen := h.since test answers (.replicate n .turn)
  rw [performAll_append, performAll_cons, performAll_nil,
    perform_turn_of_some (by rw [hthen.started, hwants]; rfl) (by rw [hcalls]; exact hanswer),
    Router.calls_step hwants, hcalls] at hle
  omega

/-- An endless source is never let go if the test does not pick one of the halves again. -/
theorem Abandoned.for_ever (side : Side) (hended : s.router.ended = false)
    (hrouted : (s.router.half side).routed = true)
    (hendless : ∀ n, s.router.calls ≤ n → answers n ≠ none)
    (hnever : ∀ n, s.router.calls ≤ n → ¬ Picks test answers side n) (moves : List Move) :
    (s.performAll test answers moves).1.holdsSource = true ∧
      (s.performAll test answers moves).1.router.calls
        = s.router.calls + moves.count .turn := by
  have hcounts := h.calls_of_counts hended moves (fun k _ => hendless _ (Nat.le_add_right _ k))
    ⟨hrouted, fun k hk _ => hnever k hk⟩
  rwa [holdsSource, (h.since test answers moves).started, if_pos rfl]

end

end Split

/-- When both readers have left a split whose router has begun, the router takes at most `n` more
chunks and lets its source go, whatever happens then, exactly if the source has ended or ends in time
or the test picks each half to which the router still sends for one of the next `n` chunks. -/
theorem abandoned_letsGo_iff (test : Nat → Chunk → Bool) (answers : Nat → Option Chunk) (n : Nat)
    (s : Split) (h : s.Abandoned) :
    s.LetsGo test answers n ↔
      s.router.ended = true ∨ (∃ k, k ≤ n ∧ answers (s.router.calls + k) = none) ∨
        ∀ side, (s.router.half side).routed = true →
          ∃ k, k < n ∧ Split.Picks test answers side (s.router.calls + k) := by
  refine ⟨fun hgo => ?_, h.letsGo⟩
  refine Classical.or_iff_not_imp_left.mpr fun hended => ?_
  refine Classical.or_iff_not_imp_left.mpr fun hends side hrouted => ?_
  exact h.soon hgo (Bool.eq_false_iff.mpr hended) (fun k hk hnone => hends ⟨k, hk, hnone⟩) hrouted

/-- Two more chunks are enough for a test that picks the halves in turn. -/
theorem abandoned_letsGo_in_turn :
    let test : Nat → Chunk → Bool := fun call _ => call % 2 == 1
    let source : Nat → Option Chunk := fun _ => some ⟨.stdout, [121]⟩
    let s := (Split.start.performAll test source
      [.poll .matched, .drop .matched, .drop .unmatched]).1
    s.Abandoned ∧ s.router.wants = true ∧ s.LetsGo test source 2 := by
  intro test source s
  have hleft : s.Abandoned := ⟨rfl, fun side => by cases side <;> rfl⟩
  refine ⟨hleft, rfl, (abandoned_letsGo_iff test source 2 s hleft).mpr (.inr (.inr ?_))⟩
  rintro (_ | _) -
  · exact ⟨0, by decide, _, rfl, rfl⟩
  · refine ⟨1, by decide, _, rfl, ?_⟩
    rw [show s.router.calls = 0 from rfl]
    rfl

/-- A split of an endless output by its kind, left by both readers, never lets its source go: as there
are no messages, the router does not find out that their reader has left. -/
theorem abandoned_for_ever :
    let test : Nat → Chunk → Bool := fun _ c => c.isStdout
    let source : Nat → Option Chunk := fun _ => some ⟨.stdout, [121]⟩
    let s := (Split.start.performAll test source
      [.poll .matched, .drop .matched, .drop .unmatched]).1
    s.Abandoned ∧ ¬ s.LetsGo test source 2 ∧
      ∀ moves, (s.performAll test source moves).1.holdsSource = true ∧
        (s.performAll test source moves).1.router.calls = moves.count .turn := by
  intro test source s
  have hleft : s.Abandoned := ⟨rfl, fun side => by cases side <;> rfl⟩
  have hnever : ∀ n, s.router.calls ≤ n → ¬ Split.Picks test source .unmatched n := by
    rintro n - ⟨c, hc, hside⟩
    cases hc
    cases hside
  have hholds := hleft.for_ever .unmatched rfl rfl (fun _ _ => Option.some_ne_none _) hnever
  refine ⟨hleft, fun hgo => ?_, fun moves => ?_⟩
  · have hle := hgo.calls_le (.replicate 3 .turn)
    rw [(hholds _).2] at hle
    exact absurd hle (by decide)
  · exact ⟨(hholds moves).1, (hholds moves).2.trans (Nat.zero_add _)⟩

end Runnel
