import Runnel.Proofs.Stream.Batching
import Runnel.Proofs.Stream.LineBreaks
import Runnel.Proofs.Stream.Routing
import Runnel.Proofs.Stream.Sliding

/-!
# Runnel.Proofs.Stream.Afterwards

What becomes of a source that has ended. Some sources must not be asked again then, and one that is
asked again may have something to say. Batches, lines and splits let it alone. So do sliding windows,
unless the source was too short for one of them: who has handed out what there was asks once more.

* `Heard.EndsAt`: when a source says for the first time that it has ended.
* `Operator.after`: the state and the results after so much has been heard; `after_congr` and
  `after_of_not_wants` say what they depend on.
* `Operator.LetsAlone`, `Operator.Settled`: nothing is asked after the end, and nothing that is heard
  then makes a difference.
* `WindowState.behind_ended`: the last window, and whether it is the end.
* `Split.Within`: a router is never ahead of the end of its source; each move keeps it.
* `finished_source_let_alone_iff`: the four operators over every source.
-/

namespace Runnel

/-- A source says at `k` that it has ended, and has not said so before. -/
structure Heard.EndsAt {α : Type} (hears : Nat → Heard α) (k : Nat) : Prop where
  ended : hears k = .ended
  first : ∀ i < k, hears i ≠ .ended

namespace Operator

variable {α β : Type} (o : Operator α β)

/-- The state and the results after the first `n` things that are heard of a source. -/
def after (hears : Nat → Heard α) (n : Nat) : o.State × List β :=
  o.heedAll o.start ((List.range n).map hears)

/-- Nothing is asked of a source that has said at `k` that it has ended. -/
def LetsAlone (hears : Nat → Heard α) (k : Nat) : Prop :=
  ∀ n, k < n → o.wants (o.after hears n).1 = false

/-- All results are told from what is heard up to `k`: they have been handed out then, and they are
the same for every source that says the same up to `k`. -/
def Settled (hears : Nat → Heard α) (k : Nat) : Prop :=
  ∀ hears' : Nat → Heard α, (∀ i ≤ k, hears' i = hears i) →
    ∀ n, k < n → (o.after hears' n).2 = (o.after hears (k + 1)).2

variable {o} {hears hears' : Nat → Heard α} {k n : Nat}

theorem after_add (hears : Nat → Heard α) (n m : Nat) :
    o.after hears (n + m)
      = ((o.heedAll (o.after hears n).1 ((List.range m).map fun i => hears (n + i))).1,
          (o.after hears n).2
            ++ (o.heedAll (o.after hears n).1 ((List.range m).map fun i => hears (n + i))).2) := by
  rw [after, List.range_add, List.map_append, List.map_map, heedAll_append]
  rfl

theorem after_congr (h : ∀ i < n, hears' i = hears i) : o.after hears' n = o.after hears n := by
  rw [after, after, List.map_congr_left fun i hi => h i (List.mem_range.mp hi)]

/-- Who has stopped listening has nothing more to hand out, however long it is told something. -/
theorem after_of_not_wants (h : o.wants (o.after hears n).1 = false) {m : Nat} (hm : n ≤ m) :
    o.after hears m = o.after hears n := by
  obtain ⟨d, rfl⟩ := Nat.exists_eq_add_of_le hm
  rw [after_add, heedAll_of_not_wants h, List.append_nil]

theorem letsAlone_iff :
    o.LetsAlone hears k ↔ o.wants (o.after hears (k + 1)).1 = false :=
  ⟨fun h => h (k + 1) (Nat.lt_succ_self k), fun h n hn => by rwa [after_of_not_wants h hn]⟩

/-- The results of an operator that lets its source alone are told from what is heard up to the
end. -/
theorem LetsAlone.settled (h : o.LetsAlone hears k) : o.Settled hears k := by
  intro hears' hsame n hn
  have hafter : o.after hears' (k + 1) = o.after hears (k + 1) :=
    after_congr fun i hi => hsame i (Nat.le_of_lt_succ hi)
  have hover : o.wants (o.after hears' (k + 1)).1 = false := by
    rw [hafter]
    exact letsAlone_iff.mp h
  rw [after_of_not_wants hover hn, hafter]

/-- Up to its end, what is heard of a source is a history in which it does not end. -/
theorem after_succ_of_endsAt (h : Heard.EndsAt hears k) :
    .ended ∉ (List.range k).map hears ∧
      o.after hears (k + 1) = o.heedAll o.start ((List.range k).map hears ++ [.ended]) := by
  refine ⟨fun hmem => ?_, ?_⟩
  · obtain ⟨i, hi, hended⟩ := List.mem_map.mp hmem
    exact h.first i (List.mem_range.mp hi) hended
  · rw [after, List.range_succ, List.map_append, List.map_singleton, h.ended]

end Operator

/-! ## Batches and lines -/

section

variable {hears : Nat → Heard Chunk} {k : Nat}

theorem batches_letsAlone (h : Heard.EndsAt hears k) (size : Nat) (timeout : Option Nat) :
    (batches size timeout).LetsAlone hears k := by
  have hstart : BatchState.Fills (max size 1) timeout [] .empty [] :=
    BatchState.fills_empty (Nat.lt_of_lt_of_le Nat.one_pos (Nat.le_max_right size 1))
  obtain ⟨hends, hafter⟩ := Operator.after_succ_of_endsAt (o := batches size timeout) h
  rw [Operator.letsAlone_iff, hafter, Operator.heedAll_append]
  exact (batched_heedAll (fills_heedAll hstart hends) []).1

theorem lineOperator_letsAlone (h : Heard.EndsAt hears k) : lineOperator.LetsAlone hears k := by
  obtain ⟨hends, hafter⟩ := Operator.after_succ_of_endsAt (o := lineOperator) h
  rw [Operator.letsAlone_iff, hafter]
  exact (LineState.heedAll_lineTexts hends []).1

end

/-! ## Windows -/

namespace WindowState

/-- At the end it is over, unless there were chunks and too few of them: then these are the last
window, and it goes on. -/
theorem behind_ended (n : Nat) (chunks : List Chunk) :
    (behind n chunks).hear n .ended
      = if 0 < chunks.length ∧ chunks.length < n then (⟨[], true, false⟩, [chunks])
        else ({ behind n chunks with isOver := true }, []) := by
  by_cases hshort : chunks.length < n
  · have hwindow : (behind n chunks).window = chunks := by
      simp [behind, Nat.sub_eq_zero_of_le (Nat.le_of_lt hshort)]
    by_cases hempty : chunks = []
    · rw [hear_ended (.inr (hwindow.trans hempty)), if_neg (by simp [hempty])]
    · have hemitted : (behind n chunks).emitted = false := decide_eq_false (Nat.not_le.mpr hshort)
      rw [hear_ended_of_short hemitted (by rwa [hwindow]),
        if_pos ⟨List.length_pos_of_ne_nil hempty, hshort⟩, hwindow]
      rfl
  · have hemitted : (behind n chunks).emitted = true := decide_eq_true (Nat.le_of_not_lt hshort)
    rw [hear_ended (.inl hemitted), if_neg fun h => hshort h.2]

/-- Whether a window has been handed out makes no difference to the next ones. -/
theorem heedAll_emitted {n : Nat} (window : List Chunk) (emitted emitted' : Bool)
    {history : List (Heard Chunk)} (hends : .ended ∉ history) :
    ((slidingWindows n).heedAll ⟨window, emitted, false⟩ history).2
      = ((slidingWindows n).heedAll ⟨window, emitted', false⟩ history).2 := by
  induction history generalizing window emitted emitted' with
  | nil => rfl
  | cons x history ih =>
    rw [List.mem_cons, not_or] at hends
    rw [Operator.heedAll_cons, Operator.heedAll_cons]
    cases x with
    | item c now =>
      rw [Operator.heed_item rfl, Operator.heed_item rfl]
      by_cases hfull : (slide (max n 1) window c).length = max n 1
      · simp only [hear, if_pos hfull]
      · simp only [hear, if_neg hfull, List.nil_append]
        exact ih _ emitted emitted' hends.2
    | late =>
      rw [Operator.heed_late_of_none rfl, Operator.heed_late_of_none rfl]
      exact ih window emitted emitted' hends.2
    | ended => exact absurd rfl hends.1

/-- Who goes on after the last window hands out another one as soon as there are chunks enough. -/
theorem heedAll_afresh (n : Nat) {history : List (Heard Chunk)} (hends : .ended ∉ history)
    (henough : (Heard.items history).length = max n 1) :
    ((slidingWindows n).heedAll ⟨[], true, false⟩ history).2 = [Heard.items history] := by
  have hn : 0 < max n 1 := Nat.lt_of_lt_of_le Nat.one_pos (Nat.le_max_right n 1)
  have hruns := (heedAll_behind (n := n) [] hends).2
  have hall : runs (max n 1) (Heard.items history) = [Heard.items history] := by
    rw [runs, henough, Nat.add_sub_cancel_left, List.range_one, List.map_singleton, List.drop_zero,
      ← henough, List.take_length]
  rw [runs_of_lt (l := []) hn, List.nil_append, List.nil_append, behind_nil hn, hall] at hruns
  exact (heedAll_emitted [] true false hends).trans hruns

end WindowState

section

variable {hears : Nat → Heard Chunk} {k : Nat}

open WindowState

/-- What the windows come to at the end of their source. -/
theorem after_slidingWindows (h : Heard.EndsAt hears k) (n : Nat) :
    let chunks := Heard.items ((List.range k).map hears)
    ((slidingWindows n).after hears (k + 1)).1
      = if 0 < chunks.length ∧ chunks.length < max n 1 then ⟨[], true, false⟩
        else { behind (max n 1) chunks with isOver := true } := by
  intro chunks
  have hn : 0 < max n 1 := Nat.lt_of_lt_of_le Nat.one_pos (Nat.le_max_right n 1)
  obtain ⟨hends, hafter⟩ := Operator.after_succ_of_endsAt (o := slidingWindows n) h
  have hstart : (slidingWindows n).start = behind (max n 1) [] := (behind_nil hn).symm
  have hstate := (heedAll_behind (n := n) [] hends).1
  rw [List.nil_append] at hstate
  have hheed : (slidingWindows n).heed (behind (max n 1) chunks) .ended = _ :=
    (Operator.heed_ended rfl).trans (behind_ended (max n 1) chunks)
  rw [hafter, hstart, Operator.heedAll_append, Operator.heedAll_singleton, hstate, hheed]
  split <;> rfl

theorem slidingWindows_letsAlone_iff (h : Heard.EndsAt hears k) (n : Nat) :
    let count := (Heard.items ((List.range k).map hears)).length
    (slidingWindows n).LetsAlone hears k ↔ ¬ (0 < count ∧ count < max n 1) := by
  intro count
  rw [Operator.letsAlone_iff, after_slidingWindows h]
  split
  · rename_i hshort
    exact iff_of_false (by simp) (not_not_intro hshort)
  · rename_i hshort
    exact iff_of_true (by simp) hshort

/-- If it asks once more, what it hears then makes a difference: another window, for one. -/
theorem slidingWindows_settled_iff (h : Heard.EndsAt hears k) (n : Nat) :
    (slidingWindows n).Settled hears k ↔ (slidingWindows n).LetsAlone hears k := by
  refine ⟨fun hsettled => ?_, Operator.LetsAlone.settled⟩
  refine (slidingWindows_letsAlone_iff h n).mpr fun hshort => ?_
  -- A source that goes on with empty chunks, enough of them for another window.
  let hears' : Nat → Heard Chunk := fun i => if i ≤ k then hears i else .item ⟨.stdout, []⟩ 0
  have hsame : ∀ i ≤ k, hears' i = hears i := fun i hi => if_pos hi
  have hlater : (List.range (max n 1)).map (fun i => hears' (k + 1 + i))
      = (List.replicate (max n 1) ⟨.stdout, []⟩).map fun c => Heard.item c 0 := by
    rw [List.map_replicate]
    refine List.eq_replicate_iff.mpr ⟨by simp, fun x hx => ?_⟩
    obtain ⟨i, -, rfl⟩ := List.mem_map.mp hx
    exact if_neg (by omega)
  have hafter : (slidingWindows n).after hears' (k + 1) = (slidingWindows n).after hears (k + 1) :=
    Operator.after_congr fun i hi => hsame i (Nat.le_of_lt_succ hi)
  have hmore := hsettled hears' hsame (k + 1 + max n 1) (by omega)
  rw [Operator.after_add, hafter, after_slidingWindows h, if_pos hshort, hlater,
    heedAll_afresh n (by simp) (by rw [Heard.items_map, List.length_replicate])] at hmore
  simp at hmore

end

/-! ## Splits -/

namespace Split

variable {test : Nat → Chunk → Bool} {answers answers' : Nat → Option Chunk} {s : Split} {k : Nat}

/-- A router has not asked for more than the chunks before the end of its source. -/
def Within (k : Nat) (s : Split) : Prop :=
  s.router.calls ≤ k

theorem within_perform (hend : answers k = none) (h : s.Within k) (m : Move) :
    (s.perform test answers m).1.Within k := by
  unfold Within at h ⊢
  cases m with
  | poll side => rwa [(aside_poll s side).calls]
  | drop side => rwa [(aside_drop s side).calls]
  | turn =>
    rcases perform_turn_cases test answers s with hturn | ⟨hwants, ⟨-, hturn⟩ | ⟨c, hanswer, hturn⟩⟩
    · rwa [hturn]
    · rwa [hturn]
    · have hne : s.router.calls ≠ k := fun heq => by simp [heq, hend] at hanswer
      rw [hturn, Router.calls_step hwants]
      exact Nat.lt_of_le_of_ne h hne

/-- It makes no difference to a move what the source would answer later. -/
theorem perform_congr (hsame : ∀ i ≤ k, answers' i = answers i) (h : s.Within k) (m : Move) :
    s.perform test answers' m = s.perform test answers m := by
  cases m with
  | poll side => rfl
  | drop side => rfl
  | turn => simp only [perform, turn, hsame _ h]

/-- Neither does it to any moves in any order. -/
theorem performAll_congr (hend : answers k = none) (hsame : ∀ i ≤ k, answers' i = answers i)
    (h : s.Within k) (moves : List Move) :
    s.performAll test answers' moves = s.performAll test answers moves ∧
      (s.performAll test answers moves).1.Within k := by
  induction moves generalizing s with
  | nil => exact ⟨rfl, h⟩
  | cons m moves ih =>
    obtain ⟨hrest, hwithin⟩ := ih (within_perform hend h m)
    rw [performAll_cons, performAll_cons, perform_congr hsame h, hrest]
    exact ⟨rfl, hwithin⟩

end Split

/-- No operator asks a source again that has ended, and what would be heard of it then makes no
difference, with one exception: sliding windows ask again exactly if the source had chunks, but too
few for a window, and then what they hear does make a difference. This holds for every size, timeout
and test, for every source, whatever it says when and whenever a timer goes off, and for a split,
which has no timer, whatever its readers do. -/
theorem finished_source_let_alone_iff {hears : Nat → Heard Chunk} {k : Nat}
    (h : Heard.EndsAt hears k) :
    let count := (Heard.items ((List.range k).map hears)).length
    (∀ size timeout, (batches size timeout).LetsAlone hears k ∧
      (batches size timeout).Settled hears k) ∧
    (lineOperator.LetsAlone hears k ∧ lineOperator.Settled hears k) ∧
    (∀ n, ((slidingWindows n).LetsAlone hears k ↔ ¬ (0 < count ∧ count < max n 1)) ∧
      ((slidingWindows n).Settled hears k ↔ ¬ (0 < count ∧ count < max n 1))) ∧
    ∀ (test : Nat → Chunk → Bool) (answers : Nat → Option Chunk),
      (∀ i, hears i = Heard.ofAnswer (answers i)) → ∀ moves : List Split.Move,
      let found := Split.start.performAll test answers moves
      found.1.router.calls ≤ k ∧ (found.1.router.ended = true → found.1.router.wants = false) ∧
        ∀ answers' : Nat → Option Chunk, (∀ i ≤ k, answers' i = answers i) →
          Split.start.performAll test answers' moves = found := by
  intro count
  refine ⟨fun size timeout => ?_, ?_, fun n => ?_, fun test answers hanswers moves => ?_⟩
  · have halone := batches_letsAlone h size timeout
    exact ⟨halone, halone.settled⟩
  · have halone := lineOperator_letsAlone h
    exact ⟨halone, halone.settled⟩
  · have hiff := slidingWindows_letsAlone_iff h n
    exact ⟨hiff, (slidingWindows_settled_iff h n).trans hiff⟩
  · have hnone : answers k = none := by
      have hended := (hanswers k).symm.trans h.ended
      cases hanswer : answers k with
      | none => rfl
      | some c => simp [hanswer, Heard.ofAnswer] at hended
    have hstart : Split.start.Within k := Nat.zero_le k
    intro found
    refine ⟨(Split.performAll_congr hnone (fun _ _ => rfl) hstart moves).2, fun hended => ?_,
      fun answers' hsame => (Split.performAll_congr hnone hsame hstart moves).1⟩
    rw [Router.wants, hended]
    rfl

/-- A source of one chunk: enough for windows of one chunk, and too few for windows of two. -/
theorem finished_source_let_alone_short :
    let c := fun b => Chunk.mk .stdout [b]
    let answers := fun i : Nat => if i = 1 then none else some (c i.toUInt8)
    let hears := fun i => Heard.ofAnswer (answers i)
    Heard.EndsAt hears 1 ∧ (batches 2 (some 5)).LetsAlone hears 1 ∧ lineOperator.Settled hears 1 ∧
      (slidingWindows 1).LetsAlone hears 1 ∧ ¬ (slidingWindows 2).LetsAlone hears 1 ∧
      (Split.start.performAll (fun call _ => call % 2 == 1) answers
        [.poll .matched, .turn, .turn, .turn]).1.router.calls ≤ 1 := by
  intro c answers hears
  have hend : Heard.EndsAt hears 1 := ⟨rfl, by decide⟩
  obtain ⟨hbatches, hlines, hwindows, hsplits⟩ := finished_source_let_alone_iff hend
  refine ⟨hend, (hbatches 2 (some 5)).1, hlines.2, (hwindows 1).1.mpr (by decide), ?_,
    (hsplits _ answers (fun _ => rfl) _).1⟩
  exact fun halone => (hwindows 2).1.mp halone (by decide)

/-- Windows of two chunks over a source of one: it is asked again, and what it says then is handed
out. -/
theorem finished_source_asked_again :
    let c := fun b => Chunk.mk .stdout [b]
    let hears := fun i : Nat => if i = 1 then .ended else Heard.item (c i.toUInt8) 0
    Heard.EndsAt hears 1 ∧
      (slidingWindows 2).wants ((slidingWindows 2).after hears 2).1 = true ∧
      ((slidingWindows 2).after hears 2).2 = [[c 0]] ∧
      ((slidingWindows 2).after hears 4).2 = [[c 0], [c 2, c 3]] :=
  ⟨⟨rfl, by decide⟩, by decide, by decide, by decide⟩

end Runnel
