import Runnel.Proofs.Stream.Hearing
import Runnel.Stream.Window

/-!
# Runnel.Proofs.Stream.Sliding

The windows that slide over the chunks of a source are its contiguous runs. What the operator
remembers after some chunks is told from these chunks alone, and so is what it hands out with the
next one.

* `runs`: the contiguous runs of a list; `windows`: these, or the whole list if it is too short.
* `WindowState.behind`: the state after some chunks; `hear_behind` is the step, `heedAll_behind` the
  run.
* `slidingWindows_contiguous`: the windows of every source that goes on to say that it has ended.
-/

namespace Runnel

/-- The contiguous runs of `n` elements, in order. -/
def runs {α : Type} (n : Nat) (l : List α) : List (List α) :=
  (List.range (l.length + 1 - n)).map fun i => (l.drop i).take n

theorem runs_of_lt {α : Type} {n : Nat} {l : List α} (h : l.length < n) : runs n l = [] := by
  simp [runs, Nat.sub_eq_zero_of_le h]

/-- One more element makes one more run, as soon as there are enough of them. -/
theorem runs_concat {α : Type} {n : Nat} (hn : 0 < n) (l : List α) (a : α) :
    runs n (l ++ [a])
      = runs n l ++ if n ≤ l.length + 1 then [(l ++ [a]).drop (l.length + 1 - n)] else [] := by
  by_cases h : n ≤ l.length + 1
  · have hcount : (l ++ [a]).length + 1 - n = (l.length + 1 - n) + 1 := by
      rw [List.length_append, List.length_singleton]
      omega
    rw [runs, hcount, List.range_succ, List.map_append, List.map_singleton, if_pos h]
    congr 1
    · -- the runs before do not reach the new element
      refine List.map_congr_left fun i hi => ?_
      rw [List.mem_range] at hi
      rw [List.drop_append_of_le_length (by omega), List.take_append_of_le_length]
      rw [List.length_drop]
      omega
    · rw [List.take_of_length_le]
      rw [List.length_drop, List.length_append, List.length_singleton]
      omega
  · rw [if_neg h, List.append_nil, runs_of_lt, runs_of_lt (by omega)]
    rw [List.length_append, List.length_singleton]
    omega

/-- The windows of `n` elements: the contiguous runs, in order. A shorter list that is not empty is a
single window. -/
def windows {α : Type} (n : Nat) (l : List α) : List (List α) :=
  if n ≤ l.length then runs n l else if l = [] then [] else [l]

namespace WindowState

/-- The state after some chunks. -/
def behind (n : Nat) (chunks : List Chunk) : WindowState :=
  ⟨chunks.drop (chunks.length - n), n ≤ chunks.length, false⟩

theorem slide_behind {n : Nat} (hn : 0 < n) (chunks : List Chunk) (c : Chunk) :
    slide n (chunks.drop (chunks.length - n)) c
      = (chunks ++ [c]).drop (chunks.length + 1 - n) := by
  have hlonger : (chunks ++ [c]).drop (chunks.length - n) = chunks.drop (chunks.length - n) ++ [c] :=
    List.drop_append_of_le_length (Nat.sub_le _ _)
  rw [slide, ← hlonger]
  split
  · rename_i h
    rw [List.length_drop, List.length_append, List.length_singleton] at h
    rw [List.drop_drop]
    congr 1
    omega
  · rename_i h
    rw [List.length_drop, List.length_append, List.length_singleton] at h
    congr 1
    omega

/-- One more chunk moves the window on; from the `n`-th chunk on it is handed out. -/
theorem hear_behind {n : Nat} (hn : 0 < n) (chunks : List Chunk) (c : Chunk) (now : Nat) :
    (behind n chunks).hear n (.item c now)
      = (behind n (chunks ++ [c]),
          if n ≤ chunks.length + 1 then [(chunks ++ [c]).drop (chunks.length + 1 - n)] else []) := by
  have hlength : ((chunks ++ [c]).drop (chunks.length + 1 - n)).length = n ↔
      n ≤ chunks.length + 1 := by
    rw [List.length_drop, List.length_append, List.length_singleton]
    omega
  simp only [hear, behind, slide_behind hn, hlength, List.length_append, List.length_singleton]
  by_cases h : n ≤ chunks.length + 1
  · simp [h]
  · have hbefore : ¬ n ≤ chunks.length := by omega
    simp [h, hbefore]

/-- Who has handed out a window, or has nothing to hand out, is over when the source has ended. -/
theorem hear_ended {n : Nat} {s : WindowState} (h : s.emitted = true ∨ s.window = []) :
    s.hear n .ended = ({ s with isOver := true }, []) := by
  rcases h with h | h <;> simp [hear, h]

theorem hear_ended_of_short {n : Nat} {s : WindowState} (hemitted : s.emitted = false)
    (hwindow : s.window ≠ []) :
    s.hear n .ended = ({ s with window := [], emitted := true }, [s.window]) := by
  simp [hear, hemitted, hwindow]

end WindowState

section

variable {n : Nat}

open WindowState

theorem behind_nil (h : 0 < n) : behind n [] = .empty := by
  simp [behind, empty, Nat.pos_iff_ne_zero.mp h]

/-- Until the source ends, the state is told from the chunks, and each run has been handed out. -/
theorem heedAll_behind (chunks : List Chunk) {history : List (Heard Chunk)}
    (hends : .ended ∉ history) :
    ((slidingWindows n).heedAll (behind (max n 1) chunks) history).1
        = behind (max n 1) (chunks ++ Heard.items history) ∧
      runs (max n 1) chunks ++ ((slidingWindows n).heedAll (behind (max n 1) chunks) history).2
        = runs (max n 1) (chunks ++ Heard.items history) := by
  have hn : 0 < max n 1 := Nat.lt_of_lt_of_le Nat.one_pos (Nat.le_max_right n 1)
  induction history generalizing chunks with
  | nil => simp [Heard.items]
  | cons x history ih =>
    rw [List.mem_cons, not_or] at hends
    rw [Operator.heedAll_cons]
    cases x with
    | item c now =>
      have hheed : (slidingWindows n).heed (behind (max n 1) chunks) (.item c now) = _ :=
        (Operator.heed_item rfl c now).trans (hear_behind hn chunks c now)
      rw [hheed, ← List.append_assoc, ← runs_concat hn, Heard.items,
        List.append_cons chunks c (Heard.items history)]
      exact ih (chunks ++ [c]) hends.2
    | late =>
      rw [Operator.heed_late_of_none rfl]
      exact ih chunks hends.2
    | ended => exact absurd rfl hends.1

theorem heedAll_ended {s : WindowState} (hover : s.isOver = false)
    (hdone : s.emitted = true ∨ s.window = []) (more : Nat) :
    (slidingWindows n).heedAll s (List.replicate (more + 1) .ended)
      = ({ s with isOver := true }, []) := by
  have hwants : (slidingWindows n).wants s = true := by simp [hover]
  have hrest := (slidingWindows n).heedAll_of_not_wants (s := { s with isOver := true }) rfl
    (List.replicate more .ended)
  rw [List.replicate_succ, Operator.heedAll_cons, Operator.heed_ended hwants]
  simp only [hear_ended hdone, hrest, List.append_nil]

/-- The source says again and again that it has ended. A stream that was too short for a window hands
out what there is, and asks once more. -/
theorem heedAll_behind_ended (chunks : List Chunk) (more : Nat) :
    (slidingWindows n).wants ((slidingWindows n).heedAll (behind (max n 1) chunks)
        (List.replicate (more + 2) .ended)).1 = false ∧
      runs (max n 1) chunks ++ ((slidingWindows n).heedAll (behind (max n 1) chunks)
        (List.replicate (more + 2) .ended)).2 = windows (max n 1) chunks := by
  have hn : 0 < max n 1 := Nat.lt_of_lt_of_le Nat.one_pos (Nat.le_max_right n 1)
  by_cases hlong : max n 1 ≤ chunks.length
  · rw [heedAll_ended rfl (.inl (by simp [behind, hlong]))]
    simp [windows, hlong]
  · have hshort : chunks.length < max n 1 := Nat.lt_of_not_le hlong
    have hwindow : (behind (max n 1) chunks).window = chunks := by
      simp [behind, Nat.sub_eq_zero_of_le (Nat.le_of_lt hshort)]
    rw [runs_of_lt hshort, List.nil_append]
    by_cases hempty : chunks = []
    · rw [heedAll_ended rfl (.inr (by rw [hwindow, hempty]))]
      simp [windows, hempty]
    · have hheed : (slidingWindows n).heed (behind (max n 1) chunks) .ended
          = (⟨[], true, false⟩, [chunks]) := by
        have hheard := hear_ended_of_short (n := max n 1) (s := behind (max n 1) chunks)
          (decide_eq_false hlong) (by rwa [hwindow])
        rw [hwindow] at hheard
        exact (Operator.heed_ended rfl).trans hheard
      rw [List.replicate_succ, Operator.heedAll_cons, hheed, heedAll_ended rfl (.inl rfl)]
      simp [windows, hlong, hempty]

/-- The windows over everything that is heard of a source that has ended. -/
theorem heedAll_windows {history : List (Heard Chunk)} (hends : .ended ∉ history) (more : Nat) :
    (slidingWindows n).wants ((slidingWindows n).heedAll (slidingWindows n).start
        (history ++ List.replicate (more + 2) .ended)).1 = false ∧
      ((slidingWindows n).heedAll (slidingWindows n).start
        (history ++ List.replicate (more + 2) .ended)).2
          = windows (max n 1) (Heard.items history) := by
  have hn : 0 < max n 1 := Nat.lt_of_lt_of_le Nat.one_pos (Nat.le_max_right n 1)
  have hstart : (slidingWindows n).start = behind (max n 1) [] := (behind_nil hn).symm
  obtain ⟨hstate, hruns⟩ := heedAll_behind (n := n) [] hends
  obtain ⟨hover, hwindows⟩ := heedAll_behind_ended (n := n) (Heard.items history) more
  rw [List.nil_append] at hstate hruns
  rw [runs_of_lt (l := []) hn, List.nil_append] at hruns
  rw [Operator.heedAll_append, hstart, hstate, hruns]
  exact ⟨hover, hwindows⟩

end

/-- Sliding windows are exactly the contiguous windows, as long as there is room for one; otherwise
there are none at all. They are all handed out over a source whose chunks come at certain moments, and
over one that goes on to say that it has ended, however often it is asked; then the windows have
ended, too. -/
theorem slidingWindows_contiguous (n : Nat) (items : List (Timed Chunk)) (rest : Nat) :
    let o := slidingWindows n
    let chunks := items.map Timed.item
    (n ≤ Chunk.mostRoom → windowed n items rest = .ok (windows (max n 1) chunks)) ∧
      (Chunk.mostRoom < n → windowed n items rest = .error "capacity overflow") ∧
      ∀ more, let asked := o.asked (fun i => chunks[i]?) (chunks.length + (more + 2))
        asked.2 = windows (max n 1) chunks ∧ o.wants asked.1 = false := by
  intro o chunks
  refine ⟨fun hroom => ?_, fun hmany => ?_, fun more => ?_⟩
  · obtain ⟨history, hends, hitems, hrun⟩ := Operator.exists_history (o := o) items rest
    have hout := (heedAll_windows (n := n) hends 0).2
    rw [hitems] at hout
    rw [windowed, Chunk.reserve_of_le hroom]
    exact congrArg Except.ok (hrun.trans hout)
  · rw [windowed, Chunk.reserve_of_lt hmany]
    rfl
  · have hends : .ended ∉ chunks.map fun c => Heard.item c 0 := by simp
    obtain ⟨hover, hout⟩ := heedAll_windows (n := n) hends more
    rw [Heard.items_map] at hout
    simp only [Operator.asked_eq_heedAll, Operator.answers_of_list]
    exact ⟨hout, hover⟩

/-- More chunks than a window has. -/
theorem slidingWindows_contiguous_pairs :
    let c := fun b => Chunk.mk .stdout [b]
    let items := [Timed.mk 0 (c 1), ⟨0, c 2⟩, ⟨0, c 3⟩]
    windowed 2 items 0 = .ok [[c 1, c 2], [c 2, c 3]] :=
  (slidingWindows_contiguous 2 [⟨0, ⟨.stdout, [1]⟩⟩, ⟨0, ⟨.stdout, [2]⟩⟩, ⟨0, ⟨.stdout, [3]⟩⟩] 0).1
    (by decide)

/-- Who wants one window of all chunks, and so asks for a large one, gets none. -/
theorem windowed_of_all :
    let c := Chunk.mk .stdout [97]
    windowed (0x4000000000000000) [⟨0, c⟩] 0 ≠ .ok [[c]] := by
  intro c hfound
  rw [windowed, Chunk.reserve_of_lt (by decide)] at hfound
  cases hfound

end Runnel
