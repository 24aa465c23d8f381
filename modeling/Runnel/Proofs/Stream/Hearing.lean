import Runnel.Stream.Operator

/-!
# Runnel.Proofs.Stream.Hearing

An operator and all that it hears, in order. Who reads its results, how quickly the source answers
and whether a chunk or the timer comes first when both are due is all in the history, so what holds
for every history holds for every timing.

* `Operator.heed`: an operator hears one more thing, if it still listens.
* `Operator.heedAll`: it hears a history.
* `exists_history`: the results over items that come at certain moments are those over a history of
  these items; `asked_eq_heedAll`: so are the results over the answers of a source.
-/

namespace Runnel

namespace Chunk

/-- There is room for one chunk, so zero counts as one here, too. -/
theorem max_le_mostRoom (n : Nat) : max n 1 ≤ mostRoom ↔ n ≤ mostRoom :=
  Nat.max_le.trans (and_iff_left (by decide))

theorem reserve_of_le {n : Nat} (h : n ≤ mostRoom) : reserve (max n 1) = .ok () :=
  if_pos ((max_le_mostRoom n).mpr h)

theorem reserve_of_lt {n : Nat} (h : mostRoom < n) :
    reserve (max n 1) = .error "capacity overflow" :=
  if_neg fun hroom => Nat.not_le_of_lt h ((max_le_mostRoom n).mp hroom)

end Chunk

namespace Heard

variable {α : Type}

/-- The items in a history, up to the end of the source. -/
def items : List (Heard α) → List α
  | [] => []
  | .item a _ :: history => a :: items history
  | .late :: history => items history
  | .ended :: _ => []

/-- What is heard of an answer; `none` says that there are no more items. -/
def ofAnswer : Option α → Heard α
  | some a => .item a 0
  | none => .ended

theorem items_append {before : List (Heard α)} (h : .ended ∉ before) (after : List (Heard α)) :
    items (before ++ after) = items before ++ items after := by
  induction before with
  | nil => rfl
  | cons x before ih =>
    simp only [List.mem_cons, not_or] at h
    cases x with
    | item a now => simp [items, ih h.2]
    | late => simp [items, ih h.2]
    | ended => exact absurd rfl h.1

theorem items_map (l : List α) (now : Nat) : items (l.map fun a => .item a now) = l := by
  induction l with
  | nil => rfl
  | cons a l ih => rw [List.map_cons, items, ih]

end Heard

namespace Operator

variable {α β : Type} (o : Operator α β)

/-- It still listens, and if nothing came, then because its timer went off. -/
def heeds (s : o.State) : Heard α → Bool
  | .late => o.wants s && (o.deadline s).isSome
  | _ => o.wants s

/-- It hears one more thing, if it still listens. A timer that is not set does not go off. -/
def heed (s : o.State) (h : Heard α) : o.State × List β :=
  if o.heeds s h then o.hear s h else (s, [])

/-- It hears a history. The results come in the order in which they are handed out. -/
def heedAll : o.State → List (Heard α) → o.State × List β
  | s, [] => (s, [])
  | s, h :: history =>
    let (s, out) := o.heed s h
    let (s, more) := heedAll s history
    (s, out ++ more)

variable {o} {s : o.State}

theorem heed_item (h : o.wants s = true) (a : α) (now : Nat) :
    o.heed s (.item a now) = o.hear s (.item a now) := by
  simp [heed, heeds, h]

theorem heed_ended (h : o.wants s = true) : o.heed s .ended = o.hear s .ended := by
  simp [heed, heeds, h]

theorem heed_late (h : o.wants s = true) (hset : o.deadline s ≠ none) :
    o.heed s .late = o.hear s .late := by
  simp [heed, heeds, h, Option.isSome_iff_ne_none.mpr hset]

theorem heed_late_of_none (h : o.deadline s = none) : o.heed s .late = (s, []) := by
  simp [heed, heeds, h]

theorem heed_of_not_wants (h : o.wants s = false) (x : Heard α) : o.heed s x = (s, []) := by
  cases x <;> simp [heed, heeds, h]

@[simp] theorem heedAll_nil : o.heedAll s [] = (s, []) := rfl

theorem heedAll_cons (x : Heard α) (history : List (Heard α)) :
    o.heedAll s (x :: history)
      = ((o.heedAll (o.heed s x).1 history).1,
          (o.heed s x).2 ++ (o.heedAll (o.heed s x).1 history).2) :=
  rfl

theorem heedAll_singleton (x : Heard α) : o.heedAll s [x] = o.heed s x := by
  simp [heedAll_cons]

theorem heedAll_append (before after : List (Heard α)) :
    o.heedAll s (before ++ after)
      = ((o.heedAll (o.heedAll s before).1 after).1,
          (o.heedAll s before).2 ++ (o.heedAll (o.heedAll s before).1 after).2) := by
  induction before generalizing s with
  | nil => simp
  | cons x before ih => simp [heedAll_cons, ih]

/-- Who has stopped listening has nothing more to hand out. -/
theorem heedAll_of_not_wants (h : o.wants s = false) (history : List (Heard α)) :
    o.heedAll s history = (s, []) := by
  induction history with
  | nil => rfl
  | cons x history ih => simp [heedAll_cons, heed_of_not_wants h, ih]

/-! ## Items that come at certain moments -/

theorem runEnd_eq (n : Nat) (s : o.State) :
    o.runEnd n s = (o.heedAll s (List.replicate n .ended)).2 := by
  induction n generalizing s with
  | zero => rfl
  | succ n ih =>
    cases h : o.wants s with
    | true => simp [runEnd, h, List.replicate_succ, heedAll_cons, heed_ended h, ih]
    | false => simp [runEnd, h, heedAll_of_not_wants h]

/-- Letting time pass is hearing nothing, or that the timer went off. -/
theorem pass_eq (h : o.wants s = true) (moment : Nat) :
    ∃ waits, (waits = [] ∨ waits = [.late]) ∧ o.pass s moment = o.heedAll s waits := by
  cases hd : o.deadline s with
  | none => exact ⟨[], .inl rfl, by simp [pass, hd]⟩
  | some d =>
    by_cases hlate : d < moment
    · have hset : o.deadline s ≠ none := by simp [hd]
      exact ⟨[.late], .inr rfl, by simp [pass, hd, hlate, heedAll_singleton, heed_late h hset]⟩
    · exact ⟨[], .inl rfl, by simp [pass, hd, hlate]⟩

theorem exists_history_from (rest now : Nat) (s : o.State) (timed : List (Timed α)) :
    ∃ history, .ended ∉ history ∧ Heard.items history = timed.map Timed.item ∧
      o.runFrom rest now s timed
        = (o.heedAll s (history ++ List.replicate endings .ended)).2 := by
  induction timed generalizing now s with
  | nil =>
    cases hs : o.wants s with
    | false => exact ⟨[], by simp, rfl, by simp [runFrom, hs, heedAll_of_not_wants hs]⟩
    | true =>
      obtain ⟨waits, hwaits, hpass⟩ := pass_eq hs (now + rest)
      refine ⟨waits, ?_, ?_, ?_⟩
      · rcases hwaits with rfl | rfl <;> simp
      · rcases hwaits with rfl | rfl <;> rfl
      · simp only [runFrom, hs, if_true, hpass, runEnd_eq, heedAll_append]
  | cons t timed ih =>
    cases hs : o.wants s with
    | false =>
      -- nothing more is heard, so any history of these items will do
      obtain ⟨history, hends, hitems, -⟩ := ih now s
      refine ⟨.item t.item now :: history, by simp [hends], by simp [Heard.items, hitems], ?_⟩
      simp [runFrom, hs, heedAll_of_not_wants hs]
    | true =>
      obtain ⟨waits, hwaits, hpass⟩ := pass_eq hs (now + t.delay)
      obtain ⟨history, hends, hitems, hrun⟩ := ih (now + t.delay)
        (o.heed (o.heedAll s waits).1 (.item t.item (now + t.delay))).1
      refine ⟨waits ++ .item t.item (now + t.delay) :: history, ?_, ?_, ?_⟩
      · rcases hwaits with rfl | rfl <;> simp [hends]
      · rcases hwaits with rfl | rfl <;> simp [Heard.items, hitems]
      · simp only [runFrom, hs, hpass, List.append_assoc, List.cons_append, if_true]
        rw [heedAll_append waits, heedAll_cons]
        cases hs' : o.wants (o.heedAll s waits).1 with
        | false => simp [heed_of_not_wants hs', heedAll_of_not_wants hs']
        | true =>
          rw [heed_item hs'] at hrun
          simp [heed_item hs', hrun]

/-- The results over items that come at certain moments are those over a history of these items,
after which the source says that it has ended. -/
theorem exists_history (timed : List (Timed α)) (rest : Nat) :
    ∃ history, .ended ∉ history ∧ Heard.items history = timed.map Timed.item ∧
      o.run timed rest = (o.heedAll o.start (history ++ List.replicate endings .ended)).2 :=
  exists_history_from rest 0 o.start timed

/-! ## Answers of a source -/

theorem asked_eq_heedAll (answers : Nat → Option α) (n : Nat) :
    o.asked answers n
      = o.heedAll o.start ((List.range n).map fun i => Heard.ofAnswer (answers i)) := by
  induction n with
  | zero => rfl
  | succ n ih =>
    rw [List.range_succ, List.map_append, List.map_singleton, heedAll_append, ← ih,
      heedAll_singleton]
    cases hs : o.wants (o.asked answers n).1 with
    | false => simp [asked, hs, heed_of_not_wants hs]
    | true =>
      cases ha : answers n with
      | some a => simp [asked, hs, ha, Heard.ofAnswer, heed_item hs]
      | none => simp [asked, hs, ha, Heard.ofAnswer, heed_ended hs]

/-- A source that has ended goes on to say so. -/
theorem answers_of_list (items : List α) (n : Nat) :
    ((List.range (items.length + n)).map fun i => Heard.ofAnswer items[i]?)
      = items.map (fun a => .item a 0) ++ List.replicate n .ended := by
  apply List.ext_getElem
  · simp
  intro i hi hi'
  rw [List.length_map, List.length_range] at hi
  by_cases h : i < items.length
  · simp [h, Heard.ofAnswer]
  · simp [List.getElem_append, h, Heard.ofAnswer]

end Operator
end Runnel
