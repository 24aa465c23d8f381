import Mathlib.Data.List.Nodup
import Mathlib.Logic.Relation
import Runnel.Runner.System

/-!
# Runnel.Proofs.Runner.Ledger

The books of a supervisor.

* `Supervisor.Ledger`: who has entered and who has left, and how many hooks were given up.
* `Supervisor.Calls`, `Supervisor.Books`: books follow the calls of a supervisor; those that begin
  when nothing runs are complete.
* `Supervisor.Books.balanced`: whoever has entered and not left is active, and there is a hook as
  long as somebody is.
-/

namespace Runnel.Supervisor

/-- What a supervisor has been through. -/
structure Ledger where
  /-- Those who have entered, the last one first. -/
  entered : List RunnerId
  /-- Those who have left, the last one first. -/
  left : List RunnerId
  /-- How many hooks were given up. -/
  dropped : Nat
  deriving Repr, DecidableEq

namespace Ledger

/-- The books after a runner was to be added. -/
def register (l : Ledger) (s : Supervisor) (r : RunnerId) : Ledger :=
  if (s.register r).1 then { l with entered := r :: l.entered } else l

/-- The books after a runner was to be removed. -/
def unregister (l : Ledger) (s : Supervisor) (r : RunnerId) : Ledger :=
  if (s.unregister r).1 then
    { l with
      left := r :: l.left
      dropped := if s.hooked && !(s.unregister r).2.hooked then l.dropped + 1 else l.dropped }
  else l

end Ledger

/-- A call of a supervisor, and what is written down about it. -/
inductive Call (l : Ledger) (s : Supervisor) : Ledger × Supervisor → Prop where
  | register (r : RunnerId) : Call l s (l.register s r, (s.register r).2)
  | unregister (r : RunnerId) : Call l s (l.unregister s r, (s.unregister r).2)

/-- Any calls of a supervisor, and what is written down about them. -/
abbrev Calls : Ledger × Supervisor → Ledger × Supervisor → Prop :=
  Relation.ReflTransGen fun x => Call x.1 x.2

/-- The books have been kept since nothing ran. -/
def Books (l : Ledger) (s : Supervisor) : Prop :=
  Calls (⟨[], [], 0⟩, .idle) (l, s)

variable {l : Ledger} {s : Supervisor} {r r' : RunnerId}

/-! ## Calls -/

theorem register_of_mem (h : r ∈ s.active) : s.register r = (false, s) := by
  simp [Supervisor.register, h]

theorem register_of_not_mem (h : r ∉ s.active) :
    s.register r =
      (true, ⟨s.active ++ [r], true, if s.hooked then s.installs else s.installs + 1⟩) := by
  simp [Supervisor.register, h]

theorem unregister_of_mem (h : r ∈ s.active) :
    s.unregister r = (true,
      { s with
        active := s.active.erase r
        hooked := s.hooked && !(s.active.erase r).isEmpty }) := by
  simp [Supervisor.unregister, h]

theorem unregister_of_not_mem (h : r ∉ s.active) : s.unregister r = (false, s) := by
  simp [Supervisor.unregister, h]

namespace Ledger

theorem register_of_not_mem (h : r ∉ s.active) :
    l.register s r = { l with entered := r :: l.entered } := by
  rw [register, Supervisor.register_of_not_mem h, if_pos rfl]

theorem register_of_mem (h : r ∈ s.active) : l.register s r = l := by
  rw [register, Supervisor.register_of_mem h]
  rfl

theorem unregister_of_not_mem (h : r ∉ s.active) : l.unregister s r = l := by
  rw [unregister, Supervisor.unregister_of_not_mem h]
  rfl

theorem left_unregister_of_mem (h : r ∈ s.active) : (l.unregister s r).left = r :: l.left := by
  rw [unregister, Supervisor.unregister_of_mem h]
  rfl

theorem left_register (l : Ledger) (s : Supervisor) (r : RunnerId) :
    (l.register s r).left = l.left := by
  unfold register
  split
  all_goals rfl

theorem entered_unregister (l : Ledger) (s : Supervisor) (r : RunnerId) :
    (l.unregister s r).entered = l.entered := by
  unfold unregister
  split
  all_goals rfl

/-- Nobody else enters. -/
theorem count_entered_register (h : r' ≠ r) :
    (l.register s r).entered.count r' = l.entered.count r' := by
  unfold register
  split
  · exact List.count_cons_of_ne (Ne.symm h)
  · rfl

/-- Nobody else leaves. -/
theorem count_left_unregister (h : r' ≠ r) :
    (l.unregister s r).left.count r' = l.left.count r' := by
  unfold unregister
  split
  · exact List.count_cons_of_ne (Ne.symm h)
  · rfl

end Ledger

/-! ## The balance -/

/-- The books of a supervisor add up. -/
structure Balanced (l : Ledger) (s : Supervisor) : Prop where
  /-- Nobody is active twice. -/
  nodup : s.active.Nodup
  /-- There is a hook as long as somebody is active, and only then. -/
  hooked_iff : s.hooked = true ↔ s.active ≠ []
  /-- All hooks that were installed have been given up, but for the one that there is. -/
  installs : s.installs = l.dropped + s.hooks
  /-- Those are active who have entered and not left. -/
  count : ∀ r, l.entered.count r = l.left.count r + s.active.count r

theorem Balanced.register (h : Balanced l s) (r : RunnerId) :
    Balanced (l.register s r) (s.register r).2 := by
  by_cases hr : r ∈ s.active
  · rw [register_of_mem hr, Ledger.register_of_mem hr]
    exact h
  · rw [register_of_not_mem hr, Ledger.register_of_not_mem hr]
    refine ⟨?_, by simp, ?_, fun r' => ?_⟩
    · exact List.nodup_append.mpr ⟨h.nodup, List.nodup_singleton r, by grind⟩
    · have hinstalls := h.installs
      simp only [hooks] at hinstalls ⊢
      split
      · rename_i hooked
        rw [if_pos hooked] at hinstalls
        exact hinstalls
      · rename_i hooked
        rw [if_neg hooked] at hinstalls
        simp [hinstalls]
    · have hcount := h.count r'
      simp only [List.count_cons, List.count_append, List.count_nil, Nat.zero_add]
      omega

theorem Balanced.unregister (h : Balanced l s) (r : RunnerId) :
    Balanced (l.unregister s r) (s.unregister r).2 := by
  by_cases hr : r ∈ s.active
  · have hhooked : s.hooked = true := h.hooked_iff.mpr (List.ne_nil_of_mem hr)
    have hinstalls := h.installs
    rw [Ledger.unregister, unregister_of_mem hr, if_pos rfl]
    refine ⟨h.nodup.erase r, by simp [hhooked], ?_, fun r' => ?_⟩
    · cases hempty : (s.active.erase r).isEmpty with
      | true => simpa [hooks, hhooked, hempty] using hinstalls
      | false => simpa [hooks, hhooked, hempty] using hinstalls
    · have hcount := h.count r'
      by_cases heq : r' = r
      · subst heq
        have hone : s.active.count r' = 1 := List.count_eq_one_of_mem h.nodup hr
        simp only [List.count_cons_self, List.count_erase_self]
        omega
      · simp only [List.count_cons_of_ne (Ne.symm heq), List.count_erase_of_ne heq]
        exact hcount
  · rw [unregister_of_not_mem hr, Ledger.unregister_of_not_mem hr]
    exact h

theorem balanced_idle : Balanced ⟨[], [], 0⟩ idle :=
  ⟨List.nodup_nil, by simp [idle], rfl, fun _ => rfl⟩

theorem Balanced.calls {x y : Ledger × Supervisor} (h : Balanced x.1 x.2) (hcalls : Calls x y) :
    Balanced y.1 y.2 := by
  induction hcalls with
  | refl => exact h
  | tail _ hcall ih =>
    cases hcall with
    | register r => exact ih.register r
    | unregister r => exact ih.unregister r

/-- Whatever a supervisor is asked to do, its books add up. -/
theorem Books.balanced (h : Books l s) : Balanced l s :=
  balanced_idle.calls h

/-- A runner is active while it has entered once more than it has left. -/
theorem Books.mem_iff (h : Books l s) :
    r ∈ s.active ↔ l.entered.count r = l.left.count r + 1 := by
  have hbalanced := h.balanced
  have hcount := hbalanced.count r
  by_cases hr : r ∈ s.active
  · have hone : s.active.count r = 1 := List.count_eq_one_of_mem hbalanced.nodup hr
    simp [hr, hcount, hone]
  · have hzero : s.active.count r = 0 := List.count_eq_zero_of_not_mem hr
    simp [hr, hcount, hzero]

/-- What is written down stays. -/
theorem Calls.suffix {x y : Ledger × Supervisor} (h : Calls x y) :
    x.1.entered <:+ y.1.entered ∧ x.1.left <:+ y.1.left := by
  induction h with
  | refl => exact ⟨List.suffix_rfl, List.suffix_rfl⟩
  | @tail y z _ hcall ih =>
    obtain ⟨l, s⟩ := y
    cases hcall with
    | register r =>
      refine ⟨ih.1.trans ?_, Ledger.left_register l s r ▸ ih.2⟩
      by_cases hr : r ∈ s.active
      · exact Ledger.register_of_mem hr ▸ List.suffix_rfl
      · exact Ledger.register_of_not_mem hr ▸ List.suffix_cons r _
    | unregister r =>
      refine ⟨Ledger.entered_unregister l s r ▸ ih.1, ih.2.trans ?_⟩
      by_cases hr : r ∈ s.active
      · exact Ledger.left_unregister_of_mem hr ▸ List.suffix_cons r _
      · exact Ledger.unregister_of_not_mem hr ▸ List.suffix_rfl

/-- There is one hook at most. -/
theorem Books.installs_le (h : Books l s) : s.installs ≤ l.dropped + 1 := by
  rw [h.balanced.installs, hooks]
  split
  all_goals omega

end Runnel.Supervisor
