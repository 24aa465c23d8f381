import Runnel.Number.Integer
import Runnel.Text.Utf8

/-!
# Runnel.Proofs.Text.Positions

Steps that may break down: cutting text at a byte, asking a list for an element, and calculating
with numbers of limited size.

* `Breakdown`, `Risky`: what may go wrong, and the result of steps that may go wrong.
* `Text.cut`: a text in two, at a position in bytes.
* `Text.cut_eq_ok_iff`: this goes well exactly between two characters, and at either end.
* `Text.lastPosition?_append`: a character is found where the text before it ends.
-/

namespace Runnel

/-- What breaks a command down in the middle of its work. -/
inductive Breakdown where
  /-- A text is cut inside of a character or behind its end. -/
  | cut
  /-- A list is asked for what lies behind its end. -/
  | index
  /-- A calculation has no result, or none that fits. -/
  | arithmetic
  deriving Repr, DecidableEq

/-- The result of steps that may break down. -/
abbrev Risky (α : Type) := Except Breakdown α

namespace Risky

variable {α β : Type}

@[simp]
theorem pure_eq (x : α) : (pure x : Risky α) = .ok x :=
  rfl

@[simp]
theorem ok_bind (x : α) (next : α → Risky β) : (Except.ok x >>= next) = next x :=
  rfl

/-! ## Lists -/

/-- An element of a list. -/
def element (list : List α) (n : Nat) : Risky α :=
  match list[n]? with
  | some x => .ok x
  | none => .error .index

/-- The elements of a list from one on, or none if it is the end. -/
def elementsFrom (list : List α) (n : Nat) : Risky (List α) :=
  if n ≤ list.length then .ok (list.drop n) else .error .index

/-- The position behind this one in a list. A number that can be the list's length is sure to hold
it up to there, and nothing more is taken for granted. -/
def next (list : List α) (n : Nat) : Risky Nat :=
  if n < list.length then .ok (n + 1) else .error .arithmetic

theorem elementsFrom_append (front back : List α) :
    elementsFrom (front ++ back) front.length = .ok back := by
  rw [elementsFrom, if_pos (by simp), List.drop_left]

theorem next_append (front : List α) (x : α) (back : List α) :
    next (front ++ x :: back) front.length = .ok (front ++ [x]).length := by
  rw [next, if_pos (by simp), List.length_append, List.length_singleton]

/-! ## Numbers -/

/-- A difference of numbers without a sign. -/
def difference (m n : Nat) : Risky Nat :=
  if n ≤ m then .ok (m - n) else .error .arithmetic

/-- What is left of a 64-bit integer after a division by another one. There is no division by zero,
and the quotient has to be such an integer, too. -/
def remainder (m n : Int) : Risky Int :=
  if n = 0 ∨ m = Number.int64Min ∧ n = -1 then .error .arithmetic else .ok (m % n)

end Risky

namespace Text

/-- How many bytes a text takes. -/
def width (text : List Char) : Nat :=
  (encode (String.ofList text)).length

/-- What stands before the byte at a position, and what stands from it on. -/
def cut : List Char → Nat → Risky (List Char × List Char)
  | text, 0 => .ok ([], text)
  | [], _ + 1 => .error .cut
  | c :: rest, n + 1 =>
    if c.utf8Size ≤ n + 1 then
      match cut rest (n + 1 - c.utf8Size) with
      | .ok (front, back) => .ok (c :: front, back)
      | .error b => .error b
    else .error .cut

/-- The position of a character, where it comes last. -/
def lastPosition? (mark : Char) : List Char → Option Nat
  | [] => none
  | c :: rest =>
    match lastPosition? mark rest with
    | some n => some (c.utf8Size + n)
    | none => if c == mark then some 0 else none

section

variable {text front back : List Char} {mark : Char} {n : Nat}

@[simp]
theorem width_nil : width [] = 0 :=
  rfl

@[simp]
theorem width_cons (c : Char) (rest : List Char) : width (c :: rest) = c.utf8Size + width rest := by
  simp [width, encode, String.length_utf8EncodeChar]

@[simp]
theorem width_append (front back : List Char) :
    width (front ++ back) = width front + width back := by
  induction front with
  | nil => simp
  | cons c front ih => simp [ih, Nat.add_assoc]

theorem width_pos (h : text ≠ []) : 0 < width text := by
  obtain ⟨c, rest, rfl⟩ := List.exists_cons_of_ne_nil h
  rw [width_cons]
  exact Nat.lt_of_lt_of_le c.utf8Size_pos (Nat.le_add_right _ _)

/-! ## Cutting -/

theorem cut_cons (c : Char) (rest : List Char) (n : Nat) :
    cut (c :: rest) (c.utf8Size + n) = (cut rest n).map fun parts => (c :: parts.1, parts.2) := by
  have hpos := c.utf8Size_pos
  obtain ⟨m, hm⟩ : ∃ m, c.utf8Size + n = m + 1 := ⟨c.utf8Size + n - 1, by omega⟩
  have hrest : m + 1 - c.utf8Size = n := by omega
  rw [hm, cut, if_pos (by omega), hrest]
  cases cut rest n with
  | ok parts => rfl
  | error b => rfl

/-- Between two characters a text can be cut. -/
theorem cut_width (front back : List Char) :
    cut (front ++ back) (width front) = .ok (front, back) := by
  induction front with
  | nil =>
    rw [width_nil, List.nil_append]
    cases back with
    | nil => rfl
    | cons c back => rfl
  | cons c front ih =>
    rw [width_cons, List.cons_append, cut_cons, ih]
    rfl

theorem eq_of_cut (h : cut text n = .ok (front, back)) :
    text = front ++ back ∧ n = width front := by
  fun_induction cut text n generalizing front with
  | case1 text =>
    cases h
    exact ⟨rfl, rfl⟩
  | case2 n => cases h
  | case3 c rest n hle first second hcut ih =>
    cases h
    obtain ⟨rfl, hwidth⟩ := ih hcut
    refine ⟨rfl, ?_⟩
    rw [width_cons, ← hwidth]
    omega
  | case4 c rest n hle b hcut ih => cases h
  | case5 c rest n hle => cases h

/-- A text can be cut between two characters and at either end, and nowhere else. -/
theorem cut_eq_ok_iff :
    cut text n = .ok (front, back) ↔ text = front ++ back ∧ n = width front := by
  refine ⟨eq_of_cut, ?_⟩
  rintro ⟨rfl, rfl⟩
  exact cut_width front back

/-! ## Finding a character -/

theorem lastPosition?_eq_none_iff : lastPosition? mark text = none ↔ mark ∉ text := by
  induction text with
  | nil => simp [lastPosition?]
  | cons c rest ih =>
    rw [lastPosition?, List.mem_cons, not_or, ← ih]
    cases lastPosition? mark rest with
    | some n => exact iff_of_false nofun fun h => nomatch h.2
    | none =>
      by_cases hc : c = mark
      · simp [hc]
      · simp [hc, Ne.symm hc]

/-- The position is the one before the last such character. -/
theorem lastPosition?_append (front : List Char) (h : mark ∉ back) :
    lastPosition? mark (front ++ mark :: back) = some (width front) := by
  induction front with
  | nil =>
    rw [List.nil_append, lastPosition?, lastPosition?_eq_none_iff.mpr h]
    exact if_pos (beq_self_eq_true mark)
  | cons c front ih => rw [List.cons_append, lastPosition?, ih, width_cons]

end

end Text
end Runnel
