import Runnel.Proofs.Number.Numerals
import Runnel.Utility.Condition

/-!
# Runnel.Proofs.Utility.Conditions

How conditions with an operator between two operands are read, and conditions that are negated.

* `Condition.Compares`: the answer of an operator, whatever its operands look like.
* `Condition.evaluate_of_ne`, `Condition.evaluate_negated`: the two ways to read three arguments.
* `Condition.compares_evaluate_iff`: the operator decides, unless the left operand is the sign for
  negation.
-/

namespace Runnel.Condition

/-- The number that an operand stands for: a 64-bit integer, perhaps with blanks around it. -/
def Reads (text : String) (n : Int) : Prop :=
  Number.Numeral (Text.trim text).toList n ∧ Number.IsInt64 n

/-- What an operator asks of two numbers. -/
inductive Relates : String → (Int → Int → Prop) → Prop where
  | equal : Relates "-eq" (· = ·)
  | different : Relates "-ne" (· ≠ ·)
  | less : Relates "-lt" (· < ·)
  | lessOrEqual : Relates "-le" (· ≤ ·)
  | greater : Relates "-gt" (· > ·)
  | greaterOrEqual : Relates "-ge" (· ≥ ·)

/-- The operators between two operands. -/
def operators : List String :=
  ["=", "==", "!=", "-eq", "-ne", "-lt", "-le", "-gt", "-ge"]

/-- The answer of an operator between two operands. Numbers are read from left to right. -/
inductive Compares (left right : String) : String → Except ConditionError Bool → Prop where
  /-- The texts are the same. -/
  | same {op : String} {b : Bool} (hop : op = "=" ∨ op = "==") (h : b = true ↔ left = right) :
    Compares left right op (.ok b)
  /-- The texts are not the same. -/
  | different {b : Bool} (h : b = true ↔ left ≠ right) : Compares left right "!=" (.ok b)
  /-- The numbers are related. -/
  | numbers {op : String} {asked : Int → Int → Prop} {m n : Int} {b : Bool}
    (hop : Relates op asked) (hleft : Reads left m) (hright : Reads right n)
    (h : b = true ↔ asked m n) : Compares left right op (.ok b)
  /-- The left operand is no number. -/
  | badLeft {op : String} {asked : Int → Int → Prop} (hop : Relates op asked)
    (hleft : ∀ m, ¬ Reads left m) : Compares left right op (.error (.integerExpected left))
  /-- The right operand is no number. -/
  | badRight {op : String} {asked : Int → Int → Prop} {m : Int} (hop : Relates op asked)
    (hleft : Reads left m) (hright : ∀ n, ¬ Reads right n) :
    Compares left right op (.error (.integerExpected right))

section

variable {stat : String → Except SystemError Node} {left op right text : String}

/-! ## The operators -/

theorem integer_eq_ok_iff {n : Int} : integer text = .ok n ↔ Reads text n := by
  rw [Reads, ← Number.readInt64?_eq_some_iff, integer]
  split
  · rename_i m heq
    rw [heq, Except.ok.injEq, Option.some.injEq]
  · rename_i heq
    rw [heq]
    exact ⟨nofun, nofun⟩

theorem integer_cases (text : String) :
    (∃ n, integer text = .ok n ∧ Reads text n) ∨
      integer text = .error (.integerExpected text) ∧ ∀ n, ¬ Reads text n := by
  cases h : integer text with
  | ok n => exact .inl ⟨n, rfl, integer_eq_ok_iff.mp h⟩
  | error e =>
    refine .inr ⟨?_, fun n hn => ?_⟩
    · rw [integer] at h
      split at h
      · cases h
      · exact h.symm
    · rw [integer_eq_ok_iff.mpr hn] at h
      cases h

theorem compares_compareIntegers {asked : Int → Int → Prop} {holds : Int → Int → Bool}
    (hop : Relates op asked) (h : ∀ m n, holds m n = true ↔ asked m n) :
    Compares left right op (compareIntegers holds left right) := by
  rcases integer_cases left with ⟨m, hleft, hm⟩ | ⟨hleft, hno⟩
  · rcases integer_cases right with ⟨n, hright, hn⟩ | ⟨hright, hno⟩
    · simp only [compareIntegers, hleft, hright]
      exact .numbers hop hm hn (h m n)
    · simp only [compareIntegers, hleft, hright]
      exact .badRight hop hm hno
  · simp only [compareIntegers, hleft]
    exact .badLeft hop hno

/-- Every operator does what it is there for. -/
theorem compares_binary (hop : op ∈ operators) : Compares left right op (binary left op right) := by
  simp only [operators, List.mem_cons, List.not_mem_nil, or_false] at hop
  rcases hop with rfl | rfl | rfl | rfl | rfl | rfl | rfl | rfl | rfl
  · exact .same (.inl rfl) beq_iff_eq
  · exact .same (.inr rfl) beq_iff_eq
  · exact .different bne_iff_ne
  · exact compares_compareIntegers .equal fun m n => beq_iff_eq
  · exact compares_compareIntegers .different fun m n => bne_iff_ne
  · exact compares_compareIntegers .less fun m n => decide_eq_true_iff
  · exact compares_compareIntegers .lessOrEqual fun m n => decide_eq_true_iff
  · exact compares_compareIntegers .greater fun m n => decide_eq_true_iff
  · exact compares_compareIntegers .greaterOrEqual fun m n => decide_eq_true_iff

/-- The only error of an operator is an operand that is no number. -/
theorem Compares.error_eq {e : ConditionError} (h : Compares left right op (.error e)) :
    e = .integerExpected left ∨ e = .integerExpected right := by
  cases h with
  | badLeft => exact .inl rfl
  | badRight => exact .inr rfl

/-! ## The arguments -/

/-- How two arguments and more are read. -/
theorem evaluate_cons_cons (first second : String) (rest : List String) :
    evaluate stat (first :: second :: rest) =
      if first == "!" && (second :: rest).length ≤ 3 then
        (evaluate stat (second :: rest)).map not
      else
        match second :: rest with
        | [operand] => unary stat first operand
        | [op, right] => binary first op right
        | _ => .error .tooMany := by
  conv => lhs; unfold evaluate
  cases evaluate stat (second :: rest) with
  | ok b => rfl
  | error e => rfl

/-- An operator between two operands decides, unless the first argument is the sign for negation. -/
theorem evaluate_of_ne (h : left ≠ "!") :
    evaluate stat [left, op, right] = binary left op right := by
  rw [evaluate_cons_cons, if_neg (by simp [h])]

/-- That sign comes before everything else. -/
theorem evaluate_negated {rest : List String} (hne : rest ≠ []) (hshort : rest.length ≤ 3) :
    evaluate stat ("!" :: rest) = (evaluate stat rest).map not := by
  cases rest with
  | nil => exact absurd rfl hne
  | cons arg rest => rw [evaluate_cons_cons, if_pos (by simpa using hshort)]

/-- No operator between two operands stands before a single one. -/
theorem evaluate_two_of_operator (hop : op ∈ operators) :
    evaluate stat [op, right] = .error (.unaryExpected op) := by
  simp only [operators, List.mem_cons, List.not_mem_nil, or_false] at hop
  rcases hop with rfl | rfl | rfl | rfl | rfl | rfl | rfl | rfl | rfl <;> rfl

/-- Behind the sign for negation, an operator is taken for one before a single operand. -/
theorem evaluate_sign_operator (hop : op ∈ operators) :
    evaluate stat ["!", op, right] = .error (.unaryExpected op) := by
  have hshort : [op, right].length ≤ 3 := Nat.le_succ 2
  rw [evaluate_negated (List.cons_ne_nil _ _) hshort, evaluate_two_of_operator hop]
  rfl

end

/-- An operator between two operands decides, whatever the operands look like, unless the left one is
the sign for negation. All other conditions of two to four arguments that begin with this sign hold
if and only if what follows the sign does not, and have its errors. -/
theorem compares_evaluate_iff (stat : String → Except SystemError Node) :
    (∀ left op right, op ∈ operators →
      (Compares left right op (evaluate stat [left, op, right]) ↔ left ≠ "!")) ∧
    ∀ rest : List String, rest ≠ [] → rest.length ≤ 3 →
      (∀ op right, rest = [op, right] → op ∉ operators) →
      evaluate stat ("!" :: rest) = (evaluate stat rest).map not := by
  refine ⟨fun left op right hop => ⟨?_, fun hne => ?_⟩, fun rest hne hshort _ =>
    evaluate_negated hne hshort⟩
  · rintro h rfl
    rw [evaluate_sign_operator hop] at h
    rcases h.error_eq with heq | heq
    · cases heq
    · cases heq
  · rw [evaluate_of_ne hne]
    exact compares_binary hop

/-- Operands that look like operators are compared like any others, and an operator before one
operand can be negated. -/
theorem compares_evaluate_dashes :
    Compares "(" "-n" "=" (evaluate Disk.empty.stat ["(", "=", "-n"]) ∧
      evaluate Disk.empty.stat ["!", "-n", ""] =
        (evaluate Disk.empty.stat ["-n", ""]).map not := by
  obtain ⟨hcompares, hnegated⟩ := compares_evaluate_iff Disk.empty.stat
  refine ⟨(hcompares "(" "=" "-n" (by decide)).mpr (by decide),
    hnegated ["-n", ""] (by decide) (by decide) fun op right heq => ?_⟩
  rw [← (List.cons.inj heq).1]
  decide

/-- The sign for negation is equal to itself, which this condition cannot find out. -/
theorem evaluate_sign_equal :
    Compares "!" "!" "=" (.ok true) ∧
      evaluate Disk.empty.stat ["!", "=", "!"] = .error (.unaryExpected "=") :=
  ⟨.same (.inl rfl) (by decide), evaluate_sign_operator (by decide)⟩

end Runnel.Condition
