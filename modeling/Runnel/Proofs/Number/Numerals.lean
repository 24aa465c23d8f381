import Mathlib.Data.List.Induction
import Runnel.Number.Integer

/-!
# Runnel.Proofs.Number.Numerals

What numbers look like in decimal.

* `Number.Numeral`: digits, perhaps with a sign before them, and the number that they stand for.
* `Number.readInt?_eq_some_iff`: reading accepts the numerals of the numbers in its range, and nothing
  else.
* `Number.readInt64?_signedDigits`: a number that is written is read back.
-/

namespace Runnel.Number

/-- Digits, and the number that they stand for. -/
structure Digits (chars : List Char) (n : Nat) : Prop where
  ne_nil : chars ≠ []
  isDigit : ∀ c ∈ chars, c.isDigit = true
  value : Nat.ofDigitChars 10 chars 0 = n

/-- A number in decimal, perhaps with a sign. -/
inductive Numeral : List Char → Int → Prop where
  /-- There is no sign. -/
  | unsigned {chars : List Char} {n : Nat} (h : Digits chars n) : Numeral chars n
  /-- The sign changes nothing. -/
  | plus {chars : List Char} {n : Nat} (h : Digits chars n) : Numeral ('+' :: chars) n
  /-- The sign makes the number negative. -/
  | minus {chars : List Char} {n : Nat} (h : Digits chars n) : Numeral ('-' :: chars) (-n)

/-- The number is a 64-bit integer. -/
def IsInt64 (n : Int) : Prop :=
  int64Min ≤ n ∧ n ≤ int64Max

section

variable {chars : List Char} {n : Nat}

/-! ## Reading -/

theorem digitsValue?_concat (chars : List Char) (c : Char) :
    digitsValue? (chars ++ [c]) = (digitsValue? chars).bind fun v =>
      if c.isDigit then some (10 * v + (c.toNat - 48)) else none := by
  simp [digitsValue?, List.foldl_append]

theorem digitsValue?_eq_some_iff :
    digitsValue? chars = some n ↔
      (∀ c ∈ chars, c.isDigit = true) ∧ Nat.ofDigitChars 10 chars 0 = n := by
  induction chars using List.reverseRecOn generalizing n with
  | nil => simp [digitsValue?]
  | append_singleton chars c ih =>
    rw [digitsValue?_concat, Option.bind_eq_some_iff, List.forall_mem_append,
      Nat.ofDigitChars_append, Nat.ofDigitChars_cons, Nat.ofDigitChars_nil]
    constructor
    · rintro ⟨v, hv, hc⟩
      obtain ⟨hdigits, rfl⟩ := ih.mp hv
      split at hc
      · rename_i hdigit
        exact ⟨⟨hdigits, by simpa using hdigit⟩, Option.some.inj hc⟩
      · cases hc
    · rintro ⟨⟨hdigits, hdigit⟩, rfl⟩
      refine ⟨_, ih.mpr ⟨hdigits, rfl⟩, ?_⟩
      rw [if_pos (hdigit c (List.mem_singleton_self c))]
      rfl

theorem readDigits?_eq_some_iff : readDigits? chars = some n ↔ Digits chars n := by
  constructor
  · intro h
    cases chars with
    | nil => cases h
    | cons c chars =>
      obtain ⟨hdigits, hvalue⟩ := digitsValue?_eq_some_iff.mp h
      exact ⟨List.cons_ne_nil _ _, hdigits, hvalue⟩
  · intro h
    cases chars with
    | nil => exact absurd rfl h.ne_nil
    | cons c chars => exact digitsValue?_eq_some_iff.mpr ⟨h.isDigit, h.value⟩

/-- A sign is no digit. -/
theorem Digits.not_sign (h : Digits chars n) : ∀ c ∈ chars.head?, c ≠ '-' ∧ c ≠ '+' := by
  intro c hc
  have hdigit := h.isDigit c (List.mem_of_mem_head? hc)
  constructor
  · rintro rfl
    exact absurd hdigit (by decide)
  · rintro rfl
    exact absurd hdigit (by decide)

/-- Reading accepts the numerals of the numbers in its range. -/
theorem readInt?_eq_some_iff {least greatest : Int} {text : String} {m : Int} :
    readInt? least greatest text = some m ↔
      Numeral text.toList m ∧ least ≤ m ∧ m ≤ greatest := by
  unfold readInt?
  generalize text.toList = chars
  simp only [Option.bind_eq_some_iff]
  constructor
  · rintro ⟨k, hk, hrange⟩
    split at hrange
    · rename_i hle
      cases hrange
      refine ⟨?_, by simpa using hle⟩
      split at hk
      · obtain ⟨_, hnat, rfl⟩ := Option.map_eq_some_iff.mp hk
        obtain ⟨n, hn, hcast⟩ := Option.bind_eq_some_iff.mp hnat
        cases hcast
        exact .minus (readDigits?_eq_some_iff.mp hn)
      · obtain ⟨n, hn, rfl⟩ := Option.map_eq_some_iff.mp hk
        exact .plus (readDigits?_eq_some_iff.mp hn)
      · obtain ⟨n, hn, rfl⟩ := Option.map_eq_some_iff.mp hk
        exact .unsigned (readDigits?_eq_some_iff.mp hn)
    · cases hrange
  · rintro ⟨hnumeral, hle⟩
    refine ⟨m, ?_, if_pos (by simpa using hle)⟩
    cases hnumeral with
    | minus h =>
      have hnat := readDigits?_eq_some_iff.mpr h
      exact Option.map_eq_some_iff.mpr ⟨_, Option.bind_eq_some_iff.mpr ⟨_, hnat, rfl⟩, rfl⟩
    | plus h => exact Option.map_eq_some_iff.mpr ⟨_, readDigits?_eq_some_iff.mpr h, rfl⟩
    | unsigned h =>
      split
      · exact absurd rfl (h.not_sign _ rfl).1
      · exact absurd rfl (h.not_sign _ rfl).2
      · exact Option.map_eq_some_iff.mpr ⟨_, readDigits?_eq_some_iff.mpr h, rfl⟩

theorem readInt64?_eq_some_iff {text : String} {m : Int} :
    readInt64? text = some m ↔ Numeral text.toList m ∧ IsInt64 m :=
  readInt?_eq_some_iff

theorem Numeral.mem {m : Int} (h : Numeral chars m) :
    ∀ c ∈ chars, c.isDigit = true ∨ c = '+' ∨ c = '-' := by
  intro c hc
  cases h with
  | unsigned h => exact .inl (h.isDigit c hc)
  | plus h =>
    rcases List.mem_cons.mp hc with hsign | hc
    · exact .inr (.inl hsign)
    · exact .inl (h.isDigit c hc)
  | minus h =>
    rcases List.mem_cons.mp hc with hsign | hc
    · exact .inr (.inr hsign)
    · exact .inl (h.isDigit c hc)

/-! ## Writing -/

theorem digits_toDigits (n : Nat) : Digits (Nat.toDigits 10 n) n where
  ne_nil := Nat.toDigits_ne_nil
  isDigit _ hc := Nat.isDigit_of_mem_toDigits (by decide) (by decide) hc
  value := Nat.ofDigitChars_ten_toDigits

theorem numeral_signedDigits (m : Int) : Numeral (Text.signedDigits m).toList m := by
  cases m with
  | ofNat n =>
    rw [Text.signedDigits, Text.digits, String.toList_ofList]
    exact .unsigned (digits_toDigits n)
  | negSucc n =>
    simp only [Text.signedDigits, Text.digits, String.toList_append, String.toList_ofList]
    exact Numeral.minus (digits_toDigits (n + 1))

/-- A number that is written is read back. -/
theorem readInt64?_signedDigits {m : Int} (h : IsInt64 m) :
    readInt64? (Text.signedDigits m) = some m :=
  readInt64?_eq_some_iff.mpr ⟨numeral_signedDigits m, h⟩

end

end Runnel.Number
