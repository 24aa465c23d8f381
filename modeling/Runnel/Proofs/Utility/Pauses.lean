import Runnel.Proofs.Text.Positions
import Runnel.Utility.Waiting

/-!
# Runnel.Proofs.Utility.Pauses

The command that pauses, step by step.

* `Waiting.Overlong`: the arguments begin with spans of time that are too long together.
* `Risky.readDuration_eq`: whatever an argument is, it can be read.
* `Risky.total_of_overlong`, `Risky.total_of_not_overlong`: the spans can be added unless they are
  too long together, and it does not matter what comes behind them.
-/

namespace Runnel

namespace Waiting

open Number (Duration)

/-- How long spans of time are together, in nanoseconds. -/
def together (spans : List Duration) : Nat :=
  spans.foldr (fun span n => span.nanos + n) 0

/-- Some of the arguments, from the first one on, are spans of time that are too long together with
one before them. -/
def OverlongAfter (before : Duration) (args : List String) : Prop :=
  ∃ (front rest : List String) (spans : List Duration), args = front ++ rest ∧
    front.map Duration.read? = spans.map some ∧
    Duration.limit ≤ before.nanos + together spans

/-- Some of the arguments, from the first one on, are spans of time that are too long together. -/
def Overlong (args : List String) : Prop :=
  OverlongAfter .zero args

section

variable {before : Duration} {arg : String} {args rest : List String}

theorem together_cons (span : Duration) (spans : List Duration) :
    together (span :: spans) = span.nanos + together spans :=
  rfl

theorem overlongAfter_of_le (h : Duration.limit ≤ before.nanos) (args : List String) :
    OverlongAfter before args :=
  ⟨[], args, [], rfl, rfl, h⟩

theorem not_overlongAfter_nil (h : before.nanos < Duration.limit) : ¬ OverlongAfter before [] := by
  rintro ⟨front, rest, spans, hargs, hspans, hlimit⟩
  obtain ⟨rfl, rfl⟩ := List.append_eq_nil_iff.mp hargs.symm
  obtain rfl : spans = [] := List.map_eq_nil_iff.mp hspans.symm
  exact absurd hlimit (Nat.not_le_of_lt h)

theorem overlongAfter_cons (h : before.nanos < Duration.limit) :
    OverlongAfter before (arg :: rest) ↔
      ∃ part, Duration.read? arg = some part ∧
        OverlongAfter ⟨before.nanos + part.nanos⟩ rest := by
  constructor
  · rintro ⟨front, back, spans, hargs, hspans, hlimit⟩
    cases front with
    | nil =>
      obtain rfl : spans = [] := List.map_eq_nil_iff.mp hspans.symm
      exact absurd hlimit (Nat.not_le_of_lt h)
    | cons first front =>
      obtain ⟨rfl, rfl⟩ := List.cons.inj hargs
      cases spans with
      | nil => cases hspans
      | cons part spans =>
        obtain ⟨hpart, hspans⟩ := List.cons.inj hspans
        rw [together_cons, ← Nat.add_assoc] at hlimit
        exact ⟨part, hpart, front, back, spans, rfl, hspans, hlimit⟩
  · rintro ⟨part, hpart, front, back, spans, rfl, hspans, hlimit⟩
    refine ⟨arg :: front, back, part :: spans, rfl, ?_, ?_⟩
    · rw [List.map_cons, List.map_cons, hpart, hspans]
    · rw [together_cons, ← Nat.add_assoc]
      exact hlimit

end

end Waiting

namespace Risky

/-- A text without its last byte. -/
def butLast (text : List Char) : Risky (List Char) := do
  let position ← difference (Text.width text) 1
  let (front, _) ← Text.cut text position
  return front

/-- A span of time: a number with an optional unit. -/
def readDuration (text : String) : Risky (Option Number.Duration) :=
  match text.toList.getLast? with
  | none => return none
  | some last => do
    let (number, scale) ←
      match Number.Duration.unit? last with
      | some scale => pure (String.ofList (← butLast text.toList), scale)
      | none => pure (text, 1)
    return (Number.readFloat? number).bind fun x =>
      Number.Duration.ofSeconds? (.ofFloat (x * scale))

/-- A sum of spans of time. -/
def sum (a b : Number.Duration) : Risky Number.Duration :=
  match a.add? b with
  | some total => .ok total
  | none => .error .arithmetic

/-- The length of a pause whose parts are given, after the parts before them. -/
def total (before : Number.Duration) : List String → Risky (Except String Number.Duration)
  | [] => return .ok before
  | arg :: rest => do
    match ← readDuration arg with
    | some part =>
      let before ← sum before part
      total before rest
    | none => return .error ("invalid time interval '" ++ arg ++ "'")

/-- The command that pauses. -/
def sleep (i : Invocation) : Risky Outcome :=
  if i.args.isEmpty then return .failed "missing operand"
  else do
    match ← total .zero i.args with
    | .error reason => return .failed reason
    | .ok length => return .pause length 0 Waiting.cutShortCode

/-- The letter of a unit takes one byte. -/
theorem utf8Size_of_unit {c : Char} {scale : Float} (h : Number.Duration.unit? c = some scale) :
    c.utf8Size = 1 := by
  unfold Number.Duration.unit? at h
  split at h
  · rfl
  · rfl
  · rfl
  · rfl
  · cases h

theorem butLast_concat (front : List Char) {last : Char} (h : last.utf8Size = 1) :
    butLast (front ++ [last]) = .ok front := by
  have hposition : difference (Text.width (front ++ [last])) 1 = .ok (Text.width front) := by
    rw [Text.width_append, Text.width_cons, h, Text.width_nil]
    exact if_pos (Nat.le_add_left _ _)
  rw [butLast, hposition, ok_bind, Text.cut_width]
  rfl

theorem readDuration_eq (text : String) :
    readDuration text = .ok (Number.Duration.read? text) := by
  rw [readDuration, Number.Duration.read?]
  rcases List.eq_nil_or_concat text.toList with hnil | ⟨front, last, hconcat⟩
  · rw [hnil]
    rfl
  · rw [List.concat_eq_append] at hconcat
    rw [hconcat, List.getLast?_concat, List.reverse_append]
    cases hunit : Number.Duration.unit? last with
    | none => simp [hunit]
    | some scale => simp [hunit, butLast_concat front (utf8Size_of_unit hunit)]

theorem sum_eq (a b : Number.Duration) :
    sum a b =
      if a.nanos + b.nanos < Number.Duration.limit then .ok ⟨a.nanos + b.nanos⟩
      else .error .arithmetic := by
  rw [sum, Number.Duration.add?]
  by_cases h : a.nanos + b.nanos < Number.Duration.limit
  · rw [if_pos h, if_pos h]
  · rw [if_neg h, if_neg h]

theorem total_of_overlong {before : Number.Duration} {args : List String}
    (hbefore : before.nanos < Number.Duration.limit) (h : Waiting.OverlongAfter before args) :
    total before args = .error .arithmetic ∧
      Waiting.total before args = .error (.crashed (some "overflow when adding durations")) := by
  induction args generalizing before with
  | nil => exact absurd h (Waiting.not_overlongAfter_nil hbefore)
  | cons arg rest ih =>
    obtain ⟨part, hpart, hrest⟩ := (Waiting.overlongAfter_cons hbefore).mp h
    simp only [total, Waiting.total, readDuration_eq, hpart, ok_bind, sum_eq, Number.Duration.add?]
    split
    · rename_i hfits
      exact ih hfits hrest
    · exact ⟨rfl, rfl⟩

/-- What is read step by step is what the command reads, unless the spans are too long together. -/
theorem total_of_not_overlong {before : Number.Duration} {args : List String}
    (hbefore : before.nanos < Number.Duration.limit) (h : ¬ Waiting.OverlongAfter before args) :
    (∃ length, total before args = .ok (.ok length) ∧ Waiting.total before args = .ok length) ∨
      ∃ reason, total before args = .ok (.error reason) ∧
        Waiting.total before args = .error (.failed reason) := by
  induction args generalizing before with
  | nil => exact .inl ⟨before, rfl, rfl⟩
  | cons arg rest ih =>
    simp only [total, Waiting.total, readDuration_eq, ok_bind]
    rw [Waiting.overlongAfter_cons hbefore] at h
    cases hpart : Number.Duration.read? arg with
    | none => exact .inr ⟨_, rfl, rfl⟩
    | some part =>
      have hrest : ¬ Waiting.OverlongAfter ⟨before.nanos + part.nanos⟩ rest :=
        fun hlong => h ⟨part, hpart, hlong⟩
      have hfits : before.nanos + part.nanos < Number.Duration.limit :=
        Nat.lt_of_not_le fun hle => hrest (Waiting.overlongAfter_of_le hle rest)
      simp only [sum_eq, Number.Duration.add?, if_pos hfits]
      exact ih hfits hrest

end Risky
end Runnel
