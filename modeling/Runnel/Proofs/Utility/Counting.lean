import Runnel.Proofs.Number.Numerals
import Runnel.Proofs.Text.Cutting
import Runnel.Utility.Sequence

/-!
# Runnel.Proofs.Utility.Counting

The numbers that the command counts, up to the ends of 64-bit integers.

* `Sequence.progression`: the numbers from the first one on, in equal steps.
* `Sequence.Counts`: how many of them there are up to the end.
* `Sequence.counts_countFrom`: where the next number would not fit, the end has been reached anyway.
* `Sequence.integers_progression`: what is shown.
-/

namespace Runnel.Sequence

open Number (IsInt64 int64Min int64Max)

/-- The number lies before the end or at it. -/
def Before (step last n : Int) : Prop :=
  0 < step ∧ n ≤ last ∨ step < 0 ∧ last ≤ n

/-- So many numbers from the first one on, in equal steps. -/
def progression (first step : Int) (count : Nat) : List Int :=
  (List.range count).map fun k : Nat => first + k * step

/-- So many numbers of the progression lie before the end or at it, and none of the others. -/
def Counts (first step last : Int) (count : Nat) : Prop :=
  ∀ k : Nat, k < count ↔ Before step last (first + k * step)

section

variable {first step last n : Int} {count : Nat}

theorem reaches_iff : reaches step last n = true ↔ Before step last n := by
  simp [reaches, Before]

theorem add_succ_mul (first step : Int) (k : Nat) :
    first + step + k * step = first + (k + 1 : Nat) * step := by
  rw [Int.natCast_succ, Int.add_mul, Int.one_mul, Int.add_assoc, Int.add_comm step]

theorem progression_succ (first step : Int) (count : Nat) :
    progression first step (count + 1) = first :: progression (first + step) step count := by
  rw [progression, List.range_succ_eq_map, List.map_cons, List.map_map, progression]
  refine congr (congrArg List.cons ?_) (List.map_congr_left fun k _ => ?_)
  · rw [Int.natCast_zero, Int.zero_mul, Int.add_zero]
  · exact (add_succ_mul first step k).symm

/-! ## Before the end -/

/-- What comes before a number that has not gone beyond the end has not, either. -/
theorem Before.of_later {k : Nat} (h : Before step last (first + k * step)) :
    Before step last first := by
  have hk : (0 : Int) ≤ k := Int.natCast_nonneg k
  rcases h with ⟨hstep, hle⟩ | ⟨hstep, hle⟩
  · have hmul : 0 ≤ k * step := Int.mul_nonneg hk (Int.le_of_lt hstep)
    exact .inl ⟨hstep, by omega⟩
  · have hmul : k * step ≤ 0 := Int.mul_nonpos_of_nonneg_of_nonpos hk (Int.le_of_lt hstep)
    exact .inr ⟨hstep, by omega⟩

theorem Before.isInt64 {k : Nat} (h : Before step last (first + k * step)) (hfirst : IsInt64 first)
    (hlast : IsInt64 last) : IsInt64 (first + k * step) := by
  have hk : (0 : Int) ≤ k := Int.natCast_nonneg k
  obtain ⟨hfirstMin, hfirstMax⟩ := hfirst
  obtain ⟨hlastMin, hlastMax⟩ := hlast
  rcases h with ⟨hstep, hle⟩ | ⟨hstep, hle⟩
  · have hmul : 0 ≤ k * step := Int.mul_nonneg hk (Int.le_of_lt hstep)
    exact ⟨by omega, by omega⟩
  · have hmul : k * step ≤ 0 := Int.mul_nonpos_of_nonneg_of_nonpos hk (Int.le_of_lt hstep)
    exact ⟨by omega, by omega⟩

/-- A number that does not fit lies beyond every end that does. -/
theorem not_before_of_overflow (hn : IsInt64 n) (hlast : IsInt64 last)
    (hover : ¬ IsInt64 (n + step)) : ¬ Before step last (n + step) := by
  obtain ⟨hnMin, hnMax⟩ := hn
  obtain ⟨hlastMin, hlastMax⟩ := hlast
  rintro (⟨hstep, hle⟩ | ⟨hstep, hle⟩)
  · exact hover ⟨by omega, by omega⟩
  · exact hover ⟨by omega, by omega⟩

theorem Counts.zero (h : ¬ Before step last first) : Counts first step last 0 :=
  fun _ => iff_of_false (Nat.not_lt_zero _) fun hk => h hk.of_later

theorem Counts.succ (hfirst : Before step last first)
    (h : Counts (first + step) step last count) : Counts first step last (count + 1) := by
  intro k
  cases k with
  | zero => exact iff_of_true (Nat.succ_pos count) (by simpa using hfirst)
  | succ k => rw [Nat.add_lt_add_iff_right, h k, add_succ_mul]

/-! ## Counting -/

theorem counts_countFrom (hlast : IsInt64 last) (hn : IsInt64 n) :
    ∃ count, countFrom step last n = progression n step count ∧ Counts n step last count := by
  fun_induction countFrom step last n with
  | case1 n hreaches hfits ih =>
    obtain ⟨count, heq, hcounts⟩ := ih hfits
    exact ⟨count + 1, by rw [heq, progression_succ], hcounts.succ (reaches_iff.mp hreaches)⟩
  | case2 n hreaches hover =>
    refine ⟨1, ?_, (Counts.zero ?_).succ (reaches_iff.mp hreaches)⟩
    · rw [progression_succ]
      rfl
    · exact not_before_of_overflow hn hlast hover
  | case3 n hreaches =>
    exact ⟨0, rfl, .zero fun h => hreaches (reaches_iff.mpr h)⟩

/-! ## Showing -/

theorem not_break_signedDigits (n : Int) :
    '\n' ∉ (Text.signedDigits n).toList ∧ '\r' ∉ (Text.signedDigits n).toList := by
  have hmem := (Number.numeral_signedDigits n).mem
  refine ⟨fun h => ?_, fun h => ?_⟩
  · exact absurd (hmem _ h) (by decide)
  · exact absurd (hmem _ h) (by decide)

/-- Numbers on lines of their own. -/
def shown (numbers : List Int) : String :=
  String.join (numbers.map fun n => Text.signedDigits n ++ "\n")

/-- The numbers that are shown are read back line by line. -/
theorem read_shown {numbers : List Int} (h : ∀ n ∈ numbers, IsInt64 n) :
    (Text.lines (shown numbers)).map Number.readInt64? = numbers.map some := by
  have hshown : shown numbers = String.join ((numbers.map Text.signedDigits).map (· ++ "\n")) := by
    rw [shown, List.map_map]
    rfl
  have hlines : Text.lines (shown numbers) = numbers.map Text.signedDigits := by
    rw [hshown]
    refine Text.lines_join fun text htext => ?_
    obtain ⟨n, -, rfl⟩ := List.mem_map.mp htext
    exact not_break_signedDigits n
  rw [hlines, List.map_map]
  exact List.map_congr_left fun n hn => Number.readInt64?_signedDigits (h n hn)

end

/-- The numbers that are shown are those of the progression that do not lie beyond the end, each on a
line of its own, and none of them has wrapped around. There is no progression without a step. -/
theorem integers_progression (first step last : Int) :
    integers first 0 last = .error .zeroStep ∧
      (step ≠ 0 → IsInt64 first → IsInt64 last → ∃ count, Counts first step last count ∧
        integers first step last = .ok (shown (progression first step count)) ∧
        (Text.lines (shown (progression first step count))).map Number.readInt64? =
          (progression first step count).map some) := by
  refine ⟨if_pos rfl, fun hstep hfirst hlast => ?_⟩
  obtain ⟨count, heq, hcounts⟩ := counts_countFrom hlast hfirst
  refine ⟨count, hcounts, ?_, read_shown fun n hn => ?_⟩
  · rw [integers, if_neg hstep, heq]
    rfl
  · obtain ⟨k, hk, rfl⟩ := List.mem_map.mp hn
    exact ((hcounts k).mp (List.mem_range.mp hk)).isInt64 hfirst hlast

/-- The number behind the last one would not fit any more. -/
theorem integers_progression_near_end :
    (IsInt64 9223372036854775804 ∧ IsInt64 9223372036854775807) ∧
      integers 9223372036854775804 2 9223372036854775807 =
        .ok (shown [9223372036854775804, 9223372036854775806]) := by
  have hfirst : IsInt64 9223372036854775804 := ⟨by decide, by decide⟩
  have hlast : IsInt64 9223372036854775807 := ⟨by decide, by decide⟩
  refine ⟨⟨hfirst, hlast⟩, ?_⟩
  obtain ⟨count, hcounts, heq, -⟩ := (integers_progression 9223372036854775804 2
    9223372036854775807).2 (by decide) hfirst hlast
  have htwo : count = 2 := by
    have hone := (hcounts 1).mpr (.inl ⟨by decide, by decide⟩)
    have hover : ¬ 2 < count := fun h => by
      rcases (hcounts 2).mp h with ⟨-, hle⟩ | ⟨hstep, -⟩
      · exact absurd hle (by decide)
      · exact absurd hstep (by decide)
    omega
  rw [heq, htwo]
  rfl

end Runnel.Sequence
