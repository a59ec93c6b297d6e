import ClaimStore.Number.Binary
import Mathlib.Algebra.Order.Field.Power
import Mathlib.Data.Rat.Floor
import Mathlib.Tactic.FieldSimp
import Mathlib.Tactic.Linarith
import Mathlib.Tactic.Ring

/-!
Rounding to a binary format.

A fraction near enough to a number of a format is rounded to it. How near that is depends on the
number: half a unit in its last place, and a quarter below a power of two. Ties go to the even
number.
-/
namespace ClaimStore.Number

theorem twoTo_eq (exponent : Nat) : twoTo exponent = 2 ^ exponent := rfl

/-- The two sides of a power with a whole exponent, of which one is one. -/
theorem twoTo_div (exponent : Int) :
    (twoTo exponent.toNat : ℚ) / twoTo (-exponent).toNat = (2 : ℚ) ^ exponent := by
  rcases Int.le_total 0 exponent with up | down
  · obtain ⟨size, rfl⟩ := Int.eq_ofNat_of_zero_le up
    simp [twoTo_eq]
  · obtain ⟨size, same⟩ := Int.eq_ofNat_of_zero_le (Int.neg_nonneg.mpr down)
    obtain rfl : exponent = -size := by omega
    simp [twoTo_eq, zpow_neg]

namespace Ratio

def value (ratio : Ratio) : ℚ := ratio.numerator / ratio.denominator

theorem value_ofBinary (significand : Nat) (exponent : Int) :
    (ofBinary significand exponent).value = significand * (2 : ℚ) ^ exponent := by
  rw [← twoTo_div, value, ofBinary, ← mul_div_assoc]
  push_cast
  rfl

/-- The fraction counted in units of a power of two, as it is rounded. -/
theorem value_shift (ratio : Ratio) (place : Int) :
    ((ratio.numerator * twoTo (-place).toNat : Nat) : ℚ) /
      ((ratio.denominator * twoTo place.toNat : Nat) : ℚ) = ratio.value / 2 ^ place := by
  rw [← twoTo_div, value]
  push_cast
  field_simp

theorem denominator_ofBinary (significand : Nat) (exponent : Int) :
    0 < (ofBinary significand exponent).denominator := twoTo_pos _

theorem numerator_pos {ratio : Ratio} (positive : 0 < ratio.value) : 0 < ratio.numerator := by
  apply Nat.pos_of_ne_zero
  intro zero
  rw [value, zero] at positive
  simp at positive

theorem log2_bounds {number : Nat} (positive : 0 < number) :
    (2 : ℚ) ^ (number.log2 : Int) ≤ number ∧ (number : ℚ) < (2 : ℚ) ^ ((number.log2 : Int) + 1) := by
  constructor
  · exact_mod_cast Nat.log2_self_le (Nat.ne_of_gt positive)
  · exact_mod_cast Nat.lt_log2_self

/-- The logarithm is the one of the greatest power that is not above the fraction. -/
theorem log2_spec {ratio : Ratio} (positive : 0 < ratio.value) (some : 0 < ratio.denominator) :
    (2 : ℚ) ^ ratio.log2 ≤ ratio.value ∧ ratio.value < (2 : ℚ) ^ (ratio.log2 + 1) := by
  have numerator := numerator_pos positive
  obtain ⟨numeratorLow, numeratorHigh⟩ := log2_bounds numerator
  obtain ⟨denominatorLow, denominatorHigh⟩ := log2_bounds some
  have below : (0 : ℚ) < ratio.denominator := by exact_mod_cast some
  have two : (2 : ℚ) ≠ 0 := two_ne_zero
  set estimate : Int := ratio.numerator.log2 - ratio.denominator.log2 with estimate_def
  have test : ratio.denominator * twoTo estimate.toNat ≤
      ratio.numerator * twoTo (-estimate).toNat ↔ (2 : ℚ) ^ estimate ≤ ratio.value := by
    have unit : (0 : ℚ) < twoTo (-estimate).toNat := by exact_mod_cast twoTo_pos _
    rw [← twoTo_div, value, div_le_div_iff₀ unit below, mul_comm (twoTo estimate.toNat : ℚ)]
    exact_mod_cast Iff.rfl
  have high : ratio.value < (2 : ℚ) ^ (estimate + 1) := by
    rw [value, div_lt_iff₀ below]
    calc (ratio.numerator : ℚ) < 2 ^ ((ratio.numerator.log2 : Int) + 1) := numeratorHigh
      _ = 2 ^ (estimate + 1) * 2 ^ (ratio.denominator.log2 : Int) := by
          rw [← zpow_add₀ two]
          congr 1
          omega
      _ ≤ 2 ^ (estimate + 1) * ratio.denominator :=
          mul_le_mul_of_nonneg_left denominatorLow (by positivity)
  have low : (2 : ℚ) ^ (estimate - 1) ≤ ratio.value := by
    rw [value, le_div_iff₀ below]
    calc (2 : ℚ) ^ (estimate - 1) * ratio.denominator
        ≤ 2 ^ (estimate - 1) * 2 ^ ((ratio.denominator.log2 : Int) + 1) :=
          mul_le_mul_of_nonneg_left denominatorHigh.le (by positivity)
      _ = 2 ^ (ratio.numerator.log2 : Int) := by
          rw [← zpow_add₀ two]
          congr 1
          omega
      _ ≤ ratio.numerator := numeratorLow
  dsimp only [log2]
  rw [← estimate_def]
  split
  · rename_i fits
    exact ⟨test.mp fits, high⟩
  · rename_i large
    refine ⟨low, ?_⟩
    rw [Int.sub_add_cancel]
    exact lt_of_not_ge fun fits => large (test.mpr fits)

end Ratio

/-- A quotient within a half of a natural number is rounded to it. At the half itself the number has
to be even. -/
theorem roundQuotient_eq {numerator denominator result : Nat} (positive : 0 < denominator)
    (low : 2 * (result * denominator) ≤ 2 * numerator + denominator)
    (high : 2 * numerator ≤ 2 * (result * denominator) + denominator)
    (even : 2 * (result * denominator) = 2 * numerator + denominator ∨
      2 * numerator = 2 * (result * denominator) + denominator → result % 2 = 0) :
    roundQuotient numerator denominator = result := by
  have whole := Nat.div_add_mod numerator denominator
  have rest := Nat.mod_lt numerator positive
  dsimp only [roundQuotient]
  generalize numerator / denominator = quotient at whole ⊢
  generalize numerator % denominator = remainder at whole rest ⊢
  rw [Nat.mul_comm] at whole
  -- the result is the quotient or the number after it
  have near : result = quotient ∨ result = quotient + 1 := by
    rcases Nat.lt_trichotomy result quotient with less | same | more
    · have := Nat.mul_le_mul_right denominator (Nat.succ_le_of_lt less)
      rw [Nat.succ_mul] at this
      omega
    · exact .inl same
    · rcases Nat.eq_or_lt_of_le (Nat.succ_le_of_lt more) with same | more
      · exact .inr same.symm
      · have := Nat.mul_le_mul_right denominator (Nat.succ_le_of_lt more)
        rw [Nat.succ_mul, Nat.succ_mul] at this
        omega
  rcases near with rfl | rfl
  · split
    · rfl
    · rename_i beyond
      omega
  · rw [Nat.add_mul, Nat.one_mul] at low high even
    split
    · rename_i before
      omega
    · rfl

theorem roundQuotient_of_value {numerator denominator result : Nat} (positive : 0 < denominator)
    (low : (result : ℚ) - 1 / 2 ≤ numerator / denominator)
    (high : (numerator : ℚ) / denominator ≤ result + 1 / 2)
    (even : (numerator : ℚ) / denominator = result - 1 / 2 ∨
      (numerator : ℚ) / denominator = result + 1 / 2 → result % 2 = 0) :
    roundQuotient numerator denominator = result := by
  have below : (0 : ℚ) < denominator := by exact_mod_cast positive
  rw [le_div_iff₀ below] at low
  rw [div_le_iff₀ below] at high
  rw [div_eq_iff below.ne', div_eq_iff below.ne'] at even
  refine roundQuotient_eq positive ?_ ?_ ?_
  · have : (2 : ℚ) * (result * denominator) ≤ 2 * numerator + denominator := by linarith
    exact_mod_cast this
  · have : (2 : ℚ) * numerator ≤ 2 * (result * denominator) + denominator := by linarith
    exact_mod_cast this
  · rintro (tie | tie)
    · refine even (.inl ?_)
      have : (2 : ℚ) * (result * denominator) = 2 * numerator + denominator := by exact_mod_cast tie
      linarith
    · refine even (.inr ?_)
      have : (2 : ℚ) * numerator = 2 * (result * denominator) + denominator := by exact_mod_cast tie
      linarith

end ClaimStore.Number
