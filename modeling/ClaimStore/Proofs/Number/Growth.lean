import ClaimStore.Proofs.Number.Doubles

/-!
How much rounding adds.

A result is at most half a unit in its last place above what is rounded. So a calculation in double
precision stays below a bound in exact arithmetic, to which a little is added in each of its steps.
-/
namespace ClaimStore.Number

theorem div_le_roundQuotient (numerator denominator : Nat) :
    numerator / denominator ≤ roundQuotient numerator denominator := by
  dsimp only [roundQuotient]
  split
  · exact Nat.le_refl _
  · exact Nat.le_succ _

theorem roundQuotient_le (numerator : Nat) {denominator : Nat} (positive : 0 < denominator) :
    (roundQuotient numerator denominator : ℚ) ≤ numerator / denominator + 1 / 2 := by
  have below : (0 : ℚ) < denominator := by exact_mod_cast positive
  have whole := Nat.div_add_mod numerator denominator
  have twice : 2 * (roundQuotient numerator denominator * denominator) ≤
      2 * numerator + denominator := by
    dsimp only [roundQuotient]
    generalize numerator / denominator = quotient at whole ⊢
    generalize numerator % denominator = remainder at whole ⊢
    rw [Nat.mul_comm] at whole
    split
    · omega
    · rw [Nat.add_mul, Nat.one_mul]
      omega
  have twice : (2 : ℚ) * (roundQuotient numerator denominator * denominator) ≤
      2 * numerator + denominator := by exact_mod_cast twice
  rw [← sub_le_iff_le_add, le_div_iff₀ below]
  linarith

namespace BinaryFormat

variable {format : BinaryFormat}

/-- A significand that has been rounded up to the next power of two is stored with the next
exponent. -/
theorem exists_stored {significand : Nat} {exponent : Int} (least : format.leastExponent ≤ exponent)
    (narrow : significand ≤ 2 * twoTo format.fractionBits)
    (normal : twoTo format.fractionBits ≤ significand ∨ exponent = format.leastExponent)
    (finite : exponent - format.leastExponent + 3 < twoTo format.exponentBits) :
    ∃ stored place, format.Canonical stored place ∧
      format.magnitudeBits significand exponent = format.magnitudeBits stored place ∧
      (stored * 2 ^ place : ℚ) = significand * 2 ^ exponent := by
  rcases Nat.lt_or_eq_of_le narrow with below | rfl
  · exact ⟨significand, exponent, ⟨least, below, normal, by omega⟩, rfl, rfl⟩
  · have positive := twoTo_pos format.fractionBits
    refine ⟨twoTo format.fractionBits, exponent + 1,
      ⟨by omega, by omega, .inl (Nat.le_refl _), by omega⟩, ?_, ?_⟩
    · have field : (exponent + 1 - format.leastExponent).toNat =
          (exponent - format.leastExponent).toNat + 1 := by omega
      unfold magnitudeBits
      rw [field, Nat.add_mul]
      omega
    · rw [zpow_add₀ two_ne_zero, zpow_one]
      push_cast
      ring

/-- Half a unit in the last place of a fraction is small compared with it, or the least there is. -/
theorem half_unit_le {ratio : Ratio} (positive : 0 < ratio.value) (some : 0 < ratio.denominator) :
    (2 : ℚ) ^ max format.leastExponent (ratio.log2 - format.fractionBits) / 2 ≤
      ratio.value * 2 ^ (-(format.fractionBits + 1) : Int) + 2 ^ (format.leastExponent - 1) := by
  have halved : ∀ place : Int, (2 : ℚ) ^ place / 2 = 2 ^ (place - 1) := fun place => by
    rw [zpow_sub₀ two_ne_zero, zpow_one]
  rw [halved]
  rcases max_choice format.leastExponent (ratio.log2 - format.fractionBits) with same | same
  · rw [same]
    exact le_add_of_nonneg_left (by positivity)
  · have split : ratio.log2 - (format.fractionBits : Int) - 1 =
        ratio.log2 + -(format.fractionBits + 1) := by omega
    rw [same, split, zpow_add₀ two_ne_zero]
    have low := (Ratio.log2_spec positive some).1
    exact le_add_of_le_of_nonneg (mul_le_mul_of_nonneg_right low (by positivity)) (by positivity)

/-- The significand to which a positive fraction is rounded, before it is stored. -/
theorem round_parts {ratio : Ratio} {place : Int} (positive : 0 < ratio.value)
    (some : 0 < ratio.denominator)
    (same : max format.leastExponent (ratio.log2 - format.fractionBits) = place) :
    ∃ result : Nat,
      format.round ratio = min (format.magnitudeBits result place) format.infinityBits ∧
        result ≤ 2 * twoTo format.fractionBits ∧
        (twoTo format.fractionBits ≤ result ∨ place = format.leastExponent) ∧
        (result * 2 ^ place : ℚ) ≤ ratio.value + 2 ^ place / 2 := by
  obtain ⟨powerLow, powerHigh⟩ := Ratio.log2_spec positive some
  have unit : (0 : ℚ) < 2 ^ place := by positivity
  have least : 0 < ratio.denominator * twoTo place.toNat := Nat.mul_pos some (twoTo_pos _)
  have high := roundQuotient_le (ratio.numerator * twoTo (-place).toNat) least
  have low := div_le_roundQuotient (ratio.numerator * twoTo (-place).toNat)
    (ratio.denominator * twoTo place.toNat)
  rw [ratio.value_shift] at high
  have rounded : format.round ratio = min
      (format.magnitudeBits (roundQuotient (ratio.numerator * twoTo (-place).toNat)
        (ratio.denominator * twoTo place.toNat)) place) format.infinityBits := by
    dsimp only [round]
    rw [if_neg (Ratio.numerator_pos positive).ne', same]
    rfl
  generalize roundQuotient (ratio.numerator * twoTo (-place).toNat)
    (ratio.denominator * twoTo place.toNat) = result at high low rounded
  refine ⟨result, rounded, ?_, ?_, ?_⟩
  · have upper : ratio.value < 2 ^ (format.fractionBits + place + 1) :=
      lt_of_lt_of_le powerHigh (zpow_le_zpow_right₀ one_le_two (by omega))
    rw [zpow_add₀ two_ne_zero, two_zpow, zpow_one] at upper
    have shifted : ratio.value / 2 ^ place < 2 * twoTo format.fractionBits := by
      rw [div_lt_iff₀ unit]
      linarith
    have close : (result : ℚ) < (2 * twoTo format.fractionBits + 1 : Nat) := by
      push_cast
      linarith
    exact Nat.le_of_lt_succ (by exact_mod_cast close)
  · rcases max_choice format.leastExponent (ratio.log2 - format.fractionBits) with this | this
    · exact .inr (same.symm.trans this)
    · left
      have power : (twoTo format.fractionBits : ℚ) * 2 ^ place ≤ ratio.value := by
        rw [← two_zpow, ← same, this, add_sub_cancel]
        exact powerLow
      rw [← le_div_iff₀ unit, ← ratio.value_shift, le_div_iff₀ (by exact_mod_cast least)] at power
      exact ((Nat.le_div_iff_mul_le least).mpr (by exact_mod_cast power)).trans low
  · have scaled := mul_le_mul_of_nonneg_right high unit.le
    rw [add_mul, div_mul_cancel₀ _ unit.ne'] at scaled
    linarith

/-- What a fraction is rounded to, and how much greater than the fraction it can be. -/
theorem exists_round {ratio : Ratio} {size : Int} (some : 0 < ratio.denominator)
    (bounded : ratio.value < 2 ^ size)
    (room : size - format.fractionBits - format.leastExponent + 2 < twoTo format.exponentBits)
    (wide : 4 ≤ twoTo format.exponentBits) :
    ∃ significand exponent, format.Canonical significand exponent ∧
      format.round ratio = format.magnitudeBits significand exponent ∧
      (significand * 2 ^ exponent : ℚ) ≤
        ratio.value * (1 + 2 ^ (-(format.fractionBits + 1) : Int)) +
          2 ^ (format.leastExponent - 1) := by
  rcases Nat.eq_zero_or_pos ratio.numerator with zero | nonzero
  · have value : ratio.value = 0 := by rw [Ratio.value, zero, Nat.cast_zero, zero_div]
    have narrow : 0 < 2 * twoTo format.fractionBits :=
      Nat.mul_pos Nat.two_pos (twoTo_pos format.fractionBits)
    refine ⟨0, format.leastExponent, ⟨le_rfl, narrow, .inr rfl, by omega⟩, ?_, ?_⟩
    · simp [round, zero, magnitudeBits]
    · rw [value, Nat.cast_zero, zero_mul, zero_mul, zero_add]
      positivity
  · have below : (0 : ℚ) < ratio.denominator := by exact_mod_cast some
    have positive : 0 < ratio.value := div_pos (by exact_mod_cast nonzero) below
    have half := format.half_unit_le positive some
    obtain ⟨result, rounded, narrow, normal, near⟩ := format.round_parts positive some rfl
    have small : ratio.log2 < size := (zpow_lt_zpow_iff_right₀ one_lt_two).mp
      ((Ratio.log2_spec positive some).1.trans_lt bounded)
    obtain ⟨stored, exponent, canonical, bits, value⟩ :=
      exists_stored (le_max_left _ _) narrow normal (by omega)
    refine ⟨stored, exponent, canonical, ?_, ?_⟩
    · rw [rounded, bits, Nat.min_eq_left canonical.bits_lt.le]
    · rw [value]
      linarith

end BinaryFormat

/-- A value and what is added to it at most when it is rounded to double precision. -/
def raised (value : ℚ) : ℚ := value * (1 + 2 ^ (-53 : Int)) + 2 ^ (-1075 : Int)

theorem raised_mono {value bound : ℚ} (below : value ≤ bound) : raised value ≤ raised bound :=
  add_le_add_left (mul_le_mul_of_nonneg_right below (by positivity)) _

theorem raised_le {value : ℚ} (nonneg : 0 ≤ value) : raised value ≤ 2 * value + 1 := by
  have unit : (2 : ℚ) ^ (-1075 : Int) ≤ 1 := zpow_le_one_of_nonpos₀ one_le_two (by decide)
  unfold raised
  generalize (2 : ℚ) ^ (-1075 : Int) = least at unit
  norm_num
  linarith

namespace Double

/-- A finite number, not a negative one, up to a bound. -/
def AtMost (number : Double) (bound : ℚ) : Prop :=
  ∃ significand exponent, number.datum = .finite false significand exponent ∧
    (significand * 2 ^ exponent : ℚ) ≤ bound

variable {left right number : Double} {first second bound : ℚ}

theorem AtMost.mono (most : number.AtMost first) (below : first ≤ second) :
    number.AtMost second := by
  obtain ⟨significand, exponent, datum, value⟩ := most
  exact ⟨significand, exponent, datum, value.trans below⟩

theorem AtMost.nonneg (most : number.AtMost bound) : 0 ≤ bound := by
  obtain ⟨significand, exponent, -, value⟩ := most
  exact le_trans (by positivity) value

theorem atMost_ofRatio {ratio : Ratio} (some : 0 < ratio.denominator) (value : ratio.value ≤ bound)
    (small : bound < 2 ^ (200 : Int)) : (ofRatio false ratio).AtMost (raised bound) := by
  obtain ⟨significand, exponent, canonical, bits, rounded⟩ :=
    @BinaryFormat.exists_round .double ratio 200 some (value.trans_lt small) (by decide) (by decide)
  refine ⟨significand, exponent, ?_, rounded.trans (raised_mono value)⟩
  have bounded := BinaryFormat.signed_lt canonical.bits_lt.le false
  rw [ofRatio, datum, bits, UInt64.toNat_ofNat_of_lt' bounded]
  exact canonical.decode_eq false

theorem atMost_ofDatum {significand : Nat} {exponent : Int}
    (value : (significand * 2 ^ exponent : ℚ) ≤ bound) (small : bound < 2 ^ (200 : Int)) :
    (ofDatum (.finite false significand exponent)).AtMost (raised bound) :=
  atMost_ofRatio (Ratio.denominator_ofBinary significand exponent)
    ((Ratio.value_ofBinary significand exponent).trans_le value) small

theorem atMost_ofNat {value : Nat} (below : (value : ℚ) ≤ bound) (small : bound < 2 ^ (200 : Int)) :
    (ofNat value).AtMost (raised bound) :=
  atMost_ofDatum (by rwa [zpow_zero, mul_one]) small

theorem AtMost.divNat (most : number.AtMost bound) {divisor : Nat} (positive : 0 < divisor)
    (small : bound / divisor < 2 ^ (200 : Int)) :
    (number.divNat divisor).AtMost (raised (bound / divisor)) := by
  obtain ⟨significand, exponent, datum, value⟩ := most
  unfold Double.divNat
  simp only [datum]
  have ratio := Ratio.value_ofBinary significand exponent
  refine atMost_ofRatio (Nat.mul_pos (Ratio.denominator_ofBinary _ _) positive) ?_ small
  rw [Ratio.value] at ratio ⊢
  push_cast
  rw [← div_div, ratio]
  exact div_le_div_of_nonneg_right value (Nat.cast_nonneg divisor)

theorem AtMost.mul (most : left.AtMost first) (also : right.AtMost second)
    (small : first * second < 2 ^ (200 : Int)) :
    (left.mul right).AtMost (raised (first * second)) := by
  have nonneg := most.nonneg
  obtain ⟨significand, exponent, datum, value⟩ := most
  obtain ⟨other, place, datum', value'⟩ := also
  rw [Double.mul, datum, datum']
  refine atMost_ofDatum ?_ small
  rw [zpow_add₀ two_ne_zero, Nat.cast_mul, mul_mul_mul_comm]
  exact mul_le_mul value value' (by positivity) nonneg

theorem AtMost.add (most : left.AtMost first) (also : right.AtMost second)
    (small : first + second < 2 ^ (200 : Int)) :
    (left.add right).AtMost (raised (first + second)) := by
  obtain ⟨significand, exponent, datum, value⟩ := most
  obtain ⟨other, place, datum', value'⟩ := also
  rw [Double.add, datum, datum', Datum.add]
  dsimp only
  set low := min exponent place with low_def
  -- both summands are counted in units of the lower last place
  have shifted : ∀ (count : Nat) (from' : Int), low ≤ from' →
      ((count * twoTo (from' - low).toNat : Nat) : ℚ) * 2 ^ low = count * 2 ^ from' := by
    intro count from' above
    obtain ⟨distance, same⟩ := Int.eq_ofNat_of_zero_le (Int.sub_nonneg_of_le above)
    have split : from' = distance + low := by omega
    rw [same, split, zpow_add₀ two_ne_zero, zpow_natCast, Int.toNat_natCast, twoTo_eq]
    push_cast
    ring
  generalize magnitude : significand * twoTo (exponent - low).toNat +
    other * twoTo (place - low).toNat = total
  have sum : ((significand : Int) * twoTo (exponent - low).toNat +
      other * twoTo (place - low).toNat) = total := by
    rw [← magnitude]
    push_cast
    rfl
  have positive : (if (total : Int) = 0 then false && false else decide ((total : Int) < 0)) =
      false := by
    split
    · rfl
    · exact decide_eq_false (by omega)
  simp only [Bool.false_eq_true, if_false, sum, positive, Int.natAbs_natCast]
  refine atMost_ofDatum ?_ small
  rw [← magnitude, Nat.cast_add, add_mul, shifted significand exponent (min_le_left _ _),
    shifted other place (min_le_right _ _)]
  exact add_le_add value value'

end Double

end ClaimStore.Number
