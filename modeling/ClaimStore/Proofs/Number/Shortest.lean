import ClaimStore.Number.Decimal
import ClaimStore.Proofs.Number.Doubles

/-!
The shortest decimals.

The decimal with which a number is written lies in the interval of the fractions that are rounded to
the number. There is always one with at most seventeen digits, and each of them is read as the
number.
-/
namespace ClaimStore.Number

theorem tenTo_div (exponent : Int) :
    (tenTo exponent.toNat : ℚ) / tenTo (-exponent).toNat = (10 : ℚ) ^ exponent := by
  rcases Int.le_total 0 exponent with up | down
  · obtain ⟨size, rfl⟩ := Int.eq_ofNat_of_zero_le up
    simp [tenTo]
  · obtain ⟨size, same⟩ := Int.eq_ofNat_of_zero_le (Int.neg_nonneg.mpr down)
    obtain rfl : exponent = -size := by omega
    simp [tenTo, zpow_neg]

/-- A positive number lies between two powers of ten that its digits give. -/
theorem length_digits {number : Nat} (positive : 0 < number) :
    10 ^ ((Nat.toDigits 10 number).length - 1) ≤ number ∧
      number < 10 ^ (Nat.toDigits 10 number).length := by
  have some : 0 < (Nat.toDigits 10 number).length := Nat.length_toDigits_pos
  refine ⟨?_, (Nat.length_toDigits_le_iff (by decide) some).mp le_rfl⟩
  rcases Nat.eq_zero_or_pos ((Nat.toDigits 10 number).length - 1) with zero | more
  · rwa [zero]
  · by_contra less
    have := (Nat.length_toDigits_le_iff (by decide) more).mpr (Nat.lt_of_not_le less)
    omega

namespace RoundingInterval

variable {interval : RoundingInterval} {place : Int} {digits : Nat}

/-- Whether a fraction lies in the interval. -/
def Contains (interval : RoundingInterval) (fraction : ℚ) : Prop :=
  if interval.closed then
    interval.low * 2 ^ interval.exponent ≤ fraction ∧
      fraction ≤ interval.high * 2 ^ interval.exponent
  else
    interval.low * 2 ^ interval.exponent < fraction ∧
      fraction < interval.high * 2 ^ interval.exponent

theorem Contains.bounds {fraction : ℚ} (inside : interval.Contains fraction) :
    interval.low * 2 ^ interval.exponent ≤ fraction ∧
      fraction ≤ interval.high * 2 ^ interval.exponent := by
  unfold Contains at inside
  split at inside
  · exact inside
  · exact ⟨inside.1.le, inside.2.le⟩

/-- A scale on which the bounds are counted in multiples of a power of ten. -/
structure Scale (interval : RoundingInterval) (place : Int) (factor unit : Nat) : Prop where
  scaled : interval.scaled place =
    ((interval.low * factor, interval.value * factor, interval.high * factor), unit)
  factor_pos : 0 < factor
  unit_pos : 0 < unit
  same : (factor : ℚ) * 10 ^ place = 2 ^ interval.exponent * unit

theorem exists_scale (interval : RoundingInterval) (place : Int) :
    ∃ factor unit, Scale interval place factor unit := by
  have two : (0 : ℚ) < twoTo (-interval.exponent).toNat := by exact_mod_cast twoTo_pos _
  have ten : (0 : ℚ) < tenTo (-place).toNat := by exact_mod_cast tenTo_pos _
  refine ⟨_, _, rfl, Nat.mul_pos (twoTo_pos _) (tenTo_pos _),
    Nat.mul_pos (twoTo_pos _) (tenTo_pos _), ?_⟩
  rw [← twoTo_div, ← tenTo_div]
  push_cast
  field_simp

namespace Scale

variable {factor unit : Nat}

theorem lt_iff (scale : Scale interval place factor unit) (bound count : Nat) :
    (bound : ℚ) * 2 ^ interval.exponent < count * 10 ^ place ↔ bound * factor < count * unit := by
  have ten : (0 : ℚ) < 10 ^ place := by positivity
  have size : (0 : ℚ) < unit := by exact_mod_cast scale.unit_pos
  have left : (bound : ℚ) * 2 ^ interval.exponent * unit = bound * factor * 10 ^ place := by
    rw [mul_assoc, ← scale.same, mul_assoc]
  rw [← mul_lt_mul_iff_left₀ size, left, mul_right_comm (count : ℚ), mul_lt_mul_iff_left₀ ten]
  exact_mod_cast Iff.rfl

theorem gt_iff (scale : Scale interval place factor unit) (bound count : Nat) :
    (count : ℚ) * 10 ^ place < bound * 2 ^ interval.exponent ↔ count * unit < bound * factor := by
  have ten : (0 : ℚ) < 10 ^ place := by positivity
  have size : (0 : ℚ) < unit := by exact_mod_cast scale.unit_pos
  have left : (bound : ℚ) * 2 ^ interval.exponent * unit = bound * factor * 10 ^ place := by
    rw [mul_assoc, ← scale.same, mul_assoc]
  rw [← mul_lt_mul_iff_left₀ size, left, mul_right_comm, mul_lt_mul_iff_left₀ ten]
  exact_mod_cast Iff.rfl

theorem contains_iff (scale : Scale interval place factor unit) (count : Nat) :
    interval.Contains (count * 10 ^ place) ↔
      if interval.closed then
        interval.low * factor ≤ count * unit ∧ count * unit ≤ interval.high * factor
      else interval.low * factor < count * unit ∧ count * unit < interval.high * factor := by
  unfold Contains
  split
  · rw [← not_lt, scale.gt_iff, ← not_lt, scale.lt_iff, not_lt, not_lt]
  · rw [scale.gt_iff, scale.lt_iff]

end Scale

/-- What is found near the number lies in the interval. -/
theorem contains_of_nearest? (low : interval.low < interval.value)
    (high : interval.value < interval.high) (found : interval.nearest? place = some digits) :
    interval.Contains (digits * 10 ^ place) := by
  obtain ⟨factor, unit, scale⟩ := exists_scale interval place
  have low := Nat.mul_lt_mul_of_pos_right low scale.factor_pos
  have high := Nat.mul_lt_mul_of_pos_right high scale.factor_pos
  have whole := Nat.div_add_mod (interval.value * factor) unit
  have rest := Nat.mod_lt (interval.value * factor) scale.unit_pos
  rw [Nat.mul_comm] at whole
  rw [scale.contains_iff]
  dsimp only [nearest?] at found
  rw [scale.scaled] at found
  dsimp only at found
  generalize interval.value * factor / unit = below at *
  rw [Nat.add_mul, Nat.one_mul] at found
  cases closed : interval.closed <;>
    simp only [closed, if_true, if_false, Bool.false_eq_true] at found ⊢
  all_goals
    split at found
    · cases found
      omega
    · split at found
      · cases found
        omega
      · split at found
        · cases found
          rw [Nat.add_mul, Nat.one_mul]
          omega
        · cases found

/-- Something is found if the interval is wider than the multiples are apart. -/
theorem nearest?_isSome (wide : (interval.low : ℚ) * 2 ^ interval.exponent + 10 ^ place <
    interval.high * 2 ^ interval.exponent) : (interval.nearest? place).isSome := by
  obtain ⟨factor, unit, scale⟩ := exists_scale interval place
  have ten : (0 : ℚ) < 10 ^ place := by positivity
  have two : (0 : ℚ) < 2 ^ interval.exponent := by positivity
  have wide : interval.low * factor + unit < interval.high * factor := by
    have : ((interval.low * factor + unit : Nat) : ℚ) * 10 ^ place <
        ((interval.high * factor : Nat) : ℚ) * 10 ^ place := by
      push_cast
      rw [add_mul, mul_assoc, mul_assoc, scale.same]
      have size : (0 : ℚ) < unit := by exact_mod_cast scale.unit_pos
      have := mul_lt_mul_of_pos_right wide size
      linarith
    exact_mod_cast lt_of_mul_lt_mul_right this ten.le
  have whole := Nat.div_add_mod (interval.value * factor) unit
  have rest := Nat.mod_lt (interval.value * factor) scale.unit_pos
  rw [Nat.mul_comm] at whole
  dsimp only [nearest?]
  rw [scale.scaled]
  dsimp only
  generalize interval.value * factor / unit = below at *
  rw [Nat.add_mul, Nat.one_mul]
  cases closed : interval.closed <;> simp only [if_true, if_false, Bool.false_eq_true]
  all_goals
    split
    · rfl
    · split
      · rfl
      · split
        · rfl
        · omega

theorem le_value {ratio : Ratio} (count : Nat) (some : 0 < ratio.denominator)
    (below : ratio.denominator ≤ ratio.numerator * tenTo count) :
    (10 : ℚ) ^ (-count : Int) ≤ ratio.value := by
  have size : (0 : ℚ) < ratio.denominator := by exact_mod_cast some
  have ten : (0 : ℚ) < 10 ^ count := by positivity
  rw [Ratio.value, zpow_neg, zpow_natCast, le_div_iff₀ size, inv_mul_le_iff₀ ten, mul_comm]
  exact_mod_cast below

/-- The magnitude is at most that of the number. -/
theorem magnitude_le (positive : 0 < interval.value) :
    (10 : ℚ) ^ (interval.magnitude - 1) ≤ interval.value * 2 ^ interval.exponent := by
  have some := Ratio.denominator_ofBinary interval.value interval.exponent
  have numerator : 0 < (Ratio.ofBinary interval.value interval.exponent).numerator :=
    Nat.mul_pos positive (twoTo_pos _)
  rw [← Ratio.value_ofBinary]
  dsimp only [magnitude]
  generalize Ratio.ofBinary interval.value interval.exponent = ratio at *
  split
  · rename_i whole
    have quotient := (length_digits (Nat.div_pos whole some)).1
    have digits : 0 < (Nat.toDigits 10 (ratio.numerator / ratio.denominator)).length :=
      Nat.length_toDigits_pos
    generalize (Nat.toDigits 10 (ratio.numerator / ratio.denominator)).length = length at *
    obtain ⟨shorter, rfl⟩ := Nat.exists_eq_add_of_le' digits
    have size : (0 : ℚ) < ratio.denominator := by exact_mod_cast some
    rw [Nat.le_div_iff_mul_le some, Nat.add_sub_cancel] at quotient
    rw [Int.natCast_add, Int.natCast_one, Int.add_sub_cancel, zpow_natCast, Ratio.value,
      le_div_iff₀ size]
    exact_mod_cast quotient
  · rename_i part
    have inverse : 0 < ratio.denominator / ratio.numerator := Nat.div_pos (by omega) numerator
    have below := (length_digits inverse).2
    have digits : 0 < (Nat.toDigits 10 (ratio.denominator / ratio.numerator)).length :=
      Nat.length_toDigits_pos
    generalize (Nat.toDigits 10 (ratio.denominator / ratio.numerator)).length = length at *
    split
    · rename_i near
      have bound := le_value _ some near
      have same : (2 - length - 1 : Int) = -(length - 1 : Nat) := by omega
      rwa [same]
    · rw [Nat.div_lt_iff_lt_mul numerator, Nat.mul_comm] at below
      have bound := le_value length some below.le
      have same : (1 - length - 1 : Int) = -length := by omega
      rwa [same]

theorem trimZeros_value (fuel digits : Nat) (exponent : Int) :
    ((trimZeros fuel digits exponent).1 * 10 ^ (trimZeros fuel digits exponent).2 : ℚ) =
      digits * 10 ^ exponent := by
  induction fuel generalizing digits exponent with
  | zero => rfl
  | succ fuel ih =>
      unfold trimZeros
      split
      · rename_i trailing
        obtain ⟨-, tens⟩ := trailing
        obtain ⟨rest, rfl⟩ := Nat.dvd_of_mod_eq_zero tens
        rw [ih, Nat.mul_div_cancel_left rest (by decide), zpow_add₀ (by norm_num), zpow_one]
        push_cast
        ring
      · rfl

/-- If the interval is found to have a decimal with some of the tried numbers of digits, then the
shortest one lies in it. -/
theorem contains_shortest (low : interval.low < interval.value)
    (high : interval.value < interval.high) (left count more : Nat) (tried : more < left)
    (found : (interval.nearest? (interval.magnitude - (count + more : Nat))).isSome) :
    interval.Contains
      ((interval.shortest left count).1 * 10 ^ (interval.shortest left count).2) := by
  induction left generalizing count more with
  | zero => cases tried
  | succ left ih =>
      dsimp only [shortest]
      cases near : interval.nearest? (interval.magnitude - count) with
      | some digits =>
          dsimp only
          rw [trimZeros_value]
          exact contains_of_nearest? low high near
      | none =>
          cases more with
          | zero =>
              rw [Nat.add_zero, near] at found
              cases found
          | succ more =>
              have same : count + 1 + more = count + (more + 1) := by omega
              exact ih (count + 1) more (by omega) (by rwa [same])

section Format

variable {format : BinaryFormat} {significand : Nat} {exponent : Int}

theorem low_lt_value (positive : 0 < significand) :
    (ofFinite format significand exponent).low < (ofFinite format significand exponent).value := by
  dsimp only [ofFinite]
  split <;> omega

theorem value_lt_high : (ofFinite format significand exponent).value <
    (ofFinite format significand exponent).high := by
  dsimp only [ofFinite]
  omega

/-- Every fraction in the interval of a number is rounded to it. -/
theorem round_of_contains (canonical : format.Canonical significand exponent)
    (positive : 0 < significand) {ratio : Ratio} (some : 0 < ratio.denominator)
    (inside : (ofFinite format significand exponent).Contains ratio.value) :
    format.round ratio = format.magnitudeBits significand exponent := by
  have unit : (0 : ℚ) < 2 ^ exponent := by positivity
  have quarter : (2 : ℚ) ^ (exponent - 2) = 2 ^ exponent / 4 := by
    rw [zpow_sub₀ two_ne_zero]
    norm_num
  have one : (1 : ℚ) ≤ significand := by exact_mod_cast positive
  have half : ((4 * significand - 2 : Nat) : ℚ) = 4 * significand - 2 := by
    rw [Nat.cast_sub (by omega)]
    push_cast
    rfl
  have less : ((4 * significand - 1 : Nat) : ℚ) = 4 * significand - 1 := by
    rw [Nat.cast_sub (by omega)]
    push_cast
    rfl
  have wide : (4 * significand - 2 : ℚ) ≤ (ofFinite format significand exponent).low := by
    dsimp only [ofFinite]
    split
    · rw [less]
      linarith
    · rw [half]
  have scaled := mul_le_mul_of_nonneg_right wide (by positivity : (0 : ℚ) ≤ 2 ^ (exponent - 2))
  have bounds := inside.bounds
  have high : (((ofFinite format significand exponent).high : Nat) : ℚ) = 4 * significand + 2 := by
    dsimp only [ofFinite]
    push_cast
    rfl
  have place : (ofFinite format significand exponent).exponent = exponent - 2 := rfl
  rw [high, place, quarter] at bounds
  rw [quarter] at scaled
  refine canonical.round_eq positive some (by linarith) ?_ (by linarith) ?_
  · intro least more
    have dense : (ofFinite format significand exponent).low = 4 * significand - 1 := by
      dsimp only [ofFinite]
      rw [if_pos ⟨least, more⟩]
    rw [dense, less] at bounds
    linarith
  · intro tie
    by_contra odd
    have opened : (ofFinite format significand exponent).closed = false := by
      dsimp only [ofFinite]
      exact decide_eq_false odd
    rw [Contains, opened, if_neg Bool.false_ne_true, high, place, quarter] at inside
    rcases tie with tie | tie <;> linarith

/-- Seventeen digits are enough for the formats with at most that many. -/
theorem contains_text (canonical : format.Canonical significand exponent)
    (positive : 0 < significand) (precise : 2 * twoTo format.fractionBits ≤ tenTo 16) :
    (ofFinite format significand exponent).Contains
      (((ofFinite format significand exponent).shortest 17 1).1 *
        10 ^ ((ofFinite format significand exponent).shortest 17 1).2) := by
  refine contains_shortest (low_lt_value positive) value_lt_high 17 1 16 (by decide) ?_
  apply nearest?_isSome
  have bound : (10 : ℚ) ^ ((ofFinite format significand exponent).magnitude - 1) ≤
      ((4 * significand : Nat) : ℚ) * 2 ^ (exponent - 2) := magnitude_le (by
    show 0 < 4 * significand
    omega)
  have split : (10 : ℚ) ^ ((ofFinite format significand exponent).magnitude - (1 + 16 : Nat)) =
      10 ^ ((ofFinite format significand exponent).magnitude - 1) / 10 ^ 16 := by
    have same : (ofFinite format significand exponent).magnitude - (1 + 16 : Nat) =
        (ofFinite format significand exponent).magnitude - 1 - 16 := by omega
    rw [same, zpow_sub₀ (by norm_num) _ 16]
    norm_num
  rw [split]
  generalize (ofFinite format significand exponent).magnitude = magnitude at *
  have unit : (0 : ℚ) < 2 ^ (exponent - 2) := by positivity
  have precise : (2 * twoTo format.fractionBits : ℚ) ≤ 10 ^ 16 := by exact_mod_cast precise
  have narrow : (significand : ℚ) < 2 * twoTo format.fractionBits := by
    exact_mod_cast canonical.narrow
  push_cast at bound
  dsimp only [ofFinite]
  split
  · rename_i dense
    have low : ((4 * significand - 1 : Nat) : ℚ) = 4 * significand - 1 := by
      rw [Nat.cast_sub (by omega)]
      push_cast
      rfl
    have same : (significand : ℚ) = twoTo format.fractionBits := by exact_mod_cast dense.1
    rw [low]
    push_cast
    nlinarith
  · have low : ((4 * significand - 2 : Nat) : ℚ) = 4 * significand - 2 := by
      rw [Nat.cast_sub (by omega)]
      push_cast
      rfl
    rw [low]
    push_cast
    nlinarith

end Format

end RoundingInterval

namespace Decimal

/-- The magnitude of a decimal. -/
def value (decimal : Decimal) : ℚ := decimal.digits * 10 ^ decimal.exponent

/-- The first digit of a decimal tells its size. -/
theorem value_bounds {decimal : Decimal} (positive : 0 < decimal.digits) :
    (10 : ℚ) ^ (decimal.exponent + (Nat.toDigits 10 decimal.digits).length - 1) ≤ decimal.value ∧
      decimal.value < (10 : ℚ) ^ (decimal.exponent + (Nat.toDigits 10 decimal.digits).length) := by
  obtain ⟨low, high⟩ := length_digits positive
  have some : 0 < (Nat.toDigits 10 decimal.digits).length := Nat.length_toDigits_pos
  generalize (Nat.toDigits 10 decimal.digits).length = length at *
  obtain ⟨shorter, rfl⟩ := Nat.exists_eq_add_of_le' some
  have unit : (0 : ℚ) < 10 ^ decimal.exponent := by positivity
  have less : decimal.exponent + (shorter + 1 : Nat) - 1 = decimal.exponent + shorter := by omega
  rw [less, zpow_add₀ (by norm_num), zpow_add₀ (by norm_num), zpow_natCast, zpow_natCast, value,
    mul_comm _ ((10 : ℚ) ^ decimal.exponent), mul_le_mul_iff_right₀ unit, mul_lt_mul_iff_right₀ unit]
  exact ⟨by exact_mod_cast low, by exact_mod_cast high⟩

/-- All decimals in intervals are far from the bounds of what is read. -/
theorem bounds_of_contains {fraction : ℚ} {significand : Nat} {exponent : Int}
    (canonical : BinaryFormat.double.Canonical significand exponent) (positive : 0 < significand)
    (inside : (RoundingInterval.ofFinite .double significand exponent).Contains fraction) :
    (10 : ℚ) ^ (-400 : Int) < fraction ∧ fraction < (10 : ℚ) ^ (400 : Int) := by
  obtain ⟨low, high⟩ := inside.bounds
  obtain ⟨least, narrow, -, finite⟩ := canonical
  have leastPlace : BinaryFormat.double.leastExponent = -1074 := by decide
  have fields : twoTo BinaryFormat.double.exponentBits = 2048 := by decide
  have places : twoTo BinaryFormat.double.fractionBits = 2 ^ 52 := by decide
  have one : (1 : ℚ) ≤ 2 := one_le_two
  have place : (RoundingInterval.ofFinite .double significand exponent).exponent = exponent - 2 := rfl
  have smallest : (1 : ℚ) ≤ (RoundingInterval.ofFinite .double significand exponent).low := by
    have : 1 ≤ (RoundingInterval.ofFinite .double significand exponent).low := by
      dsimp only [RoundingInterval.ofFinite]
      split <;> omega
    exact_mod_cast this
  have greatest : ((RoundingInterval.ofFinite .double significand exponent).high : ℚ) ≤ 2 ^ 55 := by
    have : (RoundingInterval.ofFinite .double significand exponent).high ≤ 2 ^ 55 := by
      dsimp only [RoundingInterval.ofFinite]
      omega
    exact_mod_cast this
  rw [place] at low high
  have power : (2 : ℚ) ^ (1200 : Int) < 10 ^ (400 : Int) := by
    have eight : (2 : ℚ) ^ (1200 : Int) = (2 ^ 3) ^ 400 := by
      rw [← pow_mul]
      exact zpow_natCast 2 1200
    rw [eight]
    exact_mod_cast pow_lt_pow_left₀ (by norm_num : (2 : ℚ) ^ 3 < 10) (by norm_num) (by decide)
  have above : (2 : ℚ) ^ (-1200 : Int) ≤ 2 ^ (exponent - 2) := zpow_le_zpow_right₀ one (by omega)
  have below : (2 : ℚ) ^ 55 * 2 ^ (exponent - 2) ≤ 2 ^ (1200 : Int) := by
    rw [← zpow_natCast, ← zpow_add₀ two_ne_zero]
    exact zpow_le_zpow_right₀ one (by omega)
  have unit : (0 : ℚ) < 2 ^ (exponent - 2) := by positivity
  constructor
  · calc (10 : ℚ) ^ (-400 : Int) < 2 ^ (-1200 : Int) := by
          rw [zpow_neg, zpow_neg]
          exact inv_strictAnti₀ (by positivity) power
      _ ≤ 2 ^ (exponent - 2) := above
      _ ≤ _ := le_mul_of_one_le_left unit.le smallest
      _ ≤ fraction := low
  · calc fraction ≤ _ := high
      _ ≤ 2 ^ 55 * 2 ^ (exponent - 2) := mul_le_mul_of_nonneg_right greatest unit.le
      _ ≤ 2 ^ (1200 : Int) := below
      _ < 10 ^ (400 : Int) := power

theorem digits_pos_of_value {decimal : Decimal} (positive : 0 < decimal.value) :
    0 < decimal.digits := by
  apply Nat.pos_of_ne_zero
  intro zero
  rw [value, zero, Nat.cast_zero, zero_mul] at positive
  exact lt_irrefl _ positive

/-- A decimal in the interval of a number is read as the number. -/
theorem toDouble_of_contains {decimal : Decimal} {significand : Nat} {exponent : Int}
    (canonical : BinaryFormat.double.Canonical significand exponent) (positive : 0 < significand)
    (inside : (RoundingInterval.ofFinite .double significand exponent).Contains decimal.value) :
    decimal.toDouble = .ofDatum (.finite decimal.negative significand exponent) := by
  obtain ⟨low, high⟩ := bounds_of_contains canonical positive inside
  have ten : (1 : ℚ) < 10 := by norm_num
  have digits := digits_pos_of_value (lt_trans (by positivity) low)
  obtain ⟨least, most⟩ := value_bounds digits
  have above := (zpow_lt_zpow_iff_right₀ ten).mp (lt_trans low most)
  have below := (zpow_lt_zpow_iff_right₀ ten).mp (lt_of_le_of_lt least high)
  have some : 0 < tenTo (-decimal.exponent).toNat := tenTo_pos _
  have same : Ratio.value ⟨decimal.digits * tenTo decimal.exponent.toNat,
      tenTo (-decimal.exponent).toNat⟩ = decimal.value := by
    rw [Ratio.value, value, ← tenTo_div, ← mul_div_assoc]
    push_cast
    rfl
  dsimp only [toDouble]
  rw [if_neg, if_neg]
  · rw [Double.ofRatio, Double.ofDatum, canonical.encode_eq,
      RoundingInterval.round_of_contains canonical positive some (by rwa [same])]
  · unfold exponentBound
    omega
  · unfold exponentBound
    omega

theorem toDouble_of_value_zero {decimal : Decimal} (zero : decimal.value = 0) :
    decimal.toDouble = .ofDatum (.finite decimal.negative 0 0) := by
  have none : decimal.digits = 0 := by
    rw [value, mul_eq_zero] at zero
    exact_mod_cast zero.resolve_right (by positivity)
  dsimp only [toDouble]
  rw [if_pos (.inl none)]

end Decimal

/-- The text of a number is that of a decimal, and all decimals of the same value are read as the
number. -/
theorem Double.exists_decimal {number : Double} {negative : Bool} {significand : Nat}
    {exponent : Int} (datum : number.datum = .finite negative significand exponent) :
    ∃ decimal : Decimal, number.text = decimal.text ∧ decimal.negative = negative ∧
      (0 < decimal.digits ∨ decimal.exponent = 0) ∧
      ∀ other : Decimal, other.negative = negative → other.value = decimal.value →
        other.toDouble = number := by
  have same : ofDatum (.finite negative significand exponent) = number := by
    rw [← datum]
    apply ofDatum_datum
    rw [datum]
    exact Datum.noConfusion
  rcases Nat.eq_zero_or_pos significand with rfl | positive
  · refine ⟨⟨negative, 0, 0⟩, ?_, rfl, .inr rfl, ?_⟩
    · rw [text, datum]
      rfl
    · intro other sign value
      have zero : Decimal.value ⟨negative, 0, 0⟩ = 0 := by simp [Decimal.value]
      rw [Decimal.toDouble_of_value_zero (value.trans zero), sign, ← same, ofDatum, ofDatum]
      simp [BinaryFormat.encode, BinaryFormat.round, Ratio.ofBinary]
  · obtain ⟨canonical, -⟩ := BinaryFormat.canonical_of_decode (by decide) datum
    have inside := RoundingInterval.contains_text canonical positive (by decide)
    have some := lt_trans (by positivity) (Decimal.bounds_of_contains canonical positive inside).1
    refine ⟨⟨negative, _, _⟩, ?_, rfl, .inl (Decimal.digits_pos_of_value some), ?_⟩
    · rw [text, datum]
      dsimp only [Datum.text]
      rw [if_neg positive.ne']
    · intro other sign value
      rw [Decimal.toDouble_of_contains canonical positive (by rwa [value]), sign, same]

end ClaimStore.Number
