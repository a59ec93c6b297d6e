import ClaimStore.Proofs.Number.Rounding
import Mathlib.Tactic.IntervalCases

/-!
Numbers of a binary format.

Every finite number has one significand and one exponent with which it is stored. It is stored as
what is rounded to it, so that a number survives being written with all its bits.
-/
namespace ClaimStore.Number.BinaryFormat

variable {format : BinaryFormat} {significand : Nat} {exponent : Int}

/-- The significand and the exponent of a stored number. Only numbers with the least exponent may
have a leading zero bit. -/
structure Canonical (format : BinaryFormat) (significand : Nat) (exponent : Int) : Prop where
  least : format.leastExponent ≤ exponent
  narrow : significand < 2 * twoTo format.fractionBits
  normal : twoTo format.fractionBits ≤ significand ∨ exponent = format.leastExponent
  finite : exponent - format.leastExponent + 2 < twoTo format.exponentBits

def magnitudeBits (format : BinaryFormat) (significand : Nat) (exponent : Int) : Nat :=
  (exponent - format.leastExponent).toNat * twoTo format.fractionBits + significand

theorem Canonical.bits_lt (canonical : format.Canonical significand exponent) :
    format.magnitudeBits significand exponent < format.infinityBits := by
  obtain ⟨least, narrow, -, finite⟩ := canonical
  have field : (exponent - format.leastExponent).toNat + 2 ≤ twoTo format.exponentBits - 1 := by
    omega
  have scaled := Nat.mul_le_mul_right (twoTo format.fractionBits) field
  rw [Nat.add_mul] at scaled
  unfold magnitudeBits infinityBits
  omega

theorem two_zpow (place : Int) :
    (2 : ℚ) ^ (format.fractionBits + place) = twoTo format.fractionBits * 2 ^ place := by
  rw [zpow_add₀ two_ne_zero, zpow_natCast, twoTo_eq]
  push_cast
  rfl

/-- The place to which a fraction is rounded is the one at which its significand has all its bits,
or the least one. -/
theorem place_eq {ratio : Ratio} {place : Int} (positive : 0 < ratio.value)
    (some : 0 < ratio.denominator) (least : format.leastExponent ≤ place)
    (low : twoTo format.fractionBits * (2 : ℚ) ^ place ≤ ratio.value ∨
      place = format.leastExponent)
    (high : ratio.value < 2 * twoTo format.fractionBits * (2 : ℚ) ^ place) :
    max format.leastExponent (ratio.log2 - format.fractionBits) = place := by
  have one : (1 : ℚ) < 2 := one_lt_two
  obtain ⟨powerLow, powerHigh⟩ := Ratio.log2_spec positive some
  have upper : ratio.log2 < format.fractionBits + (place + 1) := by
    refine (zpow_lt_zpow_iff_right₀ one).mp (lt_of_le_of_lt powerLow ?_)
    rw [two_zpow, zpow_add₀ two_ne_zero, zpow_one]
    linarith
  rcases low with low | rfl
  · have lower : format.fractionBits + place < ratio.log2 + 1 := by
      refine (zpow_lt_zpow_iff_right₀ one).mp (lt_of_le_of_lt ?_ powerHigh)
      rw [two_zpow]
      exact low
    omega
  · omega

theorem round_at {ratio : Ratio} {place : Int} (result : Nat) (positive : 0 < ratio.value)
    (some : 0 < ratio.denominator)
    (same : max format.leastExponent (ratio.log2 - format.fractionBits) = place)
    (below : (result - 1 / 2 : ℚ) * 2 ^ place ≤ ratio.value)
    (above : ratio.value ≤ (result + 1 / 2 : ℚ) * 2 ^ place)
    (even : ratio.value = (result - 1 / 2 : ℚ) * 2 ^ place ∨
      ratio.value = (result + 1 / 2 : ℚ) * 2 ^ place → result % 2 = 0) :
    format.round ratio = min (format.magnitudeBits result place) format.infinityBits := by
  have unit : (0 : ℚ) < 2 ^ place := by positivity
  have quotient : roundQuotient (ratio.numerator * twoTo (-place).toNat)
      (ratio.denominator * twoTo place.toNat) = result := by
    apply roundQuotient_of_value (Nat.mul_pos some (twoTo_pos _)) <;> rw [ratio.value_shift]
    · rwa [le_div_iff₀ unit]
    · rwa [div_le_iff₀ unit]
    · rwa [div_eq_iff unit.ne', div_eq_iff unit.ne']
  dsimp only [round]
  rw [if_neg (Ratio.numerator_pos positive).ne', same, quotient]
  rfl

/-- Everything that is nearer to a number than to any other one is rounded to it. -/
theorem Canonical.round_eq (canonical : format.Canonical significand exponent)
    (positive : 0 < significand) {ratio : Ratio} (some : 0 < ratio.denominator)
    (low : (significand - 1 / 2 : ℚ) * 2 ^ exponent ≤ ratio.value)
    (dense : significand = twoTo format.fractionBits → exponent ≠ format.leastExponent →
      (significand - 1 / 4 : ℚ) * 2 ^ exponent ≤ ratio.value)
    (high : ratio.value ≤ (significand + 1 / 2 : ℚ) * 2 ^ exponent)
    (even : ratio.value = (significand - 1 / 2 : ℚ) * 2 ^ exponent ∨
      ratio.value = (significand + 1 / 2 : ℚ) * 2 ^ exponent → significand % 2 = 0) :
    format.round ratio = format.magnitudeBits significand exponent := by
  have bounded := canonical.bits_lt
  obtain ⟨least, narrow, normal, finite⟩ := canonical
  have unit : (0 : ℚ) < 2 ^ exponent := by positivity
  have one_le : (1 : ℚ) ≤ significand := by exact_mod_cast positive
  have value : 0 < ratio.value := lt_of_lt_of_le (mul_pos (by linarith) unit) low
  by_cases here : twoTo format.fractionBits * (2 : ℚ) ^ exponent ≤ ratio.value ∨
      exponent = format.leastExponent
  · have upper : ratio.value < 2 * twoTo format.fractionBits * (2 : ℚ) ^ exponent := by
      have narrow : (significand : ℚ) + 1 ≤ 2 * twoTo format.fractionBits := by
        exact_mod_cast narrow
      exact lt_of_le_of_lt high (mul_lt_mul_of_pos_right (by linarith) unit)
    rw [round_at significand value some (place_eq value some least here upper) low high even,
      Nat.min_eq_left bounded.le]
  · -- just below a power of two the last place counts half as much
    obtain ⟨small, other⟩ := not_or.mp here
    have small := lt_of_not_ge small
    have bound : significand < twoTo format.fractionBits + 1 := by
      have : (significand : ℚ) - 1 / 2 < twoTo format.fractionBits :=
        lt_of_mul_lt_mul_right (lt_of_le_of_lt low small) unit.le
      have : (significand : ℚ) < (twoTo format.fractionBits + 1 : Nat) := by
        push_cast
        linarith
      exact_mod_cast this
    obtain rfl : significand = twoTo format.fractionBits := by
      have := normal.resolve_right other
      omega
    have near := dense rfl other
    have half : (2 : ℚ) ^ (exponent - 1) = 2 ^ exponent / 2 := by
      rw [zpow_sub₀ two_ne_zero, zpow_one]
    have bits : format.magnitudeBits (2 * twoTo format.fractionBits) (exponent - 1) =
        format.magnitudeBits (twoTo format.fractionBits) exponent := by
      have field : (exponent - format.leastExponent).toNat =
          (exponent - 1 - format.leastExponent).toNat + 1 := by omega
      unfold magnitudeBits
      rw [field, Nat.add_mul]
      omega
    have place : max format.leastExponent (ratio.log2 - format.fractionBits) = exponent - 1 := by
      refine place_eq value some (by omega) (.inl ?_) ?_ <;> rw [half]
      · refine le_trans ?_ near
        rw [← mul_div_assoc, mul_div_right_comm]
        exact mul_le_mul_of_nonneg_right (by linarith) unit.le
      · linarith
    rw [round_at (2 * twoTo format.fractionBits) value some place, bits,
      Nat.min_eq_left bounded.le] <;> rw [half]
    · push_cast
      linarith
    · push_cast
      linarith
    · intro _
      omega

theorem mod_fields (format : BinaryFormat) (bits : Nat) :
    bits % twoTo (format.fractionBits + format.exponentBits) =
      bits % twoTo format.fractionBits +
        twoTo format.fractionBits * (bits / twoTo format.fractionBits % twoTo format.exponentBits) := by
  rw [twoTo_eq, twoTo_eq, twoTo_eq, Nat.pow_add, Nat.mod_mul]

theorem infinite_of_decode {bits : Nat} {negative : Bool}
    (decoded : format.decode bits = .infinite negative) :
    bits % twoTo (format.fractionBits + format.exponentBits) = format.infinityBits ∧
      negative = decide (bits / twoTo (format.fractionBits + format.exponentBits) % 2 = 1) := by
  rw [mod_fields]
  dsimp only [decode] at decoded
  split at decoded
  · rename_i field
    split at decoded
    · rename_i fraction
      cases decoded
      rw [field, fraction, Nat.zero_add, Nat.mul_comm]
      exact ⟨rfl, rfl⟩
    · cases decoded
  · split at decoded <;> cases decoded

theorem canonical_of_decode {bits : Nat} {negative : Bool} (wide : 2 ≤ format.exponentBits)
    (decoded : format.decode bits = .finite negative significand exponent) :
    format.Canonical significand exponent ∧
      format.magnitudeBits significand exponent =
        bits % twoTo (format.fractionBits + format.exponentBits) ∧
      negative = decide (bits / twoTo (format.fractionBits + format.exponentBits) % 2 = 1) := by
  have fraction : bits % twoTo format.fractionBits < twoTo format.fractionBits :=
    Nat.mod_lt _ (twoTo_pos _)
  have below : bits / twoTo format.fractionBits % twoTo format.exponentBits <
      twoTo format.exponentBits := Nat.mod_lt _ (twoTo_pos _)
  have four : 4 ≤ twoTo format.exponentBits :=
    (Nat.pow_le_pow_right Nat.zero_lt_two wide : 2 ^ 2 ≤ 2 ^ format.exponentBits)
  rw [mod_fields]
  dsimp only [decode] at decoded
  generalize bits % twoTo format.fractionBits = fractionField at *
  generalize bits / twoTo format.fractionBits % twoTo format.exponentBits = exponentField at *
  split at decoded
  · split at decoded <;> cases decoded
  · rename_i finite
    split at decoded
    · rename_i zero
      cases decoded
      subst zero
      refine ⟨⟨le_rfl, by omega, .inr rfl, by omega⟩, ?_, rfl⟩
      simp [magnitudeBits]
    · rename_i positive
      cases decoded
      refine ⟨⟨by omega, by omega, .inl (by omega), by omega⟩, ?_, rfl⟩
      obtain ⟨field, rfl⟩ := Nat.exists_eq_succ_of_ne_zero positive
      have same : (format.leastExponent + ((field + 1 : Nat) - 1) - format.leastExponent).toNat =
          field := by omega
      unfold magnitudeBits
      rw [same, Nat.mul_succ, Nat.mul_comm]
      omega

theorem decode_fields {field fraction : Nat} (fits : field < twoTo format.exponentBits)
    (short : fraction < twoTo format.fractionBits) (negative : Bool) :
    format.decode (format.signBit negative + (field * twoTo format.fractionBits + fraction)) =
      if field = twoTo format.exponentBits - 1 then
        if fraction = 0 then .infinite negative else .nan
      else if field = 0 then .finite negative fraction format.leastExponent
      else
        .finite negative (twoTo format.fractionBits + fraction)
          (format.leastExponent + (field - 1)) := by
  have power : twoTo (format.fractionBits + format.exponentBits) =
      twoTo format.fractionBits * twoTo format.exponentBits := Nat.pow_add _ _ _
  have whole : ∃ sign, negative = decide (sign % 2 = 1) ∧
      format.signBit negative + (field * twoTo format.fractionBits + fraction) =
        twoTo format.fractionBits * (twoTo format.exponentBits * sign + field) + fraction := by
    cases negative with
    | false =>
        refine ⟨0, rfl, ?_⟩
        simp [signBit, Nat.mul_comm]
    | true =>
        refine ⟨1, rfl, ?_⟩
        rw [signBit, if_pos rfl, power, Nat.mul_one, Nat.mul_add, Nat.mul_comm field, Nat.add_assoc]
  obtain ⟨sign, sense, same⟩ := whole
  have quotient : (twoTo format.fractionBits * (twoTo format.exponentBits * sign + field) + fraction) /
      twoTo format.fractionBits = twoTo format.exponentBits * sign + field := by
    rw [Nat.mul_add_div (twoTo_pos _), Nat.div_eq_of_lt short, Nat.add_zero]
  have rest : (twoTo format.fractionBits * (twoTo format.exponentBits * sign + field) + fraction) %
      twoTo format.fractionBits = fraction := by
    rw [Nat.mul_add_mod, Nat.mod_eq_of_lt short]
  have top : (twoTo format.exponentBits * sign + field) / twoTo format.exponentBits = sign := by
    rw [Nat.mul_add_div (twoTo_pos _), Nat.div_eq_of_lt fits, Nat.add_zero]
  have low : (twoTo format.exponentBits * sign + field) % twoTo format.exponentBits = field := by
    rw [Nat.mul_add_mod, Nat.mod_eq_of_lt fits]
  rw [same, decode, power, ← Nat.div_div_eq_div_mul, quotient, rest, top, low, ← sense]

theorem Canonical.decode_eq (canonical : format.Canonical significand exponent) (negative : Bool) :
    format.decode (format.signBit negative + format.magnitudeBits significand exponent) =
      .finite negative significand exponent := by
  obtain ⟨least, narrow, normal, finite⟩ := canonical
  by_cases leading : twoTo format.fractionBits ≤ significand
  · obtain ⟨fraction, rfl⟩ := Nat.exists_eq_add_of_le leading
    have bits : format.magnitudeBits (twoTo format.fractionBits + fraction) exponent =
        ((exponent - format.leastExponent).toNat + 1) * twoTo format.fractionBits + fraction := by
      rw [magnitudeBits, Nat.succ_mul, Nat.add_assoc]
    rw [bits, decode_fields (by omega) (by omega), if_neg (by omega), if_neg (by omega)]
    congr 1
    omega
  · obtain rfl : exponent = format.leastExponent := normal.resolve_left leading
    have bits : format.magnitudeBits significand format.leastExponent =
        0 * twoTo format.fractionBits + significand := by
      simp [magnitudeBits]
    rw [bits, decode_fields (twoTo_pos _) (by omega), if_neg (by omega), if_pos rfl]

/-- A number is rounded to itself. -/
theorem Canonical.round_of_value (canonical : format.Canonical significand exponent) {ratio : Ratio}
    (some : 0 < ratio.denominator) (value : ratio.value = significand * 2 ^ exponent) :
    format.round ratio = format.magnitudeBits significand exponent := by
  rcases Nat.eq_zero_or_pos significand with rfl | positive
  · have same : exponent = format.leastExponent := by
      refine canonical.normal.resolve_left ?_
      have := twoTo_pos format.fractionBits
      omega
    have zero : ratio.numerator = 0 := by
      have below : (ratio.denominator : ℚ) ≠ 0 := by exact_mod_cast some.ne'
      rw [Ratio.value, Nat.cast_zero, zero_mul, div_eq_zero_iff] at value
      exact_mod_cast value.resolve_right below
    simp [round, zero, magnitudeBits, same]
  · have unit : (0 : ℚ) < 2 ^ exponent := by positivity
    apply canonical.round_eq positive some <;> rw [value]
    · nlinarith
    · intro _ _
      nlinarith
    · nlinarith
    · rintro (tie | tie) <;> nlinarith

/-- A significand that is short enough can be shifted until the number is one of the format. -/
theorem exists_canonical (narrow : significand < 2 * twoTo format.fractionBits)
    (least : format.leastExponent ≤ exponent)
    (finite : exponent - format.leastExponent + 2 < twoTo format.exponentBits) :
    ∃ stored place, format.Canonical stored place ∧
      (stored * 2 ^ place : ℚ) = significand * 2 ^ exponent := by
  obtain ⟨room, distance⟩ := Int.eq_ofNat_of_zero_le (Int.sub_nonneg_of_le least)
  induction room generalizing significand exponent with
  | zero =>
      have same : exponent = format.leastExponent := by omega
      exact ⟨significand, exponent, ⟨least, narrow, .inr same, finite⟩, rfl⟩
  | succ room ih =>
      by_cases normal : twoTo format.fractionBits ≤ significand
      · exact ⟨significand, exponent, ⟨least, narrow, .inl normal, finite⟩, rfl⟩
      · obtain ⟨stored, place, canonical, value⟩ := @ih (2 * significand) (exponent - 1) (by omega)
          (by omega) (by omega) (by omega)
        refine ⟨stored, place, canonical, ?_⟩
        rw [value, zpow_sub₀ two_ne_zero, zpow_one]
        push_cast
        ring

/-- Bits without those of a NaN are the bits of what they stand for. -/
theorem encode_decode {bits : Nat} (wide : 2 ≤ format.exponentBits)
    (bounded : bits < 2 * twoTo (format.fractionBits + format.exponentBits))
    (number : format.decode bits ≠ .nan) : format.encode (format.decode bits) = bits := by
  have split := Nat.div_add_mod bits (twoTo (format.fractionBits + format.exponentBits))
  have sign : bits / twoTo (format.fractionBits + format.exponentBits) < 2 :=
    Nat.div_lt_of_lt_mul (by rwa [Nat.mul_comm])
  have signed : ∀ negative, negative = decide (bits / twoTo (format.fractionBits +
      format.exponentBits) % 2 = 1) → format.signBit negative = twoTo (format.fractionBits +
      format.exponentBits) * (bits / twoTo (format.fractionBits + format.exponentBits)) := by
    rintro _ rfl
    generalize bits / twoTo (format.fractionBits + format.exponentBits) = top at sign
    interval_cases top <;> simp [signBit]
  cases decoded : format.decode bits with
  | nan => exact absurd decoded number
  | finite negative significand exponent =>
      obtain ⟨canonical, magnitude, sense⟩ := canonical_of_decode wide decoded
      rw [encode, canonical.round_of_value (Ratio.denominator_ofBinary _ _) (Ratio.value_ofBinary _ _),
        magnitude, signed negative sense]
      exact split
  | infinite negative =>
      obtain ⟨magnitude, sense⟩ := infinite_of_decode decoded
      rw [encode, ← magnitude, signed negative sense]
      exact split

end ClaimStore.Number.BinaryFormat
