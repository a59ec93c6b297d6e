import ClaimStore.Number.Single
import ClaimStore.Proofs.Number.Formats

/-!
Numbers of two precisions.

A number is made again from what its bits stand for. All single-precision numbers are
double-precision numbers too, so that none is changed when it is widened and narrowed again.
-/
namespace ClaimStore.Number

namespace BinaryFormat

variable {format : BinaryFormat} {significand : Nat} {exponent : Int}

theorem infinityBits_lt (format : BinaryFormat) :
    format.infinityBits < twoTo (format.fractionBits + format.exponentBits) := by
  have power : twoTo (format.fractionBits + format.exponentBits) =
      twoTo format.exponentBits * twoTo format.fractionBits := by
    rw [Nat.mul_comm]
    exact Nat.pow_add _ _ _
  rw [power, infinityBits]
  exact Nat.mul_lt_mul_of_pos_right (Nat.sub_lt (twoTo_pos _) Nat.one_pos) (twoTo_pos _)

/-- A sign and a magnitude fit into the bits of the format. -/
theorem signed_lt {magnitude : Nat} (bounded : magnitude ≤ format.infinityBits) (negative : Bool) :
    format.signBit negative + magnitude < 2 * twoTo (format.fractionBits + format.exponentBits) := by
  have := format.infinityBits_lt
  unfold signBit
  split <;> omega

theorem decode_infinity (format : BinaryFormat) (negative : Bool) :
    format.decode (format.signBit negative + format.infinityBits) = .infinite negative := by
  have fields := decode_fields (Nat.sub_lt (twoTo_pos format.exponentBits) Nat.one_pos)
    (twoTo_pos format.fractionBits) negative
  rwa [Nat.add_zero, if_pos rfl, if_pos rfl] at fields

theorem Canonical.encode_eq (canonical : format.Canonical significand exponent) (negative : Bool) :
    format.encode (.finite negative significand exponent) =
      format.signBit negative + format.magnitudeBits significand exponent := by
  rw [encode, canonical.round_of_value (Ratio.denominator_ofBinary _ _) (Ratio.value_ofBinary _ _)]

end BinaryFormat

theorem Double.ofDatum_datum {number : Double} (some : number.datum ≠ .nan) :
    ofDatum number.datum = number := by
  have same := @BinaryFormat.encode_decode .double _ (by decide) number.bits.toNat_lt some
  rw [ofDatum, datum, same, UInt64.ofNat_toNat]

theorem Single.ofDatum_datum {number : Single} (some : number.datum ≠ .nan) :
    ofDatum number.datum = number := by
  have same := @BinaryFormat.encode_decode .single _ (by decide) number.bits.toNat_lt some
  rw [ofDatum, datum, same, UInt32.ofNat_toNat]

theorem Double.datum_ofDatum_infinite (negative : Bool) :
    (ofDatum (.infinite negative)).datum = .infinite negative := by
  have bounded := BinaryFormat.signed_lt (le_refl BinaryFormat.double.infinityBits) negative
  rw [ofDatum, datum, BinaryFormat.encode, UInt64.toNat_ofNat_of_lt' bounded]
  exact BinaryFormat.decode_infinity _ _

theorem Double.datum_ofDatum_finite {significand : Nat} {exponent : Int}
    (canonical : BinaryFormat.double.Canonical significand exponent) (negative : Bool) :
    (ofDatum (.finite negative significand exponent)).datum =
      .finite negative significand exponent := by
  have bounded := BinaryFormat.signed_lt canonical.bits_lt.le negative
  rw [ofDatum, datum, canonical.encode_eq, UInt64.toNat_ofNat_of_lt' bounded]
  exact canonical.decode_eq negative

theorem Single.datum_toDouble {number : Single} {negative : Bool} {significand : Nat} {exponent : Int}
    (datum : number.datum = .finite negative significand exponent) :
    ∃ stored place, BinaryFormat.double.Canonical stored place ∧
      (stored * 2 ^ place : ℚ) = significand * 2 ^ exponent ∧
      number.toDouble = .ofDatum (.finite negative stored place) := by
  obtain ⟨⟨least, narrow, -, finite⟩, -⟩ := BinaryFormat.canonical_of_decode (by decide) datum
  have singleLeast : BinaryFormat.single.leastExponent = -149 := by decide
  have doubleLeast : BinaryFormat.double.leastExponent = -1074 := by decide
  have singleWide : twoTo BinaryFormat.single.exponentBits = 256 := by decide
  have doubleWide : twoTo BinaryFormat.double.exponentBits = 2048 := by decide
  have singleNarrow : twoTo BinaryFormat.single.fractionBits = 8388608 := by decide
  have doubleNarrow : twoTo BinaryFormat.double.fractionBits = 4503599627370496 := by decide
  obtain ⟨stored, place, canonical, value⟩ :=
    @BinaryFormat.exists_canonical .double significand exponent (by omega) (by omega) (by omega)
  refine ⟨stored, place, canonical, value, ?_⟩
  rw [toDouble, datum, Double.ofDatum, Double.ofDatum, canonical.encode_eq, BinaryFormat.encode,
    canonical.round_of_value (Ratio.denominator_ofBinary _ _)]
  rw [Ratio.value_ofBinary, value]

theorem Single.toDouble_ne_nan {number : Single} (some : number.datum ≠ .nan) :
    number.toDouble.datum ≠ .nan := by
  cases same : number.datum with
  | nan => exact absurd same some
  | infinite negative =>
      rw [toDouble, same, Double.datum_ofDatum_infinite]
      exact Datum.noConfusion
  | finite negative significand exponent =>
      obtain ⟨stored, place, canonical, -, widened⟩ := datum_toDouble same
      rw [widened, Double.datum_ofDatum_finite canonical]
      exact Datum.noConfusion

/-- A number that is widened and narrowed again is what it was. -/
theorem Single.toSingle_toDouble {number : Single} (some : number.datum ≠ .nan) :
    number.toDouble.toSingle = number := by
  refine Eq.trans ?_ (ofDatum_datum some)
  cases same : number.datum with
  | nan => exact absurd same some
  | infinite negative => rw [Double.toSingle, toDouble, same, Double.datum_ofDatum_infinite]
  | finite negative significand exponent =>
      obtain ⟨stored, place, canonical, value, widened⟩ := datum_toDouble same
      obtain ⟨own, -⟩ := BinaryFormat.canonical_of_decode (by decide) same
      rw [Double.toSingle, widened, Double.datum_ofDatum_finite canonical, ofDatum, ofDatum,
        own.encode_eq, BinaryFormat.encode, own.round_of_value (Ratio.denominator_ofBinary _ _)]
      rw [Ratio.value_ofBinary, value]

end ClaimStore.Number
