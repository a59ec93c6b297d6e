import ClaimStore.Number.Power

/-!
Binary floating point formats.

A format has a sign bit, an exponent field and a fraction field. `decode` gives the number that bits
stand for and `encode` the bits of the nearest number of the format, with ties to the even one.
-/
namespace ClaimStore.Number

/-- The quotient rounded to the nearest natural number; halfway goes to the even one. -/
def roundQuotient (numerator denominator : Nat) : Nat :=
  let quotient := numerator / denominator
  let twice := 2 * (numerator % denominator)
  if twice < denominator ∨ (twice = denominator ∧ quotient % 2 = 0) then quotient
  else quotient + 1

/-- What floating point bits stand for. The finite number has the magnitude
`significand * 2 ^ exponent`; a zero has a sign too. -/
inductive Datum
  | nan
  | infinite (negative : Bool)
  | finite (negative : Bool) (significand : Nat) (exponent : Int)
  deriving DecidableEq, Inhabited

namespace Datum

/-- The exact sum. A sum of zero is negative only if both zeros are. -/
def add : Datum → Datum → Datum
  | .nan, _ | _, .nan => .nan
  | .infinite negative, .infinite other => if negative = other then .infinite negative else .nan
  | .infinite negative, _ | _, .infinite negative => .infinite negative
  | .finite negative significand exponent, .finite negative' significand' exponent' =>
      let low := min exponent exponent'
      let signed (negative : Bool) (magnitude : Int) : Int :=
        if negative then -magnitude else magnitude
      let sum :=
        signed negative (significand * twoTo (exponent - low).toNat) +
          signed negative' (significand' * twoTo (exponent' - low).toNat)
      .finite (if sum = 0 then negative && negative' else sum < 0) sum.natAbs low

def mul : Datum → Datum → Datum
  | .nan, _ | _, .nan => .nan
  | .infinite negative, .infinite negative' => .infinite (negative != negative')
  | .infinite negative, .finite negative' significand _
  | .finite negative significand _, .infinite negative' =>
      if significand = 0 then .nan else .infinite (negative != negative')
  | .finite negative significand exponent, .finite negative' significand' exponent' =>
      .finite (negative != negative') (significand * significand') (exponent + exponent')

end Datum

/-- A positive fraction of natural numbers. -/
structure Ratio where
  numerator : Nat
  denominator : Nat

/-- The fraction `significand * 2 ^ exponent`. -/
def Ratio.ofBinary (significand : Nat) (exponent : Int) : Ratio :=
  ⟨significand * twoTo exponent.toNat, twoTo (-exponent).toNat⟩

/-- The exponent of the greatest power of two that is at most a positive fraction. -/
def Ratio.log2 (ratio : Ratio) : Int :=
  let estimate : Int := ratio.numerator.log2 - ratio.denominator.log2
  if ratio.denominator * twoTo estimate.toNat ≤ ratio.numerator * twoTo (-estimate).toNat then
    estimate
  else estimate - 1

/-- The widths of the fraction and exponent fields. -/
structure BinaryFormat where
  fractionBits : Nat
  exponentBits : Nat

namespace BinaryFormat

def single : BinaryFormat := ⟨23, 8⟩

def double : BinaryFormat := ⟨52, 11⟩

variable (format : BinaryFormat)

def leastExponent : Int := 2 - twoTo (format.exponentBits - 1) - format.fractionBits

/-- The bits of the positive infinity, above those of all finite numbers. -/
def infinityBits : Nat := (twoTo format.exponentBits - 1) * twoTo format.fractionBits

/-- The bits of the NaN that is always used. -/
def nanBits : Nat := format.infinityBits + twoTo (format.fractionBits - 1)

def signBit (negative : Bool) : Nat :=
  if negative then twoTo (format.fractionBits + format.exponentBits) else 0

def decode (bits : Nat) : Datum :=
  let fraction := bits % twoTo format.fractionBits
  let field := bits / twoTo format.fractionBits % twoTo format.exponentBits
  let negative := bits / twoTo (format.fractionBits + format.exponentBits) % 2 = 1
  if field = twoTo format.exponentBits - 1 then
    if fraction = 0 then .infinite negative else .nan
  else if field = 0 then .finite negative fraction format.leastExponent
  else .finite negative (twoTo format.fractionBits + fraction) (format.leastExponent + (field - 1))

/-- The bits of the number nearest to a fraction, without the sign. From half a unit above the
greatest finite number on it is the infinity. -/
def round (ratio : Ratio) : Nat :=
  if ratio.numerator = 0 then 0
  else
    let exponent := max format.leastExponent (ratio.log2 - format.fractionBits)
    let significand :=
      roundQuotient (ratio.numerator * twoTo (-exponent).toNat)
        (ratio.denominator * twoTo exponent.toNat)
    let bits := (exponent - format.leastExponent).toNat * twoTo format.fractionBits + significand
    min bits format.infinityBits

def encode : Datum → Nat
  | .nan => format.nanBits
  | .infinite negative => format.signBit negative + format.infinityBits
  | .finite negative significand exponent =>
      format.signBit negative + format.round (Ratio.ofBinary significand exponent)

end BinaryFormat

end ClaimStore.Number
