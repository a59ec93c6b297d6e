import ClaimStore.Number.Double

/-!
Single-precision numbers.
-/
namespace ClaimStore.Number

/-- A single-precision number by its bits. -/
structure Single where
  bits : UInt32
  deriving DecidableEq, Inhabited

namespace Single

def datum (number : Single) : Datum := BinaryFormat.single.decode number.bits.toNat

def ofDatum (datum : Datum) : Single := ⟨UInt32.ofNat (BinaryFormat.single.encode datum)⟩

def ofInt (value : Int) : Single := ofDatum (.finite (value < 0) value.natAbs 0)

def nan : Single := ofDatum .nan

def toDouble (number : Single) : Double := .ofDatum number.datum

/-- Whether the number is less than a natural number; a NaN is not. -/
def ltNat (number : Single) (bound : Nat) : Bool :=
  match number.datum with
  | .nan => false
  | .infinite negative => negative
  | .finite negative significand exponent =>
      let ratio := Ratio.ofBinary significand exponent
      if negative then significand ≠ 0 ∨ bound ≠ 0
      else ratio.numerator < bound * ratio.denominator

/-- Equality of numbers: a NaN differs from itself, and the two zeros are equal. -/
def same (left right : Single) : Bool :=
  match left.datum, right.datum with
  | .nan, _ | _, .nan => false
  | .finite _ 0 _, .finite _ 0 _ => true
  | _, _ => left = right

end Single

def Double.toSingle (number : Double) : Single := .ofDatum number.datum

end ClaimStore.Number
