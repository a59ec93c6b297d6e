import ClaimStore.Number.Binary

/-!
Double-precision numbers.

Every result is the exact one rounded to the nearest number. All NaNs are the same one.
-/
namespace ClaimStore.Number

/-- A double-precision number by its bits. -/
structure Double where
  bits : UInt64
  deriving DecidableEq, Inhabited

namespace Double

def datum (number : Double) : Datum := BinaryFormat.double.decode number.bits.toNat

def ofDatum (datum : Datum) : Double := ⟨UInt64.ofNat (BinaryFormat.double.encode datum)⟩

def ofNat (value : Nat) : Double := ofDatum (.finite false value 0)

def ofRatio (negative : Bool) (ratio : Ratio) : Double :=
  ⟨UInt64.ofNat (BinaryFormat.double.signBit negative + BinaryFormat.double.round ratio)⟩

def add (left right : Double) : Double := ofDatum (left.datum.add right.datum)

def mul (left right : Double) : Double := ofDatum (left.datum.mul right.datum)

def divNat (number : Double) (divisor : Nat) : Double :=
  match number.datum with
  | .finite negative significand exponent =>
      let ratio := Ratio.ofBinary significand exponent
      ofRatio negative ⟨ratio.numerator, ratio.denominator * divisor⟩
  | datum => ofDatum datum

end Double

end ClaimStore.Number
