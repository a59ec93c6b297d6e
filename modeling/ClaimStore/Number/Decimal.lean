import ClaimStore.Number.Single

/-!
Floating point numbers in decimal notation.

A number is written with the fewest digits that are read back as the same number; of several such
the nearest is taken. The notation is positional, without an exponent. A decimal is read as the
nearest number.
-/
namespace ClaimStore.Number

/-- The decimal `digits * 10 ^ exponent` with a sign. -/
structure Decimal where
  negative : Bool
  digits : Nat
  exponent : Int
  deriving DecidableEq

namespace Decimal

/-- Decimals with a leading digit above this power of ten are infinite in every format and those
with all digits below its inverse are zero. -/
def exponentBound : Int := 400

def toDouble (decimal : Decimal) : Double :=
  let places : Int := (Nat.toDigits 10 decimal.digits).length
  if decimal.digits = 0 ∨ decimal.exponent + places < -exponentBound then
    .ofDatum (.finite decimal.negative 0 0)
  else if exponentBound < decimal.exponent + places then .ofDatum (.infinite decimal.negative)
  else
    .ofRatio decimal.negative
      ⟨decimal.digits * tenTo decimal.exponent.toNat, tenTo (-decimal.exponent).toNat⟩

def text (decimal : Decimal) : String :=
  let digits := Nat.toDigits 10 decimal.digits
  let sign := if decimal.negative then "-" else ""
  if 0 ≤ decimal.exponent then
    sign ++ String.ofList (digits ++ List.replicate decimal.exponent.toNat '0')
  else
    let places := (-decimal.exponent).toNat
    let padded := List.replicate (places + 1 - digits.length) '0' ++ digits
    let whole := padded.take (padded.length - places)
    let fraction := padded.drop (padded.length - places)
    sign ++ String.ofList (whole ++ '.' :: fraction)

end Decimal

/-- The decimals that are read as a certain positive number: those between two bounds. Bounds and
number are counted in quarters of its last place, `2 ^ exponent`. -/
structure RoundingInterval where
  low : Nat
  value : Nat
  high : Nat
  exponent : Int
  /-- Whether the bounds belong to the interval. -/
  closed : Bool

namespace RoundingInterval

/-- The interval of a positive number. Below a power of two the numbers are twice as dense. -/
def ofFinite (format : BinaryFormat) (significand : Nat) (exponent : Int) : RoundingInterval :=
  let dense :=
    significand = twoTo format.fractionBits ∧ exponent ≠ format.leastExponent
  { low := if dense then 4 * significand - 1 else 4 * significand - 2
    value := 4 * significand
    high := 4 * significand + 2
    exponent := exponent - 2
    closed := significand % 2 = 0 }

/-- The interval counted in units of `10 ^ place`, as fractions with a common denominator. -/
def scaled (interval : RoundingInterval) (place : Int) : (Nat × Nat × Nat) × Nat :=
  let factor := twoTo interval.exponent.toNat * tenTo (-place).toNat
  ((interval.low * factor, interval.value * factor, interval.high * factor),
    twoTo (-interval.exponent).toNat * tenTo place.toNat)

/-- The multiple of `10 ^ place` in the interval that is nearest to the number, halfway the greater
one. Only the two neighbours of the number have to be tried. -/
def nearest? (interval : RoundingInterval) (place : Int) : Option Nat :=
  let ((low, value, high), unit) := interval.scaled place
  let below := value / unit
  let above := below + 1
  let belowFits := if interval.closed then low ≤ below * unit else low < below * unit
  let aboveFits := if interval.closed then above * unit ≤ high else above * unit < high
  if value % unit = 0 then some below
  else if belowFits ∧ (¬ aboveFits ∨ value - below * unit < above * unit - value) then some below
  else if aboveFits then some above
  else none

def magnitude (interval : RoundingInterval) : Int :=
  let ratio := Ratio.ofBinary interval.value interval.exponent
  if ratio.denominator ≤ ratio.numerator then
    (Nat.toDigits 10 (ratio.numerator / ratio.denominator)).length
  else
    -- the number is `1 / quotient` or a little less
    let digits := (Nat.toDigits 10 (ratio.denominator / ratio.numerator)).length
    if ratio.denominator ≤ ratio.numerator * tenTo (digits - 1) then 2 - digits
    else 1 - digits

def trimZeros : (fuel : Nat) → Nat → Int → Nat × Int
  | 0, digits, exponent => (digits, exponent)
  | fuel + 1, digits, exponent =>
      if digits ≠ 0 ∧ digits % 10 = 0 then trimZeros fuel (digits / 10) (exponent + 1)
      else (digits, exponent)

/-- The digits of the shortest decimal in the interval, with the place of the last one. At most
`left` more digits are tried after `count`; seventeen digits are always enough. -/
def shortest (interval : RoundingInterval) : (left : Nat) → (count : Nat) → Nat × Int
  | 0, _ => (0, 0)
  | left + 1, count =>
      let place := interval.magnitude - count
      match interval.nearest? place with
      | some digits => trimZeros (count + 1) digits place
      | none => shortest interval left (count + 1)

end RoundingInterval

def Datum.text (format : BinaryFormat) : Datum → String
  | .nan => "NaN"
  | .infinite negative => if negative then "-inf" else "inf"
  | .finite negative significand exponent =>
      let (digits, place) :=
        if significand = 0 then (0, 0)
        else (RoundingInterval.ofFinite format significand exponent).shortest 17 1
      Decimal.text ⟨negative, digits, place⟩

def Single.text (number : Single) : String := number.datum.text .single

def Double.text (number : Double) : String := number.datum.text .double

end ClaimStore.Number
