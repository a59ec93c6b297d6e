import ClaimStore.Number.Single

/-!
Lengths of time.

A duration counts nanoseconds and is shorter than 2^64 seconds. It is scaled in double precision:
the duration is rounded to a number of seconds, multiplied, and the product is rounded to whole
nanoseconds.
-/
namespace ClaimStore

def nanosPerSecond : Nat := 1000000000

def nanosPerMilli : Nat := 1000000

structure Duration where
  nanos : Nat
  bounded : nanos < UInt64.size * nanosPerSecond
  deriving DecidableEq

namespace Duration

/-- The duration of that many nanoseconds, unless it is too long. -/
def ofNanos? (nanos : Nat) : Option Duration :=
  if bounded : nanos < UInt64.size * nanosPerSecond then some ⟨nanos, bounded⟩ else none

def zero : Duration := ⟨0, by decide⟩

instance : Inhabited Duration := ⟨zero⟩

def longest : Duration := ⟨UInt64.size * nanosPerSecond - 1, by decide⟩

def ofMillis (millis : UInt64) : Duration :=
  ⟨millis.toNat * nanosPerMilli, by
    have := millis.toNat_lt
    unfold nanosPerMilli nanosPerSecond UInt64.size
    omega⟩

def ofParts? (seconds nanos : Nat) : Option Duration := ofNanos? (seconds * nanosPerSecond + nanos)

def seconds (duration : Duration) : Nat := duration.nanos / nanosPerSecond

def subsecond (duration : Duration) : Nat := duration.nanos % nanosPerSecond

def ceilMillis (duration : Duration) : Nat := (duration.nanos + (nanosPerMilli - 1)) / nanosPerMilli

def add? (left right : Duration) : Option Duration := ofNanos? (left.nanos + right.nanos)

def min (left right : Duration) : Duration := if right.nanos < left.nanos then right else left

/-- The duration in seconds. Seconds and the rest are rounded on their own, then their sum. -/
def toDouble (duration : Duration) : Number.Double :=
  (Number.Double.ofNat duration.seconds).add
    ((Number.Double.ofNat duration.subsecond).divNat nanosPerSecond)

/-- The duration of a number of seconds, rounded to nanoseconds with ties to the even one. There is
none for a NaN, for negative numbers and for those that are too great. -/
def ofDouble? (number : Number.Double) : Option Duration :=
  match number.datum with
  | .finite negative significand exponent =>
      if negative ∧ significand ≠ 0 then none
      else
        let ratio := Number.Ratio.ofBinary significand exponent
        ofNanos? (Number.roundQuotient (ratio.numerator * nanosPerSecond) ratio.denominator)
  | _ => none

def scale? (duration : Duration) (factor : Number.Single) : Option Duration :=
  ofDouble? (factor.toDouble.mul duration.toDouble)

end Duration

end ClaimStore
