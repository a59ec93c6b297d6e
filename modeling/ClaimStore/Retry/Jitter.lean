import ClaimStore.Time.Duration

/-!
Random additions to pauses.

A pause is never as long as its base alone: at least three milliseconds are added to it. What is
added is drawn from a range that depends on the base.
-/
namespace ClaimStore

/-- Lengths in nanoseconds from `low` up to, and without, `high`. -/
structure JitterRange where
  low : Nat
  high : Nat
  nonempty : low < high

namespace JitterRange

def isRandom (range : JitterRange) : Bool := range.low + 1 < range.high

def least : Nat := 3 * nanosPerMilli

/-- The range of lengths up to a fraction of the base. There is none if the fraction is no
duration. -/
def ofBase? (base : Duration) (fraction : Number.Single) : Option JitterRange :=
  (base.scale? fraction).map fun longest =>
    if beyond : least < longest.nanos then ⟨least, longest.nanos, beyond⟩
    else ⟨least, least + 1, Nat.lt_succ_self least⟩

end JitterRange

/-- How a length is drawn from a range. -/
structure Draw where
  length : JitterRange → Nat
  within : ∀ range, range.low ≤ length range ∧ length range < range.high

namespace Draw

def shortest : Draw := ⟨JitterRange.low, fun range => ⟨Nat.le_refl _, range.nonempty⟩⟩

def middle : Draw :=
  ⟨fun range => (range.low + range.high) / 2, fun range => by have := range.nonempty; omega⟩

end Draw

/-- The base with jitter of up to a fraction of it. There is none if a duration would be too
long. -/
def Duration.withJitter? (draw : Draw) (base : Duration) (fraction : Number.Single) :
    Option Duration := do
  let range ← JitterRange.ofBase? base fraction
  Duration.ofNanos? (base.nanos + draw.length range)

end ClaimStore
