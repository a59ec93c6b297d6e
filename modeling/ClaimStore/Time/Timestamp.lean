import ClaimStore.Time.Duration

/-!
Points in time, counted in milliseconds since the epoch.
-/
namespace ClaimStore

structure Timestamp where
  millis : UInt64
  deriving DecidableEq, Inhabited

namespace Timestamp

instance : Ord Timestamp := ⟨fun left right => compare left.millis right.millis⟩

def epoch : Timestamp := ⟨0⟩

def last : Timestamp := ⟨0xFFFFFFFFFFFFFFFF⟩

def text (time : Timestamp) : String := s!"{time.millis.toNat} ms since epoch"

def sinceEpoch (time : Timestamp) : Duration := .ofMillis time.millis

/-- The last timestamp that is not later than a duration after the epoch. -/
def ofSinceEpoch? (duration : Duration) : Option Timestamp :=
  let millis := duration.nanos / nanosPerMilli
  if millis < UInt64.size then some ⟨UInt64.ofNat millis⟩ else none

/-- The time between two timestamps, zero if the first is the later one. -/
def elapsed (start now : Timestamp) : Duration :=
  .ofMillis (if start.millis ≤ now.millis then now.millis - start.millis else 0)

/-- The timestamp that many milliseconds later. After the last one comes the epoch again. -/
def advance (time : Timestamp) (millis : UInt64) : Timestamp := ⟨time.millis + millis⟩

end Timestamp

end ClaimStore
