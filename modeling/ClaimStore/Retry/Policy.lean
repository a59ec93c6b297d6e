import ClaimStore.Time.Duration

/-!
Rules for trying again.
-/
namespace ClaimStore

/-- A positive 64-bit count. -/
structure Limit where
  count : UInt64
  positive : count ≠ 0
  deriving DecidableEq

namespace Limit

/-- The limit of that many, if it is positive and a 64-bit word. -/
def ofNat? (count : Nat) : Option Limit :=
  if positive : UInt64.ofNat count ≠ 0 then
    if count < UInt64.size then some ⟨UInt64.ofNat count, positive⟩ else none
  else none

/-- The greatest limit, which stands for no limit. -/
def greatest : Limit := ⟨0xFFFFFFFFFFFFFFFF, by decide⟩

def toNat (limit : Limit) : Nat := limit.count.toNat

theorem toNat_pos (limit : Limit) : 0 < limit.toNat :=
  Nat.pos_of_ne_zero fun zero => limit.positive (UInt64.toNat_inj.mp zero)

end Limit

/-- Whether and when an operation that failed is tried again. The pause between two attempts is
always the same, or grows by a factor until it reaches the longest one. Without a limit on the
retries there is no end to them. -/
inductive RetryPolicy
  | none
  | fixedDelay (interval : Duration) (limit : Option Limit)
  | exponential (initial : Duration) (factor : Number.Single) (limit : Option Limit)
      (longest : Option Duration)
  deriving DecidableEq

namespace RetryPolicy

instance : Inhabited RetryPolicy := ⟨.none⟩

/-- The greatest number of retries, if there is one. -/
def limit : RetryPolicy → Option Limit
  | .none => Option.none
  | .fixedDelay _ limit => limit
  | .exponential _ _ limit _ => limit

/-- Equality of policies, where factors are compared as numbers. -/
def same : RetryPolicy → RetryPolicy → Bool
  | .exponential initial factor limit longest, .exponential initial' factor' limit' longest' =>
      initial = initial' && factor.same factor' && limit = limit' && longest = longest'
  | left, right => left = right

end RetryPolicy

end ClaimStore
