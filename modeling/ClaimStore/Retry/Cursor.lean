import ClaimStore.Number.Decimal
import ClaimStore.Retry.Jitter
import ClaimStore.Retry.Policy

/-!
Following a retry policy from one failed attempt to the next.

The attempts of a loop, a load or an iterator are counted by natural numbers. Fewer than 2^64 of them
are meant everywhere, as many as a 64-bit word counts without running over.
-/
namespace ClaimStore

/-- A place in the sequence of pauses of a policy. `attempts` is how often a pause has been asked for,
fewer than 2^64 times. `last` is the last base of a growing pause. -/
structure RetryCursor where
  policy : RetryPolicy
  attempts : Nat
  last : Option Duration
  deriving DecidableEq

/-- What a policy says about the next attempt: there is none, it comes after a pause, or its pause
cannot be computed. -/
inductive RetryStep
  | exhausted
  | pause (base length : Duration)
  | impossible
  deriving DecidableEq

namespace RetryCursor

def start (policy : RetryPolicy) : RetryCursor := ⟨policy, 0, none⟩

/-- Three tenths of a base may be added to it. -/
def jitterFraction : Number.Single := (Number.Decimal.toDouble ⟨false, 3, -1⟩).toSingle

/-- The retries that are left. A policy without a limit counts down from the greatest number. -/
def remaining (cursor : RetryCursor) : Nat :=
  match cursor.policy with
  | .none => 0
  | policy => (policy.limit.getD .greatest).toNat - cursor.attempts

def isWithinLimit (cursor : RetryCursor) : Bool :=
  cursor.policy ≠ .none &&
    match cursor.policy.limit with
    | none => true
    | some limit => cursor.attempts ≤ limit.toNat

/-- The base of the next pause. Growing pauses start at the initial interval, even if that is longer
than the longest one. There is none if the last base cannot be multiplied. -/
def base? (cursor : RetryCursor) : Option Duration :=
  match cursor.policy, cursor.last with
  | .none, _ => none
  | .fixedDelay interval _, _ => some interval
  | .exponential initial _ _ _, none => some initial
  | .exponential _ factor _ longest, some last =>
      (last.scale? factor).map fun base => base.min (longest.getD .longest)

def moveTo (cursor : RetryCursor) (base : Duration) : RetryCursor :=
  match cursor.policy with
  | .exponential _ _ _ _ => { cursor with last := some base }
  | _ => cursor

def next (draw : Draw) (cursor : RetryCursor) : RetryStep × RetryCursor :=
  let counted := { cursor with attempts := cursor.attempts + 1 }
  if counted.isWithinLimit then
    match counted.base? with
    | none => (.impossible, counted)
    | some base =>
        match base.withJitter? draw jitterFraction with
        | none => (.impossible, counted.moveTo base)
        | some length => (.pause base length, counted.moveTo base)
  else (.exhausted, counted)

end RetryCursor

end ClaimStore
