import ClaimStore.Retry.Cursor

/-!
Iterators over the pauses of a retry policy.

An iterator has a policy of its own, or reads one that its owner keeps. Before every call it tells how
many pauses are left.
-/
namespace ClaimStore

/-- The policy of an iterator, and who keeps it. -/
inductive HeldPolicy
  | owned (policy : RetryPolicy)
  | borrowed (policy : RetryPolicy)
  deriving DecidableEq

def HeldPolicy.policy : HeldPolicy → RetryPolicy
  | .owned policy | .borrowed policy => policy

/-- What an iterator keeps: its policy and a place in it, after fewer than 2^64 calls. -/
structure RetryIter where
  held : HeldPolicy
  attempts : Nat
  last : Option Duration
  deriving DecidableEq

/-- What is seen of one call: how many pauses were expected before it, at least and at most, what it
gave, and what the iterator says of itself afterwards. -/
structure RetryCall where
  hint : Nat × Option Nat
  step : RetryStep
  attempts : Nat
  last : Option Duration
  deriving DecidableEq

def RetryCall.isItem (call : RetryCall) : Bool :=
  match call.step with
  | .pause _ _ => true
  | _ => false

namespace RetryIter

def cursor (iter : RetryIter) : RetryCursor := ⟨iter.held.policy, iter.attempts, iter.last⟩

def sizeHint (iter : RetryIter) : Nat × Option Nat :=
  (iter.cursor.remaining, some iter.cursor.remaining)

def next (draw : Draw) (iter : RetryIter) : RetryStep × RetryIter :=
  let (step, cursor) := iter.cursor.next draw
  (step, { iter with attempts := cursor.attempts, last := cursor.last })

/-- The calls with these draws, one after the other. -/
def calls : List Draw → RetryIter → List RetryCall
  | [], _ => []
  | draw :: rest, iter =>
      let (step, next) := iter.next draw
      ⟨iter.sizeHint, step, next.attempts, next.last⟩ :: calls rest next

end RetryIter

namespace RetryPolicy

def iter (policy : RetryPolicy) : RetryIter := ⟨.borrowed policy, 0, Option.none⟩

def intoIter (policy : RetryPolicy) : RetryIter := ⟨.owned policy, 0, Option.none⟩

end RetryPolicy

end ClaimStore
