import ClaimStore.Pool.State

/-!
Requests to change a pool.

A request carries a mutation, a function from the state of the pool to its next state. It is
answered once.
-/
namespace ClaimStore

/-- Why a mutation gives no state. A panic may come with a message. -/
inductive MutationFailure
  | refused (error : PoolError)
  | failed (message : String)
  | panicked (message : Option String)
  deriving DecidableEq

def MutationFailure.message : MutationFailure → String
  | .refused error => error.message
  | .failed message => message
  | .panicked message => "mutation panicked: " ++ message.getD "<non-string panic payload>"

abbrev Mutation := PoolState → Except MutationFailure PoolState

namespace Mutation

def ofTransition (transition : Transition) : Mutation := fun pool =>
  (pool.apply transition).mapError .refused

def keep : Mutation := fun pool => .ok pool

def fail (failure : MutationFailure) : Mutation := fun _ => .error failure

def expectAvailable (units : UInt64) : Mutation := fun pool =>
  if pool.available = units then .ok pool
  else .error (.failed s!"found {pool.available.toNat} available units")

def inTurn : List Mutation → Mutation
  | [], pool => .ok pool
  | mutation :: rest, pool =>
      match mutation pool with
      | .ok next => inTurn rest next
      | .error failure => .error failure

end Mutation

/-- A mutation under a number that no other request has. -/
structure Request where
  id : Nat
  mutation : Mutation

/-- What becomes of a request: its mutation is part of the stored state, its batch was rolled back,
its mutation failed, or its store was shut down before it was served. -/
inductive Answer
  | committed
  | rolledBack
  | failed (failure : MutationFailure)
  | shutDown
  deriving DecidableEq

namespace Answer

def ofCommit (isCommitted : Bool) : Answer := if isCommitted then .committed else .rolledBack

def message? : Answer → Option String
  | .failed failure => some ("mutation failed: " ++ failure.message)
  | .shutDown => some "claim state store has been shut down"
  | _ => none

end Answer

end ClaimStore
