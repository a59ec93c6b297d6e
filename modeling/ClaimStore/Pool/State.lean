import ClaimStore.Pool.Key
import ClaimStore.Pool.Claim

/-!
The state of one pool and its transitions.

A pool has units that are available and claims that are outstanding, in the order in which they
were granted. A transition gives a new state or says why there is none; it changes nothing else.
-/
namespace ClaimStore

structure PoolState where
  key : PoolKey
  available : UInt64
  claims : List Claim
  deriving DecidableEq, Inhabited

/-- Why a transition is refused. -/
inductive PoolError
  | duplicateClaim (id : ClaimId)
  | unknownClaim (id : ClaimId)
  | tokenAlreadyClaimed (ref : StateRef) (holder : ClaimId)
  | duplicateToken (ref : StateRef)
  | insufficientUnits (requested available : UInt64)
  | emptyClaim (id : ClaimId)
  | overflow (amount available : UInt64)
  deriving DecidableEq

def PoolError.message : PoolError → String
  | .duplicateClaim id => s!"claim '{id.text}' already exists"
  | .unknownClaim id => s!"claim '{id.text}' is unknown"
  | .tokenAlreadyClaimed ref holder => s!"token '{ref.text}' is already claimed by '{holder.text}'"
  | .duplicateToken ref => s!"token '{ref.text}' is listed more than once"
  | .insufficientUnits requested available =>
      s!"claim requires {requested.toNat} units but only {available.toNat} are available"
  | .emptyClaim id => s!"claim '{id.text}' does not contain any tokens"
  | .overflow amount available =>
      s!"depositing {amount.toNat} units would overflow the pool balance of {available.toNat}"

namespace PoolState

/-- The pool without units and without claims. -/
def empty (key : PoolKey) : PoolState := ⟨key, 0, []⟩

def claim? (pool : PoolState) (id : ClaimId) : Option Claim :=
  pool.claims.find? fun claim => claim.id = id

/-- The name of the first outstanding claim that lists the token. -/
def holder? (pool : PoolState) (ref : StateRef) : Option ClaimId :=
  (pool.claims.find? fun claim => claim.tokens.any fun token => token.ref = ref).map Claim.id

/-- The units of all outstanding claims, at most the greatest amount. -/
def claimedUnits (pool : PoolState) : UInt64 := Units.total (pool.claims.map Claim.amount)

def deposit (pool : PoolState) (amount : UInt64) : Except PoolError PoolState :=
  match Units.add? pool.available amount with
  | none => .error (.overflow amount pool.available)
  | some available => .ok { pool with available }

/-- What is wrong with the first token that cannot be claimed after the tokens in `seen`: it is
listed twice or, if not, another claim holds it. -/
def tokenFault? (pool : PoolState) (seen : List StateRef) : List ClaimedToken → Option PoolError
  | [] => none
  | token :: rest =>
      if token.ref ∈ seen then some (.duplicateToken token.ref)
      else
        match pool.holder? token.ref with
        | some holder => some (.tokenAlreadyClaimed token.ref holder)
        | none => pool.tokenFault? (token.ref :: seen) rest

def claimFault? (pool : PoolState) (claim : Claim) : Option PoolError :=
  if claim.tokens = [] then some (.emptyClaim claim.id)
  else if (pool.claim? claim.id).isSome then some (.duplicateClaim claim.id)
  else
    match pool.tokenFault? [] claim.tokens with
    | some fault => some fault
    | none =>
        if pool.available < claim.amount then
          some (.insufficientUnits claim.amount pool.available)
        else none

def claim (pool : PoolState) (claim : Claim) : Except PoolError PoolState :=
  match pool.claimFault? claim with
  | some fault => .error fault
  | none =>
      .ok { pool with available := pool.available - claim.amount, claims := pool.claims ++ [claim] }

/-- The outstanding claims without the first one of the given name. -/
def claimsWithout (pool : PoolState) (id : ClaimId) : List Claim :=
  pool.claims.eraseP fun claim => claim.id = id

def release (pool : PoolState) (id : ClaimId) : Except PoolError PoolState :=
  match pool.claim? id with
  | none => .error (.unknownClaim id)
  | some claim =>
      match Units.add? pool.available claim.amount with
      | none => .error (.overflow claim.amount pool.available)
      | some available => .ok { pool with available, claims := pool.claimsWithout id }

/-- Drops the claim, whose tokens have been spent. Its units are gone. -/
def consume (pool : PoolState) (id : ClaimId) : Except PoolError PoolState :=
  match pool.claim? id with
  | none => .error (.unknownClaim id)
  | some _ => .ok { pool with claims := pool.claimsWithout id }

end PoolState

/-- A change of a pool. -/
inductive Transition
  | deposit (amount : UInt64)
  | claim (claim : Claim)
  | release (id : ClaimId)
  | consume (id : ClaimId)
  deriving DecidableEq

def PoolState.apply (pool : PoolState) : Transition → Except PoolError PoolState
  | .deposit amount => pool.deposit amount
  | .claim claim => pool.claim claim
  | .release id => pool.release id
  | .consume id => pool.consume id

/-- The state after transitions of which the refused ones change nothing. -/
def PoolState.replay (pool : PoolState) : List Transition → PoolState
  | [] => pool
  | transition :: rest =>
      match pool.apply transition with
      | .ok next => next.replay rest
      | .error _ => pool.replay rest

end ClaimStore
