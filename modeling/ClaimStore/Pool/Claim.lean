import ClaimStore.Units

/-!
Claims: tokens allocated to one claimant.
-/
namespace ClaimStore

/-- The name of a claim, chosen by the claimant. -/
structure ClaimId where
  text : String
  deriving DecidableEq, Inhabited

instance : Ord ClaimId := ⟨fun left right => compare left.text right.text⟩

/-- A reference to the ledger state that backs a token. -/
structure StateRef where
  text : String
  deriving DecidableEq, Inhabited

instance : Ord StateRef := ⟨fun left right => compare left.text right.text⟩

structure ClaimedToken where
  ref : StateRef
  amount : UInt64
  deriving DecidableEq, Inhabited

structure Claim where
  id : ClaimId
  tokens : List ClaimedToken
  deriving DecidableEq, Inhabited

namespace Claim

/-- The units of all its tokens, at most the greatest amount. -/
def amount (claim : Claim) : UInt64 := Units.total (claim.tokens.map ClaimedToken.amount)

def refs (claim : Claim) : List StateRef := claim.tokens.map ClaimedToken.ref

def exactAmount (claim : Claim) : Nat :=
  claim.tokens.foldr (fun token sum => token.amount.toNat + sum) 0

end Claim

end ClaimStore
