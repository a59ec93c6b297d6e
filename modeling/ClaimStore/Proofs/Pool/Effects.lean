import ClaimStore.Pool.State
import Mathlib.Data.List.Basic

/-!
What transitions do.

All that follows about pools rests on this list of what a transition makes of a pool when it is not
refused.
-/
namespace ClaimStore.PoolState

/-- What a transition that is not refused makes of a pool. -/
inductive Effect (pool : PoolState) : Transition → PoolState → Prop
  | deposited {amount available : UInt64} (added : Units.add? pool.available amount = some available) :
      Effect pool (.deposit amount) { pool with available }
  | granted {claim : Claim} (faultless : pool.claimFault? claim = none) :
      Effect pool (.claim claim)
        { pool with
          available := pool.available - claim.amount
          claims := pool.claims ++ [claim] }
  | released {claim : Claim} {front back : List Claim} {available : UInt64}
      (held : pool.claims = front ++ claim :: back) (first : ∀ other ∈ front, other.id ≠ claim.id)
      (added : Units.add? pool.available claim.amount = some available) :
      Effect pool (.release claim.id) { pool with available, claims := front ++ back }
  | consumed {claim : Claim} {front back : List Claim}
      (held : pool.claims = front ++ claim :: back) (first : ∀ other ∈ front, other.id ≠ claim.id) :
      Effect pool (.consume claim.id) { pool with claims := front ++ back }

variable {pool next : PoolState} {claim : Claim} {id : ClaimId} {transition : Transition}

theorem claim?_of_split {front back : List Claim} (held : pool.claims = front ++ claim :: back)
    (first : ∀ other ∈ front, other.id ≠ claim.id) : pool.claim? claim.id = some claim := by
  rw [claim?, List.find?_eq_some_iff_append]
  exact ⟨decide_eq_true rfl, front, back, held, by simpa using first⟩

/-- Dropping a claim leaves the others as they are. -/
theorem claimsWithout_of_split {front back : List Claim}
    (held : pool.claims = front ++ claim :: back) (first : ∀ other ∈ front, other.id ≠ claim.id) :
    pool.claimsWithout claim.id = front ++ back := by
  rw [claimsWithout, held, List.eraseP_append_right _ (by simpa using first), List.eraseP_cons]
  simp only [decide_true, cond_true]

/-- The claim of a name is the first one that bears it. -/
theorem split_at_claim (found : pool.claim? id = some claim) :
    claim.id = id ∧ ∃ front back, pool.claims = front ++ claim :: back ∧
      ∀ other ∈ front, other.id ≠ id := by
  rw [claim?, List.find?_eq_some_iff_append] at found
  obtain ⟨named, front, back, held, first⟩ := found
  exact ⟨of_decide_eq_true named, front, back, held, by simpa using first⟩

theorem claimFault?_eq_none :
    pool.claimFault? claim = none ↔ claim.tokens ≠ [] ∧ pool.claim? claim.id = none ∧
      pool.tokenFault? [] claim.tokens = none ∧ claim.amount ≤ pool.available := by
  unfold claimFault?
  split
  · rename_i empty
    simp [empty]
  · rename_i filled
    cases pool.claim? claim.id with
    | some held => simp
    | none => cases pool.tokenFault? [] claim.tokens <;> simp [filled]

theorem effect_of_apply (applied : pool.apply transition = .ok next) :
    pool.Effect transition next := by
  cases transition with
  | deposit amount =>
      simp only [apply, deposit] at applied
      split at applied
      · cases applied
      · rename_i available added
        cases applied
        exact .deposited added
  | claim claim =>
      simp only [apply, PoolState.claim] at applied
      split at applied
      · cases applied
      · rename_i faultless
        cases applied
        exact .granted faultless
  | release id =>
      simp only [apply, release] at applied
      split at applied
      · cases applied
      · rename_i claim found
        obtain ⟨rfl, front, back, held, first⟩ := split_at_claim found
        split at applied
        · cases applied
        · rename_i available added
          cases applied
          rw [claimsWithout_of_split held first]
          exact .released held first added
  | consume id =>
      simp only [apply, consume] at applied
      split at applied
      · cases applied
      · rename_i claim found
        obtain ⟨rfl, front, back, held, first⟩ := split_at_claim found
        cases applied
        rw [claimsWithout_of_split held first]
        exact .consumed held first

theorem Effect.key (effect : pool.Effect transition next) : next.key = pool.key := by
  cases effect <;> rfl

theorem apply_key (applied : pool.apply transition = .ok next) : next.key = pool.key :=
  (effect_of_apply applied).key

end ClaimStore.PoolState
