import ClaimStore.Proofs.Exclusion
import Mathlib.Algebra.GroupWithZero.Nat
import Mathlib.Algebra.Ring.Int.Defs

/-!
When a claim is granted.

Nothing but its tokens, its name and its units can stand in the way of a claim. Its units are cut off
at the greatest amount before they are compared with those that are available. So a claim of more
units than there are is refused, unless the pool is full: then every claim is covered that nothing
else stands in the way of.
-/
namespace ClaimStore

/-- The sum of amounts is the exact one, cut off at the greatest amount. -/
theorem Units.total_toNat (amounts : List UInt64) :
    (total amounts).toNat = min (amounts.map UInt64.toNat).sum (UInt64.size - 1) := by
  have from_sum : ∀ sum : UInt64, (amounts.foldl addSaturating sum).toNat =
      min (sum.toNat + (amounts.map UInt64.toNat).sum) (UInt64.size - 1) := by
    induction amounts with
    | nil =>
        intro sum
        have bound : sum.toNat < UInt64.size := sum.toNat_lt
        rw [List.foldl_nil, List.map_nil, List.sum_nil]
        omega
    | cons amount rest ih =>
        intro sum
        rw [List.foldl_cons, ih, addSaturating_toNat, List.map_cons, List.sum_cons]
        omega
  have whole := from_sum 0
  rwa [UInt64.toNat_zero, Nat.zero_add] at whole

theorem Claim.exactAmount_eq (claim : Claim) :
    claim.exactAmount = (claim.tokens.map fun token => token.amount.toNat).sum := by
  rw [exactAmount, List.sum, List.foldr_map]

theorem Claim.amount_toNat (claim : Claim) :
    claim.amount.toNat = min claim.exactAmount (UInt64.size - 1) := by
  rw [amount, Units.total_toNat, List.map_map, exactAmount_eq]
  rfl

namespace PoolState

variable {pool next : PoolState} {claim : Claim}

/-- Nothing stands in the way of a claim but its units. -/
structure Admits (pool : PoolState) (claim : Claim) : Prop where
  filled : claim.tokens ≠ []
  unnamed : ∀ held ∈ pool.claims, held.id ≠ claim.id
  apart : claim.refs.Nodup
  free : ∀ ref ∈ claim.refs, ∀ held ∈ pool.claims, ref ∉ held.refs

theorem claim?_eq_none {id : ClaimId} :
    pool.claim? id = none ↔ ∀ held ∈ pool.claims, held.id ≠ id := by
  simp [claim?, List.find?_eq_none]

theorem admits_iff : pool.Admits claim ↔ claim.tokens ≠ [] ∧ pool.claim? claim.id = none ∧
    pool.tokenFault? [] claim.tokens = none := by
  rw [claim?_eq_none, tokenFault?_eq_none]
  constructor
  · intro ⟨filled, unnamed, apart, free⟩
    refine ⟨filled, unnamed, apart, fun ref listed => ⟨List.not_mem_nil, ?_⟩⟩
    exact holder?_eq_none.mpr (free ref listed)
  · intro ⟨filled, unnamed, apart, free⟩
    exact ⟨filled, unnamed, apart, fun ref listed => holder?_eq_none.mp (free ref listed).2⟩

theorem claim_eq_ok : pool.claim claim = .ok next ↔
    (pool.Admits claim ∧ claim.amount ≤ pool.available) ∧
      next = { pool with
        available := pool.available - claim.amount
        claims := pool.claims ++ [claim] } := by
  have faultless : pool.claimFault? claim = none ↔
      pool.Admits claim ∧ claim.amount ≤ pool.available := by
    rw [claimFault?_eq_none, admits_iff, and_assoc, and_assoc]
  rw [← faultless, PoolState.claim]
  cases pool.claimFault? claim with
  | some fault => simp
  | none => simp [eq_comm]

/-- The units of a claim are there, or those that are cut off are missing from a full pool. -/
theorem amount_le_available : claim.amount ≤ pool.available ↔
    claim.exactAmount ≤ pool.available.toNat ∨
      UInt64.size ≤ claim.exactAmount ∧ pool.available.toNat = UInt64.size - 1 := by
  have bound : pool.available.toNat < UInt64.size := pool.available.toNat_lt
  rw [UInt64.le_iff_toNat_le, claim.amount_toNat]
  omega

/-- A claim is granted if and only if it lists tokens, no outstanding claim bears its name, its tokens
differ and are held by nobody, and its units are available, where a full pool covers any number of
them. It is put behind the other claims. Its units are taken from the pool, and from a full pool
not more than there are. -/
theorem granted_iff_covered (pool : PoolState) (claim : Claim) :
    ((∃ next, pool.claim claim = .ok next) ↔
      pool.Admits claim ∧
        (claim.exactAmount ≤ pool.available.toNat ∨
          UInt64.size ≤ claim.exactAmount ∧ pool.available.toNat = UInt64.size - 1)) ∧
    ∀ next, pool.claim claim = .ok next →
      next.key = pool.key ∧ next.claims = pool.claims ++ [claim] ∧
        (next.available.toNat + claim.exactAmount = pool.available.toNat ∨
          UInt64.size ≤ claim.exactAmount ∧ pool.available.toNat = UInt64.size - 1 ∧
            next.available.toNat = 0) := by
  constructor
  · rw [← amount_le_available]
    exact ⟨fun ⟨_, granted⟩ => (claim_eq_ok.mp granted).1,
      fun covered => ⟨_, claim_eq_ok.mpr ⟨covered, rfl⟩⟩⟩
  · intro next granted
    obtain ⟨⟨-, covered⟩, rfl⟩ := claim_eq_ok.mp granted
    have rest := UInt64.toNat_sub_of_le _ _ covered
    have cut := claim.amount_toNat
    have bound : pool.available.toNat < UInt64.size := pool.available.toNat_lt
    refine ⟨rfl, rfl, ?_⟩
    simp only [rest]
    rcases amount_le_available.mp covered with exact | ⟨beyond, full⟩
    · left
      omega
    · right
      omega

/-- The last units of a pool are taken by two tokens, while another claim is outstanding. -/
theorem granted_iff_covered_last :
    let held : Claim := ⟨⟨"a"⟩, [⟨⟨"s"⟩, 4⟩]⟩
    let pool : PoolState := ⟨default, 0xFFFFFFFFFFFFFFFF, [held]⟩
    let claim : Claim := ⟨⟨"b"⟩, [⟨⟨"t"⟩, 0xFFFFFFFFFFFFFFFE⟩, ⟨⟨"u"⟩, 1⟩]⟩
    ∃ next, pool.claim claim = .ok next ∧ next.claims = [held, claim] ∧
      next.available.toNat + claim.exactAmount = pool.available.toNat := by
  intro held pool claim
  have exact : claim.exactAmount = UInt64.size - 1 := by decide
  obtain ⟨next, granted⟩ : ∃ next, pool.claim claim = .ok next := ⟨_, rfl⟩
  obtain ⟨-, behind, units | ⟨beyond, -⟩⟩ := (granted_iff_covered pool claim).2 next granted
  · exact ⟨next, granted, behind, units⟩
  · rw [exact] at beyond
    exact absurd beyond (by decide)

/-- A claim of one unit more than all the units of a full pool is granted. -/
theorem overdraws_full_pool :
    let pool := (empty default).replay [.deposit 0xFFFFFFFFFFFFFFFF]
    let claim : Claim := ⟨⟨"c"⟩, [⟨⟨"t"⟩, 0xFFFFFFFFFFFFFFFF⟩, ⟨⟨"u"⟩, 1⟩]⟩
    claim.exactAmount = pool.available.toNat + 1 ∧
      pool.claim claim = .ok ⟨default, 0, [claim]⟩ := by
  decide +kernel

end PoolState

end ClaimStore
