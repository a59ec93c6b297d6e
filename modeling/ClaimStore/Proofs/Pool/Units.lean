import ClaimStore.Proofs.Pool.Effects
import Mathlib.Algebra.GroupWithZero.Nat
import Mathlib.Algebra.Ring.Int.Defs

/-!
The units of a pool.

Units come in by deposits and go out with the claims that are consumed. In between they are available
or held by an outstanding claim. All sums here are those of unbounded numbers.
-/
namespace ClaimStore

namespace PoolState

variable {pool next : PoolState} {claim : Claim}

/-- The units that are taken from the pool are there. -/
theorem available_of_claim (granted : pool.claim claim = .ok next) :
    claim.amount.toNat ≤ pool.available.toNat ∧
      next.available.toNat = pool.available.toNat - claim.amount.toNat := by
  have effect : pool.Effect (.claim claim) next := effect_of_apply granted
  cases effect with
  | granted faultless =>
      have covered := (claimFault?_eq_none.mp faultless).2.2.2
      exact ⟨UInt64.le_iff_toNat_le.mp covered, UInt64.toNat_sub_of_le _ _ covered⟩

/-- The units that the outstanding claims hold. -/
def heldUnits (pool : PoolState) : Nat := (pool.claims.map fun claim => claim.amount.toNat).sum

/-- The units of the outstanding claim of a name. -/
def unitsOf (pool : PoolState) (id : ClaimId) : Nat :=
  ((pool.claim? id).map fun claim => claim.amount.toNat).getD 0

/-- The transitions of a run that were not refused, each with the pool that it met. -/
def history (pool : PoolState) : List Transition → List (PoolState × Transition)
  | [] => []
  | transition :: rest =>
      match pool.apply transition with
      | .ok next => (pool, transition) :: next.history rest
      | .error _ => pool.history rest

end PoolState

/-- The units that come into a pool by a transition. -/
def Transition.unitsIn : Transition → Nat
  | .deposit amount => amount.toNat
  | .claim _ | .release _ | .consume _ => 0

/-- The units that go out of a pool by a transition. -/
def Transition.unitsOut (pool : PoolState) : Transition → Nat
  | .consume id => pool.unitsOf id
  | .deposit _ | .claim _ | .release _ => 0

/-- What a transition adds to the units that are available, or takes from them. -/
def Transition.gain (pool : PoolState) : Transition → Int
  | .deposit amount => amount.toNat
  | .claim granted => -granted.amount.toNat
  | .release id => pool.unitsOf id
  | .consume _ => 0

namespace PoolState

variable {pool next : PoolState} {claim : Claim} {transition : Transition}

def deposited (history : List (PoolState × Transition)) : Nat :=
  (history.map fun entry => entry.2.unitsIn).sum

def consumed (history : List (PoolState × Transition)) : Nat :=
  (history.map fun entry => entry.2.unitsOut entry.1).sum

/-- What the accepted transitions add up to, in integers. -/
def balance (history : List (PoolState × Transition)) : Int :=
  (history.map fun entry => entry.2.gain entry.1).sum

theorem unitsOf_split {front back : List Claim} (held : pool.claims = front ++ claim :: back)
    (first : ∀ other ∈ front, other.id ≠ claim.id) : pool.unitsOf claim.id = claim.amount.toNat := by
  rw [unitsOf, claim?_of_split held first]
  rfl

theorem heldUnits_split {front back : List Claim} (held : pool.claims = front ++ claim :: back) :
    pool.heldUnits =
      claim.amount.toNat + ((front ++ back).map fun claim => claim.amount.toNat).sum := by
  simp only [heldUnits, held, List.map_append, List.map_cons, List.sum_append, List.sum_cons]
  omega

/-- A transition moves units, and loses none. -/
theorem Effect.units (effect : pool.Effect transition next) :
    next.available.toNat + next.heldUnits + transition.unitsOut pool =
        pool.available.toNat + pool.heldUnits + transition.unitsIn ∧
      (next.available.toNat : Int) = pool.available.toNat + transition.gain pool := by
  cases effect with
  | deposited added =>
      have sum := Units.add?_toNat added
      simp only [heldUnits, Transition.unitsOut, Transition.unitsIn, Transition.gain]
      omega
  | @granted claim faultless =>
      have covered := (claimFault?_eq_none.mp faultless).2.2.2
      have rest := UInt64.toNat_sub_of_le _ _ covered
      rw [UInt64.le_iff_toNat_le] at covered
      simp only [heldUnits, Transition.unitsOut, Transition.unitsIn, Transition.gain,
        List.map_append, List.map_cons, List.map_nil, List.sum_append, List.sum_cons, List.sum_nil]
      omega
  | released held first added =>
      have sum := Units.add?_toNat added
      simp only [heldUnits_split held, Transition.unitsOut, Transition.unitsIn, Transition.gain,
        unitsOf_split held first]
      simp only [heldUnits]
      omega
  | consumed held first =>
      simp only [heldUnits_split held, Transition.unitsOut, Transition.unitsIn, Transition.gain,
        unitsOf_split held first]
      simp only [heldUnits]
      omega

/-- A run moves units, and loses none. -/
theorem units_replay (pool : PoolState) (transitions : List Transition) :
    (pool.replay transitions).available.toNat + (pool.replay transitions).heldUnits +
        consumed (pool.history transitions) =
      pool.available.toNat + pool.heldUnits + deposited (pool.history transitions) ∧
    ((pool.replay transitions).available.toNat : Int) =
      pool.available.toNat + balance (pool.history transitions) := by
  induction transitions generalizing pool with
  | nil => simp [replay, history, consumed, deposited, balance]
  | cons transition rest ih =>
      cases applied : pool.apply transition with
      | error refusal =>
          simp only [replay, history, applied]
          exact ih pool
      | ok next =>
          obtain ⟨moved, gained⟩ := (effect_of_apply applied).units
          obtain ⟨further, more⟩ := ih next
          simp only [replay, history, applied, consumed, deposited, balance, List.map_cons,
            List.sum_cons] at further more ⊢
          constructor <;> omega

/-- Whatever is asked of a pool that begins empty, and however much of it is refused: what is
available, what the outstanding claims hold and what has been consumed make up what has been
deposited. The units that are available are what unbounded integers would give, and a claim is never
granted more than that. -/
theorem units_conserved (key : PoolKey) (transitions : List Transition) :
    let pool := (empty key).replay transitions
    let history := (empty key).history transitions
    pool.available.toNat + pool.heldUnits + consumed history = deposited history ∧
    balance history = pool.available.toNat ∧ 0 ≤ balance history ∧
    balance history < UInt64.size ∧
    ∀ claim next, pool.claim claim = .ok next →
      claim.amount.toNat ≤ pool.available.toNat ∧
        next.available.toNat = pool.available.toNat - claim.amount.toNat := by
  intro pool history
  have run := (empty key).units_replay transitions
  have moved : pool.available.toNat + pool.heldUnits + consumed history =
      0 + 0 + deposited history := run.1
  have gained : (pool.available.toNat : Int) = (0 : Nat) + balance history := run.2
  have bound : pool.available.toNat < UInt64.size := pool.available.toNat_lt
  exact ⟨by omega, by omega, by omega, by omega, fun claim next granted => available_of_claim granted⟩

/-- All units of a full pool are claimed, by a claim whose amount is cut off. While it is outstanding
there are further deposits, so it can be consumed but not be released. -/
def sampleTransitions : List Transition :=
  [.deposit 0xFFFFFFFFFFFFFFFF, .claim ⟨⟨"a"⟩, [⟨⟨"s"⟩, 0xFFFFFFFFFFFFFFFF⟩, ⟨⟨"t"⟩, 1⟩]⟩,
    .deposit 5, .release ⟨"a"⟩, .claim ⟨⟨"b"⟩, [⟨⟨"u"⟩, 6⟩]⟩, .claim ⟨⟨"b"⟩, [⟨⟨"u"⟩, 2⟩]⟩,
    .consume ⟨"a"⟩]

def sampleKey : PoolKey := ⟨"h", "t", "i", "n", "s"⟩

theorem units_conserved_full :
    let pool := (empty sampleKey).replay sampleTransitions
    let history := (empty sampleKey).history sampleTransitions
    pool.available = 3 ∧ history.length = 5 ∧ deposited history = UInt64.size + 4 ∧
      pool.available.toNat + pool.heldUnits + consumed history = deposited history ∧
      ∃ next, pool.claim ⟨⟨"c"⟩, [⟨⟨"v"⟩, 3⟩]⟩ = .ok next ∧
        next.available.toNat = pool.available.toNat - 3 := by
  obtain ⟨conserved, -, -, -, covered⟩ := units_conserved sampleKey sampleTransitions
  have facts : ((empty sampleKey).replay sampleTransitions).available = 3 ∧
      ((empty sampleKey).history sampleTransitions).length = 5 ∧
      deposited ((empty sampleKey).history sampleTransitions) = UInt64.size + 4 ∧
      ((empty sampleKey).replay sampleTransitions).claim ⟨⟨"c"⟩, [⟨⟨"v"⟩, 3⟩]⟩ =
        .ok ⟨sampleKey, 0, [⟨⟨"b"⟩, [⟨⟨"u"⟩, 2⟩]⟩, ⟨⟨"c"⟩, [⟨⟨"v"⟩, 3⟩]⟩]⟩ := by
    decide +kernel
  obtain ⟨available, accepted, deposits, granted⟩ := facts
  exact ⟨available, accepted, deposits, conserved, _, granted, (covered _ _ granted).2⟩

end PoolState

end ClaimStore
