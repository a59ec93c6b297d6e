import ClaimStore.Proofs.Pool.Queries
import Mathlib.Data.List.Perm.Lattice

/-!
Runs in which no transition is refused.

What such a run makes of a pool can be told without its order: of the claims that were there or have
come in it, some have been released, some consumed, and the others are outstanding. And one more
claim, as long as it is outstanding, changes nothing but the units that are available.
-/
namespace ClaimStore

namespace Transition

/-- The claim that is asked for. -/
def claimed? : Transition → Option Claim
  | .claim asked => some asked
  | .deposit _ | .release _ | .consume _ => none

/-- The name of the claim that is to be released. -/
def released? : Transition → Option ClaimId
  | .release id => some id
  | .deposit _ | .claim _ | .consume _ => none

/-- The name of the claim that is to be consumed. -/
def consumed? : Transition → Option ClaimId
  | .consume id => some id
  | .deposit _ | .claim _ | .release _ => none

/-- The name of the claim that a transition is about. -/
def name? : Transition → Option ClaimId
  | .deposit _ => none
  | .claim asked => some asked.id
  | .release id | .consume id => some id

end Transition

/-- The units of some claims. -/
def Claim.unitsOfAll (claims : List Claim) : Nat :=
  (claims.map fun claim => claim.amount.toNat).sum

namespace PoolState

/-- The state after transitions none of which may be refused. -/
def perform (pool : PoolState) : List Transition → Except PoolError PoolState
  | [] => .ok pool
  | transition :: rest =>
      match pool.apply transition with
      | .ok next => next.perform rest
      | .error refusal => .error refusal

variable {pool next last held plain : PoolState} {claim : Claim} {id : ClaimId}
variable {transition : Transition} {transitions rest : List Transition}

theorem perform_cons_eq_ok : pool.perform (transition :: rest) = .ok last ↔
    ∃ next, pool.apply transition = .ok next ∧ next.perform rest = .ok last := by
  rw [perform]
  cases pool.apply transition <;> simp

theorem perform_append (performed : pool.perform transitions = .ok next) :
    pool.perform (transitions ++ rest) = next.perform rest := by
  induction transitions generalizing pool with
  | nil =>
      cases performed
      rfl
  | cons transition more ih =>
      obtain ⟨middle, applied, performed⟩ := perform_cons_eq_ok.mp performed
      rw [List.cons_append, perform, applied]
      exact ih performed

/-- What a run has made of a pool, whatever its order: where the claims are that were there or have
come in it, and where the units. -/
structure Account (pool : PoolState) (transitions : List Transition) (last : PoolState)
    (released consumed : List Claim) : Prop where
  key : last.key = pool.key
  claims : (last.claims ++ (released ++ consumed)).Perm
    (pool.claims ++ transitions.filterMap Transition.claimed?)
  releases : released.map Claim.id = transitions.filterMap Transition.released?
  consumptions : consumed.map Claim.id = transitions.filterMap Transition.consumed?
  units : last.available.toNat +
      Claim.unitsOfAll (transitions.filterMap Transition.claimed?) =
    pool.available.toNat + (transitions.map Transition.unitsIn).sum + Claim.unitsOfAll released

/-- A transition is entered in the account of the run that follows it. -/
theorem Effect.account (effect : pool.Effect transition next) {released consumed : List Claim}
    (account : next.Account rest last released consumed) :
    ∃ released consumed, pool.Account (transition :: rest) last released consumed := by
  obtain ⟨key, claims, out, spent, units⟩ := account
  cases effect with
  | deposited added =>
      have sum := Units.add?_toNat added
      refine ⟨released, consumed, key, claims, out, spent, ?_⟩
      simp only [List.map_cons, List.sum_cons, Transition.unitsIn, Transition.claimed?,
        List.filterMap_cons] at units ⊢
      omega
  | @granted claim faultless =>
      have covered := (claimFault?_eq_none.mp faultless).2.2.2
      have left := UInt64.toNat_sub_of_le _ _ covered
      rw [UInt64.le_iff_toNat_le] at covered
      refine ⟨released, consumed, key, ?_, out, spent, ?_⟩
      · simpa [Transition.claimed?] using claims
      · simp only [List.map_cons, List.sum_cons, Transition.unitsIn, Transition.claimed?,
          List.filterMap_cons, Claim.unitsOfAll] at units ⊢
        omega
  | @released claim front back available holds first added =>
      have sum := Units.add?_toNat added
      refine ⟨claim :: released, consumed, key, ?_, congrArg (claim.id :: ·) out, spent, ?_⟩
      · rw [holds, List.append_assoc, List.cons_append]
        rw [List.append_assoc] at claims
        exact List.perm_middle.trans ((claims.cons claim).trans List.perm_middle.symm)
      · simp only [List.map_cons, List.sum_cons, Transition.unitsIn, Transition.claimed?,
          List.filterMap_cons, Claim.unitsOfAll] at units ⊢
        omega
  | @consumed claim front back holds first =>
      refine ⟨released, claim :: consumed, key, ?_, out, congrArg (claim.id :: ·) spent, ?_⟩
      · rw [holds, List.append_assoc, List.cons_append, ← List.append_assoc]
        rw [List.append_assoc, ← List.append_assoc] at claims
        exact List.perm_middle.trans ((claims.cons claim).trans List.perm_middle.symm)
      · simp only [List.map_cons, List.sum_cons, Transition.unitsIn, Transition.claimed?,
          List.filterMap_cons, Claim.unitsOfAll] at units ⊢
        omega

theorem account_of_perform (performed : pool.perform transitions = .ok last) :
    ∃ released consumed, pool.Account transitions last released consumed := by
  induction transitions generalizing pool with
  | nil =>
      cases performed
      exact ⟨[], [], rfl, List.Perm.of_eq (by simp), rfl, rfl, by simp [Claim.unitsOfAll]⟩
  | cons transition rest ih =>
      obtain ⟨next, applied, performed⟩ := perform_cons_eq_ok.mp performed
      obtain ⟨released, consumed, account⟩ := ih performed
      exact (effect_of_apply applied).account account

/-- Of claims that differ in their names, some are told by their names. -/
theorem perm_of_ids {all left right : List Claim} (named : (all.map Claim.id).Nodup)
    (one : left.Subperm all) (other : right.Subperm all)
    (same : (left.map Claim.id).Perm (right.map Claim.id)) : left.Perm right := by
  have told : ∀ {some more : List Claim}, some ⊆ all → more ⊆ all →
      some.map Claim.id ⊆ more.map Claim.id → some ⊆ more := by
    intro some more within also names claim member
    obtain ⟨twin, there, id⟩ := List.mem_map.mp (names (List.mem_map_of_mem member))
    rwa [← List.inj_on_of_nodup_map named (also there) (within member) id]
  have distinct : ∀ {some : List Claim}, some.Subperm all → some.Nodup := by
    rintro some ⟨sorted, order, part⟩
    exact order.nodup_iff.mp (part.nodup (List.Nodup.of_map Claim.id named))
  rw [List.perm_ext_iff_of_nodup (distinct one) (distinct other)]
  intro claim
  exact ⟨fun member => told one.subset other.subset same.subset member,
    fun member => told other.subset one.subset same.symm.subset member⟩

theorem unitsOfAll_perm {left right : List Claim} (same : left.Perm right) :
    Claim.unitsOfAll left = Claim.unitsOfAll right :=
  (same.map _).sum_nat

/-- Where the same claims come under different names, accounts of the same transitions agree. -/
theorem Account.agree {left right : PoolState} {first second : List Transition}
    {released consumed out spent : List Claim}
    (named : ((pool.claims ++ first.filterMap Transition.claimed?).map Claim.id).Nodup)
    (same : first.Perm second) (one : pool.Account first left released consumed)
    (other : pool.Account second right out spent) :
    left.key = right.key ∧ left.available = right.available ∧ left.claims.Perm right.claims := by
  have claimed := same.filterMap Transition.claimed?
  have here := one.claims
  have there := other.claims.trans (claimed.append_left pool.claims).symm
  have subperm : ∀ {kept gone lost : List Claim},
      (kept ++ (gone ++ lost)).Perm (pool.claims ++ first.filterMap Transition.claimed?) →
      gone.Subperm (pool.claims ++ first.filterMap Transition.claimed?) ∧
        lost.Subperm (pool.claims ++ first.filterMap Transition.claimed?) := by
    intro kept gone lost whole
    have part := (List.sublist_append_right kept (gone ++ lost)).subperm.trans whole.subperm
    exact ⟨(List.sublist_append_left gone lost).subperm.trans part,
      (List.sublist_append_right gone lost).subperm.trans part⟩
  have release : released.Perm out := by
    apply perm_of_ids named (subperm here).1 (subperm there).1
    rw [one.releases, other.releases]
    exact same.filterMap Transition.released?
  have consumption : consumed.Perm spent := by
    apply perm_of_ids named (subperm here).2 (subperm there).2
    rw [one.consumptions, other.consumptions]
    exact same.filterMap Transition.consumed?
  refine ⟨one.key.trans other.key.symm, ?_, ?_⟩
  · have deposits : (first.map Transition.unitsIn).sum = (second.map Transition.unitsIn).sum :=
      (same.map _).sum_nat
    have units := one.units
    have also := other.units
    rw [← unitsOfAll_perm claimed, ← unitsOfAll_perm release, ← deposits] at also
    apply UInt64.toNat_inj.mp
    omega
  · have dropped := release.append consumption
    apply (List.perm_append_right_iff (out ++ spent)).mp
    exact ((dropped.append_left left.claims).symm.trans here).trans there.symm

/-- However the same transitions are ordered, if none of them is refused in either order, they leave
the same units and the same claims, up to the order of these: no name is claimed twice among them, or
claimed again while it is outstanding. -/
theorem order_immaterial (key : PoolKey) (earlier first second : List Transition)
    (left right : PoolState) (same : first.Perm second)
    (once : ((first.filterMap Transition.claimed?).map Claim.id).Nodup)
    (fresh : ∀ claim ∈ first.filterMap Transition.claimed?,
      ((empty key).replay earlier).claim? claim.id = none)
    (one : ((empty key).replay earlier).perform first = .ok left)
    (other : ((empty key).replay earlier).perform second = .ok right) :
    left.key = right.key ∧ left.available = right.available ∧ left.claims.Perm right.claims := by
  have tidy := ((tidy_empty key).replay earlier).1
  obtain ⟨_, _, account⟩ := account_of_perform one
  obtain ⟨_, _, reordered⟩ := account_of_perform other
  apply account.agree _ same reordered
  rw [List.map_append, List.nodup_append]
  refine ⟨tidy.named, once, ?_⟩
  intro taken outstanding name claimed used
  obtain ⟨held, member, rfl⟩ := List.mem_map.mp outstanding
  obtain ⟨claim, asked, rfl⟩ := List.mem_map.mp claimed
  exact claim?_eq_none.mp (fresh claim asked) held member used

def sampleClaim (name token : String) (amount : UInt64) : Claim := ⟨⟨name⟩, [⟨⟨token⟩, amount⟩]⟩

/-- Claims of earlier and of new names come and go. -/
def sampleOrder : List Transition :=
  [.claim (sampleClaim "b" "t" 5), .claim (sampleClaim "c" "u" 6), .release ⟨"a"⟩, .deposit 3,
    .claim (sampleClaim "d" "s" 7), .consume ⟨"c"⟩]

def sampleReorder : List Transition :=
  [.release ⟨"a"⟩, .claim (sampleClaim "d" "s" 7), .deposit 3, .claim (sampleClaim "c" "u" 6),
    .consume ⟨"c"⟩, .claim (sampleClaim "b" "t" 5)]

theorem order_immaterial_six :
    let pool := (empty sampleKey).replay [.deposit 20, .claim (sampleClaim "a" "s" 4)]
    ∃ left right, pool.perform sampleOrder = .ok left ∧ pool.perform sampleReorder = .ok right ∧
      left.claims ≠ right.claims ∧ left.claims.Perm right.claims ∧
      left.available = right.available ∧ left.available = 5 := by
  intro pool
  have facts : (∃ left, pool.perform sampleOrder = .ok left ∧
        left.claims = [sampleClaim "b" "t" 5, sampleClaim "d" "s" 7] ∧ left.available = 5) ∧
      (∃ right, pool.perform sampleReorder = .ok right ∧
        right.claims = [sampleClaim "d" "s" 7, sampleClaim "b" "t" 5]) ∧
      ∀ claim ∈ sampleOrder.filterMap Transition.claimed?, pool.claim? claim.id = none := by
    refine ⟨⟨⟨sampleKey, 5, _⟩, ?_, rfl, rfl⟩, ⟨⟨sampleKey, 5, _⟩, ?_, rfl⟩, ?_⟩ <;>
      subst pool <;> decide +kernel
  obtain ⟨⟨left, one, inOrder, units⟩, ⟨right, other, reordered⟩, fresh⟩ := facts
  have same : sampleOrder.Perm sampleReorder := by decide +kernel
  have once : ((sampleOrder.filterMap Transition.claimed?).map Claim.id).Nodup := by
    decide +kernel
  obtain ⟨-, available, claims⟩ :=
    order_immaterial sampleKey _ sampleOrder sampleReorder left right same once fresh one other
  refine ⟨left, right, one, other, ?_, claims, available, units⟩
  rw [inOrder, reordered]
  decide

/-- The one pool is as the other one, but for one more claim, whose units it has not got. -/
structure Beside (claim : Claim) (front back : List Claim) (held plain : PoolState) : Prop where
  key : held.key = plain.key
  claims : held.claims = front ++ claim :: back
  others : plain.claims = front ++ back
  first : ∀ other ∈ front, other.id ≠ claim.id
  units : plain.available.toNat = held.available.toNat + claim.amount.toNat

variable {front back : List Claim} {after later : PoolState}

theorem beside_claim (granted : pool.claim claim = .ok next) :
    Beside claim pool.claims [] next pool := by
  obtain ⟨covered, left⟩ := available_of_claim granted
  obtain ⟨⟨admitted, -⟩, rfl⟩ := claim_eq_ok.mp granted
  exact ⟨rfl, rfl, (List.append_nil _).symm, admitted.unnamed, by omega⟩

theorem Beside.claim? (beside : Beside claim front back held plain) (different : claim.id ≠ id) :
    held.claim? id = plain.claim? id := by
  have passes : (decide (claim.id = id)) = false := decide_eq_false different
  simp only [PoolState.claim?, beside.claims, beside.others, List.find?_append, List.find?_cons,
    passes]

/-- A claim of another name is dropped from before the claim or from behind it. -/
theorem Beside.claimsWithout (beside : Beside claim front back held plain)
    (different : claim.id ≠ id) : ∃ before behind,
      held.claimsWithout id = before ++ claim :: behind ∧
      plain.claimsWithout id = before ++ behind ∧ before ⊆ front := by
  simp only [PoolState.claimsWithout, beside.claims, beside.others]
  by_cases early : ∃ other ∈ front, other.id = id
  · obtain ⟨other, member, named⟩ := early
    have split : ∀ behind : List Claim, (front ++ behind).eraseP (fun other => other.id = id) =
        front.eraseP (fun other => other.id = id) ++ behind := fun behind =>
      List.eraseP_append_left (p := fun other : Claim => other.id = id)
        (decide_eq_true named) behind member
    exact ⟨_, back, split _, split _, List.eraseP_subset⟩
  · have keeps : ∀ other ∈ front, ¬decide (other.id = id) = true := by
      intro other member named
      exact early ⟨other, member, of_decide_eq_true named⟩
    refine ⟨front, back.eraseP fun other => other.id = id, ?_, ?_, List.Subset.refl front⟩
    · rw [List.eraseP_append_right _ keeps, List.eraseP_cons_of_neg (by simpa using different)]
    · exact List.eraseP_append_right _ keeps

/-- What is not about the claim happens beside it as it would without it. -/
theorem Beside.apply (beside : Beside claim front back held plain)
    (different : transition.name? ≠ some claim.id) (applied : held.apply transition = .ok after)
    (alone : plain.apply transition = .ok later) :
    ∃ front back, Beside claim front back after later := by
  have units := beside.units
  cases transition with
  | deposit amount =>
      cases effect_of_apply applied with
      | deposited added =>
      cases effect_of_apply alone with
      | deposited also =>
          have sum := Units.add?_toNat added
          have total := Units.add?_toNat also
          refine ⟨front, back, beside.key, beside.claims, beside.others, beside.first, ?_⟩
          simp only
          omega
  | claim asked =>
      obtain ⟨covered, left⟩ := available_of_claim applied
      obtain ⟨-, rest⟩ := available_of_claim alone
      obtain ⟨-, rfl⟩ := claim_eq_ok.mp applied
      obtain ⟨-, rfl⟩ := claim_eq_ok.mp alone
      refine ⟨front, back ++ [asked], beside.key, ?_, ?_, beside.first, by omega⟩
      · simp [beside.claims]
      · simp [beside.others]
  | release id =>
      have apart : claim.id ≠ id := fun same => different (congrArg some same.symm)
      obtain ⟨dropped, sum, found, added, rfl⟩ := release_eq_ok.mp applied
      obtain ⟨other, total, also, joined, rfl⟩ := release_eq_ok.mp alone
      rw [beside.claim? apart, also, Option.some.injEq] at found
      subst found
      have less := Units.add?_toNat added
      have more := Units.add?_toNat joined
      obtain ⟨before, behind, kept, left, part⟩ := beside.claimsWithout apart
      refine ⟨before, behind, beside.key, kept, left,
        fun other member => beside.first other (part member), ?_⟩
      simp only
      omega
  | consume id =>
      have apart : claim.id ≠ id := fun same => different (congrArg some same.symm)
      obtain ⟨-, rfl⟩ := consume_eq_ok.mp applied
      obtain ⟨-, rfl⟩ := consume_eq_ok.mp alone
      obtain ⟨before, behind, kept, left, part⟩ := beside.claimsWithout apart
      exact ⟨before, behind, beside.key, kept, left,
        fun other member => beside.first other (part member), units⟩

theorem Beside.perform (beside : Beside claim front back held plain)
    (different : ∀ transition ∈ transitions, transition.name? ≠ some claim.id)
    (performed : held.perform transitions = .ok after)
    (alone : plain.perform transitions = .ok later) :
    ∃ front back, Beside claim front back after later := by
  induction transitions generalizing held plain front back with
  | nil =>
      cases performed
      cases alone
      exact ⟨front, back, beside⟩
  | cons transition rest ih =>
      obtain ⟨_, applied, performed⟩ := perform_cons_eq_ok.mp performed
      obtain ⟨_, also, alone⟩ := perform_cons_eq_ok.mp alone
      obtain ⟨_, _, beside⟩ := beside.apply (different transition List.mem_cons_self) applied also
      exact ih beside (fun other member => different other (List.mem_cons_of_mem _ member))
        performed alone

/-- There is room for the units of the claim, since the other pool has them. -/
theorem Beside.release (beside : Beside claim front back held plain) :
    held.release claim.id = .ok plain := by
  have bound : plain.available.toNat < UInt64.size := plain.available.toNat_lt
  have units := beside.units
  have room : Units.add? held.available claim.amount = some (held.available + claim.amount) :=
    if_pos (by omega)
  refine release_eq_ok.mpr ⟨claim, _, claim?_of_split beside.claims beside.first, room, ?_⟩
  have sum := Units.add?_toNat room
  rw [claimsWithout_of_split beside.claims beside.first, beside.key, ← beside.others]
  have same : held.available + claim.amount = plain.available :=
    UInt64.toNat_inj.mp (sum.trans units.symm)
  rw [same]

/-- If some transitions, none of them about a claim, are refused neither without the claim nor while
it is outstanding, the claim can be released after them, and the pool is then what it is without it,
also in the order of the other claims. -/
theorem released_without_trace (pool plain held : PoolState) (claim : Claim)
    (transitions : List Transition)
    (different : ∀ transition ∈ transitions, transition.name? ≠ some claim.id)
    (alone : pool.perform transitions = .ok plain)
    (beside : pool.perform (.claim claim :: transitions) = .ok held) :
    pool.perform (.claim claim :: transitions ++ [.release claim.id]) = .ok plain := by
  rw [perform_append beside]
  obtain ⟨next, granted, performed⟩ := perform_cons_eq_ok.mp beside
  obtain ⟨_, _, last⟩ := (beside_claim granted).perform different performed alone
  exact perform_cons_eq_ok.mpr ⟨plain, last.release, rfl⟩

/-- Claims before and behind the one that is released have gone meanwhile. -/
theorem released_without_trace_between :
    let pool : PoolState := ⟨sampleKey, 9, [sampleClaim "a" "s" 4, sampleClaim "b" "t" 2]⟩
    let between : List Transition :=
      [.claim (sampleClaim "d" "v" 1), .consume ⟨"a"⟩, .claim (sampleClaim "e" "s" 2),
        .release ⟨"d"⟩, .deposit 5]
    pool.perform (.claim (sampleClaim "c" "u" 3) :: between ++ [.release ⟨"c"⟩]) =
      .ok ⟨sampleKey, 12, [sampleClaim "b" "t" 2, sampleClaim "e" "s" 2]⟩ := by
  intro pool between
  have alone : pool.perform between =
      .ok ⟨sampleKey, 12, [sampleClaim "b" "t" 2, sampleClaim "e" "s" 2]⟩ := by
    decide +kernel
  have beside : pool.perform (.claim (sampleClaim "c" "u" 3) :: between) =
      .ok ⟨sampleKey, 9, [sampleClaim "b" "t" 2, sampleClaim "c" "u" 3,
        sampleClaim "e" "s" 2]⟩ := by
    decide +kernel
  have different : ∀ transition ∈ between,
      transition.name? ≠ some (sampleClaim "c" "u" 3).id := by
    decide +kernel
  exact released_without_trace pool _ _ _ between different alone beside

end PoolState

end ClaimStore
