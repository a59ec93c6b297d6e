import ClaimStore.Proofs.Pool.Coverage
import ClaimStore.Proofs.Pool.Units

/-!
What can be asked of a pool.

A claim is looked up by its name, and the name of a claim by one of its tokens. Both give the first
claim that fits. They agree because no pool that transitions lead to has two claims that fit.
-/
namespace ClaimStore.PoolState

/-- The outstanding claims differ in their names and in their tokens, and each of them lists some. -/
structure Tidy (pool : PoolState) : Prop where
  named : (pool.claims.map Claim.id).Nodup
  filled : ∀ claim ∈ pool.claims, claim.tokens ≠ []
  exclusive : pool.Exclusive

variable {pool next : PoolState} {claim : Claim} {transition : Transition} {id : ClaimId}
variable {ref : StateRef} {front back : List Claim}

theorem tidy_empty (key : PoolKey) : (empty key).Tidy :=
  ⟨List.nodup_nil, List.forall_mem_nil _, exclusive_empty key⟩

theorem Tidy.apply (tidy : pool.Tidy) (applied : pool.apply transition = .ok next) :
    next.Tidy := by
  have exclusive := tidy.exclusive.apply applied
  cases effect_of_apply applied with
  | deposited added => exact ⟨tidy.named, tidy.filled, exclusive⟩
  | @granted claim faultless =>
      obtain ⟨⟨admitted, -⟩, -⟩ := claim_eq_ok.mp applied
      refine ⟨?_, ?_, exclusive⟩
      · rw [List.map_append, List.nodup_append]
        refine ⟨tidy.named, List.nodup_singleton _, ?_⟩
        intro name taken other own same
        obtain ⟨held, outstanding, rfl⟩ := List.mem_map.mp taken
        rw [List.map_singleton, List.mem_singleton] at own
        exact admitted.unnamed held outstanding (same.trans own)
      · intro other member
        rcases List.mem_append.mp member with early | late
        · exact tidy.filled other early
        · rw [List.mem_singleton.mp late]
          exact admitted.filled
  | @released _ front back _ held first | @consumed _ front back held first =>
      have fewer : (front ++ back).Sublist pool.claims := by
        rw [held]
        exact (List.sublist_cons_self _ _).append_left _
      exact ⟨(fewer.map Claim.id).nodup tidy.named,
        fun other member => tidy.filled other (fewer.subset member), exclusive⟩

theorem Tidy.replay (tidy : pool.Tidy) (transitions : List Transition) :
    (pool.replay transitions).Tidy ∧ (pool.replay transitions).key = pool.key := by
  induction transitions generalizing pool with
  | nil => exact ⟨tidy, rfl⟩
  | cons transition rest ih =>
      cases applied : pool.apply transition with
      | error refusal =>
          simp only [PoolState.replay, applied]
          exact ih tidy
      | ok next =>
          obtain ⟨kept, same⟩ := ih (tidy.apply applied)
          simp only [PoolState.replay, applied]
          exact ⟨kept, same.trans (apply_key applied)⟩

/-- A claim is found by its name. -/
theorem Tidy.claim?_iff (tidy : pool.Tidy) :
    pool.claim? id = some claim ↔ claim ∈ pool.claims ∧ claim.id = id := by
  constructor
  · intro found
    obtain ⟨named, front, back, held, -⟩ := split_at_claim found
    exact ⟨held ▸ List.mem_append_right _ List.mem_cons_self, named⟩
  · rintro ⟨outstanding, rfl⟩
    obtain ⟨front, back, held⟩ := List.append_of_mem outstanding
    apply claim?_of_split held
    intro other early same
    have named := tidy.named
    rw [held, List.map_append, List.map_cons, List.nodup_append] at named
    exact named.2.2 _ (List.mem_map_of_mem early) _ List.mem_cons_self same

/-- A token is in one claim at most, which is the one that is found. -/
theorem Tidy.holder?_iff (tidy : pool.Tidy) :
    pool.holder? ref = some id ↔ ∃ claim ∈ pool.claims, claim.id = id ∧ ref ∈ claim.refs := by
  rw [holder?_eq_some]
  constructor
  · rintro ⟨claim, ⟨listed, front, back, held, -⟩, named⟩
    exact ⟨claim, held ▸ List.mem_append_right _ List.mem_cons_self, named, listed⟩
  · rintro ⟨claim, outstanding, named, listed⟩
    obtain ⟨front, back, held⟩ := List.append_of_mem outstanding
    refine ⟨claim, ⟨listed, front, back, held, ?_⟩, named⟩
    intro other early also
    have exclusive := tidy.exclusive
    rw [Exclusive, held, List.flatMap_append, List.flatMap_cons, List.nodup_append] at exclusive
    exact exclusive.2.2 _ (List.mem_flatMap.mpr ⟨other, early, also⟩) _
      (List.mem_append_left _ listed) rfl

/-- The other claims differ from one that is outstanding. -/
theorem Tidy.others (tidy : pool.Tidy) (held : pool.claims = front ++ claim :: back) :
    (∀ other ∈ front ++ back, other.id ≠ claim.id) ∧
      ∀ ref ∈ claim.refs, ∀ other ∈ front ++ back, ref ∉ other.refs := by
  have order : pool.claims.Perm (claim :: (front ++ back)) := held ▸ List.perm_middle
  constructor
  · intro other member same
    have named := ((order.map Claim.id).nodup_iff).mp tidy.named
    exact (List.nodup_cons.mp named).1 (same ▸ List.mem_map_of_mem member)
  · intro ref listed other member also
    have exclusive := ((order.flatMap_right Claim.refs).nodup_iff).mp tidy.exclusive
    rw [List.flatMap_cons, List.nodup_append] at exclusive
    exact exclusive.2.2 ref listed ref (List.mem_flatMap.mpr ⟨other, member, also⟩) rfl

/-- When a claim is dropped, its name and its tokens are free, and nothing else is. -/
theorem Tidy.dropped (tidy : pool.Tidy) (after : next.Tidy)
    (held : pool.claims = front ++ claim :: back) (left : next.claims = front ++ back) :
    (∀ other, next.claim? other = if other = claim.id then none else pool.claim? other) ∧
      ∀ ref, next.holder? ref = if ref ∈ claim.refs then none else pool.holder? ref := by
  obtain ⟨unnamed, unlisted⟩ := tidy.others held
  constructor
  · intro other
    split
    · rename_i own
      rw [claim?_eq_none, left, own]
      exact unnamed
    · rename_i different
      ext found
      rw [after.claim?_iff, tidy.claim?_iff, left, held, List.perm_middle.mem_iff, List.mem_cons]
      constructor
      · rintro ⟨member, named⟩
        exact ⟨.inr member, named⟩
      · rintro ⟨rfl | member, named⟩
        · exact absurd named.symm different
        · exact ⟨member, named⟩
  · intro ref
    split
    · rename_i listed
      rw [holder?_eq_none, left]
      exact unlisted ref listed
    · rename_i different
      ext name
      rw [after.holder?_iff, tidy.holder?_iff, left, held]
      constructor
      · rintro ⟨other, member, named, listed⟩
        exact ⟨other, List.perm_middle.mem_iff.mpr (List.mem_cons_of_mem _ member), named, listed⟩
      · rintro ⟨other, member, named, listed⟩
        rcases List.mem_cons.mp (List.perm_middle.mem_iff.mp member) with rfl | early
        · exact absurd listed different
        · exact ⟨other, early, named, listed⟩

/-- A claim is dropped by its name. The others stay in their places. -/
theorem split_of_drop (drops : transition = .release id ∨ transition = .consume id)
    (applied : pool.apply transition = .ok next) :
    ∃ claim front back, claim.id = id ∧ pool.claims = front ++ claim :: back ∧
      next.claims = front ++ back := by
  have effect := effect_of_apply applied
  rcases drops with rfl | rfl
  · cases effect with
    | released held first added => exact ⟨_, _, _, rfl, held, rfl⟩
  · cases effect with
    | consumed held first => exact ⟨_, _, _, rfl, held, rfl⟩

theorem consume_eq_ok : pool.consume id = .ok next ↔
    (∃ claim, pool.claim? id = some claim) ∧
      next = { pool with claims := pool.claimsWithout id } := by
  unfold consume
  cases pool.claim? id <;> simp [eq_comm]

theorem release_eq_ok : pool.release id = .ok next ↔
    ∃ claim available, pool.claim? id = some claim ∧
      Units.add? pool.available claim.amount = some available ∧
      next = { pool with available, claims := pool.claimsWithout id } := by
  unfold release
  cases pool.claim? id with
  | none => simp
  | some claim =>
      cases added : Units.add? pool.available claim.amount <;>
        simp only [Option.some.injEq, exists_and_left, exists_eq_left', added, reduceCtorEq,
          false_and, exists_const, Except.ok.injEq, eq_comm (a := next)]

theorem exists_consume_iff :
    (∃ next, pool.consume id = .ok next) ↔ ∃ claim, pool.claim? id = some claim :=
  ⟨fun ⟨_, consumed⟩ => (consume_eq_ok.mp consumed).1,
    fun held => ⟨_, consume_eq_ok.mpr ⟨held, rfl⟩⟩⟩

/-- The units of a claim are not released into a pool that has no room for them. -/
theorem exists_release_iff : (∃ next, pool.release id = .ok next) ↔
    ∃ claim, pool.claim? id = some claim ∧
      pool.available.toNat + claim.amount.toNat < UInt64.size := by
  constructor
  · rintro ⟨next, released⟩
    obtain ⟨claim, available, found, added, -⟩ := release_eq_ok.mp released
    have sum := Units.add?_toNat added
    have bound : available.toNat < UInt64.size := available.toNat_lt
    exact ⟨claim, found, sum ▸ bound⟩
  · rintro ⟨claim, found, room⟩
    exact ⟨_, release_eq_ok.mpr ⟨claim, _, found, if_pos room, rfl⟩⟩

/-- Whatever has been asked of a pool that began empty, and however much of it was refused: the
claims differ in their names and in their tokens, none of them is empty, and the pool is the one that
it was. So a token is claimed under a name if and only if the claim of this name lists it. To release
or to consume under a name takes a claim of this name; that claim goes with its tokens, and the other
ones stay as they are and where they are. Nothing but a lack of room for its units stands in the way
of the release of a claim, and nothing in the way of its consumption. -/
theorem queries_agree (key : PoolKey) (transitions : List Transition) :
    let pool := (empty key).replay transitions
    (pool.claims.map Claim.id).Nodup ∧ (∀ claim ∈ pool.claims, claim.tokens ≠ []) ∧
    (pool.claims.flatMap Claim.refs).Nodup ∧ pool.key = key ∧
    (∀ ref id, pool.holder? ref = some id ↔
      ∃ claim, pool.claim? id = some claim ∧ ref ∈ claim.refs) ∧
    (∀ id, ((∃ next, pool.consume id = .ok next) ↔ ∃ claim, pool.claim? id = some claim) ∧
      ((∃ next, pool.release id = .ok next) ↔ ∃ claim, pool.claim? id = some claim ∧
        pool.available.toNat + claim.amount.toNat < UInt64.size)) ∧
    ∀ id drop, drop = .release id ∨ drop = .consume id → ∀ next, pool.apply drop = .ok next →
      ∃ claim front back, pool.claim? id = some claim ∧
        pool.claims = front ++ claim :: back ∧ next.claims = front ++ back ∧
        (∀ other, next.claim? other = if other = id then none else pool.claim? other) ∧
        ∀ ref, next.holder? ref = if ref ∈ claim.refs then none else pool.holder? ref := by
  intro pool
  obtain ⟨tidy, same⟩ := (tidy_empty key).replay transitions
  refine ⟨tidy.named, tidy.filled, tidy.exclusive, same, ?_,
    fun id => ⟨exists_consume_iff, exists_release_iff⟩, ?_⟩
  · intro ref id
    rw [tidy.holder?_iff]
    refine exists_congr fun claim => ?_
    rw [tidy.claim?_iff, and_assoc]
  · intro id drop drops next applied
    obtain ⟨claim, front, back, rfl, held, left⟩ := split_of_drop drops applied
    obtain ⟨names, tokens⟩ := tidy.dropped (tidy.apply applied) held left
    have outstanding : claim ∈ pool.claims := held ▸ List.mem_append_right _ List.mem_cons_self
    exact ⟨claim, front, back, tidy.claim?_iff.mpr ⟨outstanding, rfl⟩, held, left, names, tokens⟩

/-- A name and a token are used again after they have been released. -/
def sampleReuse : List Transition :=
  [.deposit 9, .claim ⟨⟨"a"⟩, [⟨⟨"s"⟩, 4⟩]⟩, .claim ⟨⟨"b"⟩, [⟨⟨"t"⟩, 2⟩, ⟨⟨"u"⟩, 1⟩]⟩,
    .release ⟨"a"⟩, .claim ⟨⟨"c"⟩, [⟨⟨"s"⟩, 1⟩]⟩, .claim ⟨⟨"a"⟩, [⟨⟨"v"⟩, 1⟩]⟩]

theorem queries_agree_reused :
    let pool := (empty sampleKey).replay sampleReuse
    pool.holder? ⟨"s"⟩ = some ⟨"c"⟩ ∧ pool.holder? ⟨"t"⟩ = some ⟨"b"⟩ ∧
      ∃ next, pool.apply (.consume ⟨"b"⟩) = .ok next ∧ next.holder? ⟨"t"⟩ = none ∧
        next.holder? ⟨"s"⟩ = some ⟨"c"⟩ ∧ (next.claims.map Claim.id) = [⟨"c"⟩, ⟨"a"⟩] := by
  intro pool
  have facts : pool.holder? ⟨"s"⟩ = some ⟨"c"⟩ ∧ pool.holder? ⟨"t"⟩ = some ⟨"b"⟩ ∧
      pool.claim? ⟨"b"⟩ = some ⟨⟨"b"⟩, [⟨⟨"t"⟩, 2⟩, ⟨⟨"u"⟩, 1⟩]⟩ ∧
      (pool.apply (.consume ⟨"b"⟩)).map (fun next => next.claims.map Claim.id) =
        .ok [⟨"c"⟩, ⟨"a"⟩] := by
    subst pool
    decide +kernel
  obtain ⟨token, other, held, names⟩ := facts
  obtain ⟨-, -, -, -, -, -, drops⟩ := queries_agree sampleKey sampleReuse
  cases consumed : pool.apply (.consume ⟨"b"⟩) with
  | error refusal =>
      rw [consumed] at names
      cases names
  | ok next =>
      rw [consumed] at names
      obtain ⟨claim, -, -, found, -, -, -, freed⟩ := drops ⟨"b"⟩ _ (.inr rfl) next consumed
      cases held.symm.trans found
      refine ⟨token, other, next, rfl, ?_, ?_, Except.ok.inj names⟩
      · rw [freed]
        decide
      · rw [freed]
        exact (if_neg (by decide)).trans token

end ClaimStore.PoolState
