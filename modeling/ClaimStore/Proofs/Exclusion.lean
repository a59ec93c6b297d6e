import ClaimStore.Proofs.Pool.Effects
import ClaimStore.Proofs.Serving
import Mathlib.Data.List.Flatten
import Mathlib.Data.List.Nodup

/-!
A token is in one outstanding claim at most.

A claim is granted only for tokens that no outstanding claim lists, and it is outstanding until it is
released or consumed.
-/
namespace ClaimStore

namespace PoolState

/-- No token is listed twice by the outstanding claims. -/
def Exclusive (pool : PoolState) : Prop := (pool.claims.flatMap Claim.refs).Nodup

variable {pool next : PoolState} {claim held : Claim} {transition : Transition}
variable {ref : StateRef}

theorem exclusive_empty (key : PoolKey) : (empty key).Exclusive := List.nodup_nil

theorem any_ref_eq_true :
    claim.tokens.any (fun token => token.ref = ref) = true ↔ ref ∈ claim.refs := by
  rw [List.any_eq_true, Claim.refs, List.mem_map]
  simp only [decide_eq_true_eq]

theorem holder?_eq_none : pool.holder? ref = none ↔ ∀ held ∈ pool.claims, ref ∉ held.refs := by
  rw [holder?, Option.map_eq_none_iff, List.find?_eq_none]
  exact forall_congr' fun held => imp_congr_right fun _ => not_congr any_ref_eq_true

/-- The first of the outstanding claims that list the token. -/
def IsFirstHolder (pool : PoolState) (ref : StateRef) (holder : Claim) : Prop :=
  ref ∈ holder.refs ∧
    ∃ front back, pool.claims = front ++ holder :: back ∧ ∀ earlier ∈ front, ref ∉ earlier.refs

theorem holder?_eq_some {id : ClaimId} :
    pool.holder? ref = some id ↔ ∃ holder, pool.IsFirstHolder ref holder ∧ holder.id = id := by
  rw [holder?, Option.map_eq_some_iff]
  refine exists_congr fun holder => and_congr_left fun _ => ?_
  simp only [List.find?_eq_some_iff_append, any_ref_eq_true, IsFirstHolder, Bool.not_eq_true',
    ← Bool.not_eq_true]

theorem tokenFault?_eq_none {tokens : List ClaimedToken} {seen : List StateRef} :
    pool.tokenFault? seen tokens = none ↔
      (tokens.map ClaimedToken.ref).Nodup ∧
        ∀ ref ∈ tokens.map ClaimedToken.ref, ref ∉ seen ∧ pool.holder? ref = none := by
  induction tokens generalizing seen with
  | nil => exact ⟨fun _ => ⟨List.nodup_nil, List.forall_mem_nil _⟩, fun _ => rfl⟩
  | cons token rest ih =>
      rw [List.map_cons, List.nodup_cons, List.forall_mem_cons, tokenFault?]
      split
      · rename_i listed
        simp [listed]
      · rename_i unseen
        cases holder : pool.holder? token.ref with
        | some id => simp
        | none =>
            rw [ih]
            constructor
            · rintro ⟨apart, free⟩
              refine ⟨⟨fun later => (free _ later).1 List.mem_cons_self, apart⟩, ⟨unseen, rfl⟩, ?_⟩
              intro ref later
              exact ⟨fun early => (free ref later).1 (List.mem_cons_of_mem _ early), (free ref later).2⟩
            · rintro ⟨⟨alone, apart⟩, -, free⟩
              refine ⟨apart, fun ref later => ⟨?_, (free ref later).2⟩⟩
              intro member
              rcases List.mem_cons.mp member with rfl | early
              · exact alone later
              · exact (free ref later).1 early

theorem claim_granted (granted : pool.claim claim = .ok next) :
    next.claims = pool.claims ++ [claim] ∧ claim.refs.Nodup ∧
      ∀ ref ∈ claim.refs, ∀ held ∈ pool.claims, ref ∉ held.refs := by
  have effect : pool.Effect (.claim claim) next := effect_of_apply granted
  cases effect with
  | granted faultless =>
      obtain ⟨-, -, tokens, -⟩ := claimFault?_eq_none.mp faultless
      obtain ⟨apart, free⟩ := tokenFault?_eq_none.mp tokens
      exact ⟨rfl, apart, fun ref listed => holder?_eq_none.mp (free ref listed).2⟩

theorem claimsWithout_sublist (pool : PoolState) (id : ClaimId) :
    (pool.claimsWithout id).Sublist pool.claims :=
  List.eraseP_sublist

theorem mem_claimsWithout {id : ClaimId} (outstanding : held ∈ pool.claims) (other : held.id ≠ id) :
    held ∈ pool.claimsWithout id := by
  unfold claimsWithout
  rwa [List.mem_eraseP_of_neg (by simpa using other)]

/-- What a transition does to the claims: one is granted, one is dropped, or all are kept. -/
inductive ClaimMove (pool : PoolState) : Transition → List Claim → Prop
  | kept (amount : UInt64) : ClaimMove pool (.deposit amount) pool.claims
  | granted (claim : Claim) (apart : claim.refs.Nodup)
      (free : ∀ ref ∈ claim.refs, ∀ held ∈ pool.claims, ref ∉ held.refs) :
      ClaimMove pool (.claim claim) (pool.claims ++ [claim])
  | released (id : ClaimId) : ClaimMove pool (.release id) (pool.claimsWithout id)
  | consumed (id : ClaimId) : ClaimMove pool (.consume id) (pool.claimsWithout id)

theorem move_of_apply (applied : pool.apply transition = .ok next) :
    ClaimMove pool transition next.claims := by
  cases effect_of_apply applied with
  | deposited added => exact .kept _
  | granted =>
      obtain ⟨-, apart, free⟩ := claim_granted applied
      exact .granted _ apart free
  | released held first =>
      rw [← claimsWithout_of_split held first]
      exact .released _
  | consumed held first =>
      rw [← claimsWithout_of_split held first]
      exact .consumed _

theorem Exclusive.apply (exclusive : pool.Exclusive) (applied : pool.apply transition = .ok next) :
    next.Exclusive := by
  have move := move_of_apply applied
  unfold Exclusive at exclusive ⊢
  generalize next.claims = claims at move
  cases move with
  | kept amount => exact exclusive
  | granted claim apart free =>
      rw [List.flatMap_append, List.flatMap_singleton, List.nodup_append]
      refine ⟨exclusive, apart, ?_⟩
      intro ref listed other shared same
      obtain ⟨held, outstanding, owned⟩ := List.mem_flatMap.mp listed
      exact free other shared held outstanding (same ▸ owned)
  | released id | consumed id =>
      exact ((pool.claimsWithout_sublist id).flatMap Claim.refs).nodup exclusive

theorem outstanding_apply (outstanding : held ∈ pool.claims)
    (applied : pool.apply transition = .ok next) :
    held ∈ next.claims ∨ transition = .release held.id ∨ transition = .consume held.id := by
  have move := move_of_apply applied
  generalize next.claims = claims at move
  cases move with
  | kept amount => exact .inl outstanding
  | granted claim apart free => exact .inl (List.mem_append_left _ outstanding)
  | released id =>
      by_cases same : held.id = id
      · exact .inr (.inl (congrArg _ same.symm))
      · exact .inl (mem_claimsWithout outstanding same)
  | consumed id =>
      by_cases same : held.id = id
      · exact .inr (.inr (congrArg _ same.symm))
      · exact .inl (mem_claimsWithout outstanding same)

end PoolState

namespace Request

def Means (request : Request) (transition : Transition) : Prop :=
  request.mutation = .ofTransition transition

theorem Means.apply {request : Request} {transition : Transition} {pool next : PoolState}
    (means : request.Means transition) (succeeds : request.mutation pool = .ok next) :
    pool.apply transition = .ok next := by
  rw [means, Mutation.ofTransition] at succeeds
  cases applied : pool.apply transition with
  | error error => simp [applied, Except.mapError] at succeeds
  | ok state => simpa [applied, Except.mapError] using succeeds

/-- The request drops the claim of that name. -/
def Drops (request : Request) (id : ClaimId) : Prop :=
  request.Means (.release id) ∨ request.Means (.consume id)

end Request

namespace PoolState

variable {pool : PoolState} {requests : List Request} {held : Claim}

theorem Exclusive.serve (exclusive : pool.Exclusive)
    (transitions : ∀ request ∈ requests, ∃ transition, request.Means transition) :
    (pool.serve requests).Exclusive := by
  induction requests generalizing pool with
  | nil => exact exclusive
  | cons request rest ih =>
      have later : ∀ request ∈ rest, ∃ transition, request.Means transition :=
        fun request member => transitions request (List.mem_cons_of_mem _ member)
      cases result : request.mutation pool with
      | error failure =>
          simp only [PoolState.serve, result]
          exact ih exclusive later
      | ok next =>
          obtain ⟨transition, means⟩ := transitions request List.mem_cons_self
          simp only [PoolState.serve, result]
          exact ih (exclusive.apply (means.apply result)) later

theorem outstanding_serve (outstanding : held ∈ pool.claims)
    (transitions : ∀ request ∈ requests, ∃ transition, request.Means transition) :
    held ∈ (pool.serve requests).claims ∨ ∃ request ∈ requests, request.Drops held.id := by
  induction requests generalizing pool with
  | nil => exact .inl outstanding
  | cons request rest ih =>
      have later : ∀ request ∈ rest, ∃ transition, request.Means transition :=
        fun request member => transitions request (List.mem_cons_of_mem _ member)
      have lift : (∃ drop ∈ rest, drop.Drops held.id) →
          ∃ drop ∈ request :: rest, drop.Drops held.id := by
        rintro ⟨drop, member, drops⟩
        exact ⟨drop, List.mem_cons_of_mem _ member, drops⟩
      cases result : request.mutation pool with
      | error failure =>
          simp only [serve, result]
          exact (ih outstanding later).imp_right lift
      | ok next =>
          obtain ⟨transition, means⟩ := transitions request List.mem_cons_self
          simp only [serve, result]
          rcases outstanding_apply outstanding (means.apply result) with kept | released | consumed
          · exact (ih kept later).imp_right lift
          · exact .inr ⟨request, List.mem_cons_self, .inl (released ▸ means)⟩
          · exact .inr ⟨request, List.mem_cons_self, .inr (consumed ▸ means)⟩

/-- Of two claims on a token that are granted one after the other, the earlier one has been dropped
before the later one is granted. -/
theorem dropped_between {front middle back : List Request} {first second : Request}
    {earlier later : Claim} {ref : StateRef}
    (all : pool.accepted (front ++ first :: middle ++ second :: back) =
      front ++ first :: middle ++ second :: back)
    (transitions : ∀ request ∈ middle, ∃ transition, request.Means transition)
    (claims : first.Means (.claim earlier)) (also : second.Means (.claim later))
    (listed : ref ∈ earlier.refs) (shared : ref ∈ later.refs) :
    ∃ drop ∈ middle, drop.Drops earlier.id := by
  obtain ⟨start, rest⟩ := accepted_split all
  obtain ⟨next, granted⟩ := accepted_head (accepted_split start).2
  obtain ⟨last, regranted⟩ := accepted_head rest
  have move := claim_granted (claims.apply granted)
  have outstanding : earlier ∈ next.claims := by
    rw [move.1]
    exact List.mem_append_right _ List.mem_cons_self
  have state : pool.serve (front ++ first :: middle) = next.serve middle := by
    rw [serve_append, serve, granted]
  rcases outstanding_serve outstanding transitions with kept | dropped
  · rw [state] at regranted
    have free := (claim_granted (also.apply regranted)).2.2
    exact absurd listed (free ref shared earlier kept)
  · exact dropped

end PoolState

end ClaimStore
