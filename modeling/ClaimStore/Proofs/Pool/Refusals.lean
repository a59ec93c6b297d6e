import ClaimStore.Proofs.Pool.Coverage
import Mathlib.Data.Nat.Find

/-!
Why a claim is refused.

Several things can be wrong with a claim at once. It is refused for one of them: that it is empty
comes first, then its name, then the first of its tokens that cannot be claimed, and its units come
last. What is wrong with a token is told by its place alone, without the search that finds it.
-/
namespace ClaimStore.PoolState

variable {pool : PoolState} {claim : Claim} {refusal : PoolError}
variable {refs : List StateRef} {ref : StateRef} {place : Nat}

/-- The token at the place cannot be claimed: it is listed at an earlier place, too, or by an
outstanding claim. -/
def BarredAt (pool : PoolState) (refs : List StateRef) (place : Nat) : Prop :=
  ∃ ref, refs[place]? = some ref ∧
    (ref ∈ refs.take place ∨ ∃ held ∈ pool.claims, ref ∈ held.refs)

/-- The place is the least one that is barred. -/
structure FirstBarredAt (pool : PoolState) (refs : List StateRef) (place : Nat) : Prop where
  barred : pool.BarredAt refs place
  first : ∀ earlier < place, ¬ pool.BarredAt refs earlier

/-- The claim lists tokens, and its name is free. -/
structure Opens (pool : PoolState) (claim : Claim) : Prop where
  filled : claim.tokens ≠ []
  unnamed : ∀ held ∈ pool.claims, held.id ≠ claim.id

/-- What a claim is refused for. -/
inductive Refuses (pool : PoolState) (claim : Claim) : PoolError → Prop
  | empty (tokens : claim.tokens = []) : Refuses pool claim (.emptyClaim claim.id)
  | named (filled : claim.tokens ≠ []) (taken : ∃ held ∈ pool.claims, held.id = claim.id) :
      Refuses pool claim (.duplicateClaim claim.id)
  | repeated {place : Nat} {ref : StateRef} (opens : pool.Opens claim)
      (barred : pool.FirstBarredAt claim.refs place) (listed : claim.refs[place]? = some ref)
      (again : ref ∈ claim.refs.take place) : Refuses pool claim (.duplicateToken ref)
  | held {place : Nat} {ref : StateRef} {holder : Claim} (opens : pool.Opens claim)
      (barred : pool.FirstBarredAt claim.refs place) (listed : claim.refs[place]? = some ref)
      (fresh : ref ∉ claim.refs.take place) (holds : pool.IsFirstHolder ref holder) :
      Refuses pool claim (.tokenAlreadyClaimed ref holder.id)
  | short (opens : pool.Opens claim) (free : ∀ place, ¬ pool.BarredAt claim.refs place)
      (lacking : pool.available < claim.amount) :
      Refuses pool claim (.insufficientUnits claim.amount pool.available)

theorem barredAt_take {count : Nat} :
    pool.BarredAt (refs.take count) place ↔ place < count ∧ pool.BarredAt refs place := by
  unfold BarredAt
  by_cases early : place < count
  · rw [List.getElem?_take_of_lt early, List.take_take, Nat.min_eq_left (Nat.le_of_lt early)]
    simp only [early, true_and]
  · have beyond : (refs.take count)[place]? = none :=
      List.getElem?_take_eq_none (Nat.le_of_not_lt early)
    simp only [beyond, early, reduceCtorEq, false_and, exists_false]

/-- Nothing is listed twice if and only if nothing is listed before its own place. -/
theorem nodup_iff_not_mem_take :
    refs.Nodup ↔ ∀ place ref, refs[place]? = some ref → ref ∉ refs.take place := by
  rw [List.nodup_iff_getElem?_ne_getElem?]
  constructor
  · intro apart place ref listed again
    obtain ⟨earlier, before, same⟩ := List.mem_take_iff_getElem.mp again
    obtain ⟨within, -⟩ := List.getElem?_eq_some_iff.mp listed
    have found : refs[earlier]? = some ref := List.getElem?_eq_some_iff.mpr ⟨by omega, same⟩
    exact apart earlier place (by omega) within (found.trans listed.symm)
  · intro fresh earlier place before within same
    have listed := List.getElem?_eq_getElem within
    obtain ⟨inside, equal⟩ := List.getElem?_eq_some_iff.mp (same.trans listed)
    exact fresh place _ listed (List.mem_take_iff_getElem.mpr ⟨earlier, by omega, equal⟩)

/-- No place is barred if and only if the tokens differ and nobody holds one of them. -/
theorem forall_not_barredAt : (∀ place, ¬ pool.BarredAt refs place) ↔
    refs.Nodup ∧ ∀ ref ∈ refs, ∀ held ∈ pool.claims, ref ∉ held.refs := by
  rw [nodup_iff_not_mem_take]
  constructor
  · intro free
    refine ⟨fun place ref listed again => free place ⟨ref, listed, .inl again⟩, ?_⟩
    intro ref member held outstanding also
    obtain ⟨place, listed⟩ := List.mem_iff_getElem?.mp member
    exact free place ⟨ref, listed, .inr ⟨held, outstanding, also⟩⟩
  · rintro ⟨apart, unheld⟩ place ⟨ref, listed, again | ⟨held, outstanding, also⟩⟩
    · exact apart place ref listed again
    · exact unheld ref (List.mem_of_getElem? listed) held outstanding also

theorem tokenFault?_eq_none_iff_free {tokens : List ClaimedToken} :
    pool.tokenFault? [] tokens = none ↔
      ∀ place, ¬ pool.BarredAt (tokens.map ClaimedToken.ref) place := by
  rw [tokenFault?_eq_none, forall_not_barredAt]
  simp [holder?_eq_none]

/-- The search goes on behind tokens that can be claimed. -/
theorem tokenFault?_append {front : List ClaimedToken} {seen : List StateRef}
    (free : pool.tokenFault? seen front = none) (back : List ClaimedToken) :
    pool.tokenFault? seen (front ++ back) =
      pool.tokenFault? ((front.map ClaimedToken.ref).reverse ++ seen) back := by
  induction front generalizing seen with
  | nil => rfl
  | cons token rest ih =>
      rw [tokenFault?] at free
      split at free
      · cases free
      · rename_i fresh
        split at free
        · cases free
        · rename_i unheld
          rw [List.cons_append, tokenFault?, if_neg fresh, unheld, List.map_cons, List.reverse_cons,
            List.append_assoc]
          exact ih free

/-- The search ends at the first place that is barred. -/
theorem FirstBarredAt.tokenFault? (barred : pool.FirstBarredAt claim.refs place)
    (listed : claim.refs[place]? = some ref) :
    (ref ∈ claim.refs.take place → pool.tokenFault? [] claim.tokens = some (.duplicateToken ref)) ∧
      (ref ∉ claim.refs.take place → ∃ holder, pool.IsFirstHolder ref holder ∧
        pool.tokenFault? [] claim.tokens = some (.tokenAlreadyClaimed ref holder.id)) := by
  obtain ⟨token, found, rfl⟩ : ∃ token, claim.tokens[place]? = some token ∧ token.ref = ref := by
    rwa [Claim.refs, List.getElem?_map, Option.map_eq_some_iff] at listed
  have earlier : pool.tokenFault? [] (claim.tokens.take place) = none := by
    rw [tokenFault?_eq_none_iff_free, List.map_take]
    intro other also
    obtain ⟨before, also⟩ := barredAt_take.mp also
    exact barred.first other before also
  have whole : pool.tokenFault? [] claim.tokens =
      pool.tokenFault? (claim.refs.take place).reverse (token :: claim.tokens.drop (place + 1)) := by
    have parts := tokenFault?_append earlier (claim.tokens.drop place)
    obtain ⟨within, at_place⟩ := List.getElem?_eq_some_iff.mp found
    rwa [List.take_append_drop, List.drop_eq_getElem_cons within, at_place, List.append_nil,
      List.map_take] at parts
  rw [whole, PoolState.tokenFault?]
  constructor
  · intro again
    rw [if_pos (List.mem_reverse.mpr again)]
  · intro fresh
    rw [if_neg (fresh ∘ List.mem_reverse.mp)]
    obtain ⟨other, same, again | ⟨held, outstanding, also⟩⟩ := barred.barred
    · cases listed.symm.trans same
      exact absurd again fresh
    · cases listed.symm.trans same
      cases holds : pool.holder? token.ref with
      | none => exact absurd also (holder?_eq_none.mp holds held outstanding)
      | some id =>
          obtain ⟨holder, first, rfl⟩ := holder?_eq_some.mp holds
          exact ⟨holder, first, rfl⟩

theorem exists_firstBarredAt (barred : ∃ place, pool.BarredAt refs place) :
    ∃ place ref, pool.FirstBarredAt refs place ∧ refs[place]? = some ref := by
  classical
  obtain ⟨ref, listed, -⟩ := Nat.find_spec barred
  exact ⟨_, ref, ⟨Nat.find_spec barred, fun earlier before => Nat.find_min barred before⟩, listed⟩

theorem opens_iff : pool.Opens claim ↔ claim.tokens ≠ [] ∧ pool.claim? claim.id = none := by
  rw [claim?_eq_none]
  exact ⟨fun opens => ⟨opens.filled, opens.unnamed⟩, fun ⟨filled, unnamed⟩ => ⟨filled, unnamed⟩⟩

/-- A claim that opens is judged by its tokens first and by its units last. -/
theorem Opens.claimFault? (opens : pool.Opens claim) :
    pool.claimFault? claim = (pool.tokenFault? [] claim.tokens).or
      (if pool.available < claim.amount then
        some (.insufficientUnits claim.amount pool.available) else none) := by
  obtain ⟨filled, unnamed⟩ := opens_iff.mp opens
  rw [PoolState.claimFault?, if_neg filled, unnamed]
  cases pool.tokenFault? [] claim.tokens <;> rfl

theorem claim_eq_error : pool.claim claim = .error refusal ↔ pool.claimFault? claim = some refusal := by
  rw [PoolState.claim]
  cases pool.claimFault? claim <;> simp

theorem Refuses.claimFault? (refuses : pool.Refuses claim refusal) :
    pool.claimFault? claim = some refusal := by
  cases refuses with
  | empty tokens => rw [PoolState.claimFault?, if_pos tokens]
  | named filled taken =>
      have found : (pool.claim? claim.id).isSome = true := by
        obtain ⟨held, outstanding, same⟩ := taken
        rw [Option.isSome_iff_ne_none]
        exact fun none => claim?_eq_none.mp none held outstanding same
      rw [PoolState.claimFault?, if_neg filled, if_pos found]
  | repeated opens barred listed again =>
      rw [opens.claimFault?, (barred.tokenFault? listed).1 again, Option.some_or]
  | held opens barred listed fresh holds =>
      obtain ⟨other, first, fault⟩ := (barred.tokenFault? listed).2 fresh
      have same := (holder?_eq_some.mpr ⟨_, holds, rfl⟩).symm.trans
        (holder?_eq_some.mpr ⟨_, first, rfl⟩)
      rw [opens.claimFault?, fault, Option.some_or, Option.some.inj same]
  | short opens free lacking =>
      rw [opens.claimFault?, tokenFault?_eq_none_iff_free.mpr free, Option.none_or, if_pos lacking]

/-- A claim that does not open is refused. -/
theorem exists_refuses_of_not_opens (closed : ¬ pool.Opens claim) :
    ∃ refusal, pool.Refuses claim refusal := by
  by_cases empty : claim.tokens = []
  · exact ⟨_, .empty empty⟩
  · by_cases taken : ∃ held ∈ pool.claims, held.id = claim.id
    · exact ⟨_, .named empty taken⟩
    · exact absurd ⟨empty, fun held outstanding same => taken ⟨held, outstanding, same⟩⟩ closed

/-- A claim with a token that cannot be claimed is refused. -/
theorem Opens.exists_refuses (opens : pool.Opens claim)
    (barred : ∃ place, pool.BarredAt claim.refs place) : ∃ refusal, pool.Refuses claim refusal := by
  obtain ⟨place, ref, first, listed⟩ := exists_firstBarredAt barred
  by_cases again : ref ∈ claim.refs.take place
  · exact ⟨_, .repeated opens first listed again⟩
  · obtain ⟨holder, holds, -⟩ := (first.tokenFault? listed).2 again
    exact ⟨_, .held opens first listed again holds⟩

theorem exists_claim_iff : (∃ next, pool.claim claim = .ok next) ↔
    pool.Opens claim ∧ (∀ place, ¬ pool.BarredAt claim.refs place) ∧
      claim.amount ≤ pool.available := by
  have parts : pool.Admits claim ↔
      pool.Opens claim ∧ ∀ place, ¬ pool.BarredAt claim.refs place := by
    rw [forall_not_barredAt]
    exact ⟨fun admitted => ⟨⟨admitted.filled, admitted.unnamed⟩, admitted.apart, admitted.free⟩,
      fun ⟨opens, apart, free⟩ => ⟨opens.filled, opens.unnamed, apart, free⟩⟩
  rw [← and_assoc, ← parts]
  exact ⟨fun ⟨_, granted⟩ => (claim_eq_ok.mp granted).1,
    fun covered => ⟨_, claim_eq_ok.mpr ⟨covered, rfl⟩⟩⟩

/-- What a refused claim is refused for. -/
theorem exists_refuses_of_error (refused : pool.claim claim = .error refusal) :
    ∃ reason, pool.Refuses claim reason := by
  by_cases opens : pool.Opens claim
  · by_cases barred : ∃ place, pool.BarredAt claim.refs place
    · exact opens.exists_refuses barred
    · rw [not_exists] at barred
      refine ⟨_, .short opens barred (UInt64.not_le.mp fun covered => ?_)⟩
      obtain ⟨next, granted⟩ := exists_claim_iff.mpr ⟨opens, barred, covered⟩
      cases granted.symm.trans refused
  · exact exists_refuses_of_not_opens opens

/-- A claim is refused for exactly one reason, however many things are wrong with it. An empty claim
is refused as such, and another one for its name, if an outstanding claim has the same. After that it
is refused for the token at the least place that is barred: as one that is listed twice, if an
earlier place lists it, too, and otherwise as one of the first outstanding claim that lists it. A
claim without such a place is refused if its units, cut off at the greatest amount, are more than
there are. All others are granted. -/
theorem refused_for_first_fault (pool : PoolState) (claim : Claim) :
    (∀ refusal, pool.claim claim = .error refusal ↔ pool.Refuses claim refusal) ∧
    ((∃ next, pool.claim claim = .ok next) ↔
      pool.Opens claim ∧ (∀ place, ¬ pool.BarredAt claim.refs place) ∧
        claim.amount ≤ pool.available) := by
  refine ⟨fun refusal => ⟨fun refused => ?_, fun refuses => ?_⟩, exists_claim_iff⟩
  · obtain ⟨reason, refuses⟩ := exists_refuses_of_error refused
    have same := refuses.claimFault?.symm.trans (claim_eq_error.mp refused)
    rwa [← Option.some.inj same]
  · exact claim_eq_error.mpr refuses.claimFault?

/-- The second token is held, the third one is listed twice, and the units are missing. -/
example :
    let held : Claim := ⟨⟨"a"⟩, [⟨⟨"s"⟩, 4⟩]⟩
    (PoolState.mk default 1 [held]).claim ⟨⟨"b"⟩, [⟨⟨"t"⟩, 2⟩, ⟨⟨"s"⟩, 1⟩, ⟨⟨"t"⟩, 1⟩]⟩ =
      .error (.tokenAlreadyClaimed ⟨"s"⟩ ⟨"a"⟩) := by
  decide

end ClaimStore.PoolState
