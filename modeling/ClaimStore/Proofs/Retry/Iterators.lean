import ClaimStore.Proofs.Retry.Loops
import ClaimStore.Retry.Iterator

/-!
What an iterator over the pauses of a policy promises and gives.

An iterator counts its calls, also those that it has nothing left for. So the number of a call tells
whether there is a pause for it and how many were expected before it. Who keeps the policy makes no
difference. The first pause of a growing policy is the initial one; each later one is made from the
pause before it and is cut at the longest.
-/
namespace ClaimStore

namespace RetryCall

theorem isItem_iff {call : RetryCall} :
    call.isItem = true ↔ call.step ≠ .exhausted ∧ call.step ≠ .impossible := by
  unfold isItem
  cases call.step <;> simp

/-- What is seen of a call that comes after so many others. -/
structure Follows (policy : RetryPolicy) (earlier : Nat) (call : RetryCall) : Prop where
  counted : call.attempts = earlier + 1
  exhausted : call.step = .exhausted ↔ policy.retries ≤ earlier
  hint : ∀ most : Nat, policy.retries = most →
    call.hint = (most - earlier, some (most - earlier))

end RetryCall

namespace RetryCursor

variable {cursor : RetryCursor} {draw : Draw} {base length : Duration}

theorem remaining_eq {most : Nat} (limited : cursor.policy.retries = most) :
    cursor.remaining = most - cursor.attempts := by
  obtain ⟨policy, attempts, last⟩ := cursor
  cases policy with
  | none =>
      have none : 0 = most := Nat.cast_injective (R := ℕ∞) limited
      simp [remaining, ← none]
  | fixedDelay interval limit | exponential initial factor limit longest =>
      cases limit with
      | none => exact absurd limited.symm (ENat.natCast_ne_top most)
      | some allowed =>
          have same : allowed.toNat = most := Nat.cast_injective (R := ℕ∞) limited
          simp [remaining, RetryPolicy.limit, same]

/-- A pause is made from the base that the cursor finds, and the cursor is moved there. -/
theorem moves_of_pause (paused : (cursor.next draw).1 = .pause base length) :
    cursor.base? = some base ∧
      (cursor.next draw).2 = moveTo { cursor with attempts := cursor.attempts + 1 } base := by
  have counted : base? { cursor with attempts := cursor.attempts + 1 } = cursor.base? := rfl
  unfold RetryCursor.next at paused ⊢
  dsimp only at paused ⊢
  rw [counted] at paused ⊢
  split at paused
  · rename_i within
    rw [if_pos within]
    cases found : cursor.base? with
    | none =>
        rw [found] at paused
        cases paused
    | some reached =>
        rw [found] at paused
        dsimp only at paused ⊢
        cases jittered : reached.withJitter? draw jitterFraction with
        | none =>
            rw [jittered] at paused
            cases paused
        | some drawn =>
            rw [jittered] at paused
            cases paused
            exact ⟨rfl, rfl⟩
  · cases paused

theorem base?_start {initial : Duration} {factor : Number.Single} {limit : Option Limit}
    {longest : Option Duration} (growing : cursor.policy = .exponential initial factor limit longest)
    (first : cursor.last = none) : cursor.base? = some initial := by
  simp only [base?, growing, first]

/-- A base that is made from the last one is cut. -/
theorem base?_le {initial longest last : Duration} {factor : Number.Single} {limit : Option Limit}
    (growing : cursor.policy = .exponential initial factor limit (some longest))
    (held : cursor.last = some last) (found : cursor.base? = some base) :
    base.nanos ≤ longest.nanos := by
  simp only [base?, growing, held, Option.getD_some] at found
  obtain ⟨scaled, -, rfl⟩ := Option.map_eq_some_iff.mp found
  unfold Duration.min
  split
  · exact le_rfl
  · rename_i within
    exact Nat.le_of_not_lt within

end RetryCursor

namespace RetryIter

variable {iter : RetryIter} {draws : List Draw} {index : Nat} {call : RetryCall}

theorem cursor_next (draw : Draw) (iter : RetryIter) :
    (iter.next draw).2.cursor = (iter.cursor.next draw).2 := by
  have kept : (iter.cursor.next draw).2.policy = iter.held.policy :=
    (iter.cursor.next_counts draw).1
  show (⟨iter.held.policy, _, _⟩ : RetryCursor) = _
  rw [← kept]
  rfl

theorem attempts_next (draw : Draw) (iter : RetryIter) :
    (iter.next draw).2.attempts = iter.attempts + 1 :=
  (iter.cursor.next_counts draw).2

theorem calls_cons (draw : Draw) (rest : List Draw) (iter : RetryIter) :
    iter.calls (draw :: rest) =
      ⟨iter.sizeHint, (iter.cursor.next draw).1, (iter.next draw).2.attempts,
        (iter.next draw).2.last⟩ :: (iter.next draw).2.calls rest := rfl

theorem length_calls (draws : List Draw) (iter : RetryIter) :
    (iter.calls draws).length = draws.length := by
  induction draws generalizing iter with
  | nil => rfl
  | cons draw rest ih => rw [calls_cons, List.length_cons, List.length_cons, ih]

/-- Iterators that stand at the same place of the same policy cannot be told apart. -/
theorem calls_eq {left right : RetryIter} (same : left.cursor = right.cursor) (draws : List Draw) :
    left.calls draws = right.calls draws := by
  induction draws generalizing left right with
  | nil => rfl
  | cons draw rest ih =>
      have next : (left.next draw).2.cursor = (right.next draw).2.cursor := by
        rw [cursor_next, cursor_next, same]
      have attempts := congrArg RetryCursor.attempts next
      have last := congrArg RetryCursor.last next
      rw [calls_cons, calls_cons, sizeHint, sizeHint, same, ih next]
      exact congrArg₂ (fun attempts last => RetryCall.mk _ _ attempts last :: _) attempts last

/-! ### Numbers of pauses -/

theorem follows_next (draw : Draw) (iter : RetryIter) :
    RetryCall.Follows iter.held.policy iter.attempts
      ⟨iter.sizeHint, (iter.cursor.next draw).1, (iter.next draw).2.attempts,
        (iter.next draw).2.last⟩ where
  counted := iter.attempts_next draw
  exhausted := iter.cursor.next_exhausted_iff draw
  hint := by
    intro most limited
    have left : iter.cursor.remaining = most - iter.attempts :=
      RetryCursor.remaining_eq limited
    show iter.sizeHint = _
    rw [sizeHint, left]

theorem follows_calls (found : (iter.calls draws)[index]? = some call) :
    call.Follows iter.held.policy (iter.attempts + index) := by
  induction draws generalizing iter index with
  | nil => cases found
  | cons draw rest ih =>
      rw [calls_cons] at found
      cases index with
      | zero =>
          cases found
          exact iter.follows_next draw
      | succ index =>
          have later := ih found
          rw [attempts_next] at later
          rwa [Nat.add_right_comm, Nat.add_assoc] at later

/-- Of enough calls, all of which can be made, as many give a pause as are left. -/
theorem countP_calls {most : Nat} (limited : iter.held.policy.retries = most)
    (possible : ∀ call ∈ iter.calls draws, call.step ≠ .impossible)
    (enough : most ≤ iter.attempts + draws.length) :
    (iter.calls draws).countP RetryCall.isItem = most - iter.attempts := by
  induction draws generalizing iter with
  | nil =>
      rw [List.length_nil, Nat.add_zero] at enough
      rw [Nat.sub_eq_zero_of_le enough]
      rfl
  | cons draw rest ih =>
      have follows := iter.follows_next draw
      rw [calls_cons, List.forall_mem_cons] at possible
      have later : most ≤ (iter.next draw).2.attempts + rest.length := by
        rw [attempts_next]
        rw [List.length_cons] at enough
        omega
      have kept : (iter.next draw).2.held.policy.retries = most := limited
      have others := ih kept possible.2 later
      have exhausted : (iter.cursor.next draw).1 = .exhausted ↔ most ≤ iter.attempts := by
        rw [← Nat.cast_le (α := ℕ∞), ← limited]
        exact follows.exhausted
      rw [attempts_next] at others
      rw [calls_cons, List.countP_cons, others]
      simp only [RetryCall.isItem_iff, exhausted, possible.1, ne_eq, not_false_eq_true, and_true]
      split <;> omega

theorem countP_drop_calls {most : Nat} (limited : iter.held.policy.retries = most)
    (possible : ∀ call ∈ iter.calls draws, call.step ≠ .impossible)
    (enough : most ≤ iter.attempts + draws.length) (within : index ≤ draws.length) :
    ((iter.calls draws).drop index).countP RetryCall.isItem = most - (iter.attempts + index) := by
  induction draws generalizing iter index with
  | nil =>
      have first : index = 0 := Nat.le_zero.mp within
      rw [first]
      exact countP_calls limited possible enough
  | cons draw rest ih =>
      cases index with
      | zero => exact countP_calls limited possible enough
      | succ index =>
          rw [List.length_cons] at enough within
          rw [calls_cons, List.forall_mem_cons] at possible
          have further : most ≤ (iter.next draw).2.attempts + rest.length := by
            rw [attempts_next]
            omega
          have kept : (iter.next draw).2.held.policy.retries = most := limited
          have later := ih kept possible.2 further (Nat.le_of_succ_le_succ within)
          rw [attempts_next] at later
          rw [calls_cons, List.drop_succ_cons, later]
          omega

/-! ### Bases of growing pauses -/

section

variable {initial longest base length : Duration} {factor : Number.Single} {limit : Option Limit}

theorem last_next {draw : Draw}
    (growing : iter.held.policy = .exponential initial factor limit (some longest))
    (paused : (iter.cursor.next draw).1 = .pause base length) :
    (iter.next draw).2.last = some base := by
  have moved := (RetryCursor.moves_of_pause paused).2
  have policy : iter.cursor.policy = .exponential initial factor limit (some longest) := growing
  show (iter.cursor.next draw).2.last = _
  rw [moved, RetryCursor.moveTo]
  simp only [policy]

theorem exists_pause (item : call.isItem = true) :
    ∃ base length, call.step = .pause base length := by
  unfold RetryCall.isItem at item
  cases step : call.step with
  | pause base length => exact ⟨base, length, rfl⟩
  | exhausted | impossible =>
      rw [step] at item
      cases item

/-- The bases of calls that all give a pause, where `last` is what the iterator holds before them. -/
theorem bases_calls (growing : iter.held.policy = .exponential initial factor limit (some longest))
    (given : ∀ call ∈ iter.calls draws, call.isItem = true)
    (found : (iter.calls draws)[index]? = some call) :
    ∃ base, call.last = some base ∧
      (iter.last = none → index = 0 → base = initial) ∧
      ((iter.last = none → 0 < index) → base.nanos ≤ longest.nanos) := by
  induction draws generalizing iter index with
  | nil => cases found
  | cons draw rest ih =>
      rw [calls_cons, List.forall_mem_cons] at given
      obtain ⟨base, length, paused⟩ := exists_pause given.1
      have held := last_next growing paused
      have reached := (RetryCursor.moves_of_pause paused).1
      rw [calls_cons] at found
      cases index with
      | zero =>
          cases found
          refine ⟨base, held, ?_, ?_⟩
          · intro first _
            have start : iter.cursor.base? = some initial := RetryCursor.base?_start growing first
            exact Option.some.inj (reached.symm.trans start)
          · intro later
            cases last : iter.last with
            | none => exact absurd (later last) (Nat.lt_irrefl 0)
            | some earlier => exact RetryCursor.base?_le growing last reached
      | succ index =>
          have kept : (iter.next draw).2.held.policy =
              .exponential initial factor limit (some longest) := growing
          have moved : (iter.next draw).2.last ≠ none := by
            rw [held]
            exact Option.some_ne_none base
          obtain ⟨base, shown, -, bounded⟩ := ih kept given.2 found
          exact ⟨base, shown, fun _ => nofun, fun _ => bounded fun start => absurd start moved⟩

end

end RetryIter

namespace RetryPolicy

open RetryIter

/-- An iterator gives as many pauses as it tells before, however long it is asked. As long as every
call can be made, there is a pause for exactly the first calls, as many as the policy allows retries,
and none for any other. If retries are limited, the iterator expects before each call, at least and at
most, the number of pauses that the calls from this one on give; without a limit there is always one.
Each call is counted, so fewer than 2^64 of them are counted by a 64-bit word. It makes no difference
whether the iterator has a policy of its own or borrows it. -/
theorem yields_as_many_as_told (policy : RetryPolicy) (draws : List Draw)
    (possible : ∀ call ∈ policy.iter.calls draws, call.step ≠ .impossible) :
    policy.intoIter.calls draws = policy.iter.calls draws ∧
    (policy.iter.calls draws).length = draws.length ∧
    ∀ (index : Nat) (call : RetryCall), (policy.iter.calls draws)[index]? = some call →
      call.attempts = index + 1 ∧
      (call.isItem = true ↔ (index : ℕ∞) < policy.retries) ∧
      (call.step = .exhausted ↔ policy.retries ≤ index) ∧
      ∀ most : Nat, policy.retries = most →
        call.hint = (most - index, some (most - index)) ∧
        (most ≤ draws.length →
          ((policy.iter.calls draws).drop index).countP RetryCall.isItem = most - index) := by
  have same : policy.intoIter.cursor = policy.iter.cursor := rfl
  refine ⟨calls_eq same draws, length_calls draws _, ?_⟩
  intro index call found
  have start : policy.iter.attempts = 0 := rfl
  have follows := follows_calls found
  rw [start, Nat.zero_add] at follows
  refine ⟨follows.counted, ?_, follows.exhausted, ?_⟩
  · have made := possible call (List.mem_of_getElem? found)
    rw [RetryCall.isItem_iff, ← not_le]
    exact ⟨fun item => mt follows.exhausted.mpr item.1,
      fun allowed => ⟨mt follows.exhausted.mp allowed, made⟩⟩
  · intro most limited
    refine ⟨follows.hint most limited, ?_⟩
    intro enough
    obtain ⟨within, -⟩ := List.getElem?_eq_some_iff.mp found
    rw [length_calls] at within
    have reached : most ≤ policy.iter.attempts + draws.length := by rwa [start, Nat.zero_add]
    have kept : policy.iter.held.policy.retries = most := limited
    have rest := countP_drop_calls kept possible reached within.le
    rwa [start, Nat.zero_add] at rest

/-- Growing pauses with a limit of two. -/
def sampleGrowing : RetryPolicy :=
  .exponential (.ofMillis 20) (.ofInt 3) (some ⟨2, by decide⟩) (some (.ofMillis 50))

theorem yields_as_many_as_told_twice :
    (∀ call ∈ sampleGrowing.iter.calls [.shortest, .middle, .middle, .shortest],
      call.step ≠ .impossible) ∧
    sampleGrowing.retries = (2 : Nat) ∧
    ∀ (index : Nat) (call : RetryCall),
      (sampleGrowing.iter.calls [.shortest, .middle, .middle, .shortest])[index]? = some call →
        (call.isItem = true ↔ (index : ℕ∞) < (2 : Nat)) ∧
        call.hint = (2 - index, some (2 - index)) := by
  have possible : ∀ call ∈ sampleGrowing.iter.calls [.shortest, .middle, .middle, .shortest],
      call.step ≠ .impossible := by decide +kernel
  have two : sampleGrowing.retries = (2 : Nat) := rfl
  refine ⟨possible, two, ?_⟩
  intro index call found
  obtain ⟨-, given, -, hints⟩ := (yields_as_many_as_told sampleGrowing _ possible).2.2 index call found
  rw [two] at given
  exact ⟨given, (hints 2 two).1⟩

/-- Of growing pauses that follow each other, the first is made from the initial interval and every
other one from a base that is no longer than the longest. So all of them are within the longest
interval if and only if the initial one is, or there are none. Fewer than 2^64 calls are meant. -/
theorem pauses_bounded_after_first (initial longest : Duration) (factor : Number.Single)
    (limit : Option Limit) (draws : List Draw)
    (given : ∀ call ∈ (exponential initial factor limit (some longest)).iter.calls draws,
      call.isItem = true) :
    (∀ (index : Nat) (call : RetryCall),
      ((exponential initial factor limit (some longest)).iter.calls draws)[index]? = some call →
        ∃ base, call.last = some base ∧ (index = 0 → base = initial) ∧
          (0 < index → base.nanos ≤ longest.nanos)) ∧
    ((∀ call ∈ (exponential initial factor limit (some longest)).iter.calls draws,
        ∃ base, call.last = some base ∧ base.nanos ≤ longest.nanos) ↔
      draws = [] ∨ initial.nanos ≤ longest.nanos) := by
  have bases : ∀ (index : Nat) (call : RetryCall),
      ((exponential initial factor limit (some longest)).iter.calls draws)[index]? = some call →
        ∃ base, call.last = some base ∧ (index = 0 → base = initial) ∧
          (0 < index → base.nanos ≤ longest.nanos) := by
    intro index call found
    obtain ⟨base, shown, first, later⟩ := bases_calls rfl given found
    exact ⟨base, shown, first rfl, fun behind => later fun _ => behind⟩
  refine ⟨bases, ?_⟩
  constructor
  · intro bounded
    cases draws with
    | nil => exact .inl rfl
    | cons draw rest =>
        right
        obtain ⟨base, shown, first, -⟩ := bases 0 _ rfl
        obtain ⟨same, within, short⟩ := bounded _ List.mem_cons_self
        rw [shown] at within
        cases within
        rwa [first rfl] at short
  · rintro (rfl | short) call member
    · cases member
    · obtain ⟨index, found⟩ := List.getElem?_of_mem member
      obtain ⟨base, shown, first, later⟩ := bases index call found
      refine ⟨base, shown, ?_⟩
      rcases Nat.eq_zero_or_pos index with start | behind
      · rwa [first start]
      · exact later behind

theorem pauses_bounded_after_first_cut :
    (∀ call ∈ sampleGrowing.iter.calls [.middle, .shortest], call.isItem = true) ∧
    ∀ call ∈ sampleGrowing.iter.calls [.middle, .shortest],
      ∃ base, call.last = some base ∧ base.nanos ≤ (Duration.ofMillis 50).nanos := by
  have given : ∀ call ∈ sampleGrowing.iter.calls [.middle, .shortest], call.isItem = true := by
    decide +kernel
  exact ⟨given, (pauses_bounded_after_first _ _ _ _ _ given).2.mpr (.inr (by decide))⟩

/-- The first pause is made from the initial interval, even if that is longer than the longest. -/
theorem first_pause_uncut :
    ¬ ∀ (initial longest : Duration) (factor : Number.Single) (limit : Option Limit)
      (draws : List Draw),
      (∀ call ∈ (exponential initial factor limit (some longest)).iter.calls draws,
        call.isItem = true) →
      ∀ call ∈ (exponential initial factor limit (some longest)).iter.calls draws,
        ∃ base, call.last = some base ∧ base.nanos ≤ longest.nanos := by
  intro bounded
  have given : ∀ call ∈ (exponential (.ofMillis 2000) (.ofInt 2) (some ⟨3, by decide⟩)
      (some (.ofMillis 1000))).iter.calls [.shortest], call.isItem = true := by decide +kernel
  have held : some (Duration.ofMillis 2000) ∈ ((exponential (.ofMillis 2000) (.ofInt 2)
      (some ⟨3, by decide⟩) (some (.ofMillis 1000))).iter.calls [.shortest]).map RetryCall.last := by
    decide +kernel
  obtain ⟨call, member, last⟩ := List.mem_map.mp held
  obtain ⟨base, shown, short⟩ := bounded _ _ _ _ _ given call member
  rw [last] at shown
  cases shown
  exact absurd short (by decide)

end RetryPolicy

end ClaimStore
