import ClaimStore.Proofs.Retry.Pauses
import ClaimStore.Retry.Loop
import Mathlib.Data.ENat.Lattice
import Mathlib.Data.Nat.Count

/-!
How often an operation is repeated.

The last call is the first one with an outcome that is not worth a retry, or the one for which the
policy allows no retry any more, whichever comes first. If the pauses can be computed, the loop makes
the calls up to that one and no others, judges each error among their outcomes once, and ends with the
outcome of the last call. Retries are counted by natural numbers, and fewer than 2^64 of them are meant:
each pause takes some milliseconds, so no run comes to as many as a 64-bit word can count.
-/
namespace ClaimStore

/-- Whether an outcome is an error that is worth a retry. -/
def meritsRetry {α ε : Type} (retryable : ε → Bool) : Except ε α → Bool
  | .ok _ => false
  | .error error => retryable error

namespace RetryPolicy

variable {α ε : Type}

/-- How many retries a policy allows. -/
def retries : RetryPolicy → ℕ∞
  | .none => 0
  | .fixedDelay _ limit | .exponential _ _ limit _ => limit.elim ⊤ fun most => most.toNat

/-- The number of the last call, counted from zero, if there is one: of the first outcome that is not
worth a retry, or of the call after as many retries as are allowed. -/
noncomputable def lastCall (policy : RetryPolicy) (retryable : ε → Bool)
    (operation : Nat → Except ε α) : ℕ∞ :=
  min policy.retries
    (⨅ (call : Nat) (_ : meritsRetry retryable (operation call) = false), (call : ℕ∞))

/-- What makes a call the last one. -/
structure EndsAt (policy : RetryPolicy) (retryable : ε → Bool) (operation : Nat → Except ε α)
    (last : Nat) : Prop where
  earlier : ∀ call < last, meritsRetry retryable (operation call) = true
  allowed : (last : ℕ∞) ≤ policy.retries
  final : meritsRetry retryable (operation last) = true → policy.retries = last

variable {policy : RetryPolicy} {retryable : ε → Bool} {operation : Nat → Except ε α} {last : Nat}

theorem EndsAt.lastCall_eq (ends : policy.EndsAt retryable operation last) :
    policy.lastCall retryable operation = last := by
  apply le_antisymm
  · cases worth : meritsRetry retryable (operation last) with
    | false => exact (min_le_right _ _).trans (iInf₂_le last worth)
    | true => exact (min_le_left _ _).trans (ends.final worth).le
  · apply le_min ends.allowed
    apply le_iInf₂
    intro call settled
    have late : ¬ call < last := by
      intro early
      rw [ends.earlier call early] at settled
      cases settled
    exact_mod_cast Nat.le_of_not_lt late

theorem meritsRetry_of_lt_lastCall {call : Nat}
    (early : (call : ℕ∞) < policy.lastCall retryable operation) :
    meritsRetry retryable (operation call) = true := by
  rw [← Bool.not_eq_false]
  intro settled
  exact absurd ((min_le_right _ _).trans (iInf₂_le call settled)) early.not_ge

theorem endsAt_of_lastCall (reached : policy.lastCall retryable operation = last) :
    policy.EndsAt retryable operation last := by
  have earlier : ∀ call < last, meritsRetry retryable (operation call) = true :=
    fun call early => meritsRetry_of_lt_lastCall (reached ▸ Nat.cast_lt.mpr early)
  have allowed : (last : ℕ∞) ≤ policy.retries := reached ▸ min_le_left _ _
  refine ⟨earlier, allowed, fun worth => le_antisymm (not_lt.mp ?_) allowed⟩
  -- with one more retry allowed, the next call would be made too
  intro more
  have beyond : ((last + 1 : Nat) : ℕ∞) ≤ policy.lastCall retryable operation := by
    apply le_min (by exact_mod_cast Order.add_one_le_of_lt more)
    apply le_iInf₂
    intro call settled
    have late : ¬ call ≤ last := by
      intro early
      have again : meritsRetry retryable (operation call) = true := by
        rcases Nat.eq_or_lt_of_le early with rfl | before
        · exact worth
        · exact earlier call before
      rw [settled] at again
      cases again
    exact_mod_cast Nat.lt_of_not_le late
  rw [reached] at beyond
  exact absurd (Nat.cast_le.mp beyond) (Nat.not_succ_le_self last)

theorem lastCall_eq_top_iff :
    policy.lastCall retryable operation = ⊤ ↔
      policy.retries = ⊤ ∧ ∀ call, meritsRetry retryable (operation call) = true := by
  simp [lastCall, iInf_eq_top]

end RetryPolicy

namespace RetryCursor

variable {cursor : RetryCursor}

/-- Every pause can be computed, whatever is drawn. -/
def Possible (cursor : RetryCursor) : Prop :=
  ∀ (draws : List Draw) (draw : Draw), ((cursor.after draws).next draw).1 ≠ .impossible

theorem Possible.next (possible : cursor.Possible) (draw : Draw) : (cursor.next draw).2.Possible :=
  fun draws => possible (draw :: draws)

theorem policy_moveTo (cursor : RetryCursor) (base : Duration) :
    (cursor.moveTo base).policy = cursor.policy := by
  unfold moveTo
  split <;> rfl

theorem attempts_moveTo (cursor : RetryCursor) (base : Duration) :
    (cursor.moveTo base).attempts = cursor.attempts := by
  unfold moveTo
  split <;> rfl

/-- Whatever becomes of a pause, it is counted. -/
theorem next_counts (draw : Draw) (cursor : RetryCursor) :
    (cursor.next draw).2.policy = cursor.policy ∧
      (cursor.next draw).2.attempts = cursor.attempts + 1 := by
  unfold RetryCursor.next
  dsimp only
  split
  · split
    · exact ⟨rfl, rfl⟩
    · split
      · exact ⟨policy_moveTo _ _, attempts_moveTo _ _⟩
      · exact ⟨policy_moveTo _ _, attempts_moveTo _ _⟩
  · exact ⟨rfl, rfl⟩

/-- One more retry is within the limit if fewer than allowed have been counted. -/
theorem isWithinLimit_count (cursor : RetryCursor) :
    isWithinLimit { cursor with attempts := cursor.attempts + 1 } = true ↔
      (cursor.attempts : ℕ∞) < cursor.policy.retries := by
  obtain ⟨policy, attempts, last⟩ := cursor
  cases policy with
  | none => simp [isWithinLimit, RetryPolicy.retries]
  | fixedDelay interval limit | exponential initial factor limit longest =>
      cases limit with
      | none => simp [isWithinLimit, RetryPolicy.retries, RetryPolicy.limit]
      | some most => simp [isWithinLimit, RetryPolicy.retries, RetryPolicy.limit, Order.add_one_le_iff]

theorem next_exhausted_iff (draw : Draw) (cursor : RetryCursor) :
    (cursor.next draw).1 = .exhausted ↔ cursor.policy.retries ≤ cursor.attempts := by
  rw [← not_lt, ← isWithinLimit_count]
  unfold RetryCursor.next
  dsimp only
  split
  · rename_i within
    split
    · simp [within]
    · split <;> simp [within]
  · rename_i beyond
    simp [beyond]

/-- What can follow a call that has failed. -/
inductive Recovers (draw : Draw) (cursor : RetryCursor) (worth : Bool) : Recovery → Prop
  | giveUp (final : worth = true → cursor.policy.retries ≤ cursor.attempts) :
      Recovers draw cursor worth .giveUp
  | retry (length : Duration) (again : worth = true)
      (allowed : (cursor.attempts : ℕ∞) < cursor.policy.retries) :
      Recovers draw cursor worth (.retry (cursor.next draw).2 length)
  | impossible (again : worth = true) (failed : (cursor.next draw).1 = .impossible) :
      Recovers draw cursor worth .impossible

theorem recovers (draw : Draw) (cursor : RetryCursor) (worth : Bool) :
    cursor.Recovers draw worth (cursor.recover draw worth) := by
  cases worth with
  | false => exact .giveUp nofun
  | true =>
      have exhausted := next_exhausted_iff draw cursor
      unfold recover
      rw [if_pos rfl]
      cases stepped : cursor.next draw with
      | mk step next =>
          rw [stepped] at exhausted
          cases step with
          | exhausted => exact .giveUp fun _ => exhausted.mp rfl
          | pause base length =>
              have allowed : ¬ cursor.policy.retries ≤ cursor.attempts :=
                fun none => nomatch exhausted.mpr none
              have moved : cursor.Recovers draw true (.retry (cursor.next draw).2 length) :=
                .retry length rfl (not_le.mp allowed)
              rwa [stepped] at moved
          | impossible => exact .impossible rfl (by rw [stepped])

/-- Where a cursor stands after so many calls that failed. -/
structure Stands (policy : RetryPolicy) (calls : Nat) (cursor : RetryCursor) : Prop where
  own : cursor.policy = policy
  counted : cursor.attempts = calls
  possible : cursor.Possible

section

variable {α ε : Type} {policy : RetryPolicy} {calls : Nat} {retryable : ε → Bool}
variable {operation : Nat → Except ε α} (draws : Nat → Draw)

theorem Stands.next (stands : cursor.Stands policy calls) (draw : Draw) :
    (cursor.next draw).2.Stands policy (calls + 1) := by
  obtain ⟨own, counted⟩ := cursor.next_counts draw
  exact ⟨own.trans stands.own, counted.trans (congrArg (· + 1) stands.counted),
    stands.possible.next draw⟩

/-- As long as the policy allows it, a call that merits a retry leads to the next one. -/
theorem Stands.runFrom_again (stands : cursor.Stands policy calls)
    (worth : meritsRetry retryable (operation calls) = true)
    (allowed : (calls : ℕ∞) < policy.retries) :
    ∃ next : RetryCursor, next.Stands policy (calls + 1) ∧ ∀ fuel checks,
      runFrom draws retryable operation (fuel + 1) cursor calls checks =
        runFrom draws retryable operation fuel next (calls + 1) (checks + 1) := by
  refine ⟨_, stands.next (draws calls), ?_⟩
  intro fuel checks
  cases outcome : operation calls with
  | ok value =>
      rw [outcome] at worth
      cases worth
  | error error =>
      rw [outcome] at worth
      have follows := cursor.recovers (draws calls) (retryable error)
      rw [runFrom, outcome]
      dsimp only
      generalize cursor.recover (draws calls) (retryable error) = recovery at follows ⊢
      cases follows with
      | giveUp final =>
          have used := final worth
          rw [stands.own, stands.counted] at used
          exact absurd allowed used.not_gt
      | retry length => rfl
      | impossible again failed => exact absurd failed (stands.possible [] (draws calls))

/-- A call is the last one if its outcome merits no retry, or none is allowed. -/
theorem Stands.runFrom_final (stands : cursor.Stands policy calls)
    (final : meritsRetry retryable (operation calls) = true → policy.retries ≤ calls)
    (fuel checks : Nat) :
    runFrom draws retryable operation (fuel + 1) cursor calls checks =
      some ⟨calls + 1, checks + (if (operation calls).isOk = false then 1 else 0),
        some (operation calls)⟩ := by
  rw [runFrom]
  cases outcome : operation calls with
  | ok value => rfl
  | error error =>
      rw [outcome] at final
      have follows := cursor.recovers (draws calls) (retryable error)
      dsimp only
      generalize cursor.recover (draws calls) (retryable error) = recovery at follows ⊢
      cases follows with
      | giveUp => rfl
      | retry length again allowed =>
          rw [stands.own, stands.counted] at allowed
          exact absurd allowed (final again).not_gt
      | impossible again failed => exact absurd failed (stands.possible [] (draws calls))

/-- Calls that all merit a retry are made one after the other, as far as the policy allows them. -/
theorem runFrom_reaches (possible : (start policy).Possible) (calls : Nat)
    (worth : ∀ call < calls, meritsRetry retryable (operation call) = true)
    (allowed : (calls : ℕ∞) ≤ policy.retries) :
    ∃ cursor : RetryCursor, cursor.Stands policy calls ∧ ∀ fuel,
      runFrom draws retryable operation (calls + fuel) (start policy) 0 0 =
        runFrom draws retryable operation fuel cursor calls calls := by
  induction calls with
  | zero => exact ⟨start policy, ⟨rfl, rfl, possible⟩, fun fuel => by rw [Nat.zero_add]⟩
  | succ calls ih =>
      have more : (calls : ℕ∞) < policy.retries :=
        lt_of_lt_of_le (Nat.cast_lt.mpr (Nat.lt_succ_self calls)) allowed
      obtain ⟨cursor, stands, before⟩ :=
        ih (fun call early => worth call (Nat.lt_succ_of_lt early)) more.le
      obtain ⟨next, onward, after⟩ :=
        stands.runFrom_again draws (worth calls (Nat.lt_succ_self calls)) more
      refine ⟨next, onward, ?_⟩
      intro fuel
      rw [← after, ← before, Nat.add_right_comm, Nat.add_assoc]

end

end RetryCursor

namespace RetryPolicy

variable {α ε : Type} {policy : RetryPolicy} {retryable : ε → Bool}
variable {operation : Nat → Except ε α} {last : Nat} (draws : Nat → Draw)

/-- Every pause of the policy can be computed, whatever is drawn and however often. -/
def Possible (policy : RetryPolicy) : Prop := (RetryCursor.start policy).Possible

theorem possible_of_roomy (sound : policy.Sound) (roomy : policy.Roomy) : policy.Possible := by
  intro draws draw
  have onTrack := (RetryCursor.onTrack_start policy).after sound roomy draws
  exact (onTrack.next sound roomy draw).1

/-- How many of the first calls fail. -/
def failures (operation : Nat → Except ε α) (calls : Nat) : Nat :=
  Nat.count (fun call => (operation call).isOk = false) calls

theorem failures_eq {calls : Nat}
    (worth : ∀ call < calls, meritsRetry retryable (operation call) = true) :
    failures operation calls = calls := by
  rw [failures, Nat.count_iff_forall]
  intro call early
  have error := worth call early
  cases outcome : operation call with
  | ok value =>
      rw [outcome] at error
      cases error
  | error error => rfl

theorem retryDrawing_eq (possible : policy.Possible) (ends : policy.EndsAt retryable operation last)
    (fuel : Nat) :
    policy.retryDrawing draws retryable operation fuel =
      if last < fuel then
        some ⟨last + 1, failures operation (last + 1), some (operation last)⟩
      else Option.none := by
  split
  · rename_i enough
    obtain ⟨rest, rfl⟩ := Nat.exists_eq_add_of_lt enough
    obtain ⟨cursor, stands, reaches⟩ :=
      RetryCursor.runFrom_reaches draws possible last ends.earlier ends.allowed
    rw [retryDrawing, Nat.add_assoc, reaches,
      stands.runFrom_final draws fun worth => (ends.final worth).le]
    rw [failures, Nat.count_succ, ← failures, failures_eq ends.earlier]
  · rename_i short
    have within : fuel ≤ last := Nat.le_of_not_lt short
    obtain ⟨cursor, -, reaches⟩ :=
      RetryCursor.runFrom_reaches draws possible fuel
        (fun call early => ends.earlier call (early.trans_le within))
        ((Nat.cast_le.mpr within).trans ends.allowed)
    exact reaches 0

theorem retryDrawing_endless_iff (possible : policy.Possible) :
    (∀ fuel, policy.retryDrawing draws retryable operation fuel = Option.none) ↔
      policy.retries = ⊤ ∧ ∀ call, meritsRetry retryable (operation call) = true := by
  constructor
  · intro endless
    rw [← lastCall_eq_top_iff]
    by_contra limited
    obtain ⟨last, reached⟩ := ENat.ne_top_iff_exists.mp limited
    have ended := retryDrawing_eq draws possible (endsAt_of_lastCall reached.symm) (last + 1)
    rw [endless, if_pos (Nat.lt_succ_self last)] at ended
    cases ended
  · rintro ⟨unlimited, worth⟩ fuel
    obtain ⟨cursor, -, reaches⟩ :=
      RetryCursor.runFrom_reaches draws possible fuel (fun call _ => worth call)
        (unlimited ▸ le_top)
    exact reaches 0

end RetryPolicy

end ClaimStore
