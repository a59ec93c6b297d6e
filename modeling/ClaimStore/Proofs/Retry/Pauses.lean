import ClaimStore.Config.Options
import ClaimStore.Proofs.Time.Scaling

/-!
The pauses of a retry policy.

A pause can be computed wherever the exact product and the exact sum with jitter leave a little room
below the longest duration, however often and with whatever draws the policy is asked. Without the
rounding the bases of growing pauses can be told in advance.
-/
namespace ClaimStore

namespace Duration

theorem scaledAtMost_mono {factor nanos more : ℚ} (positive : 0 ≤ factor) (below : nanos ≤ more) :
    scaledAtMost factor nanos ≤ scaledAtMost factor more := by
  unfold scaledAtMost
  gcongr

theorem jitteredAtMost_mono {nanos more : ℚ} (below : nanos ≤ more) :
    jitteredAtMost nanos ≤ jitteredAtMost more := by
  unfold jitteredAtMost
  gcongr

theorem nanos_min (left right : Duration) :
    ((left.min right).nanos : ℚ) = Min.min (left.nanos : ℚ) right.nanos := by
  unfold Duration.min
  split
  · rename_i less
    exact (min_eq_right (by exact_mod_cast less.le)).symm
  · rename_i more
    exact (min_eq_left (by exact_mod_cast Nat.le_of_not_lt more)).symm

end Duration

namespace RetryPolicy

open Duration

/-- Whether the limit, if there is one, allows that many retries. -/
def Allows (limit : Option Limit) (count : Nat) : Prop :=
  ∀ most, limit = some most → count ≤ most.toNat

/-- The base of the growing pause that comes after `count` others, as long as each can be computed
from the one before. -/
def base? (initial : Duration) (factor : Number.Single) (longest : Option Duration) :
    (count : Nat) → Option Duration
  | 0 => some initial
  | count + 1 =>
      (base? initial factor longest count).bind fun base =>
        (base.scale? factor).map fun next => next.min (longest.getD .longest)

/-- A factor is finite, and its product with a base leaves room. -/
def Scales (factor : Number.Single) (base : Duration) : Prop :=
  ∃ value, factor.toRat? = some value ∧ scaledAtMost value base.nanos < room

/-- Every pause leaves room for its jitter. If there may be another one after it, the product of
which the next base is made leaves room too, before it is cut. -/
def Roomy : RetryPolicy → Prop
  | .none => True
  | .fixedDelay interval _ => jitteredAtMost interval.nanos < room
  | .exponential initial factor limit longest =>
      ∀ count base, base? initial factor longest count = some base → Allows limit (count + 1) →
        jitteredAtMost base.nanos < room ∧ (Allows limit (count + 2) → Scales factor base)

/-- A policy whose pauses do not shrink. -/
def Sound : RetryPolicy → Prop
  | .exponential _ factor _ _ => factor.ltNat 1 = false
  | .none | .fixedDelay _ _ => True

/-- A bound of the base of a growing pause that comes after `count` others, in nanoseconds. -/
def reach (initial : Duration) (factor : ℚ) (longest : Option Duration) : (count : Nat) → ℚ
  | 0 => initial.nanos
  | count + 1 =>
      min (scaledAtMost factor (reach initial factor longest count))
        (longest.getD .longest).nanos

section

variable {initial base longest : Duration} {factor : Number.Single} {limit : Option Limit}
variable {longest? : Option Duration} {value top : ℚ}

theorem base?_le_reach (finite : factor.toRat? = some value) (sound : factor.ltNat 1 = false)
    {count : Nat}
    (fits : ∀ earlier < count, scaledAtMost value (reach initial value longest? earlier) < room)
    (found : base? initial factor longest? count = some base) :
    (base.nanos : ℚ) ≤ reach initial value longest? count := by
  obtain ⟨widened, positive, small⟩ := Number.Single.atMost_toDouble finite sound
  induction count generalizing base with
  | zero =>
      cases found
      exact le_rfl
  | succ count ih =>
      obtain ⟨last, early, next⟩ := Option.bind_eq_some_iff.mp found
      have below := ih (fun earlier less => fits earlier (Nat.lt_succ_of_lt less)) early
      have grown := scaledAtMost_mono (zero_le_one.trans positive) below
      obtain ⟨scaled, done, short⟩ := last.scale?_atMost widened small
        (grown.trans_lt (fits count (Nat.lt_succ_self count)))
      rw [done] at next
      cases next
      rw [nanos_min]
      exact min_le_min (short.trans grown) le_rfl

/-- It is enough that the bounds of the bases leave room. -/
theorem roomy_of_reach (finite : factor.toRat? = some value) (sound : factor.ltNat 1 = false)
    (fits : ∀ count, Allows limit (count + 1) →
      jitteredAtMost (reach initial value longest? count) < room ∧
        (Allows limit (count + 2) →
          scaledAtMost value (reach initial value longest? count) < room)) :
    Roomy (.exponential initial factor limit longest?) := by
  intro count base found allowed
  obtain ⟨-, positive, -⟩ := Number.Single.atMost_toDouble finite sound
  have fewer : ∀ {less}, less ≤ count + 1 → Allows limit less :=
    fun below most limited => below.trans (allowed most limited)
  have below := base?_le_reach finite sound
    (fun earlier less => (fits earlier (fewer (by omega))).2 (fewer (by omega))) found
  obtain ⟨jittered, scaled⟩ := fits count allowed
  refine ⟨(jitteredAtMost_mono below).trans_lt jittered, fun more => ⟨value, finite, ?_⟩⟩
  exact (scaledAtMost_mono (zero_le_one.trans positive) below).trans_lt (scaled more)

/-- With a longest pause it is enough that this one and the first one leave room, however many
retries there are. -/
theorem roomy_of_longest (limit : Option Limit) (finite : factor.toRat? = some value)
    (sound : factor.ltNat 1 = false) (first : initial.nanos ≤ top) (last : longest.nanos ≤ top)
    (jittered : jitteredAtMost top < room) (scaled : scaledAtMost value top < room) :
    Roomy (.exponential initial factor limit (some longest)) := by
  obtain ⟨-, positive, -⟩ := Number.Single.atMost_toDouble finite sound
  apply roomy_of_reach finite sound
  intro count _
  have below : reach initial value (some longest) count ≤ top := by
    cases count with
    | zero => exact first
    | succ count => exact (min_le_right _ _).trans last
  exact ⟨(jitteredAtMost_mono below).trans_lt jittered,
    fun _ => (scaledAtMost_mono (zero_le_one.trans positive) below).trans_lt scaled⟩

end

end RetryPolicy

theorem Options.sound_of_fault? {options : Options} (accepted : options.fault? = none) :
    options.loadPolicy.Sound := by
  unfold fault? at accepted
  split at accepted
  · cases accepted
  · cases policy : options.loadPolicy with
    | none | fixedDelay interval limit => trivial
    | exponential initial factor limit longest =>
        rw [policy] at accepted
        simpa [RetryPolicy.Sound] using accepted

namespace RetryCursor

open Duration RetryPolicy

/-- A cursor that has been moved by nothing but its policy. -/
structure OnTrack (policy : RetryPolicy) (cursor : RetryCursor) : Prop where
  own : cursor.policy = policy
  reached : ∀ {initial factor limit longest last},
    policy = .exponential initial factor limit longest → cursor.last = some last →
      ∃ count < cursor.attempts, RetryPolicy.base? initial factor longest count = some last

variable {policy : RetryPolicy} {cursor : RetryCursor}

theorem onTrack_start (policy : RetryPolicy) : OnTrack policy (start policy) :=
  ⟨rfl, fun _ held => nomatch held⟩

theorem OnTrack.count (onTrack : OnTrack policy cursor) :
    OnTrack policy { cursor with attempts := cursor.attempts + 1 } := by
  refine ⟨onTrack.own, ?_⟩
  intro initial factor limit longest last growing held
  obtain ⟨count, early, reached⟩ := onTrack.reached growing held
  exact ⟨count, Nat.lt_succ_of_lt early, reached⟩

/-- A growing pause has a base if the product of the last base leaves room. -/
theorem OnTrack.exists_base {initial : Duration} {factor : Number.Single} {limit : Option Limit}
    {longest : Option Duration}
    (onTrack : OnTrack (.exponential initial factor limit longest) cursor) (one : factor.ltNat 1 = false)
    (scales : ∀ count last, RetryPolicy.base? initial factor longest count = some last →
      count < cursor.attempts → Scales factor last) :
    ∃ base, cursor.base? = some base ∧
      ∃ count ≤ cursor.attempts, RetryPolicy.base? initial factor longest count = some base := by
  cases held : cursor.last with
  | none =>
      refine ⟨initial, ?_, 0, Nat.zero_le _, rfl⟩
      simp [base?, onTrack.own, held]
  | some last =>
      obtain ⟨count, early, reached⟩ := onTrack.reached rfl held
      obtain ⟨value, finite, fits⟩ := scales count last reached early
      obtain ⟨widened, -, small⟩ := Number.Single.atMost_toDouble finite one
      obtain ⟨scaled, done, -⟩ := last.scale?_atMost widened small fits
      refine ⟨scaled.min (longest.getD .longest), ?_, count + 1, early, ?_⟩
      · simp [base?, onTrack.own, held, done]
      · simp [RetryPolicy.base?, reached, done]

theorem allows_of_isWithinLimit (within : cursor.isWithinLimit = true) :
    Allows cursor.policy.limit cursor.attempts := by
  intro most limited
  unfold isWithinLimit at within
  rw [limited, Bool.and_eq_true] at within
  exact of_decide_eq_true within.2

/-- A cursor within its limit finds a base that leaves room for the jitter. -/
theorem OnTrack.moves (onTrack : OnTrack policy cursor) (sound : policy.Sound)
    (roomy : policy.Roomy)
    (within : isWithinLimit { cursor with attempts := cursor.attempts + 1 } = true) :
    ∃ base, cursor.base? = some base ∧ jitteredAtMost base.nanos < room ∧
      OnTrack policy (moveTo { cursor with attempts := cursor.attempts + 1 } base) := by
  have allowed := allows_of_isWithinLimit within
  have own := onTrack.own
  simp only [own] at allowed
  cases policy with
  | none => simp [isWithinLimit, own] at within
  | fixedDelay interval limit =>
      refine ⟨interval, by simp [base?, own], roomy, ?_⟩
      simp only [moveTo, own]
      exact ⟨rfl, nofun⟩
  | exponential initial factor limit longest =>
      have early : ∀ {count}, count ≤ cursor.attempts + 1 → Allows limit count :=
        fun less most limited => less.trans (allowed most limited)
      obtain ⟨base, found, count, before, reached⟩ := onTrack.exists_base sound
        fun count last known less =>
          (roomy count last known (early (by omega))).2 (early (by omega))
      refine ⟨base, found, (roomy count base reached (early (by omega))).1, ?_⟩
      simp only [moveTo, own]
      refine ⟨rfl, ?_⟩
      intro _ _ _ _ last same held
      cases same
      cases held
      exact ⟨count, Nat.lt_succ_of_le before, reached⟩

/-- A cursor on its track can compute every pause, and stays there. -/
theorem OnTrack.next (onTrack : OnTrack policy cursor) (sound : policy.Sound)
    (roomy : policy.Roomy) (draw : Draw) :
    (cursor.next draw).1 ≠ .impossible ∧ OnTrack policy (cursor.next draw).2 := by
  unfold RetryCursor.next
  dsimp only
  cases within : isWithinLimit { cursor with attempts := cursor.attempts + 1 } with
  | false => exact ⟨nofun, onTrack.count⟩
  | true =>
      obtain ⟨base, found, short, onward⟩ := onTrack.moves sound roomy within
      obtain ⟨length, jittered⟩ :=
        Option.isSome_iff_exists.mp (base.withJitter?_isSome draw short)
      have counted : base? { cursor with attempts := cursor.attempts + 1 } = some base := found
      simp only [if_true, counted, jittered]
      exact ⟨nofun, onward⟩

/-- The cursor after it has been asked for a pause with each of these draws. -/
def after (draws : List Draw) (cursor : RetryCursor) : RetryCursor :=
  draws.foldl (fun cursor draw => (cursor.next draw).2) cursor

theorem OnTrack.after (onTrack : OnTrack policy cursor) (sound : policy.Sound)
    (roomy : policy.Roomy) (draws : List Draw) : OnTrack policy (cursor.after draws) := by
  induction draws generalizing cursor with
  | nil => exact onTrack
  | cons draw rest ih => exact ih (onTrack.next sound roomy draw).2

end RetryCursor

end ClaimStore
