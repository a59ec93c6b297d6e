import ClaimStore.Proofs.Number.Growth
import ClaimStore.Retry.Cursor

/-!
Scaled durations.

A duration that is scaled in double precision is hardly longer than the exact product. So scaling
gives a duration wherever the exact product leaves a little room.
-/
namespace ClaimStore

namespace Number.Single

/-- The number as a fraction, if it is finite. -/
def toRat? (number : Single) : Option ℚ :=
  match number.datum with
  | .finite negative significand exponent =>
      some ((if negative then -1 else 1) * significand * 2 ^ exponent)
  | _ => none

variable {number : Single} {value : ℚ}

theorem magnitude_lt {negative : Bool} {significand : Nat} {exponent : Int}
    (datum : number.datum = .finite negative significand exponent) :
    (significand * 2 ^ exponent : ℚ) < 2 ^ (128 : Int) := by
  obtain ⟨⟨-, narrow, -, small⟩, -⟩ := BinaryFormat.canonical_of_decode (by decide) datum
  have least : BinaryFormat.single.leastExponent = -149 := by decide
  have wide : twoTo BinaryFormat.single.exponentBits = 256 := by decide
  have bits : twoTo BinaryFormat.single.fractionBits = 8388608 := by decide
  rw [least, wide] at small
  rw [bits] at narrow
  have short : (significand : ℚ) < 2 ^ (24 : Int) := by
    norm_num
    exact_mod_cast narrow
  have power : (2 : ℚ) ^ exponent ≤ 2 ^ (104 : Int) :=
    zpow_le_zpow_right₀ one_le_two (by push_cast at small; omega)
  calc (significand : ℚ) * 2 ^ exponent ≤ significand * 2 ^ (104 : Int) :=
        mul_le_mul_of_nonneg_left power (Nat.cast_nonneg _)
    _ < 2 ^ (24 : Int) * 2 ^ (104 : Int) := mul_lt_mul_of_pos_right short (by positivity)
    _ = 2 ^ (128 : Int) := by norm_num

/-- A finite number that is not less than one has no sign. -/
theorem datum_of_toRat? (finite : number.toRat? = some value) (one : number.ltNat 1 = false) :
    1 ≤ value ∧ ∃ significand exponent, number.datum = .finite false significand exponent ∧
      (significand * 2 ^ exponent : ℚ) = value := by
  unfold toRat? at finite
  unfold ltNat at one
  cases datum : number.datum with
  | nan | infinite negative =>
      rw [datum] at finite
      cases finite
  | finite negative significand exponent =>
      rw [datum] at finite one
      cases finite
      cases negative with
      | true => simp at one
      | false =>
          have some : (0 : ℚ) < (Ratio.ofBinary significand exponent).denominator := by
            exact_mod_cast Ratio.denominator_ofBinary significand exponent
          simp only [Bool.false_eq_true, if_false, one_mul, decide_eq_false_iff_not,
            not_lt] at one ⊢
          refine ⟨?_, significand, exponent, rfl, rfl⟩
          rw [← Ratio.value_ofBinary, Ratio.value, le_div_iff₀ some, one_mul]
          exact_mod_cast one

/-- A number that is not less than one is widened without an error. -/
theorem atMost_toDouble (finite : number.toRat? = some value) (one : number.ltNat 1 = false) :
    number.toDouble.AtMost value ∧ 1 ≤ value ∧ value < 2 ^ (128 : Int) := by
  obtain ⟨positive, significand, exponent, datum, rfl⟩ := datum_of_toRat? finite one
  obtain ⟨stored, place, canonical, same, wide⟩ := datum_toDouble datum
  refine ⟨⟨stored, place, ?_, same.le⟩, positive, magnitude_lt datum⟩
  rw [wide]
  exact Double.datum_ofDatum_finite canonical false

end Number.Single

namespace Duration

open Number

/-- Nanoseconds, scaled by a factor, with room for what rounding may add. -/
def scaledAtMost (factor nanos : ℚ) : ℚ := nanos * factor * (1 + 2 ^ (-50 : Int)) + 1

/-- No duration is as long as this, in nanoseconds. -/
def room : ℚ := UInt64.size * nanosPerSecond

variable {number : Double} {bound : ℚ}

theorem ofDouble?_atMost (most : number.AtMost bound)
    (fits : bound * nanosPerSecond + 1 / 2 < room) :
    ∃ duration, ofDouble? number = some duration ∧
      (duration.nanos : ℚ) ≤ bound * nanosPerSecond + 1 / 2 := by
  obtain ⟨significand, exponent, datum, value⟩ := most
  have some := Ratio.denominator_ofBinary significand exponent
  have rounded := roundQuotient_le
    ((Ratio.ofBinary significand exponent).numerator * nanosPerSecond) some
  have product : ((Ratio.ofBinary significand exponent).numerator * nanosPerSecond : Nat) /
      ((Ratio.ofBinary significand exponent).denominator : ℚ) =
        significand * 2 ^ exponent * nanosPerSecond := by
    rw [← Ratio.value_ofBinary, Ratio.value]
    push_cast
    ring
  rw [product] at rounded
  have short : (roundQuotient ((Ratio.ofBinary significand exponent).numerator * nanosPerSecond)
      (Ratio.ofBinary significand exponent).denominator : ℚ) ≤ bound * nanosPerSecond + 1 / 2 :=
    rounded.trans (add_le_add_left (mul_le_mul_of_nonneg_right value (Nat.cast_nonneg _)) _)
  have bounded : roundQuotient ((Ratio.ofBinary significand exponent).numerator * nanosPerSecond)
      (Ratio.ofBinary significand exponent).denominator < UInt64.size * nanosPerSecond := by
    have := short.trans_lt fits
    unfold room at this
    exact_mod_cast this
  refine ⟨⟨_, bounded⟩, ?_, short⟩
  unfold ofDouble?
  rw [datum]
  simp [ofNanos?, bounded]

theorem nanos_eq (duration : Duration) :
    (duration.nanos : ℚ) = duration.seconds * nanosPerSecond + duration.subsecond := by
  have whole := Nat.div_add_mod duration.nanos nanosPerSecond
  rw [Nat.mul_comm] at whole
  exact_mod_cast whole.symm

theorem seconds_lt (duration : Duration) : (duration.seconds : ℚ) < 2 ^ (64 : Int) := by
  have below : duration.seconds < UInt64.size :=
    Nat.div_lt_of_lt_mul (Nat.mul_comm _ _ ▸ duration.bounded)
  have : (duration.seconds : ℚ) < (UInt64.size : Nat) := by exact_mod_cast below
  exact this.trans_eq (by norm_num [UInt64.size])

theorem subsecond_lt (duration : Duration) : (duration.subsecond : ℚ) < nanosPerSecond := by
  exact_mod_cast Nat.mod_lt duration.nanos (by decide : 0 < nanosPerSecond)

/-- A duration in seconds is rounded up to three times. -/
theorem atMost_toDouble (duration : Duration) :
    duration.toDouble.AtMost
      (duration.nanos / nanosPerSecond * (1 + 2 ^ (-51 : Int)) + 8 * 2 ^ (-1075 : Int)) := by
  have seconds : (0 : ℚ) ≤ duration.seconds := Nat.cast_nonneg _
  have subsecond : (0 : ℚ) ≤ duration.subsecond := Nat.cast_nonneg _
  have secondsHigh := duration.seconds_lt
  have subsecondHigh := duration.subsecond_lt
  have billion : (nanosPerSecond : ℚ) = 1000000000 := by norm_num [nanosPerSecond]
  have room : (2 : ℚ) ^ (64 : Int) * 100 < 2 ^ (200 : Int) := by norm_num
  have secondsRaised := raised_le seconds
  have subsecondRaised := raised_le subsecond
  have part : raised duration.subsecond / nanosPerSecond ≤ 3 := by
    rw [billion] at subsecondHigh ⊢
    linarith
  have partRaised := raised_le (div_nonneg (by unfold raised; positivity) (by positivity) :
    0 ≤ raised duration.subsecond / nanosPerSecond)
  have whole : (2 : ℚ) ^ (64 : Int) = 18446744073709551616 := by norm_num
  have first := Double.atMost_ofNat (le_refl (duration.seconds : ℚ)) (by linarith)
  have second := Double.atMost_ofNat (le_refl (duration.subsecond : ℚ)) (by linarith)
  have third := second.divNat (by decide : 0 < nanosPerSecond) (by linarith)
  refine (first.add third (by linarith)).mono ?_
  rw [duration.nanos_eq]
  unfold raised
  have positive : (0 : ℚ) < 2 ^ (-1075 : Int) := by positivity
  generalize (2 : ℚ) ^ (-1075 : Int) = least at positive
  generalize (duration.seconds : ℚ) = whole at *
  generalize (duration.subsecond : ℚ) = part at *
  rw [billion]
  norm_num
  linarith

/-- A duration can be scaled by a factor of single precision if the exact product leaves room. -/
theorem scale?_atMost (duration : Duration) {factor : Single} {value : ℚ}
    (widened : factor.toDouble.AtMost value) (small : value < 2 ^ (128 : Int))
    (fits : scaledAtMost value duration.nanos < room) :
    ∃ scaled, duration.scale? factor = some scaled ∧
      (scaled.nanos : ℚ) ≤ scaledAtMost value duration.nanos := by
  have billion : (nanosPerSecond : ℚ) = 1000000000 := by norm_num [nanosPerSecond]
  have least : (2 : ℚ) ^ (-1075 : Int) ≤ 2 ^ (-100 : Int) :=
    zpow_le_zpow_right₀ one_le_two (by decide)
  have product : value * 2 ^ (-1075 : Int) ≤ 2 ^ (-100 : Int) :=
    calc value * 2 ^ (-1075 : Int) ≤ 2 ^ (128 : Int) * 2 ^ (-1075 : Int) :=
          mul_le_mul_of_nonneg_right small.le (by positivity)
      _ = 2 ^ (-947 : Int) := by rw [← zpow_add₀ two_ne_zero]; rfl
      _ ≤ 2 ^ (-100 : Int) := zpow_le_zpow_right₀ one_le_two (by decide)
  have nonneg : 0 ≤ value * duration.nanos := mul_nonneg widened.nonneg (Nat.cast_nonneg _)
  have expanded : value * (duration.nanos / nanosPerSecond * (1 + 2 ^ (-51 : Int)) +
      8 * 2 ^ (-1075 : Int)) = value * duration.nanos / 1000000000 * (1 + 2 ^ (-51 : Int)) +
        8 * (value * 2 ^ (-1075 : Int)) := by
    rw [billion]
    ring
  have exact : duration.nanos * value = value * duration.nanos := mul_comm _ _
  have short : raised (value * (duration.nanos / nanosPerSecond * (1 + 2 ^ (-51 : Int)) +
      8 * 2 ^ (-1075 : Int))) * nanosPerSecond + 1 / 2 ≤ scaledAtMost value duration.nanos := by
    unfold raised scaledAtMost
    rw [expanded, billion, exact]
    generalize value * 2 ^ (-1075 : Int) = rest at *
    generalize (2 : ℚ) ^ (-1075 : Int) = least at *
    generalize value * duration.nanos = length at *
    norm_num at *
    linarith
  have limited : value * (duration.nanos / nanosPerSecond * (1 + 2 ^ (-51 : Int)) +
      8 * 2 ^ (-1075 : Int)) < 2 ^ (200 : Int) := by
    unfold scaledAtMost room at fits
    rw [exact, billion, UInt64.size] at fits
    rw [expanded]
    generalize value * 2 ^ (-1075 : Int) = rest at *
    generalize value * duration.nanos = length at *
    norm_num at *
    linarith
  obtain ⟨scaled, done, below⟩ :=
    ofDouble?_atMost (widened.mul duration.atMost_toDouble limited) (short.trans_lt fits)
  exact ⟨scaled, done, below.trans short⟩

/-- The base, and as much jitter as may be added to it. -/
def jitteredAtMost (nanos : ℚ) : ℚ := nanos * (13 / 10 + 2 ^ (-24 : Int)) + JitterRange.least

end Duration

theorem RetryCursor.jitterFraction_atMost :
    RetryCursor.jitterFraction.toDouble.AtMost (3 / 10 + 2 ^ (-26 : Int)) := by
  refine ⟨5404319767592960, -54, by decide +kernel, ?_⟩
  norm_num

theorem JitterRange.high_of_scale? {base longest : Duration} {fraction : Number.Single}
    (scaled : base.scale? fraction = some longest) :
    ∃ range, ofBase? base fraction = some range ∧
      (range.high = longest.nanos ∨ range.high = least + 1) := by
  refine ⟨_, by rw [ofBase?, scaled]; rfl, ?_⟩
  dsimp only
  split
  · exact .inl rfl
  · exact .inr rfl

/-- A pause has a length if the base with jitter leaves room. -/
theorem Duration.withJitter?_isSome (draw : Draw) (base : Duration)
    (fits : jitteredAtMost base.nanos < room) :
    (base.withJitter? draw RetryCursor.jitterFraction).isSome = true := by
  have length : (0 : ℚ) ≤ base.nanos := Nat.cast_nonneg _
  have least : (JitterRange.least : ℚ) = 3000000 := by norm_num [JitterRange.least, nanosPerMilli]
  unfold jitteredAtMost room at fits
  obtain ⟨longest, scaled, below⟩ := base.scale?_atMost RetryCursor.jitterFraction_atMost
    (by norm_num) (by
      unfold scaledAtMost room
      rw [least] at fits
      norm_num at fits ⊢
      linarith)
  obtain ⟨range, found, high⟩ := JitterRange.high_of_scale? scaled
  have drawn := (draw.within range).2
  have bounded : (base.nanos + draw.length range : ℚ) < UInt64.size * nanosPerSecond := by
    refine lt_of_le_of_lt (add_le_add_right (?_ : (draw.length range : ℚ) ≤
      base.nanos * (3 / 10 + 2 ^ (-24 : Int)) + JitterRange.least) _) (lt_of_eq_of_lt ?_ fits)
    · rcases high with top | top <;> rw [top] at drawn
      · have drawn : (draw.length range + 1 : ℚ) ≤ longest.nanos := by exact_mod_cast drawn
        unfold scaledAtMost at below
        rw [least]
        norm_num at below ⊢
        linarith
      · have drawn : (draw.length range : ℚ) ≤ JitterRange.least := by
          exact_mod_cast Nat.le_of_lt_succ drawn
        have more : 0 ≤ (base.nanos : ℚ) * (3 / 10 + 2 ^ (-24 : Int)) := by positivity
        linarith
    · ring
  have bounded : base.nanos + draw.length range < UInt64.size * nanosPerSecond := by
    exact_mod_cast bounded
  simp [withJitter?, found, ofNanos?, bounded]

end ClaimStore
