import Chronos.Retry
import Mathlib.Tactic.Linarith
import Mathlib.Tactic.NormNum

/-!
# Delays under every strategy

The three strategies of `calculateDelay` cap a raw delay.  The raw delays never
shrink from one attempt to the next, since the jitter of one draw stays below
what one more doubling adds, and the cap keeps that order.
-/

namespace Chronos

/-- The extra milliseconds of one draw under the exponential strategy. -/
def jitterOf (baseDelayMs : Int) (random : Draw) : Int :=
  ⌊random.value * baseDelayMs * (1 / 10)⌋

/-- What `calculateDelay` caps. -/
def rawDelay (strategy : RetryStrategy) (baseDelayMs : Int)
    (attemptCount : Nat) (random : Draw) : Int :=
  match strategy with
  | .fixed => baseDelayMs
  | .linear => baseDelayMs * attemptCount
  | .exponential => baseDelayMs * 2 ^ attemptCount + jitterOf baseDelayMs random

theorem calculateDelay_eq (strategy : RetryStrategy)
    (baseDelayMs maxDelayMs : Int) (attemptCount : Nat) (random : Draw) :
    calculateDelay strategy baseDelayMs maxDelayMs attemptCount random =
      min (rawDelay strategy baseDelayMs attemptCount random) maxDelayMs := by
  cases strategy <;> rfl

/-! ## The jitter -/

section Jitter

variable {base : Int} (nonneg : 0 ≤ base) (random : Draw)

include nonneg

theorem jitterOf_nonneg : 0 ≤ jitterOf base random := by
  apply Int.floor_nonneg.mpr
  have value := random.nonneg
  have cast : (0 : Rat) ≤ base := by exact_mod_cast nonneg
  positivity

theorem jitterOf_le_tenth : (jitterOf base random : Rat) ≤ base / 10 := by
  have cast : (0 : Rat) ≤ base := by exact_mod_cast nonneg
  calc (jitterOf base random : Rat)
      ≤ random.value * base * (1 / 10) := Int.floor_le _
    _ ≤ 1 * base * (1 / 10) := by
        have less := random.lt_one.le
        gcongr
    _ = base / 10 := by ring

theorem jitterOf_le : jitterOf base random ≤ base := by
  have tenth := jitterOf_le_tenth nonneg random
  have cast : (0 : Rat) ≤ base := by exact_mod_cast nonneg
  have whole : (jitterOf base random : Rat) ≤ base := by linarith
  exact_mod_cast whole

end Jitter

/-! ## Raw delays -/

section RawDelay

variable {base : Int} (nonneg : 0 ≤ base)

include nonneg

theorem base_le_rawDelay (strategy : RetryStrategy) {attempt : Nat}
    (positive : 1 ≤ attempt) (random : Draw) :
    base ≤ rawDelay strategy base attempt random := by
  cases strategy with
  | fixed => exact le_rfl
  | linear =>
      have counted : (1 : Int) ≤ attempt := by exact_mod_cast positive
      calc base = base * 1 := (mul_one base).symm
        _ ≤ base * attempt := by gcongr
  | exponential =>
      have jitter := jitterOf_nonneg nonneg random
      have power : (1 : Int) ≤ 2 ^ attempt := one_le_pow₀ (by decide)
      calc base = base * 1 := (mul_one base).symm
        _ ≤ base * 2 ^ attempt := by gcongr
        _ ≤ base * 2 ^ attempt + jitterOf base random := by omega

/-- One more attempt outweighs the jitter of any two draws. -/
theorem rawDelay_le_succ (strategy : RetryStrategy) (attempt : Nat)
    (random later : Draw) :
    rawDelay strategy base attempt random ≤
      rawDelay strategy base (attempt + 1) later := by
  cases strategy with
  | fixed => exact le_rfl
  | linear =>
      show base * attempt ≤ base * (attempt + 1 : Nat)
      gcongr
      omega
  | exponential =>
      show base * 2 ^ attempt + jitterOf base random ≤
        base * 2 ^ (attempt + 1) + jitterOf base later
      have jitter := jitterOf_le nonneg random
      have laterJitter := jitterOf_nonneg nonneg later
      have power : (1 : Int) ≤ 2 ^ attempt := one_le_pow₀ (by decide)
      have doubled : base * 1 ≤ base * 2 ^ attempt := by gcongr
      rw [pow_succ, ← mul_assoc]
      omega

end RawDelay

/-! ## Delays -/

section Delay

variable {base : Int} (nonneg : 0 ≤ base)

include nonneg

theorem min_le_calculateDelay (strategy : RetryStrategy) (maxDelay : Int)
    {attempt : Nat} (positive : 1 ≤ attempt) (random : Draw) :
    min base maxDelay ≤
      calculateDelay strategy base maxDelay attempt random := by
  rw [calculateDelay_eq]
  apply min_le_min_right
  exact base_le_rawDelay nonneg strategy positive random

theorem calculateDelay_le_succ (strategy : RetryStrategy) (maxDelay : Int)
    (attempt : Nat) (random later : Draw) :
    calculateDelay strategy base maxDelay attempt random ≤
      calculateDelay strategy base maxDelay (attempt + 1) later := by
  rw [calculateDelay_eq, calculateDelay_eq]
  apply min_le_min_right
  exact rawDelay_le_succ nonneg strategy attempt random later

/-- The exponential delay lies within a tenth of the base delay of its
doubling sequence. -/
theorem exponential_bounds (maxDelay : Int) (attempt : Nat) (random : Draw) :
    min (base * 2 ^ attempt) maxDelay ≤
        calculateDelay .exponential base maxDelay attempt random ∧
      (calculateDelay .exponential base maxDelay attempt random : Rat) ≤
        min ((base : Rat) * 2 ^ attempt + base / 10) maxDelay := by
  rw [calculateDelay_eq]
  have jitter := jitterOf_nonneg nonneg random
  have tenth := jitterOf_le_tenth nonneg random
  constructor
  · apply min_le_min_right
    show base * 2 ^ attempt ≤ base * 2 ^ attempt + jitterOf base random
    omega
  · rw [Int.cast_min]
    apply min_le_min_right
    show ((base * 2 ^ attempt + jitterOf base random : Int) : Rat) ≤ _
    push_cast
    linarith

end Delay

theorem calculateDelay_le_max (strategy : RetryStrategy) (base maxDelay : Int)
    (attempt : Nat) (random : Draw) :
    calculateDelay strategy base maxDelay attempt random ≤ maxDelay := by
  rw [calculateDelay_eq]
  exact min_le_right _ _

/-- Retry delays are bounded by the base delay and the cap, and no later
attempt waits less than an earlier one. -/
theorem retryDelays (strategy : RetryStrategy) (baseDelayMs maxDelayMs : Int)
    (base_nonneg : 0 ≤ baseDelayMs) (attemptCount : Nat)
    (positive : 1 ≤ attemptCount) (random later : Draw) :
    (min baseDelayMs maxDelayMs ≤
        calculateDelay strategy baseDelayMs maxDelayMs attemptCount random ∧
      calculateDelay strategy baseDelayMs maxDelayMs attemptCount random ≤
        maxDelayMs) ∧
    calculateDelay strategy baseDelayMs maxDelayMs attemptCount random ≤
      calculateDelay strategy baseDelayMs maxDelayMs (attemptCount + 1) later ∧
    (strategy = .exponential →
      min (baseDelayMs * 2 ^ attemptCount) maxDelayMs ≤
          calculateDelay strategy baseDelayMs maxDelayMs attemptCount random ∧
        (calculateDelay strategy baseDelayMs maxDelayMs attemptCount random :
            Rat) ≤
          min ((baseDelayMs : Rat) * 2 ^ attemptCount + baseDelayMs / 10)
            maxDelayMs) := by
  refine ⟨⟨?_, ?_⟩, ?_, ?_⟩
  · exact min_le_calculateDelay base_nonneg strategy _ positive random
  · exact calculateDelay_le_max strategy _ _ _ random
  · exact calculateDelay_le_succ base_nonneg strategy _ _ random later
  · intro exponential
    subst exponential
    exact exponential_bounds base_nonneg _ _ random

/-- Under the default policy the third delay, however large its jitter, is at
most the fourth one without any. -/
theorem retryDelays_default :
    calculateDelay .exponential 1000 30000 3
        ⟨99 / 100, by norm_num, by norm_num⟩ ≤
      calculateDelay .exponential 1000 30000 4 ⟨0, by decide, by decide⟩ :=
  (retryDelays .exponential 1000 30000 (by decide) 3 (by decide) _ _).2.1

end Chronos
