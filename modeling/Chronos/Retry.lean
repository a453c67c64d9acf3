import Chronos.Schema
import Mathlib.Data.Rat.Floor

/-!
# Retry delays

`worker/src/retry.ts`, over exact arithmetic.
-/

namespace Chronos

/-- One result of `Math.random()`. -/
structure Draw where
  value : Rat
  nonneg : 0 ≤ value
  lt_one : value < 1

/-- The delay in milliseconds before the next attempt, where `attemptCount`
is the number of failed attempts so far. -/
def calculateDelay (strategy : RetryStrategy) (baseDelayMs maxDelayMs : Int)
    (attemptCount : Nat) (random : Draw) : Int :=
  match strategy with
  | .fixed => min baseDelayMs maxDelayMs
  | .linear => min (baseDelayMs * attemptCount) maxDelayMs
  | .exponential =>
      let jitter := ⌊random.value * baseDelayMs * (1 / 10)⌋
      let raw := baseDelayMs * 2 ^ attemptCount + jitter
      min raw maxDelayMs

/-- `DEFAULT_RETRY` of the executor: what applies if neither the job nor its
queue names a policy. -/
def defaultRetry : RetryPolicy where
  strategy := .exponential
  baseDelayMs := 1000
  maxDelayMs := 30000
  maxAttempts := 3

namespace RetryPolicy

/-- The delay after the given number of failed attempts under a policy. -/
def delay (policy : RetryPolicy) (attemptCount : Nat) (random : Draw) : Int :=
  calculateDelay policy.strategy policy.baseDelayMs policy.maxDelayMs
    attemptCount random

end RetryPolicy

end Chronos
