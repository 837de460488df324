/- sources: retry/retry.go, retry/errors.go
   digest: Backoff policies, their two budgets, and which failures are worth repeating. -/

import Hookubit.Postgres.Clock
import Mathlib.Data.Rat.Floor

/-!
Delays are computed in exact rationals where the source uses float64. A Go `error` is the
record of the questions that the code asks about it with `errors.Is` and `errors.As`, and a
zero `time.Time` is `none`.
-/

set_option autoImplicit false
set_option relaxedAutoImplicit false

namespace Hookubit.Retry.Backoff

open Postgres.Clock

/-- The strategies that `retry_policies` may store; the code reads any other as exponential. -/
inductive Strategy
  | exponential | linear | constant
  deriving DecidableEq

structure Policy where
  strategy : Strategy
  maxAttempts : ℤ
  initialDelay : ℤ
  maxDelay : ℤ
  multiplier : ℚ
  jitterRatio : ℚ
  maxRetryDuration : ℤ
  deriving DecidableEq

def DefaultPolicy : Policy where
  strategy := .exponential
  maxAttempts := 8
  initialDelay := 5 * second
  maxDelay := hour
  multiplier := 2
  jitterRatio := 1 / 5
  maxRetryDuration := 24 * hour

/-- The largest delay ever converted to a `time.Duration`. -/
def maxDelayFloat : ℚ := 2 ^ 62

def clampDelay (d : ℚ) : ℚ :=
  if d < 0 then 0 else if maxDelayFloat < d then maxDelayFloat else d

/-- The wait before an attempt, the first being immediate. `rng` is the sample drawn for the
jitter, absent where the caller has no generator. -/
def Policy.Delay (p : Policy) (attempt : ℤ) (rng : Option ℚ) : ℤ :=
  if attempt ≤ 1 then 0
  else
    let n := (attempt - 2).toNat
    let d : ℚ :=
      match p.strategy with
      | .constant => p.initialDelay
      | .linear => p.initialDelay * (n + 1)
      | .exponential =>
        let mult := if p.multiplier ≤ 1 then 2 else p.multiplier
        p.initialDelay * mult ^ n
    let d := clampDelay d
    let d := if 0 < p.maxDelay ∧ (p.maxDelay : ℚ) < d then (p.maxDelay : ℚ) else d
    let d :=
      match rng with
      | some sample => if 0 < p.jitterRatio then d + (sample * 2 - 1) * (d * p.jitterRatio) else d
      | none => d
    ⌊clampDelay d⌋

/-- What the code can find out about an error. -/
structure DeliveryError where
  payloadGone : Bool
  payloadCorrupt : Bool
  noPayload : Bool
  signing : Bool
  blockedTarget : Bool
  dns : Bool
  timeout : Bool
  permanent : Bool
  unknownAuthority : Bool
  hostname : Bool
  connection : Bool
  deriving DecidableEq

def isPermanentTLSError (err : DeliveryError) : Bool := err.unknownAuthority || err.hostname

/-- A deny-list with a retry default: an unrecognised failure is taken to be transient. -/
def IsRetryableNetworkError (err : DeliveryError) : Bool :=
  !err.blockedTarget && !err.permanent && !isPermanentTLSError err

def ShouldRetry (httpStatus : ℤ) (err : Option DeliveryError) : Bool :=
  match err with
  | some err => IsRetryableNetworkError err
  | none => httpStatus == 408 || httpStatus == 429 || (500 ≤ httpStatus && httpStatus ≤ 599)

/-- The wall-clock half of the budget, spent whether or not a request was made. -/
def Policy.DurationExhausted (p : Policy) (firstAttemptAt : Option ℤ) (now : ℤ) : Bool :=
  match firstAttemptAt with
  | none => false
  | some first => if p.maxRetryDuration ≤ 0 then false else p.maxRetryDuration ≤ now - first

def Policy.Exhausted (p : Policy) (attempt : ℤ) (firstAttemptAt : Option ℤ) (now : ℤ) : Bool :=
  if 0 < p.maxAttempts ∧ p.maxAttempts ≤ attempt then true
  else p.DurationExhausted firstAttemptAt now

/-- The wall-clock budget left; no cap reads as the largest duration. -/
def Policy.Remaining (p : Policy) (firstAttemptAt : Option ℤ) (now : ℤ) : ℤ :=
  match firstAttemptAt with
  | none => 2 ^ 63 - 1
  | some first =>
    if p.maxRetryDuration ≤ 0 then 2 ^ 63 - 1
    else if first + p.maxRetryDuration - now < 0 then 0
    else first + p.maxRetryDuration - now

theorem Policy.attempt_lt_of_not_exhausted {p : Policy} {attempt now : ℤ}
    {firstAttemptAt : Option ℤ} (capped : 0 < p.maxAttempts)
    (unfinished : p.Exhausted attempt firstAttemptAt now = false) : attempt < p.maxAttempts := by
  unfold Policy.Exhausted at unfinished
  split at unfinished
  · cases unfinished
  · rename_i under
    rw [not_and, not_le] at under
    exact under capped

end Hookubit.Retry.Backoff
