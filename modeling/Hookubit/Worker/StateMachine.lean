/- sources: worker/state.go
   digest: The delivery state machine: what one completed attempt decides. -/

import Hookubit.Retry.Backoff

set_option autoImplicit false
set_option relaxedAutoImplicit false

namespace Hookubit.Worker.StateMachine

open Postgres.Clock Retry.Backoff

inductive State
  | pending | scheduled | queued | processing | succeeded | failed | retrying | exhausted
  | cancelled
  deriving DecidableEq

def State.Terminal : State → Bool
  | .succeeded | .failed | .exhausted | .cancelled => true
  | _ => false

inductive AttemptStatus
  | success | failure | timeout | error
  deriving DecidableEq

inductive Reason
  | delivered | nonRetryableStatus | permanentError | blockedTarget | retryScheduled
  | attemptsExhausted | budgetExhausted | endpointDisabled | endpointDeleted | breakerOpen
  | rateLimited | concurrencyLimited | signingFailed | payloadUnavailable | payloadGone
  | payloadCorrupt | workerShutdown
  deriving DecidableEq

/-- What one attempt produced. `retryAfter` is the endpoint's own requested wait. -/
structure Outcome where
  httpStatus : ℤ
  err : Option DeliveryError
  retryAfter : Option ℤ
  deriving DecidableEq

structure Decision where
  state : State
  reason : Reason
  attemptStatus : AttemptStatus
  nextAttemptAt : Option ℤ
  errorCode : String
  retryAfterHonoured : Bool
  deriving DecidableEq

structure DecisionInput where
  attempt : ℤ
  policy : Policy
  firstAttemptAt : Option ℤ
  now : ℤ
  outcome : Outcome
  deriving DecidableEq

def honourRetryAfter (status : ℤ) : Bool := status == 429 || status == 503

/-- The three bounds on an endpoint's requested wait, and the floor once more. -/
def clampRetryAfter (d : ℤ) (p : Policy) (firstAttemptAt : Option ℤ) (now : ℤ) : ℤ :=
  let d := if d < second then second else d
  let d := if 0 < p.maxDelay ∧ p.maxDelay < d then p.maxDelay else d
  let remaining := p.Remaining firstAttemptAt now
  let d := if remaining < d then remaining else d
  if d < second then second else d

/-- DNS is asked about before timeout. -/
def classifyAttempt (status : ℤ) (err : Option DeliveryError) : AttemptStatus :=
  match err with
  | none => if 200 ≤ status ∧ status ≤ 299 then .success else .failure
  | some err => if err.dns then .error else if err.timeout then .timeout else .error

def ErrorCode (status : ℤ) (err : Option DeliveryError) : String :=
  match err with
  | none => if 200 ≤ status ∧ status ≤ 299 then "" else "http_" ++ toString status
  | some err =>
    if err.payloadGone then "payload_object_missing"
    else if err.payloadCorrupt then "payload_hash_mismatch"
    else if err.noPayload then "payload_unavailable"
    else if err.signing then "signing_failed"
    else if err.blockedTarget then "blocked_target"
    else if err.dns then "dns"
    else if err.timeout then "timeout"
    else if err.permanent then "permanent"
    else if err.connection then "connection"
    else "transport"

/-- `Decide`: success first, then failures that no retry can change, then the budgets. -/
def Decide (i : DecisionInput) (rng : Option ℚ) : Decision :=
  let status := i.outcome.httpStatus
  let err := i.outcome.err
  if err = none ∧ 200 ≤ status ∧ status ≤ 299 then
    ⟨.succeeded, .delivered, .success, none, "", false⟩
  else
    let attemptStatus := classifyAttempt status err
    let errorCode := ErrorCode status err
    if !ShouldRetry status err then
      let reason : Reason :=
        match err with
        | some e => if e.blockedTarget then .blockedTarget else .permanentError
        | none => .nonRetryableStatus
      ⟨.failed, reason, attemptStatus, none, errorCode, false⟩
    else if i.policy.Exhausted i.attempt i.firstAttemptAt i.now then
      let reason : Reason :=
        if i.policy.maxAttempts ≤ 0 ∨ i.attempt < i.policy.maxAttempts then .budgetExhausted
        else .attemptsExhausted
      ⟨.exhausted, reason, attemptStatus, none, errorCode, false⟩
    else
      let delay := i.policy.Delay (i.attempt + 1) rng
      match i.outcome.retryAfter with
      | some wait =>
        if honourRetryAfter status then
          ⟨.retrying, .retryScheduled, attemptStatus,
            some (i.now + clampRetryAfter wait i.policy i.firstAttemptAt i.now), errorCode, true⟩
        else ⟨.retrying, .retryScheduled, attemptStatus, some (i.now + delay), errorCode, false⟩
      | none => ⟨.retrying, .retryScheduled, attemptStatus, some (i.now + delay), errorCode, false⟩

theorem decide_state (i : DecisionInput) (rng : Option ℚ) :
    (Decide i rng).state.Terminal = true ∨
      ((Decide i rng).state = .retrying ∧
        i.policy.Exhausted i.attempt i.firstAttemptAt i.now = false) := by
  unfold Decide
  dsimp only
  split
  · exact .inl rfl
  · split
    · exact .inl rfl
    · split
      · exact .inl rfl
      · rename_i budget
        have left := Bool.eq_false_iff.mpr budget
        split
        · split <;> exact .inr ⟨rfl, left⟩
        · exact .inr ⟨rfl, left⟩

end Hookubit.Worker.StateMachine
