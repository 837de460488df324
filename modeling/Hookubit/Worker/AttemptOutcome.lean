/- sources: worker/deliver.go attempt, recordHealth; worker/state.go Decide; egress/client.go Do
   digest: What a finished request decides for its delivery and tells the circuit breaker. -/

import Hookubit.Egress.Client
import Hookubit.Worker.RetryAfter

set_option autoImplicit false
set_option relaxedAutoImplicit false

namespace Hookubit.Worker.AttemptOutcome

open Data.Utf8 (Bytes)
open Egress.Client Retry.Backoff
open Worker.Headers (Header text)
open Worker.RetryAfter Worker.StateMachine

/-- The outcome handed to `Decide`: a status only where there is a response. -/
def outcomeOf (parseTime : Bytes → Option ℤ) (finished : ℤ) :
    Except DeliveryError Response → Outcome
  | .error doErr => ⟨0, some doErr, none⟩
  | .ok resp =>
    ⟨resp.statusCode, none, ParseRetryAfter parseTime (resp.headers.get (text "Retry-After"))
      finished⟩

/-- `recordHealth`: the flag that `RecordOutcome` is called with, if it is called. -/
def recordHealth (status : ℤ) (err : Option DeliveryError) : Option Bool :=
  if err.any (·.blockedTarget) then none
  else
    let success := !ShouldRetry status err
    some (if err = none ∧ 200 ≤ status ∧ status ≤ 299 then true else success)

/-- The statuses of an endpoint that cannot take traffic right now. -/
def Overloaded (status : ℤ) : Prop := status = 408 ∨ status = 429 ∨ (500 ≤ status ∧ status ≤ 599)

instance overloadedDecidable (status : ℤ) : Decidable (Overloaded status) :=
  inferInstanceAs (Decidable (_ ∨ _ ∨ (_ ∧ _)))

theorem shouldRetry_answer (status : ℤ) :
    ShouldRetry status none = true ↔ Overloaded status := by
  simp only [ShouldRetry, Overloaded, Bool.or_eq_true, Bool.and_eq_true, beq_iff_eq,
    decide_eq_true_eq, or_assoc]

theorem recordHealth_answer (status : ℤ) :
    recordHealth status none = some (!decide (Overloaded status)) := by
  have retry : ShouldRetry status none = decide (Overloaded status) := by
    rw [Bool.eq_iff_iff, shouldRetry_answer, decide_eq_true_eq]
  simp only [recordHealth, Option.any_none, Bool.false_eq_true, if_false, true_and, retry]
  split
  · rename_i accepted
    have fine : ¬Overloaded status := by
      unfold Overloaded
      omega
    simp [fine]
  · rfl

theorem recordHealth_error (status : ℤ) (err : DeliveryError) :
    recordHealth status (some err) =
      if err.blockedTarget then none else some (!IsRetryableNetworkError err) := by
  simp only [recordHealth, Option.any_some, reduceCtorEq, false_and, if_false, ShouldRetry]

/-- What the breaker may be told: success only of an endpoint that answered and can take traffic,
failure of every error that is not the platform's refusal, and of that one nothing. -/
def HealthAsObserved (status : ℤ) (err : Option DeliveryError) : Prop :=
  (recordHealth status err = some true → err = none ∧ ¬Overloaded status) ∧
    ∀ e ∈ err, recordHealth status err = if e.blockedTarget then none else some false

/-- The errors that `ShouldRetry` gives up on although they are no refusal of the platform's are
recorded as successes, and nothing else goes wrong. -/
theorem health_as_observed_iff (status : ℤ) (err : Option DeliveryError) :
    HealthAsObserved status err ↔
      ∀ e ∈ err, e.blockedTarget = true ∨
        (e.permanent = false ∧ e.unknownAuthority = false ∧ e.hostname = false) := by
  unfold HealthAsObserved
  cases err with
  | none => simp [recordHealth_answer]
  | some e =>
    simp only [Option.mem_def, Option.some.injEq, forall_eq', recordHealth_error, reduceCtorEq,
      false_and, imp_false, IsRetryableNetworkError, isPermanentTLSError]
    cases e.blockedTarget <;> cases e.permanent <;> cases e.unknownAuthority <;>
      cases e.hostname <;> decide

/-- A certificate of an unknown authority fails the handshake, a reset ends the answer's body:
both are recorded as the endpoint's success. -/
theorem unreachable_endpoint_heals :
    let selfSigned : DeliveryError := { plainError with unknownAuthority := true }
    let untrusted := outcomeOf (fun _ => none) 0 (Do ⟨65536⟩ ⟨false, none, .failed selfSigned⟩)
    let reset := outcomeOf (fun _ => none) 0
      (Do ⟨65536⟩ ⟨false, none, .answered ⟨503, ∅, [], some plainError, false⟩⟩)
    (untrusted.err ≠ none ∧ recordHealth untrusted.httpStatus untrusted.err = some true) ∧
      reset.err ≠ none ∧ recordHealth reset.httpStatus reset.err = some true := by
  decide

/-- The decision on an attempt that got an answer. -/
def decideAnswer (limits : Limits) (parseTime : Bytes → Option ℤ) (answer : Answer) (attempt : ℤ)
    (policy : Policy) (firstAttemptAt : Option ℤ) (finished : ℤ) (rng : Option ℚ) : Decision :=
  let outcome := outcomeOf parseTime finished (Do limits ⟨false, none, .answered answer⟩)
  Decide ⟨attempt, policy, firstAttemptAt, finished, outcome⟩ rng

theorem decide_permanent {i : DecisionInput} {err : DeliveryError}
    (failed : i.outcome.err = some err)
    (permanent : err.permanent = true) (rng : Option ℚ) : (Decide i rng).state = .failed := by
  have final : ShouldRetry i.outcome.httpStatus i.outcome.err = false := by
    simp [failed, ShouldRetry, IsRetryableNetworkError, permanent]
  have refused : ¬(i.outcome.err = none ∧ 200 ≤ i.outcome.httpStatus ∧
      i.outcome.httpStatus ≤ 299) := by
    simp [failed]
  simp only [Decide, if_neg refused, final, Bool.not_false, if_true]

theorem decide_overloaded {i : DecisionInput} (answered : i.outcome.err = none)
    (overloaded : Overloaded i.outcome.httpStatus)
    (budget : i.policy.Exhausted i.attempt i.firstAttemptAt i.now = false) (rng : Option ℚ) :
    (Decide i rng).state = .retrying := by
  have retried : ShouldRetry i.outcome.httpStatus i.outcome.err = true := by
    rw [answered]
    exact (shouldRetry_answer _).mpr overloaded
  have refused : ¬(i.outcome.err = none ∧ 200 ≤ i.outcome.httpStatus ∧
      i.outcome.httpStatus ≤ 299) := by
    unfold Overloaded at overloaded
    omega
  simp only [Decide, if_neg refused, retried, budget, Bool.not_true, Bool.false_eq_true, if_false]
  cases i.outcome.retryAfter with
  | none => rfl
  | some wait =>
    dsimp only
    split <;> rfl

/-- An answer of status 408, 429 or 5xx, with attempts and time left. If its body can be read, to
its end or to the limit, the delivery is retried; if reading it fails first, the answer counts
as delivered and unread, and the delivery has failed. -/
theorem overloaded_answer_decision (limits : Limits) (parseTime : Bytes → Option ℤ)
    (answer : Answer) (attempt : ℤ) (policy : Policy) (firstAttemptAt : Option ℤ) (finished : ℤ)
    (rng : Option ℚ) (overloaded : Overloaded answer.statusCode)
    (budget : policy.Exhausted attempt firstAttemptAt finished = false) :
    (decideAnswer limits parseTime answer attempt policy firstAttemptAt finished rng).state =
      if readError limits answer = none then .retrying else .failed := by
  unfold decideAnswer
  cases unread : readError limits answer with
  | none =>
    obtain ⟨response, sent, status, -⟩ := do_of_read unread
    rw [sent, if_pos rfl]
    refine decide_overloaded rfl ?_ budget rng
    simpa only [outcomeOf, status] using overloaded
  | some err =>
    rw [do_of_readError unread, if_neg (Option.some_ne_none err)]
    exact decide_permanent rfl rfl rng

/-- A 503 with two bytes of body under a limit of one: truncated, and retried. -/
theorem truncated_answer_retried :
    Overloaded 503 ∧ DefaultPolicy.Exhausted 1 (some 0) 0 = false ∧
      (decideAnswer ⟨1⟩ (fun _ => none) ⟨503, ∅, [0x61, 0x62], none, false⟩ 1 DefaultPolicy (some 0)
          0 none).state =
        if readError ⟨1⟩ ⟨503, ∅, [0x61, 0x62], none, false⟩ = none then .retrying else .failed :=
  ⟨by decide, by decide,
    overloaded_answer_decision ⟨1⟩ (fun _ => none) ⟨503, ∅, [0x61, 0x62], none, false⟩ 1
      DefaultPolicy (some 0) 0 none (by decide) (by decide)⟩

/-- A 503 whose connection is reset before its body ends has failed on the first of eight
attempts. -/
theorem reset_answer_fails :
    Overloaded 503 ∧ DefaultPolicy.Exhausted 1 (some 0) 0 = false ∧
      (decideAnswer ⟨65536⟩ (fun _ => none) ⟨503, ∅, [], some plainError, false⟩ 1 DefaultPolicy
        (some 0) 0 none).state = .failed := by
  decide

end Hookubit.Worker.AttemptOutcome
