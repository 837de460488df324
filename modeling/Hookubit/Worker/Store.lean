/- sources: worker/store.go (Load, Complete, Defer), worker/deliver.go (finish, deferDelivery,
     expireDelivery, recordNonHTTP)
   digest: What one attempt reads from the ledger and the transitions it may write to it. -/

import Hookubit.Queue.Deliveries

/-!
An attempt record keeps the columns that a rule reads or that say whose attempt it was;
headers, bodies and sizes are left out. `Load` leaves out the payload and the secrets.
-/

set_option autoImplicit false
set_option relaxedAutoImplicit false

namespace Hookubit.Worker.Store

open Postgres.Clock Queue.Deliveries Retry.Backoff Worker.StateMachine

variable {Id W : Type}

/-- One append-only `delivery_attempts` row. -/
structure AttemptRecord (W : Type) where
  number : ℤ
  startedAt : ℤ
  completedAt : ℤ
  status : AttemptStatus
  httpStatus : ℤ
  errorCode : String
  workerID : W
  deriving DecidableEq

/-- The row as its `TIMESTAMP(3)` columns keep it. -/
def AttemptRecord.stored (a : AttemptRecord W) : AttemptRecord W :=
  { a with
    startedAt := timestamp3 (encodeTime a.startedAt)
    completedAt := timestamp3 (encodeTime a.completedAt) }

/-- One move of the delivery state machine. An `attemptCount` of zero leaves the column. -/
structure Transition where
  state : State
  reason : Reason
  delay : ℤ
  attemptCount : ℤ
  deriving DecidableEq

/-- The nullable `retry_policies` columns, as the lateral join yields them. -/
structure PolicyColumns where
  strategy : Option Strategy
  maxAttempts : Option ℤ
  initialDelayMS : Option ℤ
  maxDelayMS : Option ℤ
  multiplier : Option ℚ
  jitterRatio : Option ℚ
  maxRetryDuration : Option ℤ
  deriving DecidableEq

/-- `policy` applies the scanned row over the default; the budget frozen onto the delivery
wins over both. -/
def PolicyColumns.policy (p : PolicyColumns) (deliveryMaxAttempts : ℤ) : Policy :=
  let out := DefaultPolicy
  { strategy := p.strategy.getD out.strategy
    maxAttempts :=
      if 0 < deliveryMaxAttempts then deliveryMaxAttempts
      else match p.maxAttempts with
        | some m => if 0 < m then m else out.maxAttempts
        | none => out.maxAttempts
    initialDelay := (p.initialDelayMS.map (· * millisecond)).getD out.initialDelay
    maxDelay := (p.maxDelayMS.map (· * millisecond)).getD out.maxDelay
    multiplier := p.multiplier.getD out.multiplier
    jitterRatio := p.jitterRatio.getD out.jitterRatio
    maxRetryDuration := (p.maxRetryDuration.map (· * millisecond)).getD out.maxRetryDuration }

inductive EndpointStatus
  | active | paused | disabled | deleted
  deriving DecidableEq

/-- `Deliverable`: the reason not to deliver, if there is one. -/
def Deliverable (status : EndpointStatus) (enabled : Bool) : Option Reason :=
  match status with
  | .deleted => some .endpointDeleted
  | .paused | .disabled => some .endpointDisabled
  | .active => if enabled then none else some .endpointDisabled

structure Job where
  attemptNumber : ℤ
  policy : Policy
  firstAttemptAt : Option ℤ
  undeliverable : Option Reason
  deriving DecidableEq

/-- `firstAttemptAtSQL`: the earliest recorded start, or the row's own creation. -/
def firstAttemptAt (d : Delivery Id W) (log : List (AttemptRecord W)) : ℤ :=
  ((log.map AttemptRecord.startedAt).min?).getD d.createdAt

/-- `Load`. The policy and the endpoint are whatever their tables hold at that moment. -/
def Load (d : Delivery Id W) (log : List (AttemptRecord W)) (pol : PolicyColumns)
    (status : EndpointStatus) (enabled : Bool) : Job where
  attemptNumber := d.attemptCount + 1
  policy := pol.policy d.maxAttempts
  firstAttemptAt := some (firstAttemptAt d log)
  undeliverable := Deliverable status enabled

/-- The `SET` clause of `advanceSQL`, with the parameters `advanceExec` computes. -/
def advanceRow (next : Transition) (now : ℤ) (d : Delivery Id W) : Delivery Id W :=
  let delay := if next.delay < 0 then 0 else next.delay
  { d with
    status := next.state
    attemptCount := if 0 < next.attemptCount then next.attemptCount else d.attemptCount
    lastAttemptAt := if 0 < next.attemptCount then some (timestamp3 now) else d.lastAttemptAt
    nextAttemptAt :=
      if next.state.Terminal then timestamp3 now else timestamp3 (now + intervalOf delay)
    completedAt := if next.state.Terminal then some (timestamp3 now) else d.completedAt
    lastError := if next.state = .succeeded then none else some next.reason
    lockedBy := none
    lockedUntil := none }

/-- `advanceExec`: the transition is guarded by the worker's id and nothing else. -/
def advanceExec [DecidableEq W] (workerID : W) (next : Transition) (now : ℤ)
    (d : Delivery Id W) : Option (Delivery Id W) :=
  if d.lockedBy = some workerID then some (advanceRow next now d) else none

/-- `Complete` on the row and its attempts, `none` where the transaction rolls back: the
lease is not held, or the number breaks the unique index. -/
def Complete [DecidableEq W] (workerID : W) (attempt : Option (AttemptRecord W))
    (next : Transition) (now : ℤ) (d : Delivery Id W) (log : List (AttemptRecord W)) :
    Option (Delivery Id W × List (AttemptRecord W)) :=
  (advanceExec workerID next now d).bind fun d' =>
    match attempt with
    | none => some (d', log)
    | some a =>
      if a.number ∈ log.map AttemptRecord.number then none else some (d', log ++ [a.stored])

theorem complete_eq_some_iff [DecidableEq W] {workerID : W} {attempt : Option (AttemptRecord W)}
    {next : Transition} {now : ℤ} {d : Delivery Id W} {log : List (AttemptRecord W)}
    {stored : Delivery Id W × List (AttemptRecord W)} :
    Complete workerID attempt next now d log = some stored ↔
      d.lockedBy = some workerID ∧
        (∀ a, attempt = some a → a.number ∉ log.map AttemptRecord.number) ∧
        stored = (advanceRow next now d, log ++ (attempt.map AttemptRecord.stored).toList) := by
  unfold Complete advanceExec
  by_cases held : d.lockedBy = some workerID
  · rw [if_pos held, Option.bind_some]
    cases attempt with
    | none => simp [held, eq_comm]
    | some a =>
      by_cases taken : a.number ∈ log.map AttemptRecord.number
      · simp only [if_pos taken, reduceCtorEq, Option.some.injEq, forall_eq', false_iff]
        intro h
        exact h.2.1 taken
      · simp only [Option.some.injEq, forall_eq', held, taken, not_false_eq_true, true_and,
          Option.map_some, Option.toList_some, if_false]
        exact eq_comm
  · simp [held]

/-- `Defer` reschedules without an attempt row. -/
def Defer [DecidableEq W] (workerID : W) (next : Transition) (now : ℤ) (d : Delivery Id W) :
    Option (Delivery Id W) :=
  advanceExec workerID next now d

/-- The transition that `finish` derives from a decision. -/
def finishTransition (attempt : Option (AttemptRecord W)) (decision : Decision) (now : ℤ) :
    Transition where
  state := decision.state
  reason := decision.reason
  delay := (decision.nextAttemptAt.map (· - now)).getD 0
  attemptCount := (attempt.map AttemptRecord.number).getD 0

/-- The decision and the attempt row of one HTTP attempt. -/
def attempted (job : Job) (workerID : W) (started finished : ℤ) (outcome : Outcome)
    (rng : Option ℚ) : AttemptRecord W × Decision :=
  let decision := Decide ⟨job.attemptNumber, job.policy, job.firstAttemptAt, finished, outcome⟩ rng
  (⟨job.attemptNumber, started, finished, decision.attemptStatus, outcome.httpStatus,
    decision.errorCode, workerID⟩, decision)

/-- `recordNonHTTP`: an attempt that could not reach the network is decided in the same way
and names its own reason. -/
def recordNonHTTP (job : Job) (workerID : W) (started now : ℤ) (cause : DeliveryError)
    (rng : Option ℚ) : AttemptRecord W × Decision :=
  let decision :=
    Decide ⟨job.attemptNumber, job.policy, job.firstAttemptAt, now, ⟨0, some cause, none⟩⟩ rng
  let reason := decision.reason
  let reason := if cause.signing then .signingFailed else reason
  let reason := if cause.noPayload then .payloadUnavailable else reason
  let reason := if cause.payloadGone then .payloadGone else reason
  let reason := if cause.payloadCorrupt then .payloadCorrupt else reason
  (⟨job.attemptNumber, started, now, .error, 0, decision.errorCode, workerID⟩,
    { decision with reason := reason })

/-- The wall-clock half of a retry budget; `unknownBudget` has no first attempt. -/
structure Budget where
  policy : Policy
  firstAttemptAt : Option ℤ
  deriving DecidableEq

def Budget.expired (b : Budget) (now : ℤ) : Bool :=
  b.policy.DurationExhausted b.firstAttemptAt now

/-- `budgetOf` reads the budget off a loaded delivery. -/
def budgetOf (job : Job) : Budget := ⟨job.policy, job.firstAttemptAt⟩

/-- `LoadBudget`: the budget columns of `Load`, without its other joins. -/
def LoadBudget (d : Delivery Id W) (log : List (AttemptRecord W)) (pol : PolicyColumns) : Budget :=
  ⟨pol.policy d.maxAttempts, some (firstAttemptAt d log)⟩

/-- The budget of a delivery whose row has not been read: the zero value. -/
def unknownBudget : Budget := ⟨⟨.exponential, 0, 0, 0, 0, 0, 0⟩, none⟩

/-- The transition `deferDelivery` writes: an expired budget ends the delivery, anything
else puts it back without charging an attempt. -/
def deferDelivery (budget : Budget) (reason : Reason) (delay now : ℤ) (shutdown : Bool) :
    Transition :=
  if budget.expired now then ⟨.exhausted, .budgetExhausted, 0, 0⟩
  else
    { state := .scheduled
      reason := if shutdown then .workerShutdown else reason
      delay := if delay ≤ 0 then second else delay
      attemptCount := 0 }

end Hookubit.Worker.Store
