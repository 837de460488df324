/- sources: router/router.go (Options, New, process)
   digest: What the router decides about a claimed outbox row before it routes it. -/

import Hookubit.Router.Store

set_option autoImplicit false
set_option relaxedAutoImplicit false

namespace Hookubit.Router.Process

open Postgres.Clock Router.Store

/-- The options that `process` reads. -/
structure Options where
  maxOutboxAttempts : ℤ
  maxOutboxRetryDuration : ℤ
  deriving DecidableEq

def DefaultMaxOutboxAttempts : ℤ := 5

def DefaultMaxOutboxRetryDuration : ℤ := hour

/-- `New` fills in what is unset. -/
def New (opts : Options) : Options where
  maxOutboxAttempts :=
    if opts.maxOutboxAttempts ≤ 0 then DefaultMaxOutboxAttempts else opts.maxOutboxAttempts
  maxOutboxRetryDuration :=
    if opts.maxOutboxRetryDuration ≤ 0 then DefaultMaxOutboxRetryDuration
    else opts.maxOutboxRetryDuration

theorem one_le_maxOutboxAttempts (opts : Options) : 1 ≤ (New opts).maxOutboxAttempts := by
  simp only [New, DefaultMaxOutboxAttempts]
  split_ifs <;> omega

inductive ParkReason
  | unknownOutboxType | attemptsExhausted | retryDurationExceeded | eventMissing
  deriving DecidableEq

def OutboxTypeEventCreated : String := "event.created"

variable {Id R : Type}

/-- The first part of `process`: a reason to park the row, or none to route it. The poison
bound is asked about unaccounted claims, the transient one about elapsed time. -/
def process (opts : Options) (row : OutboxRow Id R) (now : ℤ) : Option ParkReason :=
  if row.type ≠ OutboxTypeEventCreated then some .unknownOutboxType
  else if (New opts).maxOutboxAttempts < row.unaccountedAttempts then some .attemptsExhausted
  else
    match row.failingSince with
    | some since =>
      if (New opts).maxOutboxRetryDuration < now - since then some .retryDurationExceeded else none
    | none => none

theorem process_exhausted_iff {opts : Options} {q : OutboxRow Id R} {now : ℤ}
    (typed : q.type = OutboxTypeEventCreated) : process opts q now = some .attemptsExhausted ↔
      (New opts).maxOutboxAttempts < q.unaccountedAttempts := by
  unfold process
  rw [if_neg (not_not.mpr typed)]
  by_cases above : (New opts).maxOutboxAttempts < q.unaccountedAttempts
  · simp [above]
  · rw [if_neg above]
    cases q.failingSince with
    | none => simp [above]
    | some since =>
      dsimp only
      split <;> simp [above]

end Hookubit.Router.Process
