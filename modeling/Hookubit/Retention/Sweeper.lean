/- sources: retention/retention.go RunOnce, pruneAttempts, pruneDeliveries; retention/config.go Validate
   digest: One retention pass: two batch loops on one budget, and what they may and must prune. -/

import Hookubit.Automata.LabelledSystem
import Hookubit.Retention.PruneStatements

set_option autoImplicit false
set_option relaxedAutoImplicit false

namespace Hookubit.Retention.Sweeper

open Automata.LabelledSystem
open Postgres.Clock (hour second)
open Retention.PruneStatements

structure Config where
  enabled : Bool
  interval : ℤ
  deliveryAge : ℤ
  attemptAge : ℤ
  batchSize : ℤ
  maxDeletesPerRun : ℤ
  batchTimeout : ℤ

def minimumAge : ℤ := 48 * hour

def DefaultConfig : Config where
  enabled := true
  interval := hour
  deliveryAge := 90 * 24 * hour
  attemptAge := 60 * 24 * hour
  batchSize := 1000
  maxDeletesPerRun := 50000
  batchTimeout := 30 * second

/-- The refusals of `Validate`, each with the values its text quotes. -/
inductive ConfigError
  | deliveryAge (age : ℤ)
  | attemptAge (age : ℤ)
  | attemptsOutliveDeliveries (attempts deliveries : ℤ)
  | interval (d : ℤ)
  | batchSize (n : ℤ)
  | maxDeletesPerRun (n : ℤ)
  | batchTimeout (d : ℤ)
  deriving DecidableEq

/-- The text, given how durations are printed. -/
def ConfigError.text (duration : ℤ → String) : ConfigError → String
  | .deliveryAge age =>
      "retention: RETENTION_DELIVERY_AGE_DAYS is " ++ duration age ++ ", below the " ++
        duration minimumAge ++ " floor; a delivery is still being retried inside its " ++
        "max_retry_duration and must not be deleted under the worker"
  | .attemptAge age =>
      "retention: RETENTION_ATTEMPT_AGE_DAYS is " ++ duration age ++ ", below the " ++
        duration minimumAge ++ " floor; the attempt rows of a delivery that is still being " ++
        "retried are the record of what was tried"
  | .attemptsOutliveDeliveries attempts deliveries =>
      "retention: RETENTION_ATTEMPT_AGE_DAYS (" ++ duration attempts ++ ") is longer than " ++
        "RETENTION_DELIVERY_AGE_DAYS (" ++ duration deliveries ++ "); attempts cannot outlive " ++
        "the delivery they belong to"
  | .interval d => "retention: RETENTION_INTERVAL_MS must be positive, got " ++ duration d
  | .batchSize n => "retention: RETENTION_BATCH_SIZE must be positive, got " ++ toString n
  | .maxDeletesPerRun n =>
      "retention: RETENTION_MAX_DELETES_PER_RUN must be positive, got " ++ toString n
  | .batchTimeout d => "retention: RETENTION_BATCH_TIMEOUT_MS must be positive, got " ++ duration d

/-- `Validate`. A policy that is switched off may say anything. -/
def Validate (c : Config) : Option ConfigError :=
  if !c.enabled then none
  else if c.deliveryAge < minimumAge then some (.deliveryAge c.deliveryAge)
  else if c.attemptAge < minimumAge then some (.attemptAge c.attemptAge)
  else if c.deliveryAge < c.attemptAge then
    some (.attemptsOutliveDeliveries c.attemptAge c.deliveryAge)
  else if c.interval ≤ 0 then some (.interval c.interval)
  else if c.batchSize ≤ 0 then some (.batchSize c.batchSize)
  else if c.maxDeletesPerRun ≤ 0 then some (.maxDeletesPerRun c.maxDeletesPerRun)
  else if c.batchTimeout ≤ 0 then some (.batchTimeout c.batchTimeout)
  else none

theorem pos_of_validate {c : Config} (enabled : c.enabled = true) (valid : Validate c = none) :
    0 < c.batchSize ∧ 0 < c.maxDeletesPerRun := by
  rw [Validate, enabled] at valid
  simp only [Bool.not_true, Bool.false_eq_true, if_false] at valid
  split_ifs at valid
  omega

structure Report where
  attemptsDeleted : ℕ
  deliveriesMarked : ℕ
  deliveriesDeleted : ℕ
  truncated : Bool
  deriving DecidableEq

/-- Where a pass is: at the statement of one of the two loops, or back at its caller. -/
inductive Stage
  | pruningAttempts (budget spent : ℤ)
  | pruningDeliveries (budget : ℤ)
  | returned (error : Option String)
  deriving DecidableEq

/-- A pass, the ledger it works on, and the database clock. -/
structure Pass where
  ledger : Ledger
  clock : ℤ
  stage : Stage
  report : Report

section Pass

variable (cfg : Config) (p : Pass)

/-- `RunOnce` once the first loop is over. -/
def Pass.afterAttempts (spent : ℤ) : Pass :=
  let budget := cfg.maxDeletesPerRun - spent
  if budget ≤ 0 then
    { p with stage := .returned none, report := { p.report with truncated := true } }
  else { p with stage := .pruningDeliveries budget }

/-- The head of the first loop. -/
def Pass.attemptsLoop (budget spent : ℤ) : Pass :=
  if 0 < budget then { p with stage := .pruningAttempts budget spent }
  else p.afterAttempts cfg spent

/-- The head of the second loop. -/
def Pass.deliveriesLoop (budget : ℤ) : Pass :=
  if 0 < budget then { p with stage := .pruningDeliveries budget }
  else { p with stage := .returned none, report := { p.report with truncated := true } }

def batchLimit (budget : ℤ) : ℤ := if budget < cfg.batchSize then budget else cfg.batchSize

/-- The first loop with the counts of its statement. -/
def Pass.attemptsBatch (budget spent : ℤ) (attempts marked : ℕ) : Pass :=
  let p := { p with report := { p.report with
    attemptsDeleted := p.report.attemptsDeleted + attempts
    deliveriesMarked := p.report.deliveriesMarked + marked } }
  if marked < batchLimit cfg budget then p.afterAttempts cfg (spent + marked)
  else p.attemptsLoop cfg (budget - marked) (spent + marked)

/-- The second loop with the rows its statement affected. -/
def Pass.deliveriesBatch (budget : ℤ) (n : ℕ) : Pass :=
  let p := { p with report := { p.report with
    deliveriesDeleted := p.report.deliveriesDeleted + n } }
  if n < batchLimit cfg budget then { p with stage := .returned none }
  else p.deliveriesLoop (budget - n)

def Pass.failed (error : String) : Pass := { p with stage := .returned (some error) }

def RunOnce (L : Ledger) (now : ℤ) : Pass :=
  Pass.attemptsLoop cfg ⟨L, now, .returned none, ⟨0, 0, 0, false⟩⟩ cfg.maxDeletesPerRun 0

end Pass

/-- What can go wrong between a statement and its counts. -/
inductive Failure
  | query (e : String)
  | noCounts
  | scan (e : String)
  deriving DecidableEq

def attemptsError : Failure → String
  | .query e => "prune delivery attempts: " ++ e
  | .noCounts => "prune delivery attempts: statement returned no counts"
  | .scan e => "prune delivery attempts: scan counts: " ++ e

/-- A failure may be reported of a statement that was carried out all the same. -/
inductive Outcome
  | answered
  | failed (why : Failure) (applied : Bool)
  deriving DecidableEq

/-- How the database takes one statement: when, scanning the rows in which order, and whether
it says so. -/
structure Reply where
  now : ℤ
  scan : List Delivery
  outcome : Outcome

def Reply.applied (r : Reply) : Bool :=
  match r.outcome with
  | .answered => true
  | .failed _ applied => applied

section Next

variable (cfg : Config) (p : Pass) (r : Reply)

def markedBy (budget : ℤ) : (ℕ × ℕ) × Ledger :=
  pruneAttemptsSQL p.ledger r.now (intervalOf cfg.attemptAge) (batchLimit cfg budget).toNat r.scan

def deletedBy (budget : ℤ) : ℕ × Ledger :=
  pruneDeliveriesSQL p.ledger r.now (intervalOf cfg.deliveryAge)
    (batchLimit cfg budget).toNat r.scan

def after : Ledger :=
  if r.applied then
    match p.stage with
    | .pruningAttempts budget _ => (markedBy cfg p r budget).2
    | .pruningDeliveries budget => (deletedBy cfg p r budget).2
    | .returned _ => p.ledger
  else p.ledger

/-- `LIMIT` must not be negative, so a statement with such a limit is never carried out. -/
def runnable : Bool :=
  match p.stage with
  | .pruningAttempts budget _ | .pruningDeliveries budget =>
      !r.applied || decide (0 ≤ batchLimit cfg budget)
  | .returned _ => true

/-- The pass takes a reply to the statement it waits for. Time does not run backwards, and no
one else writes. -/
def next : Option Pass :=
  if p.clock ≤ r.now ∧ r.scan.Perm p.ledger.deliveries ∧ runnable cfg p r = true then
    let q := { p with clock := r.now, ledger := after cfg p r }
    match p.stage, r.outcome with
    | .pruningAttempts budget spent, .answered =>
        let counts := (markedBy cfg p r budget).1
        some (q.attemptsBatch cfg budget spent counts.1 counts.2)
    | .pruningAttempts _ _, .failed why _ => some (q.failed (attemptsError why))
    | .pruningDeliveries budget, .answered =>
        some (q.deliveriesBatch cfg budget (deletedBy cfg p r budget).1)
    | .pruningDeliveries _, .failed (.query e) _ => some (q.failed ("prune deliveries: " ++ e))
    | _, _ => none
  else none

end Next

def note (cfg : Config) (p : Pass) (r : Reply) (log : List Change) : List Change :=
  log ++ [⟨r.now, p.ledger, after cfg p r⟩]

/-- One pass over a ledger, with a log of the changes it makes. -/
def sweep (cfg : Config) (L : Ledger) (start : ℤ) : System (Pass × List Change) Reply :=
  (System.ofStep (· = RunOnce cfg L start) (next cfg)).observe (note cfg) []

section Steps

variable {cfg : Config} {p q : Pass} {r : Reply}

theorem next_cases (h : next cfg p r = some q) :
    p.clock ≤ r.now ∧ r.scan.Perm p.ledger.deliveries ∧
      ((∃ budget spent, p.stage = .pruningAttempts budget spent ∧ r.applied = true ∧
          0 ≤ batchLimit cfg budget ∧
          q = Pass.attemptsBatch cfg { p with clock := r.now, ledger := after cfg p r } budget spent
            (markedBy cfg p r budget).1.1 (markedBy cfg p r budget).1.2) ∨
        (∃ budget, p.stage = .pruningDeliveries budget ∧ r.applied = true ∧
          0 ≤ batchLimit cfg budget ∧
          q = Pass.deliveriesBatch cfg { p with clock := r.now, ledger := after cfg p r } budget
            (deletedBy cfg p r budget).1) ∨
        ∃ e, q = Pass.failed { p with clock := r.now, ledger := after cfg p r } e) := by
  rw [next, Option.ite_none_right_eq_some] at h
  obtain ⟨⟨later, seen, ran⟩, taken⟩ := h
  refine ⟨later, seen, ?_⟩
  cases stage : p.stage with
  | pruningAttempts budget spent =>
    cases outcome : r.outcome with
    | answered =>
      have applied : r.applied = true := by rw [Reply.applied, outcome]
      have bounded : 0 ≤ batchLimit cfg budget := by simpa [runnable, stage, applied] using ran
      rw [stage, outcome] at taken
      exact .inl ⟨budget, spent, rfl, applied, bounded, (Option.some_injective _ taken).symm⟩
    | failed why applied =>
      rw [stage, outcome] at taken
      exact .inr (.inr ⟨_, (Option.some_injective _ taken).symm⟩)
  | pruningDeliveries budget =>
    cases outcome : r.outcome with
    | answered =>
      have applied : r.applied = true := by rw [Reply.applied, outcome]
      have bounded : 0 ≤ batchLimit cfg budget := by simpa [runnable, stage, applied] using ran
      rw [stage, outcome] at taken
      exact .inr (.inl ⟨budget, rfl, applied, bounded, (Option.some_injective _ taken).symm⟩)
    | failed why applied =>
      rw [stage, outcome] at taken
      cases why with
      | query e => exact .inr (.inr ⟨_, (Option.some_injective _ taken).symm⟩)
      | noCounts => exact absurd taken.symm (Option.some_ne_none _)
      | scan e => exact absurd taken.symm (Option.some_ne_none _)
  | returned e =>
    rw [stage] at taken
    exact absurd taken.symm (Option.some_ne_none _)

@[simp] theorem ledger_afterAttempts (spent : ℤ) :
    (p.afterAttempts cfg spent).ledger = p.ledger := by
  unfold Pass.afterAttempts
  dsimp only
  split <;> rfl

@[simp] theorem clock_afterAttempts (spent : ℤ) : (p.afterAttempts cfg spent).clock = p.clock := by
  unfold Pass.afterAttempts
  dsimp only
  split <;> rfl

@[simp] theorem ledger_attemptsLoop (budget spent : ℤ) :
    (p.attemptsLoop cfg budget spent).ledger = p.ledger := by
  unfold Pass.attemptsLoop
  split <;> simp

@[simp] theorem clock_attemptsLoop (budget spent : ℤ) :
    (p.attemptsLoop cfg budget spent).clock = p.clock := by
  unfold Pass.attemptsLoop
  split <;> simp

@[simp] theorem ledger_attemptsBatch (budget spent : ℤ) (attempts marked : ℕ) :
    (p.attemptsBatch cfg budget spent attempts marked).ledger = p.ledger := by
  unfold Pass.attemptsBatch
  dsimp only
  split <;> simp

@[simp] theorem clock_attemptsBatch (budget spent : ℤ) (attempts marked : ℕ) :
    (p.attemptsBatch cfg budget spent attempts marked).clock = p.clock := by
  unfold Pass.attemptsBatch
  dsimp only
  split <;> simp

@[simp] theorem ledger_deliveriesBatch (budget : ℤ) (n : ℕ) :
    (p.deliveriesBatch cfg budget n).ledger = p.ledger := by
  unfold Pass.deliveriesBatch Pass.deliveriesLoop
  dsimp only
  split_ifs <;> rfl

@[simp] theorem clock_deliveriesBatch (budget : ℤ) (n : ℕ) :
    (p.deliveriesBatch cfg budget n).clock = p.clock := by
  unfold Pass.deliveriesBatch Pass.deliveriesLoop
  dsimp only
  split_ifs <;> rfl

theorem next_ledger (h : next cfg p r = some q) : q.ledger = after cfg p r ∧ q.clock = r.now := by
  obtain ⟨-, -, ⟨budget, spent, -, -, -, rfl⟩ | ⟨budget, -, -, -, rfl⟩ | ⟨e, rfl⟩⟩ := next_cases h
  · simp
  · simp
  · exact ⟨rfl, rfl⟩

theorem batchLimit_le (cfg : Config) (budget : ℤ) : batchLimit cfg budget ≤ budget := by
  unfold batchLimit
  split <;> omega

theorem lawful_after (seen : r.scan.Perm p.ledger.deliveries) :
    (Change.mk r.now p.ledger (after cfg p r)).Lawful (intervalOf cfg.attemptAge)
      (intervalOf cfg.deliveryAge) := by
  unfold after
  split
  · split
    · exact (pruneAttemptsSQL_spec _ seen).1
    · exact (pruneDeliveriesSQL_spec _ seen).1
    · exact lawful_refl _ _
  · exact lawful_refl _ _

theorem markedBy_spec (budget : ℤ) (seen : r.scan.Perm p.ledger.deliveries) :
    let done := markedBy cfg p r budget
    (Change.mk r.now p.ledger done.2).touched = done.1.2 ∧
      done.1.2 ≤ (batchLimit cfg budget).toNat ∧
      (done.1.2 < (batchLimit cfg budget).toNat → ∀ d ∈ done.2.deliveries,
        d.status.Terminal = true → d.createdAt < r.now - intervalOf cfg.attemptAge →
          d.attemptsPrunedAt ≠ none) :=
  (pruneAttemptsSQL_spec (intervalOf cfg.deliveryAge) seen).2

theorem deletedBy_spec (budget : ℤ) (seen : r.scan.Perm p.ledger.deliveries) :
    let done := deletedBy cfg p r budget
    (Change.mk r.now p.ledger done.2).touched = done.1 ∧
      done.1 ≤ (batchLimit cfg budget).toNat ∧
      (done.1 < (batchLimit cfg budget).toNat → ∀ d ∈ done.2.deliveries,
        d.status.Terminal = true → ¬d.createdAt < r.now - intervalOf cfg.deliveryAge) :=
  (pruneDeliveriesSQL_spec (intervalOf cfg.attemptAge) seen).2

theorem after_attempts {budget spent : ℤ} (stage : p.stage = .pruningAttempts budget spent)
    (applied : r.applied = true) : after cfg p r = (markedBy cfg p r budget).2 := by
  rw [after, if_pos applied, stage]

theorem after_deliveries {budget : ℤ} (stage : p.stage = .pruningDeliveries budget)
    (applied : r.applied = true) : after cfg p r = (deletedBy cfg p r budget).2 := by
  rw [after, if_pos applied, stage]

theorem touched_after_le (cfg : Config) {budget : ℤ} (seen : r.scan.Perm p.ledger.deliveries)
    (stage : (∃ spent, p.stage = .pruningAttempts budget spent) ∨
      p.stage = .pruningDeliveries budget) :
    (Change.mk r.now p.ledger (after cfg p r)).touched ≤ (batchLimit cfg budget).toNat := by
  cases applied : r.applied with
  | false =>
    have untouched : after cfg p r = p.ledger := by rw [after, applied, if_neg Bool.false_ne_true]
    rw [untouched, touched_refl]
    exact Nat.zero_le _
  | true =>
    obtain ⟨spent, here⟩ | here := stage
    · obtain ⟨touched, le, -⟩ := markedBy_spec budget seen
      rw [after_attempts here applied]
      exact touched.trans_le le
    · obtain ⟨touched, le, -⟩ := deletedBy_spec budget seen
      rw [after_deliveries here applied]
      exact touched.trans_le le

end Steps

section Budget

variable {cfg : Config} {p : Pass} {total budget spent : ℤ}

/-- How the deliveries touched so far and the rest of the budget add up. -/
def Accounts (cfg : Config) (total : ℤ) : Stage → Prop
  | .pruningAttempts budget spent =>
      0 < budget ∧ total = spent ∧ budget + spent = cfg.maxDeletesPerRun
  | .pruningDeliveries budget => 0 < budget ∧ total + budget = cfg.maxDeletesPerRun
  | .returned _ => 0 ≤ cfg.maxDeletesPerRun → total ≤ cfg.maxDeletesPerRun

theorem Accounts.le {stage : Stage} (nonneg : 0 ≤ cfg.maxDeletesPerRun)
    (accounts : Accounts cfg total stage) : total ≤ cfg.maxDeletesPerRun := by
  cases stage with
  | pruningAttempts budget spent =>
    obtain ⟨positive, rfl, sum⟩ := accounts
    omega
  | pruningDeliveries budget =>
    obtain ⟨positive, sum⟩ := accounts
    omega
  | returned e => exact accounts nonneg

theorem accounts_afterAttempts (within : 0 ≤ cfg.maxDeletesPerRun → spent ≤ cfg.maxDeletesPerRun) :
    Accounts cfg spent (p.afterAttempts cfg spent).stage := by
  unfold Pass.afterAttempts
  dsimp only
  split_ifs with none_left
  · exact within
  · exact ⟨by omega, by omega⟩

theorem accounts_attemptsLoop (sum : budget + spent = cfg.maxDeletesPerRun)
    (within : 0 ≤ cfg.maxDeletesPerRun → spent ≤ cfg.maxDeletesPerRun) :
    Accounts cfg spent (p.attemptsLoop cfg budget spent).stage := by
  unfold Pass.attemptsLoop
  split_ifs with some_left
  · exact ⟨some_left, rfl, sum⟩
  · exact accounts_afterAttempts within

theorem accounts_attemptsBatch {attempts marked : ℕ}
    (before : Accounts cfg total (.pruningAttempts budget spent))
    (le : marked ≤ (batchLimit cfg budget).toNat) :
    Accounts cfg (total + marked) (p.attemptsBatch cfg budget spent attempts marked).stage := by
  obtain ⟨positive, rfl, sum⟩ := before
  have bound := batchLimit_le cfg budget
  unfold Pass.attemptsBatch
  dsimp only
  split_ifs with short
  · exact accounts_afterAttempts (by omega)
  · exact accounts_attemptsLoop (by omega) (by omega)

theorem accounts_deliveriesBatch {n : ℕ} (before : Accounts cfg total (.pruningDeliveries budget))
    (le : n ≤ (batchLimit cfg budget).toNat) :
    Accounts cfg (total + n) (p.deliveriesBatch cfg budget n).stage := by
  obtain ⟨positive, sum⟩ := before
  have bound := batchLimit_le cfg budget
  have within : 0 ≤ cfg.maxDeletesPerRun → total + n ≤ cfg.maxDeletesPerRun := by omega
  unfold Pass.deliveriesBatch Pass.deliveriesLoop
  dsimp only
  split_ifs with short some_left
  · exact within
  · exact ⟨some_left, by omega⟩
  · exact within

end Budget

section Coverage

variable (cfg : Config) (start : ℤ) (L : Ledger)

/-- Every terminal delivery that was past the attempt horizon at the start is marked. -/
def AttemptsSwept : Prop := ∀ d ∈ L.deliveries, d.status.Terminal = true →
  d.createdAt < start - intervalOf cfg.attemptAge → d.attemptsPrunedAt ≠ none

/-- None is left that was past the delivery horizon. -/
def DeliveriesSwept : Prop := ∀ d ∈ L.deliveries, d.status.Terminal = true →
  ¬d.createdAt < start - intervalOf cfg.deliveryAge

/-- What is known at each stage about the deliveries that were due at the start. -/
def Swept (truncated : Bool) : Stage → Prop
  | .pruningAttempts _ _ => True
  | .pruningDeliveries _ => AttemptsSwept cfg start L
  | .returned none => truncated = false → AttemptsSwept cfg start L ∧ DeliveriesSwept cfg start L
  | .returned (some _) => True

variable {cfg start L} {p : Pass} {budget spent : ℤ}

theorem swept_afterAttempts (swept : cfg.maxDeletesPerRun - spent ≤ 0 ∨ AttemptsSwept cfg start L) :
    Swept cfg start L (p.afterAttempts cfg spent).report.truncated
      (p.afterAttempts cfg spent).stage := by
  unfold Pass.afterAttempts
  dsimp only
  split_ifs with none_left
  · exact fun untruncated => Bool.noConfusion untruncated
  · exact swept.resolve_left none_left

theorem swept_attemptsLoop (sum : budget + spent = cfg.maxDeletesPerRun) :
    Swept cfg start L (p.attemptsLoop cfg budget spent).report.truncated
      (p.attemptsLoop cfg budget spent).stage := by
  unfold Pass.attemptsLoop
  split_ifs with some_left
  · trivial
  · exact swept_afterAttempts (.inl (by omega))

theorem swept_attemptsBatch {attempts marked : ℕ} (sum : budget + spent = cfg.maxDeletesPerRun)
    (short : marked < batchLimit cfg budget → AttemptsSwept cfg start L) :
    Swept cfg start L (p.attemptsBatch cfg budget spent attempts marked).report.truncated
      (p.attemptsBatch cfg budget spent attempts marked).stage := by
  unfold Pass.attemptsBatch
  dsimp only
  split_ifs with below
  · exact swept_afterAttempts (.inr (short below))
  · exact swept_attemptsLoop (by omega)

theorem swept_deliveriesBatch {n : ℕ} (attempts : AttemptsSwept cfg start L)
    (short : n < batchLimit cfg budget → DeliveriesSwept cfg start L) :
    Swept cfg start L (p.deliveriesBatch cfg budget n).report.truncated
      (p.deliveriesBatch cfg budget n).stage := by
  unfold Pass.deliveriesBatch Pass.deliveriesLoop
  dsimp only
  split_ifs with below some_left
  · exact fun _ => ⟨attempts, short below⟩
  · exact attempts
  · exact fun untruncated => Bool.noConfusion untruncated

theorem attemptsSwept_of_lawful {c : Change} {a b : ℤ} (lawful : c.Lawful a b)
    (swept : AttemptsSwept cfg start c.before) : AttemptsSwept cfg start c.after := by
  intro r hr terminal old unmarked
  obtain ⟨d, hd, -, status, created, fresh⟩ := lawful.kept r hr
  exact swept d hd (status ▸ terminal) (created ▸ old) (fresh unmarked)

end Coverage

section Run

variable (cfg : Config) (L : Ledger) (start : ℤ)

/-- What holds of a pass and its log from the first statement to the last. -/
structure Invariant (s : Pass × List Change) : Prop where
  clock : start ≤ s.1.clock
  lawful : ∀ c ∈ s.2, c.Lawful (intervalOf cfg.attemptAge) (intervalOf cfg.deliveryAge)
  cleared : ∀ c ∈ s.2, ∀ d ∈ c.marked, ∀ a ∈ s.1.ledger.attempts, a.deliveryId ≠ d.id
  kept : ∀ r ∈ s.1.ledger.deliveries,
    ∃ d ∈ L.deliveries, d.id = r.id ∧ d.status = r.status ∧ d.createdAt = r.createdAt
  accounts : Accounts cfg ((s.2.map Change.touched).sum : ℕ) s.1.stage
  swept : Swept cfg start s.1.ledger s.1.report.truncated s.1.stage

theorem invariant_start : Invariant cfg L start (RunOnce cfg L start, []) where
  clock := by simp [RunOnce]
  lawful := List.forall_mem_nil _
  cleared := List.forall_mem_nil _
  kept := by
    simp only [RunOnce, ledger_attemptsLoop]
    exact fun r hr => ⟨r, hr, rfl, rfl, rfl⟩
  accounts := by
    show Accounts cfg 0 _
    exact accounts_attemptsLoop (Int.add_zero _) id
  swept := swept_attemptsLoop (by omega)

variable {cfg L start}

theorem accounts_next {p q : Pass} {r : Reply} {total : ℤ} (before : Accounts cfg total p.stage)
    (h : next cfg p r = some q) :
    Accounts cfg (total + (Change.mk r.now p.ledger (after cfg p r)).touched) q.stage := by
  obtain ⟨-, seen, ⟨budget, spent, stage, applied, -, rfl⟩ | ⟨budget, stage, applied, -, rfl⟩ |
    ⟨e, rfl⟩⟩ := next_cases h
  · obtain ⟨touched, le, -⟩ := markedBy_spec budget seen
    rw [stage] at before
    rw [after_attempts stage applied, touched]
    exact accounts_attemptsBatch before le
  · obtain ⟨touched, le, -⟩ := deletedBy_spec budget seen
    rw [stage] at before
    rw [after_deliveries stage applied, touched]
    exact accounts_deliveriesBatch before le
  · -- the batch that fails may have been carried out, and its limit was within the budget
    intro nonneg
    cases stage : p.stage with
    | pruningAttempts budget spent =>
      have le := touched_after_le cfg seen (.inl ⟨spent, stage⟩)
      have bound := batchLimit_le cfg budget
      rw [stage] at before
      obtain ⟨positive, rfl, sum⟩ := before
      omega
    | pruningDeliveries budget =>
      have le := touched_after_le cfg seen (.inr stage)
      have bound := batchLimit_le cfg budget
      rw [stage] at before
      obtain ⟨positive, sum⟩ := before
      omega
    | returned e =>
      have untouched : after cfg p r = p.ledger := by
        rw [after, stage]
        split <;> rfl
      rw [stage] at before
      rw [untouched, touched_refl]
      simpa using before nonneg

theorem swept_next {p q : Pass} {r : Reply} {total : ℤ} (since : start ≤ p.clock)
    (accounts : Accounts cfg total p.stage)
    (before : Swept cfg start p.ledger p.report.truncated p.stage) (h : next cfg p r = some q) :
    Swept cfg start q.ledger q.report.truncated q.stage := by
  rw [(next_ledger h).1]
  obtain ⟨later, seen, ⟨budget, spent, stage, applied, -, rfl⟩ | ⟨budget, stage, applied, -, rfl⟩ |
    ⟨e, rfl⟩⟩ := next_cases h
  · rw [stage] at accounts
    refine swept_attemptsBatch accounts.2.2 fun short d hd terminal old => ?_
    rw [after_attempts stage applied] at hd
    exact (markedBy_spec budget seen).2.2 (by omega) d hd terminal (by omega)
  · rw [stage] at before
    refine swept_deliveriesBatch (attemptsSwept_of_lawful (lawful_after seen) before)
      fun short d hd terminal old => ?_
    rw [after_deliveries stage applied] at hd
    exact (deletedBy_spec budget seen).2.2 (by omega) d hd terminal (by omega)
  · trivial

theorem invariant_step {s t : Pass × List Change} {r : Reply} (before : Invariant cfg L start s)
    (edge : (sweep cfg L start).step s r t) : Invariant cfg L start t := by
  obtain ⟨p, log⟩ := s
  obtain ⟨q, log'⟩ := t
  obtain ⟨h, rfl⟩ : next cfg p r = some q ∧
      log' = log ++ [Change.mk r.now p.ledger (after cfg p r)] := edge
  obtain ⟨later, seen, -⟩ := next_cases h
  obtain ⟨ledger, clock⟩ := next_ledger h
  have lawful : (Change.mk r.now p.ledger (after cfg p r)).Lawful (intervalOf cfg.attemptAge)
      (intervalOf cfg.deliveryAge) := lawful_after seen
  constructor
  · exact (before.clock.trans later).trans_eq clock.symm
  · intro c hc
    obtain old | new := List.mem_append.mp hc
    · exact before.lawful c old
    · exact List.mem_singleton.mp new ▸ lawful
  · intro c hc d hd a ha
    rw [ledger] at ha
    obtain old | new := List.mem_append.mp hc
    · exact before.cleared c old d hd a (lawful.fewer ha)
    · obtain rfl := List.mem_singleton.mp new
      exact lawful.cleared d hd a ha
  · intro x hx
    rw [ledger] at hx
    obtain ⟨y, hy, id, status, created, -⟩ := lawful.kept x hx
    obtain ⟨d, hd, id', status', created'⟩ := before.kept y hy
    exact ⟨d, hd, id'.trans id, status'.trans status, created'.trans created⟩
  · have sum := accounts_next before.accounts h
    simpa using sum
  · exact swept_next before.clock before.accounts before.swept h

theorem invariant_of_reachable {s : Pass × List Change} (h : Reachable (sweep cfg L start) s) :
    Invariant cfg L start s := by
  refine h.invariant ?_ fun s r t => invariant_step
  rintro ⟨p, log⟩ ⟨rfl, rfl⟩
  exact invariant_start cfg L start

/-- A pass prunes only what is terminal and past its horizon, stays within its budget, leaves no
attempt of a marked delivery, and unless it says that it stopped early it has dealt with all
that was due when it began. -/
theorem prunes_what_is_due (valid : Validate cfg = none) (wholeAttempts : second ∣ cfg.attemptAge)
    (wholeDeliveries : second ∣ cfg.deliveryAge) {p : Pass} {log : List Change}
    (h : Reachable (sweep cfg L start) (p, log)) :
    (∀ c ∈ log,
      (∀ d ∈ c.marked, d.status.Terminal = true ∧ d.createdAt < c.now - cfg.attemptAge) ∧
      (∀ d ∈ c.deleted, d.status.Terminal = true ∧ d.createdAt < c.now - cfg.deliveryAge) ∧
      ∀ a ∈ c.lost, (∃ d ∈ c.marked, d.id = a.deliveryId) ∨ ∃ d ∈ c.deleted, d.id = a.deliveryId) ∧
    (cfg.enabled = true ∨ 0 ≤ cfg.maxDeletesPerRun →
      ((log.map Change.touched).sum : ℤ) ≤ cfg.maxDeletesPerRun) ∧
    (∀ c ∈ log, ∀ d ∈ c.marked, ∀ a ∈ p.ledger.attempts, a.deliveryId ≠ d.id) ∧
    (p.stage = .returned none → p.report.truncated = false →
      ∀ d ∈ L.deliveries, d.status.Terminal = true →
        (d.createdAt < start - cfg.deliveryAge → ∀ r ∈ p.ledger.deliveries, r.id ≠ d.id) ∧
        (d.createdAt < start - cfg.attemptAge →
          ∀ r ∈ p.ledger.deliveries, r.id = d.id → r.attemptsPrunedAt ≠ none)) := by
  have inv := invariant_of_reachable h
  have original : ∀ d ∈ L.deliveries, ∀ r ∈ p.ledger.deliveries, r.id = d.id →
      r.status = d.status ∧ r.createdAt = d.createdAt := by
    intro d hd r hr same
    obtain ⟨e, he, id, status, created⟩ := inv.kept r hr
    obtain rfl := List.inj_on_of_nodup_map L.nodup he hd (id.trans same)
    exact ⟨status.symm, created.symm⟩
  refine ⟨?_, ?_, inv.cleared, ?_⟩
  · intro c hc
    have lawful := inv.lawful c hc
    rw [intervalOf_of_whole wholeAttempts, intervalOf_of_whole wholeDeliveries] at lawful
    exact ⟨lawful.marked, lawful.deleted, lawful.lost⟩
  · intro bounded
    have nonneg : 0 ≤ cfg.maxDeletesPerRun := by
      obtain enabled | nonneg := bounded
      · exact (pos_of_validate enabled valid).2.le
      · exact nonneg
    exact Accounts.le nonneg inv.accounts
  · intro returned untruncated d hd terminal
    have swept := inv.swept
    rw [returned] at swept
    obtain ⟨attempts, deliveries⟩ := swept untruncated
    constructor
    · intro old r hr same
      obtain ⟨status, created⟩ := original d hd r hr same
      refine deliveries r hr (status ▸ terminal) ?_
      rwa [created, intervalOf_of_whole wholeDeliveries]
    · intro old r hr same
      obtain ⟨status, created⟩ := original d hd r hr same
      refine attempts r hr (status ▸ terminal) ?_
      rwa [created, intervalOf_of_whole wholeAttempts]

/-- A delivery of the first instant, with its one attempt. -/
def oneDelivery : Ledger where
  deliveries := [⟨"dlv_1", .succeeded, 0, none⟩]
  attempts := [⟨"att_1", "dlv_1"⟩]
  nodup := List.nodup_singleton _
  owned := fun _ ha => List.mem_singleton.mp ha ▸ List.mem_singleton_self _

/-- The answers to the two statements that such a ledger takes. -/
def quarterReplies : List Reply :=
  [⟨91 * 24 * hour, [⟨"dlv_1", .succeeded, 0, none⟩], .answered⟩,
    ⟨91 * 24 * hour, [⟨"dlv_1", .succeeded, 0, some (91 * 24 * hour)⟩], .answered⟩]

/-- After a quarter the shipped policy removes it. -/
theorem default_pass_prunes : ∃ p log,
    Reachable (sweep DefaultConfig oneDelivery (91 * 24 * hour)) (p, log) ∧
      p.stage = .returned none ∧ p.report.truncated = false ∧ log.length = 2 ∧
      ∀ r ∈ p.ledger.deliveries, r.id ≠ "dlv_1" := by
  let finished (s : Pass × List Change) : Bool :=
    decide (s.1.stage = .returned none ∧ s.1.report.truncated = false ∧ s.2.length = 2)
  have run : (execute (observeNext (next DefaultConfig) (note DefaultConfig))
      (RunOnce DefaultConfig oneDelivery (91 * 24 * hour), []) quarterReplies).any
      finished = true := by
    decide +kernel
  have reach : ∃ s, Reachable (sweep DefaultConfig oneDelivery (91 * 24 * hour)) s ∧
      finished s = true := by
    rw [sweep, ofStep_observe]
    exact exists_reachable_of_execute ⟨rfl, rfl⟩ run
  obtain ⟨⟨p, log⟩, reached, done⟩ := reach
  obtain ⟨returned, untruncated, twice⟩ := of_decide_eq_true done
  have whole : ∀ n : ℤ, second ∣ n * hour := fun n => Dvd.dvd.mul_left (by decide) n
  have due := (prunes_what_is_due rfl (whole (60 * 24)) (whole (90 * 24)) reached).2.2.2
  exact ⟨p, log, reached, returned, untruncated, twice,
    (due returned untruncated _ (List.mem_singleton_self _) rfl).1 (by decide)⟩

/-- A policy that is switched off need not make sense, and a pass may still be asked for. -/
theorem disabled_pass_exceeds_budget : ∃ cfg : Config, Validate cfg = none ∧
    second ∣ cfg.attemptAge ∧ second ∣ cfg.deliveryAge ∧
      ∃ p log, Reachable (sweep cfg oneDelivery 0) (p, log) ∧ p.stage = .returned none ∧
        ¬((log.map Change.touched).sum : ℤ) ≤ cfg.maxDeletesPerRun :=
  ⟨{ DefaultConfig with enabled := false, maxDeletesPerRun := -1 }, rfl, by decide, by decide,
    _, _, .start ⟨rfl, rfl⟩, rfl, by decide⟩

end Run

section Termination

variable {cfg : Config} {L : Ledger} {start : ℤ} {p q : Pass} {r : Reply}

/-- The statements that a pass can still issue: every one but the last of the first loop spends. -/
def remaining : Stage → ℤ
  | .pruningAttempts budget _ => budget + 1
  | .pruningDeliveries budget => budget
  | .returned _ => 0

theorem batchLimit_pos {budget : ℤ} (positive : 0 < cfg.batchSize) (some_left : 0 < budget) :
    0 < batchLimit cfg budget := by
  unfold batchLimit
  split
  · exact some_left
  · exact positive

theorem remaining_afterAttempts (spent : ℤ) :
    remaining (p.afterAttempts cfg spent).stage ≤ max 0 (cfg.maxDeletesPerRun - spent) := by
  unfold Pass.afterAttempts
  dsimp only
  split_ifs with none_left
  · exact le_max_left _ _
  · exact le_max_right _ _

theorem remaining_next {total : ℕ} (positive : 0 < cfg.batchSize)
    (accounts : Accounts cfg total p.stage) (h : next cfg p r = some q) :
    remaining q.stage < remaining p.stage := by
  obtain ⟨-, -, ⟨budget, spent, stage, -, -, rfl⟩ | ⟨budget, stage, -, -, rfl⟩ | ⟨e, rfl⟩⟩ :=
    next_cases h
  · rw [stage] at accounts
    obtain ⟨some_left, rfl, sum⟩ := accounts
    have bound := batchLimit_pos positive some_left
    rw [stage, remaining]
    unfold Pass.attemptsBatch Pass.attemptsLoop
    dsimp only
    split_ifs with short more
    · exact (remaining_afterAttempts _).trans_lt (by omega)
    · simp only [remaining]
      omega
    · exact (remaining_afterAttempts _).trans_lt (by omega)
  · rw [stage] at accounts
    obtain ⟨some_left, sum⟩ := accounts
    have bound := batchLimit_pos positive some_left
    rw [stage, remaining]
    unfold Pass.deliveriesBatch Pass.deliveriesLoop
    dsimp only
    split_ifs with short more
    · exact some_left
    · simp only [remaining]
      omega
    · exact some_left
  · show 0 < remaining p.stage
    cases stage : p.stage with
    | pruningAttempts budget spent =>
      rw [stage] at accounts
      exact lt_add_of_pos_of_lt accounts.1 Int.one_pos
    | pruningDeliveries budget =>
      rw [stage] at accounts
      exact accounts.1
    | returned e =>
      rw [next, stage] at h
      simp at h

theorem remaining_nonneg {stage : Stage} {total : ℕ} (accounts : Accounts cfg total stage) :
    0 ≤ remaining stage := by
  cases stage with
  | pruningAttempts budget spent =>
    obtain ⟨some_left, rfl, sum⟩ := accounts
    rw [remaining]
    omega
  | pruningDeliveries budget => exact accounts.1.le
  | returned e => exact le_refl 0

theorem length_le_of_run {s t : Pass × List Change} {replies : List Reply}
    (positive : 0 < cfg.batchSize) (inv : Invariant cfg L start s)
    (run : Run (sweep cfg L start) s replies t) :
    (replies.length : ℤ) ≤ remaining s.1.stage := by
  induction run with
  | nil s => exact remaining_nonneg inv.accounts
  | cons edge _ ih =>
    have less := remaining_next positive inv.accounts edge.1
    have rest := ih (invariant_step inv edge)
    rw [List.length_cons]
    push_cast
    omega

theorem exists_next (positive : 0 < cfg.batchSize) {total : ℕ}
    (accounts : Accounts cfg total p.stage)
    (running : ∀ e, p.stage ≠ .returned e) : ∃ r q, next cfg p r = some q := by
  refine ⟨⟨p.clock, p.ledger.deliveries, .answered⟩, ?_⟩
  cases stage : p.stage with
  | pruningAttempts budget spent =>
    rw [stage] at accounts
    simp [next, runnable, stage, (batchLimit_pos positive accounts.1).le]
  | pruningDeliveries budget =>
    rw [stage] at accounts
    simp [next, runnable, stage, (batchLimit_pos positive accounts.1).le]
  | returned e => exact absurd stage (running e)

/-- However the database answers, and whichever of its statements fail, a pass under an enabled
valid policy issues at most one statement more than it may delete rows; and until it has returned
it waits for one that the database can answer. -/
theorem pass_returns (enabled : cfg.enabled = true) (valid : Validate cfg = none)
    {replies : List Reply} {s : Pass × List Change}
    (run : Run (sweep cfg L start) (RunOnce cfg L start, []) replies s) :
    (replies.length : ℤ) ≤ cfg.maxDeletesPerRun + 1 ∧
      ((∀ e, s.1.stage ≠ .returned e) → ∃ r t, (sweep cfg L start).step s r t) := by
  obtain ⟨batch, budget⟩ := pos_of_validate enabled valid
  constructor
  · have first : (RunOnce cfg L start).stage = .pruningAttempts cfg.maxDeletesPerRun 0 := by
      rw [RunOnce, Pass.attemptsLoop, if_pos budget]
    have bound := length_le_of_run batch (invariant_start cfg L start) run
    rwa [first] at bound
  · intro running
    have begun : Reachable (sweep cfg L start) (RunOnce cfg L start, []) := .start ⟨rfl, rfl⟩
    obtain ⟨r, q, answered⟩ :=
      exists_next batch (invariant_of_reachable (begun.run run)).accounts running
    exact ⟨r, (q, note cfg s.1 r s.2), answered, rfl⟩

/-- The shipped policy waits for its second statement, and has returned after it. -/
theorem default_pass_returns :
    let start : ℤ := 91 * 24 * hour
    ∃ s t : Pass × List Change,
      Run (sweep DefaultConfig oneDelivery start) (RunOnce DefaultConfig oneDelivery start, [])
        quarterReplies t ∧ t.1.stage = .returned none ∧
      (quarterReplies.length : ℤ) ≤ DefaultConfig.maxDeletesPerRun + 1 ∧ s.2.length = 1 ∧
      ∃ r u, (sweep DefaultConfig oneDelivery start).step s r u := by
  intro start
  have begun (k : ℕ) (test : Pass × List Change → Bool)
      (run : (execute (observeNext (next DefaultConfig) (note DefaultConfig))
        (RunOnce DefaultConfig oneDelivery start, []) (quarterReplies.take k)).any test = true) :
      ∃ s, Run (sweep DefaultConfig oneDelivery start)
        (RunOnce DefaultConfig oneDelivery start, []) (quarterReplies.take k) s ∧
          test s = true := by
    rw [sweep, ofStep_observe]
    exact exists_run_of_execute run
  obtain ⟨s, one, waits⟩ := begun 1
    (fun s => decide (s.1.stage = .pruningDeliveries 49999 ∧ s.2.length = 1)) (by decide +kernel)
  obtain ⟨t, two, done⟩ :=
    begun 2 (fun s => decide (s.1.stage = .returned none)) (by decide +kernel)
  obtain ⟨stage, once⟩ := of_decide_eq_true waits
  have running : ∀ e, s.1.stage ≠ .returned e := by simp [stage]
  exact ⟨s, t, two, of_decide_eq_true done, (pass_returns rfl rfl two).1, once,
    (pass_returns rfl rfl one).2 running⟩

end Termination

end Hookubit.Retention.Sweeper
