/- sources: worker/breaker.go, worker/store.go (endpoint_health statements),
     endpoints.service.ts armBreakerProbe
   digest: The pure breaker rules and the health-row statements that apply them. -/

import Hookubit.Postgres.Clock
import Mathlib.Data.Rat.Floor

/-!
`NextHealth` is the breaker's transition function in Go; `recordSuccessSQL`,
`recordFailureSQL` and `claimProbeSQL` are the statements that move the stored row. The
cooldown is computed in exact rationals where the source uses float64, and the columns
that no rule reads (`last_success_at`, `last_failure_at`, `updated_at`) are left out.
A Go zero `time.Time` and an SQL `NULL` are both `none`.
-/

set_option autoImplicit false
set_option relaxedAutoImplicit false

namespace Hookubit.Worker.Breaker

open Postgres.Clock

inductive HealthState
  | healthy | degraded | opened | halfOpen
  deriving DecidableEq

/-- One `endpoint_health` row, as `Health` reads it. -/
structure Health where
  state : HealthState
  consecutiveFailures : ℤ
  consecutiveSuccesses : ℤ
  openedAt : Option ℤ
  probeAfter : Option ℤ
  deriving DecidableEq

/-- What a missing row reads as: the endpoint has never failed. -/
def Health.initial : Health := ⟨.healthy, 0, 0, none, none⟩

structure BreakerConfig where
  degradedThreshold : ℤ
  openThreshold : ℤ
  baseCooldown : ℤ
  maxCooldown : ℤ
  halfOpenSuccesses : ℤ
  halfOpenTTL : ℤ
  jitterRatio : ℚ
  deriving DecidableEq

def DefaultBreakerConfig : BreakerConfig where
  degradedThreshold := 3
  openThreshold := 5
  baseCooldown := 30 * second
  maxCooldown := 10 * minute
  halfOpenSuccesses := 1
  halfOpenTTL := minute
  jitterRatio := 1 / 5

/-- Unset fields take their defaults, in the source's order of assignments. -/
def BreakerConfig.withDefaults (c : BreakerConfig) : BreakerConfig :=
  let d := DefaultBreakerConfig
  let degradedThreshold :=
    if c.degradedThreshold ≤ 0 then d.degradedThreshold else c.degradedThreshold
  let openThreshold := if c.openThreshold ≤ 0 then d.openThreshold else c.openThreshold
  let degradedThreshold :=
    if openThreshold < degradedThreshold then openThreshold else degradedThreshold
  let baseCooldown := if c.baseCooldown ≤ 0 then d.baseCooldown else c.baseCooldown
  let maxCooldown := if c.maxCooldown < baseCooldown then d.maxCooldown else c.maxCooldown
  let maxCooldown := if maxCooldown < baseCooldown then baseCooldown else maxCooldown
  { degradedThreshold := degradedThreshold
    openThreshold := openThreshold
    baseCooldown := baseCooldown
    maxCooldown := maxCooldown
    halfOpenSuccesses :=
      if c.halfOpenSuccesses ≤ 0 then d.halfOpenSuccesses else c.halfOpenSuccesses
    halfOpenTTL := if c.halfOpenTTL ≤ 0 then d.halfOpenTTL else c.halfOpenTTL
    jitterRatio := if c.jitterRatio < 0 ∨ 1 < c.jitterRatio then d.jitterRatio else c.jitterRatio }

theorem BreakerConfig.withDefaults_bounds (c : BreakerConfig) :
    1 ≤ c.withDefaults.degradedThreshold ∧
      c.withDefaults.degradedThreshold ≤ c.withDefaults.openThreshold ∧
      1 ≤ c.withDefaults.halfOpenSuccesses := by
  simp only [BreakerConfig.withDefaults, DefaultBreakerConfig]
  refine ⟨?_, ?_, ?_⟩ <;> split_ifs <;> omega

theorem BreakerConfig.withDefaults_withDefaults (c : BreakerConfig) :
    c.withDefaults.withDefaults = c.withDefaults := by
  simp only [BreakerConfig.withDefaults, DefaultBreakerConfig, BreakerConfig.mk.injEq, second,
    minute]
  refine ⟨?_, ?_, ?_, ?_, ?_, ?_, ?_⟩
  case refine_7 => split_ifs <;> rfl
  all_goals (split_ifs <;> omega)

/-- How long the breaker stays shut: doubling past the open threshold, capped, jittered,
and never below one second. -/
def BreakerConfig.Cooldown (c : BreakerConfig) (failures : ℤ) (jitter : ℚ) : ℤ :=
  let c := c.withDefaults
  let overBy := failures - c.openThreshold
  let overBy := if overBy < 0 then 0 else overBy
  let overBy := if 20 < overBy then 20 else overBy
  let d : ℚ := c.baseCooldown * 2 ^ overBy.toNat
  let d := if (c.maxCooldown : ℚ) < d then (c.maxCooldown : ℚ) else d
  let d := d * jitter
  let d := if d < (second : ℚ) then (second : ℚ) else d
  ⌊d⌋

/-- The breaker's transition function. -/
def NextHealth (cur : Health) (success : Bool) (cfg : BreakerConfig) (now : ℤ) (jitter : ℚ) :
    Health :=
  let cfg := cfg.withDefaults
  if success then
    let next := { cur with
      consecutiveFailures := 0, consecutiveSuccesses := cur.consecutiveSuccesses + 1 }
    if cur.state = .halfOpen ∧ next.consecutiveSuccesses < cfg.halfOpenSuccesses then
      { next with state := .halfOpen, probeAfter := some now }
    else { next with state := .healthy, openedAt := none, probeAfter := none }
  else
    let next := { cur with
      consecutiveSuccesses := 0, consecutiveFailures := cur.consecutiveFailures + 1 }
    if cur.state = .halfOpen ∨ cfg.openThreshold ≤ next.consecutiveFailures then
      { next with
        state := .opened
        openedAt := some (next.openedAt.getD now)
        probeAfter := some (now + cfg.Cooldown next.consecutiveFailures jitter) }
    else if cfg.degradedThreshold ≤ next.consecutiveFailures then
      { next with state := .degraded }
    else next

/-- `claimProbeSQL`: the predicate that admits a probe is also the write that withdraws
the invitation. The success run is reset only on the way in from `open`. -/
def claimProbeSQL (h : Health) (ttl now : ℤ) : Option Health :=
  if (h.state = .opened ∨ h.state = .halfOpen) ∧ ∃ p ∈ h.probeAfter, p ≤ now then
    some { h with
      state := .halfOpen
      consecutiveSuccesses := if h.state = .opened then 0 else h.consecutiveSuccesses
      probeAfter := some (timestamp3 (now + intervalOf ttl)) }
  else none

/-- `ClaimProbe`: whether this worker won the slot, and the row afterwards. -/
def ClaimProbe (row : Option Health) (ttl now : ℤ) : Bool × Option Health :=
  match row.bind (claimProbeSQL · ttl now) with
  | some h => (true, some h)
  | none => (false, row)

/-- `recordSuccessSQL`: insert on the first outcome, update on every later one. -/
def recordSuccessSQL (row : Option Health) (halfOpenSuccesses now : ℤ) : Health :=
  match row with
  | none => ⟨.healthy, 0, 1, none, none⟩
  | some h =>
    let proving := h.state = .halfOpen ∧ h.consecutiveSuccesses + 1 < halfOpenSuccesses
    { state := if proving then .halfOpen else .healthy
      consecutiveFailures := 0
      consecutiveSuccesses := h.consecutiveSuccesses + 1
      openedAt := if proving then h.openedAt else none
      probeAfter := if proving then some (timestamp3 now) else none }

/-- The cooldown as `recordFailureSQL` computes it, in seconds on both sides. -/
def cooldownSQL (failures openThreshold : ℤ) (maxSecs baseSecs jitter : ℚ) : ℤ :=
  ⌊max 1 (min maxSecs (baseSecs * 2 ^ (min 20 (max 0 (failures - openThreshold))).toNat) * jitter)
    * (second : ℚ)⌋

/-- `recordFailureSQL`. The insert branch takes the state and the two instants that the
caller computed for a very first failure; the update branch works from the stored row. -/
def recordFailureSQL (row : Option Health) (firstState : HealthState)
    (firstOpenedAt firstProbeAfter : Option ℤ) (openThreshold degradedThreshold : ℤ)
    (maxSecs baseSecs jitter : ℚ) (now : ℤ) : Health :=
  match row with
  | none => ⟨firstState, 1, 0, firstOpenedAt.map timestamp3, firstProbeAfter.map timestamp3⟩
  | some h =>
    let opens := h.state = .halfOpen ∨ openThreshold ≤ h.consecutiveFailures + 1
    { state :=
        if opens then .opened
        else if degradedThreshold ≤ h.consecutiveFailures + 1 then .degraded
        else h.state
      consecutiveFailures := h.consecutiveFailures + 1
      consecutiveSuccesses := 0
      openedAt := if opens then some (h.openedAt.getD (timestamp3 now)) else h.openedAt
      probeAfter :=
        if opens then
          some (timestamp3 (now + cooldownSQL (h.consecutiveFailures + 1) openThreshold
            maxSecs baseSecs jitter))
        else h.probeAfter }

/-- `RecordOutcome`: `now` is the statement's clock, `appNow` the worker's. -/
def RecordOutcome (row : Option Health) (success : Bool) (cfg : BreakerConfig) (jitter : ℚ)
    (now appNow : ℤ) : Health :=
  let cfg := cfg.withDefaults
  let jitter := if jitter ≤ 0 then 1 else jitter
  if success then recordSuccessSQL row cfg.halfOpenSuccesses now
  else
    let first := NextHealth Health.initial false cfg appNow jitter
    recordFailureSQL row first.state (first.openedAt.map encodeTime)
      (first.probeAfter.map encodeTime) cfg.openThreshold cfg.degradedThreshold
      (cfg.maxCooldown / second) (cfg.baseCooldown / second) jitter now

theorem recordOutcome_failure_state (h : Health) (cfg : BreakerConfig) (jitter : ℚ)
    (now appNow : ℤ) :
    (RecordOutcome (some h) false cfg jitter now appNow).state =
      if h.state = .halfOpen ∨ cfg.withDefaults.openThreshold ≤ h.consecutiveFailures + 1 then
        .opened
      else if cfg.withDefaults.degradedThreshold ≤ h.consecutiveFailures + 1 then .degraded
      else h.state := rfl

theorem recordOutcome_first_failure_state (cfg : BreakerConfig) (jitter : ℚ) (now appNow : ℤ) :
    (RecordOutcome none false cfg jitter now appNow).state =
      if cfg.withDefaults.openThreshold ≤ 1 then .opened
      else if cfg.withDefaults.degradedThreshold ≤ 1 then .degraded
      else .healthy := by
  simp only [RecordOutcome, recordFailureSQL, NextHealth, Health.initial,
    BreakerConfig.withDefaults_withDefaults, Bool.false_eq_true, if_false, zero_add,
    reduceCtorEq, false_or]
  split_ifs <;> rfl

theorem recordOutcome_success_state (h : Health) (cfg : BreakerConfig) (jitter : ℚ)
    (now appNow : ℤ) :
    (RecordOutcome (some h) true cfg jitter now appNow).state =
      if h.state = .halfOpen ∧
          h.consecutiveSuccesses + 1 < cfg.withDefaults.halfOpenSuccesses then .halfOpen
      else .healthy := rfl

theorem recordOutcome_halfOpen {row : Option Health} {success : Bool} {cfg : BreakerConfig}
    {jitter : ℚ} {now appNow : ℤ}
    (half : (RecordOutcome row success cfg jitter now appNow).state = .halfOpen) :
    success = true ∧ ∃ h, row = some h ∧ h.state = .halfOpen ∧
      h.consecutiveSuccesses + 1 < cfg.withDefaults.halfOpenSuccesses := by
  cases row with
  | none =>
    cases success with
    | true => cases half
    | false =>
      rw [recordOutcome_first_failure_state] at half
      split_ifs at half
  | some h =>
    cases success with
    | true =>
      rw [recordOutcome_success_state] at half
      split at half
      · rename_i proving
        exact ⟨rfl, h, rfl, proving⟩
      · cases half
    | false =>
      rw [recordOutcome_failure_state] at half
      split_ifs at half with opens
      exact absurd (.inl half) opens

/-- `armBreakerProbe` writes one column, and only on a tripped breaker. -/
def armBreakerProbe (row : Option Health) (apiNow : ℤ) : Option Health :=
  row.map fun h =>
    if h.state = .opened ∨ h.state = .halfOpen then
      { h with probeAfter := some (timestamp3 (encodeTime apiNow)) }
    else h

/-- The states that `Allow` admits without asking for a probe. -/
def HealthState.admitted : HealthState → Bool
  | .healthy | .degraded => true
  | .opened | .halfOpen => false

theorem admitted_eq_false_iff (x : HealthState) :
    x.admitted = false ↔ x = .opened ∨ x = .halfOpen := by
  cases x <;> simp [HealthState.admitted]

theorem claimProbe_due {h : Health} {ttl now p : ℤ} (shut : h.state.admitted = false)
    (hp : h.probeAfter = some p) (passed : p ≤ now) :
    ClaimProbe (some h) ttl now = (true, some { h with
      state := .halfOpen
      consecutiveSuccesses := if h.state = .opened then 0 else h.consecutiveSuccesses
      probeAfter := some (timestamp3 (now + intervalOf ttl)) }) := by
  simp only [ClaimProbe, claimProbeSQL, Option.bind_some]
  rw [if_pos ⟨(admitted_eq_false_iff _).mp shut, p, hp, passed⟩]

theorem claimProbe_cases (row : Option Health) (ttl now : ℤ) :
    (∃ h p, row = some h ∧ h.state.admitted = false ∧ h.probeAfter = some p ∧ p ≤ now) ∨
      ClaimProbe row ttl now = (false, row) := by
  cases row with
  | none => exact .inr rfl
  | some h =>
    by_cases due : (h.state = .opened ∨ h.state = .halfOpen) ∧ ∃ p ∈ h.probeAfter, p ≤ now
    · obtain ⟨tripped, p, hp, passed⟩ := due
      exact .inl ⟨h, p, rfl, (admitted_eq_false_iff _).mpr tripped, hp, passed⟩
    · right
      simp only [ClaimProbe, claimProbeSQL, Option.bind_some, if_neg due]

structure Verdict where
  allowed : Bool
  probe : Bool
  retryAfter : Option ℤ
  state : HealthState
  deriving DecidableEq

/-- A jittered wait, never below one second. -/
def jittered (d : ℤ) (factor : ℚ) : ℤ := max second ⌊(d : ℚ) * factor⌋

/-- `Allow`. `health` is what the read returned and `claimed` what `ClaimProbe` answers if it
is asked; `none` stands for a store error, on which the breaker fails open. -/
def Allow (cfg : BreakerConfig) (health : Option Health) (claimed : Option Bool)
    (now : ℤ) (factor : ℚ) : Verdict :=
  match health with
  | none => ⟨true, false, none, .healthy⟩
  | some h =>
    if h.state.admitted then ⟨true, false, none, h.state⟩
    else
      match h.probeAfter with
      | none => ⟨false, false, some (now + jittered cfg.baseCooldown factor), h.state⟩
      | some p =>
        if now < p then ⟨false, false, some (p + jittered (cfg.baseCooldown / 4) factor), h.state⟩
        else
          match claimed with
          | none => ⟨true, false, none, h.state⟩
          | some false => ⟨false, false, some (now + jittered cfg.halfOpenTTL factor), .halfOpen⟩
          | some true => ⟨true, true, none, .halfOpen⟩

end Hookubit.Worker.Breaker
