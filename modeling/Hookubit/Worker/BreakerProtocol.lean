/- sources: worker/breaker.go, worker/store.go (endpoint_health statements),
     endpoints.service.ts armBreakerProbe
   digest: One health row under every order of outcomes, probe claims and operator re-arms. -/

import Hookubit.Automata.LabelledSystem
import Hookubit.Worker.Breaker

set_option autoImplicit false
set_option relaxedAutoImplicit false

namespace Hookubit.Worker.BreakerProtocol

open Automata.LabelledSystem Postgres.Clock Worker.Breaker

structure Endpoint where
  clock : ℤ
  row : Option Health
  deriving DecidableEq

/-- The three writers of the row, in two services, and the passing of time. An outcome
may belong to an attempt that started at any earlier moment. -/
inductive Op
  | tick (now : ℤ)
  | recordOutcome (success : Bool) (jitter : ℚ) (appNow : ℤ)
  | claimProbe
  | armBreakerProbe (apiNow : ℤ)
  deriving DecidableEq

def next (cfg : BreakerConfig) (s : Endpoint) : Op → Option Endpoint
  | .tick now => if s.clock ≤ now then some { s with clock := now } else none
  | .recordOutcome success jitter appNow =>
      some { s with row := some (RecordOutcome s.row success cfg jitter s.clock appNow) }
  | .claimProbe => some { s with row := (ClaimProbe s.row cfg.withDefaults.halfOpenTTL s.clock).2 }
  | .armBreakerProbe apiNow => some { s with row := armBreakerProbe s.row apiNow }

/-- Every run starts from no row. -/
def breaker (cfg : BreakerConfig) : System Endpoint Op :=
  .ofStep (fun s => s.row = none) (next cfg)

/-- `ClaimProbe` succeeds in this state. -/
def ProbeWon (cfg : BreakerConfig) (s : Endpoint) : Prop :=
  (ClaimProbe s.row cfg.withDefaults.halfOpenTTL s.clock).1 = true

variable {cfg : BreakerConfig}

theorem probeWon_iff {s : Endpoint} :
    ProbeWon cfg s ↔ ∃ g p, s.row = some g ∧ g.state.admitted = false ∧
      g.probeAfter = some p ∧ p ≤ s.clock := by
  constructor
  · intro won
    rcases claimProbe_cases s.row cfg.withDefaults.halfOpenTTL s.clock with due | lost
    · exact due
    · rw [ProbeWon, lost] at won
      cases won
  · rintro ⟨g, p, hg, shut, hp, passed⟩
    rw [ProbeWon, hg, claimProbe_due shut hp passed]

theorem next_cases {s t : Endpoint} {a : Op} (h : next cfg s a = some t) :
    (t.row = s.row ∧ s.clock ≤ t.clock ∧ ∀ success jitter appNow,
      a ≠ .recordOutcome success jitter appNow) ∨
    (∃ success jitter appNow, a = .recordOutcome success jitter appNow ∧ t.clock = s.clock ∧
      t.row = some (RecordOutcome s.row success cfg jitter s.clock appNow)) ∨
    (∃ g p, a = .claimProbe ∧ s.row = some g ∧ g.state.admitted = false ∧
      g.probeAfter = some p ∧ p ≤ s.clock ∧ t.clock = s.clock ∧
      t.row = some { g with
        state := .halfOpen
        consecutiveSuccesses := if g.state = .opened then 0 else g.consecutiveSuccesses
        probeAfter := some (timestamp3 (s.clock + intervalOf cfg.withDefaults.halfOpenTTL)) }) ∨
    (∃ g apiNow, a = .armBreakerProbe apiNow ∧ s.row = some g ∧ g.state.admitted = false ∧
      t.clock = s.clock ∧
      t.row = some { g with probeAfter := some (timestamp3 (encodeTime apiNow)) }) := by
  cases a with
  | tick now =>
    simp only [next] at h
    split at h
    · cases h
      exact .inl ⟨rfl, by assumption, by simp⟩
    · cases h
  | recordOutcome success jitter appNow =>
    cases h
    exact .inr (.inl ⟨success, jitter, appNow, rfl, rfl, rfl⟩)
  | claimProbe =>
    cases h
    rcases claimProbe_cases s.row cfg.withDefaults.halfOpenTTL s.clock with
      ⟨g, p, hg, shut, hp, passed⟩ | lost
    · refine .inr (.inr (.inl ⟨g, p, rfl, hg, shut, hp, passed, rfl, ?_⟩))
      simp only [hg, claimProbe_due shut hp passed]
    · exact .inl ⟨by simp only [lost], le_rfl, by simp⟩
  | armBreakerProbe apiNow =>
    cases h
    cases hr : s.row with
    | none => exact .inl ⟨by simp [armBreakerProbe], le_rfl, by simp⟩
    | some g =>
      by_cases tripped : g.state = .opened ∨ g.state = .halfOpen
      · refine .inr (.inr (.inr ⟨g, apiNow, rfl, rfl, ?_, rfl, ?_⟩))
        · exact (admitted_eq_false_iff _).mpr tripped
        · simp only [armBreakerProbe, Option.map_some, if_pos tripped]
      · refine .inl ⟨?_, le_rfl, by simp⟩
        simp only [armBreakerProbe, Option.map_some, if_neg tripped]

/-- The induction shared by all facts about reachable rows: recorded outcomes, won probes
and re-arms are the only writes. -/
theorem reachable_row {Q : Health → Prop}
    (outcome : ∀ row success jitter now appNow, (∀ g, row = some g → Q g) →
      Q (RecordOutcome row success cfg jitter now appNow))
    (probe : ∀ g p, Q g → g.state.admitted = false → Q { g with
      state := .halfOpen
      consecutiveSuccesses := if g.state = .opened then 0 else g.consecutiveSuccesses
      probeAfter := some p })
    (arm : ∀ g p, Q g → g.state.admitted = false → Q { g with probeAfter := some p })
    {s : Endpoint} (reach : Reachable (breaker cfg) s) : ∀ g, s.row = some g → Q g := by
  refine reach.invariant (I := fun s => ∀ g, s.row = some g → Q g) ?_ ?_
  · intro s empty g hg
    rw [show s.row = none from empty] at hg
    cases hg
  · intro s a t ih edge g hg
    rcases next_cases edge with ⟨same, _⟩ | ⟨success, jitter, appNow, _, _, written⟩ |
      ⟨f, p, _, hf, shut, _, _, _, claimed⟩ | ⟨f, apiNow, _, hf, shut, _, armed⟩
    · exact ih g (same ▸ hg)
    · obtain rfl := Option.some.inj (written.symm.trans hg)
      exact outcome _ _ _ _ _ ih
    · obtain rfl := Option.some.inj (claimed.symm.trans hg)
      exact probe f _ (ih f hf) shut
    · obtain rfl := Option.some.inj (armed.symm.trans hg)
      exact arm f _ (ih f hf) shut

theorem reachable_times {s : Endpoint} (reach : Reachable (breaker cfg) s) :
    ∀ g, s.row = some g → g.state.admitted = false →
      g.openedAt.isSome = true ∧ g.probeAfter.isSome = true := by
  refine reachable_row (Q := fun g => g.state.admitted = false →
    g.openedAt.isSome = true ∧ g.probeAfter.isSome = true) ?_ ?_ ?_ reach
  · intro row success jitter now appNow prior shut
    cases success with
    | true =>
      cases row with
      | none => cases shut
      | some g =>
        rw [recordOutcome_success_state] at shut
        split at shut
        · rename_i proving
          have times := prior g rfl (by rw [proving.1]; rfl)
          simp only [RecordOutcome, recordSuccessSQL, if_true]
          rw [if_pos proving, if_pos proving]
          exact ⟨times.1, rfl⟩
        · cases shut
    | false =>
      cases row with
      | none =>
        rw [recordOutcome_first_failure_state] at shut
        have opens : cfg.withDefaults.openThreshold ≤ 1 := by
          by_contra wide
          rw [if_neg wide] at shut
          split at shut <;> cases shut
        simp only [RecordOutcome, recordFailureSQL, NextHealth, Health.initial,
          BreakerConfig.withDefaults_withDefaults, Bool.false_eq_true, if_false, zero_add,
          reduceCtorEq, false_or]
        rw [if_pos opens]
        exact ⟨rfl, rfl⟩
      | some g =>
        rw [recordOutcome_failure_state] at shut
        simp only [RecordOutcome, recordFailureSQL, Bool.false_eq_true, if_false]
        split at shut
        · rename_i opens
          rw [if_pos opens, if_pos opens]
          exact ⟨rfl, rfl⟩
        · rename_i below
          rw [if_neg below, if_neg below]
          split at shut
          · cases shut
          · exact prior g rfl shut
  · intro g p hg shut _
    exact ⟨(hg shut).1, rfl⟩
  · intro g p hg shut _
    exact ⟨(hg shut).1, rfl⟩

end Hookubit.Worker.BreakerProtocol
