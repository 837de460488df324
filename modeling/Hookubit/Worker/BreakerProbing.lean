/- sources: worker/store.go claimProbeSQL, recordSuccessSQL and recordFailureSQL,
     endpoints.service.ts armBreakerProbe
   digest: A tripped row can be probed, probes are spaced, and a run of successes closes it. -/

import Hookubit.Worker.BreakerProtocol

set_option autoImplicit false
set_option relaxedAutoImplicit false

namespace Hookubit.Worker.BreakerProbing

open Automata.LabelledSystem Postgres.Clock Worker.Breaker Worker.BreakerProtocol

def isOutcome : Op → Bool
  | .recordOutcome _ _ _ => true
  | _ => false

def isSuccess : Op → Bool
  | .recordOutcome success _ _ => success
  | _ => false

def isRearm : Op → Bool
  | .armBreakerProbe _ => true
  | _ => false

def InState (x : HealthState) (s : Endpoint) : Prop := ∃ h, s.row = some h ∧ h.state = x

/-- A tripped row has both instants, and wins its probe at any clock past `probe_after`. -/
def Probeable (cfg : BreakerConfig) : Prop :=
  ∀ s h, Reachable (breaker cfg) s → s.row = some h → h.state.admitted = false →
    ∃ openedAt probeAfter, h.openedAt = some openedAt ∧ h.probeAfter = some probeAfter ∧
      ∀ now, s.clock ≤ now → probeAfter ≤ now →
        next cfg s (.tick now) = some ⟨now, s.row⟩ ∧ ProbeWon cfg ⟨now, s.row⟩

/-- Two won probes lie at least `gap` apart unless an outcome or a re-arm came between. -/
def Spaced (cfg : BreakerConfig) (gap : ℤ) : Prop :=
  ∀ first claimed second l, Reachable (breaker cfg) first → ProbeWon cfg first →
    next cfg first .claimProbe = some claimed → Run (breaker cfg) claimed l second →
    ProbeWon cfg second →
      first.clock + gap ≤ second.clock ∨ ∃ a ∈ l, isOutcome a = true ∨ isRearm a = true

/-- A row that enters half open and stays there turns healthy on its
`HalfOpenSuccesses`-th recorded success, with no failure recorded on the way. -/
def ClosesOnSuccesses (cfg : BreakerConfig) : Prop :=
  ∀ before entered last healed l enter close, Reachable (breaker cfg) before →
    ¬ InState .halfOpen before → next cfg before enter = some entered →
    InState .halfOpen entered →
    Run ((breaker cfg).constrain fun _ _ t => InState .halfOpen t) entered l last →
    next cfg last close = some healed → InState .healthy healed →
      isSuccess close = true ∧ (l.countP isSuccess : ℤ) + 1 = cfg.withDefaults.halfOpenSuccesses ∧
        ∀ a ∈ l, isOutcome a = true → isSuccess a = true

private theorem probeable (cfg : BreakerConfig) : Probeable cfg := by
  intro s h reach hh shut
  obtain ⟨opened, probe⟩ := reachable_times reach h hh shut
  obtain ⟨openedAt, ho⟩ := Option.isSome_iff_exists.mp opened
  obtain ⟨probeAfter, hp⟩ := Option.isSome_iff_exists.mp probe
  refine ⟨openedAt, probeAfter, ho, hp, fun now later passed => ⟨if_pos later, ?_⟩⟩
  exact probeWon_iff.mpr ⟨h, probeAfter, hh, shut, hp, passed⟩

/-- No probe is due before `due`, and the clock stands at `since` or later. -/
private def Withheld (since due : ℤ) (s : Endpoint) : Prop :=
  since ≤ s.clock ∧ ∀ h p, s.row = some h → h.probeAfter = some p → due ≤ p

variable {cfg : BreakerConfig} {s t : Endpoint} {a : Op}

/-- Only an outcome or a re-arm brings the next probe forward: another won probe puts it
off from a later clock, up to the rounding of the column. -/
private theorem withheld_step {since due : ℤ}
    (reached : due ≤ since + intervalOf cfg.withDefaults.halfOpenTTL - 500000)
    (held : Withheld since due s) (quiet : ¬ (isOutcome a = true ∨ isRearm a = true))
    (edge : next cfg s a = some t) : Withheld since due t := by
  obtain ⟨later, far⟩ := held
  rcases next_cases edge with ⟨same, clock, _⟩ | ⟨_, _, _, rfl, _, _⟩ |
    ⟨g, q, _, _, _, _, _, clock, claimed⟩ | ⟨_, _, rfl, _⟩
  · exact ⟨later.trans clock, same ▸ far⟩
  · exact absurd (.inl rfl) quiet
  · refine ⟨clock ▸ later, ?_⟩
    intro h p hh hp
    obtain rfl := Option.some.inj (claimed.symm.trans hh)
    obtain rfl := Option.some.inj hp
    have := timestamp3_lower (s.clock + intervalOf cfg.withDefaults.halfOpenTTL)
    omega
  · exact absurd (.inr rfl) quiet

private theorem withheld_of_claim (won : ProbeWon cfg s) (edge : next cfg s .claimProbe = some t) :
    Withheld s.clock (s.clock + intervalOf cfg.withDefaults.halfOpenTTL - 500000) t := by
  obtain ⟨g, q, hg, shut, hq, passed⟩ := probeWon_iff.mp won
  rw [next, hg, claimProbe_due shut hq passed] at edge
  cases edge
  refine ⟨le_rfl, ?_⟩
  intro h p hh hp
  obtain rfl := Option.some.inj hh
  obtain rfl := Option.some.inj hp
  have := timestamp3_lower (s.clock + intervalOf cfg.withDefaults.halfOpenTTL)
  omega

private theorem spaced (cfg : BreakerConfig) :
    Spaced cfg (intervalOf cfg.withDefaults.halfOpenTTL - 500000) := by
  intro first claimed second l _ won edge run again
  have due := withheld_of_claim won edge
  by_cases touched : ∃ a ∈ l, isOutcome a = true ∨ isRearm a = true
  · exact .inr touched
  · left
    simp only [not_exists, not_and] at touched
    have held := run.keeps_labels (I := fun _ => True)
      (P := Withheld first.clock (first.clock + intervalOf cfg.withDefaults.halfOpenTTL - 500000))
      (A := fun a => ¬ (isOutcome a = true ∨ isRearm a = true)) (fun _ _ _ _ _ => trivial)
      (fun _ _ _ _ held quiet edge => withheld_step le_rfl held quiet edge) touched trivial due
    obtain ⟨g, p, hg, _, hp, passed⟩ := probeWon_iff.mp again
    have := held.2 g p hg hp
    omega

/-- The half-open row has counted `n` successes since it entered, fewer than close it. -/
private def Proving (cfg : BreakerConfig) (n : ℤ) (s : Endpoint) : Prop :=
  ∃ h, s.row = some h ∧ h.state = .halfOpen ∧ h.consecutiveSuccesses = n ∧
    n < cfg.withDefaults.halfOpenSuccesses

private theorem proving_of_enter (out : ¬ InState .halfOpen s) (edge : next cfg s a = some t)
    (entered : InState .halfOpen t) : Proving cfg 0 t := by
  have positive := cfg.withDefaults_bounds.2.2
  obtain ⟨h, hh, half⟩ := entered
  rcases next_cases edge with ⟨same, _⟩ | ⟨success, jitter, appNow, _, _, written⟩ |
    ⟨g, p, _, hg, shut, _, _, _, claimed⟩ | ⟨g, apiNow, _, hg, _, _, armed⟩
  · exact absurd ⟨h, same ▸ hh, half⟩ out
  · obtain rfl := Option.some.inj (written.symm.trans hh)
    obtain ⟨_, g, hg, was, _⟩ := recordOutcome_halfOpen half
    exact absurd ⟨g, hg, was⟩ out
  · have opened : g.state = .opened :=
      ((admitted_eq_false_iff _).mp shut).resolve_right fun half => out ⟨g, hg, half⟩
    exact ⟨_, claimed, rfl, if_pos opened, by omega⟩
  · obtain rfl := Option.some.inj (armed.symm.trans hh)
    exact absurd ⟨g, hg, half⟩ out

private theorem proving_step {n : ℤ} (proving : Proving cfg n s) (edge : next cfg s a = some t)
    (stays : InState .halfOpen t) : Proving cfg (n + if isSuccess a = true then 1 else 0) t ∧
      (isOutcome a = true → isSuccess a = true) := by
  obtain ⟨h, hh, half, count, short⟩ := proving
  obtain ⟨f, hf, still⟩ := stays
  rcases next_cases edge with ⟨same, _, other⟩ | ⟨success, jitter, appNow, rfl, _, written⟩ |
    ⟨g, p, rfl, hg, _, _, _, _, claimed⟩ | ⟨g, apiNow, rfl, hg, _, _, armed⟩
  · cases a with
    | recordOutcome success jitter appNow => exact absurd rfl (other _ _ _)
    | _ => exact ⟨⟨h, same ▸ hh, half, by simp [isSuccess, count], by simpa [isSuccess]
        using short⟩, fun h => by cases h⟩
  · obtain rfl := Option.some.inj (written.symm.trans hf)
    obtain ⟨rfl, g, hg, _, few⟩ := recordOutcome_halfOpen still
    obtain rfl := Option.some.inj (hh.symm.trans hg)
    refine ⟨⟨_, written, still, ?_, ?_⟩, fun _ => rfl⟩
    · rw [hg, ← count]
      rfl
    · rw [← count]
      exact few
  · obtain rfl := Option.some.inj (hh.symm.trans hg)
    refine ⟨⟨_, claimed, rfl, ?_, by simpa [isSuccess] using short⟩, fun h => by cases h⟩
    simp [half, count, isSuccess]
  · obtain rfl := Option.some.inj (hh.symm.trans hg)
    exact ⟨⟨_, armed, half, by simp [isSuccess, count], by simpa [isSuccess] using short⟩,
      fun h => by cases h⟩

private theorem proving_run {l : List Op}
    (run : Run ((breaker cfg).constrain fun _ _ t => InState .halfOpen t) s l t) :
    ∀ n, Proving cfg n s → Proving cfg (n + l.countP isSuccess) t ∧
      ∀ a ∈ l, isOutcome a = true → isSuccess a = true := by
  induction run with
  | nil s => exact fun n proving => ⟨by simpa using proving, by simp⟩
  | @cons s t w a l edge _ ih =>
    intro n proving
    obtain ⟨moved, success⟩ := proving_step proving edge.1 edge.2
    obtain ⟨arrived, rest⟩ := ih _ moved
    refine ⟨?_, List.forall_mem_cons.mpr ⟨success, rest⟩⟩
    rw [List.countP_cons]
    push_cast
    convert arrived using 1
    ring

private theorem closesOnSuccesses (cfg : BreakerConfig) : ClosesOnSuccesses cfg := by
  intro before entered last healed l enter close _ out enters half run closes healthy
  obtain ⟨⟨h, hh, inside, count, short⟩, outcomes⟩ :=
    proving_run run 0 (proving_of_enter out enters half)
  obtain ⟨f, hf, closed⟩ := healthy
  rcases next_cases closes with ⟨same, _⟩ | ⟨success, jitter, appNow, rfl, _, written⟩ |
    ⟨g, p, _, _, _, _, _, _, claimed⟩ | ⟨g, apiNow, _, hg, _, _, armed⟩
  · obtain rfl := Option.some.inj ((same.trans hh).symm.trans hf)
    rw [inside] at closed
    cases closed
  · rw [hh] at written
    obtain rfl := Option.some.inj (written.symm.trans hf)
    cases success with
    | true =>
      rw [recordOutcome_success_state] at closed
      split at closed
      · cases closed
      · rename_i enough
        rw [not_and, not_lt] at enough
        have := enough inside
        exact ⟨rfl, by omega, outcomes⟩
    | false =>
      rw [recordOutcome_failure_state, if_pos (.inl inside)] at closed
      cases closed
  · obtain rfl := Option.some.inj (claimed.symm.trans hf)
    cases closed
  · obtain rfl := Option.some.inj (armed.symm.trans hf)
    obtain rfl := Option.some.inj (hh.symm.trans hg)
    rw [inside] at closed
    cases closed

/-- The probing protocol. `HalfOpenTTL` reaches the database as whole milliseconds and the
deadline is rounded to one, so two probes are that interval apart less half a millisecond. -/
theorem probing_protocol (cfg : BreakerConfig) :
    Probeable cfg ∧ Spaced cfg (intervalOf cfg.withDefaults.halfOpenTTL - 500000) ∧
      ClosesOnSuccesses cfg :=
  ⟨probeable cfg, spaced cfg, closesOnSuccesses cfg⟩

/-- With every default in force, a probe won at 30.0004 s leaves a deadline that rounds down
to 90 s, and a second one is won there: 59.9996 s later, with `HalfOpenTTL` at a minute. -/
theorem default_ttl_not_reached :
    ¬ Spaced DefaultBreakerConfig DefaultBreakerConfig.withDefaults.halfOpenTTL := by
  intro wide
  let failure : Op := .recordOutcome false 1 0
  let tripped : Endpoint :=
    ⟨30 * second + 400000, some ⟨.opened, 5, 0, some 0, some (30 * second)⟩⟩
  let claimed : Endpoint :=
    ⟨30 * second + 400000, some ⟨.halfOpen, 5, 0, some 0, some (90 * second)⟩⟩
  have run : execute (next DefaultBreakerConfig) ⟨0, none⟩
      [failure, failure, failure, failure, failure, .tick (30 * second + 400000)] =
        some tripped := by decide +kernel
  have reach : Reachable (breaker DefaultBreakerConfig) tripped :=
    (Reachable.start rfl).run (run_of_execute run)
  have wait : execute (next DefaultBreakerConfig) claimed [.tick (90 * second)] =
      some { claimed with clock := 90 * second } := by decide +kernel
  rcases wide tripped claimed _ _ reach (by unfold ProbeWon; decide +kernel)
      (by decide +kernel) (run_of_execute wait) (by unfold ProbeWon; decide +kernel) with
    apart | ⟨a, ha, touched⟩
  · exact absurd apart (by decide +kernel)
  · obtain rfl := List.mem_singleton.mp ha
    rcases touched with outcome | rearm
    · cases outcome
    · cases rearm

end Hookubit.Worker.BreakerProbing
