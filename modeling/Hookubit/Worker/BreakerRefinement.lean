/- sources: worker/store.go recordSuccessSQL, recordFailureSQL, RecordOutcome;
     worker/breaker.go NextHealth, Cooldown; prisma migration 20260906000000_init endpoint_health
   digest: The health statements apply the pure transition function, as the columns store it. -/

import Hookubit.Worker.Breaker

/-!
`RecordOutcome` computes the row that a statement writes; here the statement may also fail,
since the counters and thresholds are `INTEGER` on the database side, and a row is what the
table can hold.
-/

set_option autoImplicit false
set_option relaxedAutoImplicit false

namespace Hookubit.Worker.BreakerRefinement

open Postgres.Clock Worker.Breaker

/-- What an `INTEGER` column, parameter or sum can hold. -/
def Int4 (x : ℤ) : Prop := -2147483648 ≤ x ∧ x ≤ 2147483647

instance int4Decidable (x : ℤ) : Decidable (Int4 x) := inferInstanceAs (Decidable (_ ∧ _))

/-- One `endpoint_health` row: the counters are `INTEGER`, the instants `TIMESTAMP(3)`. -/
structure HealthRow where
  health : Health
  failures_int4 : Int4 health.consecutiveFailures
  successes_int4 : Int4 health.consecutiveSuccesses
  openedAt_stored : ∀ t ∈ health.openedAt, timestamp3 t = t
  probeAfter_stored : ∀ t ∈ health.probeAfter, timestamp3 t = t

/-- The `Health` value of a row; a missing one reads as healthy. -/
def load (row : Option HealthRow) : Health := (row.map (·.health)).getD Health.initial

/-- Whether the statement runs to its end. A parameter that is no `INTEGER` is refused before
it is sent, a sum that is none is an error; the cooldown's exponent is computed only where the
row opens. -/
def Executable (row : Option Health) (cfg : BreakerConfig) : Bool → Prop
  | true => Int4 cfg.halfOpenSuccesses ∧ ∀ h ∈ row, Int4 (h.consecutiveSuccesses + 1)
  | false =>
    Int4 cfg.openThreshold ∧ Int4 cfg.degradedThreshold ∧
      ∀ h ∈ row, Int4 (h.consecutiveFailures + 1) ∧
        (h.state = .halfOpen ∨ cfg.openThreshold ≤ h.consecutiveFailures + 1 →
          Int4 (h.consecutiveFailures + 1 - cfg.openThreshold))

instance executableDecidable (row : Option Health) (cfg : BreakerConfig) :
    ∀ success, Decidable (Executable row cfg success)
  | true => inferInstanceAs (Decidable (_ ∧ ∀ h ∈ row, _))
  | false => inferInstanceAs (Decidable (_ ∧ _ ∧ ∀ h ∈ row, _ ∧ (_ → _)))

private theorem timestamp3_timestamp3 (t : ℤ) : timestamp3 (timestamp3 t) = timestamp3 t := by
  unfold timestamp3
  split_ifs <;> omega

private theorem recordOutcome_int4 {row : Option Health} {success : Bool} {cfg : BreakerConfig}
    (runs : Executable row cfg.withDefaults success) (jitter : ℚ) (now appNow : ℤ) :
    Int4 (RecordOutcome row success cfg jitter now appNow).consecutiveFailures ∧
      Int4 (RecordOutcome row success cfg jitter now appNow).consecutiveSuccesses := by
  have zero : Int4 0 := by decide
  have one : Int4 1 := by decide
  cases success with
  | true =>
    cases row with
    | none => exact ⟨zero, one⟩
    | some h => exact ⟨zero, runs.2 h rfl⟩
  | false =>
    cases row with
    | none => exact ⟨one, zero⟩
    | some h => exact ⟨(runs.2.2 h rfl).1, zero⟩

private theorem recordOutcome_stored (row : Option Health) (success : Bool) (cfg : BreakerConfig)
    (jitter : ℚ) (now appNow : ℤ)
    (opened : ∀ h ∈ row, ∀ t ∈ h.openedAt, timestamp3 t = t)
    (probe : ∀ h ∈ row, ∀ t ∈ h.probeAfter, timestamp3 t = t) :
    (∀ t ∈ (RecordOutcome row success cfg jitter now appNow).openedAt, timestamp3 t = t) ∧
      ∀ t ∈ (RecordOutcome row success cfg jitter now appNow).probeAfter, timestamp3 t = t := by
  cases row with
  | none =>
    cases success with
    | true => exact ⟨by simp [RecordOutcome, recordSuccessSQL],
        by simp [RecordOutcome, recordSuccessSQL]⟩
    | false =>
      simp only [RecordOutcome, recordFailureSQL, Bool.false_eq_true, if_false, Option.mem_def,
        Option.map_eq_some_iff]
      constructor
      · rintro t ⟨s, -, rfl⟩
        exact timestamp3_timestamp3 s
      · rintro t ⟨s, -, rfl⟩
        exact timestamp3_timestamp3 s
  | some h =>
    have openedAt := opened h rfl
    have probeAfter := probe h rfl
    cases success with
    | true =>
      simp only [RecordOutcome, recordSuccessSQL, if_true]
      constructor
      · split_ifs with proving
        · exact openedAt
        · simp
      · split_ifs with proving
        · simp [timestamp3_timestamp3]
        · simp
    | false =>
      simp only [RecordOutcome, recordFailureSQL, Bool.false_eq_true, if_false]
      constructor
      · split_ifs with opens
        · intro t ht
          obtain rfl := Option.some.inj ht
          cases known : h.openedAt with
          | none => exact timestamp3_timestamp3 now
          | some s => exact openedAt s known
        · exact openedAt
      · split
        · simp [timestamp3_timestamp3]
        · exact probeAfter

/-- `RecordOutcome` against the table: the row it leaves, or an error and nothing written. -/
def executeOutcome (row : Option HealthRow) (success : Bool) (cfg : BreakerConfig) (jitter : ℚ)
    (now appNow : ℤ) : Option HealthRow :=
  let before := row.map (·.health)
  if runs : Executable before cfg.withDefaults success then
    have stored := recordOutcome_stored before success cfg jitter now appNow
      (fun h hh => by
        obtain ⟨r, -, rfl⟩ := Option.mem_map.mp hh
        exact r.openedAt_stored)
      (fun h hh => by
        obtain ⟨r, -, rfl⟩ := Option.mem_map.mp hh
        exact r.probeAfter_stored)
    some
      { health := RecordOutcome before success cfg jitter now appNow
        failures_int4 := (recordOutcome_int4 runs jitter now appNow).1
        successes_int4 := (recordOutcome_int4 runs jitter now appNow).2
        openedAt_stored := stored.1
        probeAfter_stored := stored.2 }
  else none

private theorem exponent_eq (failures threshold : ℤ) :
    (min 20 (max 0 (failures - threshold))).toNat =
      (if 20 < (if failures - threshold < 0 then 0 else failures - threshold) then 20
        else if failures - threshold < 0 then 0 else failures - threshold).toNat := by
  congr 1
  split_ifs <;> omega

private theorem cooldownSQL_eq (cfg : BreakerConfig) (failures : ℤ) (jitter : ℚ) :
    cooldownSQL failures cfg.withDefaults.openThreshold (cfg.withDefaults.maxCooldown / second)
        (cfg.withDefaults.baseCooldown / second) jitter =
      cfg.withDefaults.Cooldown failures jitter := by
  have pos : (0 : ℚ) < second := by norm_num [second]
  simp only [cooldownSQL, BreakerConfig.Cooldown, BreakerConfig.withDefaults_withDefaults]
  rw [← exponent_eq]
  generalize (2 : ℚ) ^ (min 20 (max 0 (failures - cfg.withDefaults.openThreshold))).toNat = factor
  generalize (cfg.withDefaults.maxCooldown : ℚ) = cap
  generalize (cfg.withDefaults.baseCooldown : ℚ) = base
  have capped : (if cap < base * factor then cap else base * factor) = min cap (base * factor) := by
    rw [min_def]
    split_ifs <;> grind
  have scaled : min (cap / second) (base / second * factor) = min cap (base * factor) / second := by
    rw [div_mul_eq_mul_div, min_div_div_right pos.le]
  rw [capped, scaled]
  congr 1
  calc max 1 (min cap (base * factor) / second * jitter) * (second : ℚ)
      = max (1 * (second : ℚ)) (min cap (base * factor) / second * jitter * second) :=
        max_mul_of_nonneg _ _ pos.le
    _ = max (second : ℚ) (min cap (base * factor) * jitter) := by
        congr 1
        · exact one_mul _
        · field_simp
    _ = _ := by
        rw [max_def]
        split_ifs <;> grind

/-- What the columns keep of a health value whose instants arrive through `send`. -/
def stored (send : ℤ → ℤ) (h : Health) : Health :=
  { h with
    openedAt := h.openedAt.map fun t => timestamp3 (send t)
    probeAfter := h.probeAfter.map fun t => timestamp3 (send t) }

/-- An inserted row takes the worker's instants, sent in whole microseconds; an updated one
takes those the statement computes. -/
def sent : Option HealthRow → ℤ → ℤ
  | none => encodeTime
  | some _ => id

private theorem map_timestamp3 {x : Option ℤ} (kept : ∀ t ∈ x, timestamp3 t = t) :
    (x.map fun t => timestamp3 t) = x := by
  cases x with
  | none => rfl
  | some t => exact congrArg some (kept t rfl)

section Branches

variable {cur : Health} {cfg : BreakerConfig} (now : ℤ) (jitter : ℚ)

private theorem nextHealth_proving (proving : cur.state = .halfOpen ∧
      cur.consecutiveSuccesses + 1 < cfg.withDefaults.halfOpenSuccesses) :
    NextHealth cur true cfg now jitter =
      ⟨.halfOpen, 0, cur.consecutiveSuccesses + 1, cur.openedAt, some now⟩ := if_pos proving

private theorem nextHealth_closing (enough : ¬(cur.state = .halfOpen ∧
      cur.consecutiveSuccesses + 1 < cfg.withDefaults.halfOpenSuccesses)) :
    NextHealth cur true cfg now jitter =
      ⟨.healthy, 0, cur.consecutiveSuccesses + 1, none, none⟩ := if_neg enough

private theorem nextHealth_opening (opens : cur.state = .halfOpen ∨
      cfg.withDefaults.openThreshold ≤ cur.consecutiveFailures + 1) :
    NextHealth cur false cfg now jitter =
      ⟨.opened, cur.consecutiveFailures + 1, 0, some (cur.openedAt.getD now),
        some (now + cfg.withDefaults.Cooldown (cur.consecutiveFailures + 1) jitter)⟩ :=
  if_pos opens

private theorem nextHealth_counting (shut : ¬(cur.state = .halfOpen ∨
      cfg.withDefaults.openThreshold ≤ cur.consecutiveFailures + 1)) :
    NextHealth cur false cfg now jitter =
      ⟨if cfg.withDefaults.degradedThreshold ≤ cur.consecutiveFailures + 1 then .degraded
          else cur.state,
        cur.consecutiveFailures + 1, 0, cur.openedAt, cur.probeAfter⟩ := by
  refine (if_neg shut).trans ?_
  split_ifs <;> rfl

end Branches

private theorem recordSuccess_eq (row : Option HealthRow) (cfg : BreakerConfig) (jitter : ℚ)
    (now : ℤ) :
    RecordOutcome (row.map (·.health)) true cfg jitter now now =
      stored (sent row) (NextHealth (load row) true cfg now jitter) := by
  cases row with
  | none => rfl
  | some r =>
    simp only [RecordOutcome, recordSuccessSQL, load, Option.map_some, Option.getD_some, if_true]
    by_cases proving : r.health.state = .halfOpen ∧
        r.health.consecutiveSuccesses + 1 < cfg.withDefaults.halfOpenSuccesses
    · rw [nextHealth_proving now jitter proving]
      simp only [if_pos proving, stored, sent, id, map_timestamp3 r.openedAt_stored,
        Option.map_some]
    · rw [nextHealth_closing now jitter proving]
      simp only [if_neg proving, stored, Option.map_none]

private theorem recordFailure_eq (row : Option HealthRow) (cfg : BreakerConfig) {jitter : ℚ}
    (pos : 0 < jitter) (now : ℤ) :
    RecordOutcome (row.map (·.health)) false cfg jitter now now =
      stored (sent row) (NextHealth (load row) false cfg now jitter) := by
  have given : ¬jitter ≤ 0 := not_le.mpr pos
  cases row with
  | none =>
    -- the insert branch stores the pure function's own answer for a first failure
    have first : NextHealth Health.initial false cfg.withDefaults now jitter =
        NextHealth Health.initial false cfg now jitter := by
      simp only [NextHealth, BreakerConfig.withDefaults_withDefaults]
    simp only [RecordOutcome, recordFailureSQL, load, Option.map_none, Option.getD_none,
      Bool.false_eq_true, if_false, if_neg given, first]
    by_cases opens : Health.initial.state = .halfOpen ∨
        cfg.withDefaults.openThreshold ≤ Health.initial.consecutiveFailures + 1
    · rw [nextHealth_opening now jitter opens]
      rfl
    · rw [nextHealth_counting now jitter opens]
      rfl
  | some r =>
    simp only [RecordOutcome, recordFailureSQL, load, Option.map_some, Option.getD_some,
      Bool.false_eq_true, if_false, if_neg given, cooldownSQL_eq]
    by_cases opens : r.health.state = .halfOpen ∨
        cfg.withDefaults.openThreshold ≤ r.health.consecutiveFailures + 1
    · rw [nextHealth_opening now jitter opens]
      simp only [if_pos opens, stored, sent, Option.map_some, id]
      cases known : r.health.openedAt with
      | none => rfl
      | some t => simp only [Option.getD_some, r.openedAt_stored t known]
    · rw [nextHealth_counting now jitter opens]
      simp only [if_neg opens, stored, sent, id, map_timestamp3 r.openedAt_stored,
        map_timestamp3 r.probeAfter_stored]

/-- The values for which the statement can run: what is sent is an `INTEGER`, the counter it
increments is not at the largest one, and a failed probe's exponent does not fall below the
smallest. -/
def Fits (row : Option HealthRow) (cfg : BreakerConfig) : Bool → Prop
  | true =>
    cfg.halfOpenSuccesses ≤ 2147483647 ∧
      ∀ r ∈ row, r.health.consecutiveSuccesses < 2147483647
  | false =>
    cfg.openThreshold ≤ 2147483647 ∧
      ∀ r ∈ row, r.health.consecutiveFailures < 2147483647 ∧
        (r.health.state = .halfOpen →
          -2147483648 ≤ r.health.consecutiveFailures + 1 - cfg.openThreshold)

instance fitsDecidable (row : Option HealthRow) (cfg : BreakerConfig) :
    ∀ success, Decidable (Fits row cfg success)
  | true => inferInstanceAs (Decidable (_ ∧ ∀ r ∈ row, _))
  | false => inferInstanceAs (Decidable (_ ∧ ∀ r ∈ row, _ ∧ (_ → _)))

private theorem executable_iff_fits (row : Option HealthRow) (cfg : BreakerConfig)
    (success : Bool) :
    Executable (row.map (·.health)) cfg.withDefaults success ↔
      Fits row cfg.withDefaults success := by
  obtain ⟨degraded, ordered, wins⟩ := cfg.withDefaults_bounds
  cases row with
  | none =>
    cases success with
    | true =>
      simp only [Executable, Fits, Int4, Option.map_none]
      simp
      omega
    | false =>
      simp only [Executable, Fits, Int4, Option.map_none]
      simp
      omega
  | some r =>
    have failures := r.failures_int4
    have successes := r.successes_int4
    unfold Int4 at failures successes
    cases success with
    | true =>
      simp only [Executable, Fits, Int4, Option.map_some, Option.mem_def, Option.some.injEq,
        forall_eq']
      omega
    | false =>
      simp only [Executable, Fits, Int4, Option.map_some, Option.mem_def, Option.some.injEq,
        forall_eq']
      by_cases probing : r.health.state = .halfOpen
      · simp only [probing, true_or, true_implies]
        omega
      · simp only [probing, false_or, false_implies, and_true]
        omega

/-- One recorded outcome. The row it leaves is the pure function's answer as the columns store
it: state and counters exactly, the two instants rounded to whole milliseconds. Where a value
does not fit an `INTEGER`, the statement fails and the row stays. -/
theorem outcome_refines_nextHealth (row : Option HealthRow) (success : Bool)
    (cfg : BreakerConfig) {jitter : ℚ} (pos : 0 < jitter) (now : ℤ) :
    (executeOutcome row success cfg jitter now now).map (·.health) =
      if Fits row cfg.withDefaults success then
        some (stored (sent row) (NextHealth (load row) success cfg now jitter))
      else none := by
  have written : RecordOutcome (row.map (·.health)) success cfg jitter now now =
      stored (sent row) (NextHealth (load row) success cfg now jitter) := by
    cases success with
    | true => exact recordSuccess_eq row cfg jitter now
    | false => exact recordFailure_eq row cfg pos now
  unfold executeOutcome
  by_cases fits : Fits row cfg.withDefaults success
  · have runs := (executable_iff_fits row cfg success).mpr fits
    rw [dif_pos runs, if_pos fits, Option.map_some]
    exact congrArg some written
  · have fails := mt (executable_iff_fits row cfg success).mp fits
    rw [dif_neg fails, if_neg fits, Option.map_none]

/-- A tripped row, one success short of closing under `provingConfig`. -/
def provingRow : HealthRow where
  health := ⟨.halfOpen, 0, 0, some 0, some 0⟩
  failures_int4 := by decide
  successes_int4 := by decide
  openedAt_stored := by decide
  probeAfter_stored := by decide

def fullRow : HealthRow where
  health := ⟨.healthy, 0, 2147483647, none, none⟩
  failures_int4 := by decide
  successes_int4 := by decide
  openedAt_stored := by decide
  probeAfter_stored := by decide

def provingConfig : BreakerConfig := { DefaultBreakerConfig with halfOpenSuccesses := 2 }

theorem failed_probe_is_stored :
    (0 : ℚ) < 1 ∧
      (executeOutcome (some provingRow) false provingConfig 1 400000 400000).map (·.health) =
        if Fits (some provingRow) provingConfig.withDefaults false then
          some (stored (sent (some provingRow))
            (NextHealth (load (some provingRow)) false provingConfig 400000 1))
        else none :=
  ⟨one_pos, outcome_refines_nextHealth (some provingRow) false provingConfig one_pos 400000⟩

/-- At 0.4 ms the new `probe_after` is stored as 0, and a
full counter makes the statement fail where the pure function counts on. -/
theorem stored_row_differs :
    (executeOutcome (some provingRow) true provingConfig 1 400000 400000).map (·.health) ≠
        some (NextHealth (load (some provingRow)) true provingConfig 400000 1) ∧
      (executeOutcome (some fullRow) true provingConfig 1 0 0).map (·.health) ≠
        some (NextHealth (load (some fullRow)) true provingConfig 0 1) := by
  constructor
  · decide
  · decide

end Hookubit.Worker.BreakerRefinement
