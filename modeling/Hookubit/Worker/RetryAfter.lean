/- sources: worker/state.go ParseRetryAfter, clampRetryAfter, Decide; worker/deliver.go
   digest: The wait an endpoint asks for, from its header to the next attempt. -/

import Hookubit.Data.ByteText
import Hookubit.Data.Int64
import Hookubit.Worker.StateMachine

/-!
Header values are byte strings. `http.ParseTime` is a parameter: which dates it reads decides
nothing here, because a difference of instants stops at the limits of a `time.Duration`.
-/

set_option autoImplicit false
set_option relaxedAutoImplicit false

namespace Hookubit.Worker.RetryAfter

open Data.Utf8 Data.ByteText
open Data.Int64 (InRange wrap saturate isDigit decimal ParseInt ParseInt_digits
  wrap_of_inRange wrap_inRange saturate_inRange)
open Postgres.Clock Retry.Backoff Worker.StateMachine

/-- `ParseRetryAfter`: delay-seconds, or a date, or nothing. -/
def ParseRetryAfter (parseTime : Bytes → Option ℤ) (value : Bytes) (now : ℤ) : Option ℤ :=
  let value := TrimSpace value
  if value = [] then none
  else
    match ParseInt value with
    | some secs => if secs < 0 then none else some (wrap (secs * second))
    | none =>
      match parseTime value with
      | some date =>
        let d := saturate (date - now)
        some (if d < 0 then 0 else d)
      | none => none

/-- The header value names the number of seconds `n`, of any size, with blanks around it. -/
def DelaySeconds (value : Bytes) (n : ℕ) : Prop :=
  TrimSpace value ≠ [] ∧ (TrimSpace value).all isDigit = true ∧ decimal (TrimSpace value) = n

instance delaySecondsDecidable (value : Bytes) (n : ℕ) : Decidable (DelaySeconds value n) :=
  inferInstanceAs (Decidable (_ ∧ _ ∧ _))

/-- The wall-clock budget left to a delivery, where its policy has one. -/
def budgetLeft (p : Policy) (firstAttemptAt : Option ℤ) (now : ℤ) : Option ℤ :=
  firstAttemptAt.bind fun first =>
    if 0 < p.maxRetryDuration then some (max 0 (first + p.maxRetryDuration - now)) else none

/-- The wait that an endpoint asking for `n` seconds is due. -/
def boundedWait (n : ℕ) (p : Policy) (firstAttemptAt : Option ℤ) (now : ℤ) : ℤ :=
  let wait : ℤ := n * second
  let wait := if 0 < p.maxDelay then min wait p.maxDelay else wait
  let wait :=
    match budgetLeft p firstAttemptAt now with
    | some left => min wait left
    | none => wait
  max second wait

/-- A delay-seconds value is multiplied in 64 bits, and is no number at all from 2^63 on. -/
private theorem parseRetryAfter_delaySeconds (parseTime : Bytes → Option ℤ) {value : Bytes} {n : ℕ}
    (names : DelaySeconds value n) (now : ℤ) (small : n ≤ 9223372036854775807) :
    ParseRetryAfter parseTime value now = some (wrap (n * second)) := by
  obtain ⟨nonempty, digits, rfl⟩ := names
  have read := ParseInt_digits nonempty digits
  rw [if_pos small] at read
  have positive : ¬((decimal (TrimSpace value) : ℤ) < 0) := not_lt.mpr (Int.natCast_nonneg _)
  simp only [ParseRetryAfter, if_neg nonempty, read, if_neg positive]

private theorem parseRetryAfter_inRange {parseTime : Bytes → Option ℤ} {value : Bytes}
    {now wait : ℤ}
    (read : ParseRetryAfter parseTime value now = some wait) : InRange wait := by
  unfold ParseRetryAfter at read
  dsimp only at read
  split at read
  · cases read
  · split at read
    · split at read
      · cases read
      · cases read
        exact wrap_inRange _
    · split at read
      · cases read
        split
        · decide
        · exact saturate_inRange _
      · cases read

private theorem remaining_eq (p : Policy) (firstAttemptAt : Option ℤ) (now : ℤ) :
    p.Remaining firstAttemptAt now = (budgetLeft p firstAttemptAt now).getD (2 ^ 63 - 1) := by
  cases firstAttemptAt with
  | none => rfl
  | some first =>
    simp only [Policy.Remaining, budgetLeft, Option.bind_some]
    by_cases capped : 0 < p.maxRetryDuration
    · rw [if_pos capped, if_neg (not_le.mpr capped), Option.getD_some]
      split <;> omega
    · rw [if_neg capped, if_pos (not_lt.mp capped), Option.getD_none]

private theorem floor_eq (s d : ℤ) : (if d < s then s else d) = max s d := by
  split <;> omega

private theorem cap_eq (d m : ℤ) : (if m < d then m else d) = min d m := by
  split <;> omega

private theorem floor_min_floor (s d m : ℤ) : max s (min (max s d) m) = max s (min d m) := by
  rw [max_min_distrib_left, max_min_distrib_left, ← max_assoc, max_self]

private theorem clampRetryAfter_eq {n : ℕ} (small : n ≤ 9223372036) (p : Policy)
    (firstAttemptAt : Option ℤ) (now : ℤ) :
    clampRetryAfter (n * second) p firstAttemptAt now = boundedWait n p firstAttemptAt now := by
  have fits : (n : ℤ) * second ≤ 2 ^ 63 - 1 := by
    unfold second
    omega
  have delayed : ∀ wait left : ℤ,
      max second (min (if 0 < p.maxDelay then min (max second wait) p.maxDelay
          else max second wait) left) =
        max second (min (if 0 < p.maxDelay then min wait p.maxDelay else wait) left) := by
    intro wait left
    split
    · rw [min_assoc, min_assoc, floor_min_floor]
    · rw [floor_min_floor]
  simp only [clampRetryAfter, boundedWait, ite_and, floor_eq, cap_eq, remaining_eq]
  rw [delayed]
  cases budgetLeft p firstAttemptAt now with
  | some left => rfl
  | none =>
    have within : (if 0 < p.maxDelay then min (n * second : ℤ) p.maxDelay else n * second) ≤
        2 ^ 63 - 1 := by
      split
      · exact (min_le_left _ _).trans fits
      · exact fits
    rw [Option.getD_none, min_eq_left within]

/-- A completed attempt whose answer asks for a wait and which leaves the delivery a retry. -/
structure Throttled (i : DecisionInput) : Prop where
  status : i.outcome.httpStatus = 429 ∨ i.outcome.httpStatus = 503
  answered : i.outcome.err = none
  budget : i.policy.Exhausted i.attempt i.firstAttemptAt i.now = false

private theorem decide_throttled {i : DecisionInput} (throttled : Throttled i) (rng : Option ℚ) :
    (Decide i rng).nextAttemptAt = some (i.now +
      match i.outcome.retryAfter with
      | some wait => clampRetryAfter wait i.policy i.firstAttemptAt i.now
      | none => i.policy.Delay (i.attempt + 1) rng) := by
  obtain ⟨status, answered, budget⟩ := throttled
  have refused : ¬(i.outcome.err = none ∧ 200 ≤ i.outcome.httpStatus ∧
      i.outcome.httpStatus ≤ 299) := by
    rintro ⟨-, low, high⟩
    obtain h | h := status <;> omega
  have retried : ShouldRetry i.outcome.httpStatus i.outcome.err = true := by
    rw [answered]
    obtain h | h := status <;> rw [h] <;> rfl
  have honoured : honourRetryAfter i.outcome.httpStatus = true := by
    obtain h | h := status <;> rw [h] <;> rfl
  simp only [Decide, if_neg refused, retried, budget, honoured, Bool.not_true, Bool.false_eq_true,
    if_false, if_true]
  cases i.outcome.retryAfter with
  | some wait => rfl
  | none => rfl

/-- An attempt of a delivery whose policy bounds nothing. -/
def unbounded (retryAfter : Option ℤ) : DecisionInput where
  attempt := 1
  policy := ⟨.constant, 0, 0, 0, 1, 0, 0⟩
  firstAttemptAt := none
  now := 0
  outcome := ⟨429, none, retryAfter⟩

private theorem unbounded_throttled (retryAfter : Option ℤ) : Throttled (unbounded retryAfter) where
  status := .inl rfl
  answered := rfl
  budget := rfl

private theorem unbounded_wait_le {retryAfter : Option ℤ}
    (read : ∀ wait ∈ retryAfter, InRange wait) :
    ∃ wait, (Decide (unbounded retryAfter) none).nextAttemptAt = some wait ∧
      wait ≤ 9223372036854775807 := by
  refine ⟨_, decide_throttled (unbounded_throttled retryAfter) none, ?_⟩
  cases retryAfter with
  | none => decide
  | some wait =>
    obtain ⟨-, high⟩ := read wait rfl
    simp only [unbounded, clampRetryAfter, Policy.Remaining, second]
    split_ifs <;> omega

/-- The wait an endpoint asks for in seconds is honoured within the bounds of every policy
exactly as long as it is a `time.Duration` when counted in nanoseconds. -/
theorem retry_after_honoured_iff (parseTime : Bytes → Option ℤ) {value : Bytes} {n : ℕ}
    (names : DelaySeconds value n) :
    (∀ i rng, Throttled i → i.outcome.retryAfter = ParseRetryAfter parseTime value i.now →
        (Decide i rng).nextAttemptAt =
          some (i.now + boundedWait n i.policy i.firstAttemptAt i.now)) ↔
      n ≤ 9223372036 := by
  constructor
  · intro honoured
    by_contra large
    -- no wait that the code schedules is as long as the one asked for
    have read : ∀ wait ∈ ParseRetryAfter parseTime value 0, InRange wait :=
      fun _ => parseRetryAfter_inRange
    obtain ⟨wait, scheduled, short⟩ := unbounded_wait_le read
    have asked := honoured (unbounded (ParseRetryAfter parseTime value 0)) none
      (unbounded_throttled _) rfl
    rw [scheduled, Option.some.injEq] at asked
    have long : (n : ℤ) * second ≤ wait := by
      rw [asked]
      simp only [unbounded, boundedWait, budgetLeft, Option.bind_none, lt_irrefl, if_false,
        zero_add]
      exact le_max_right _ _
    unfold second at long
    omega
  · intro small i rng throttled read
    have precise : InRange ((n : ℤ) * second) := by
      unfold InRange second
      omega
    rw [decide_throttled throttled, read,
      parseRetryAfter_delaySeconds parseTime names i.now (by omega), wrap_of_inRange precise]
    exact congrArg (fun wait => some (i.now + wait)) (clampRetryAfter_eq small _ _ _)

/-- "120" is two minutes, within a policy of at most one minute. -/
theorem two_minutes_honoured :
    DelaySeconds [0x31, 0x32, 0x30] 120 ∧
      ((∀ i rng, Throttled i →
          i.outcome.retryAfter = ParseRetryAfter (fun _ => none) [0x31, 0x32, 0x30] i.now →
          (Decide i rng).nextAttemptAt =
            some (i.now + boundedWait 120 i.policy i.firstAttemptAt i.now)) ↔
        120 ≤ 9223372036) ∧
      boundedWait 120 ⟨.constant, 0, 0, minute, 1, 0, 0⟩ none 0 = minute :=
  ⟨by decide, retry_after_honoured_iff (fun _ => none) (by decide), by decide⟩

/-- "9223372037" seconds become a negative number of nanoseconds, so the attempt that should wait
for the policy's hour is due after one second. -/
theorem long_wait_wraps :
    let i : DecisionInput :=
      { unbounded (ParseRetryAfter (fun _ => none)
          [0x39, 0x32, 0x32, 0x33, 0x33, 0x37, 0x32, 0x30, 0x33, 0x37] 0) with
        policy := ⟨.constant, 0, 0, hour, 1, 0, 0⟩ }
    DelaySeconds [0x39, 0x32, 0x32, 0x33, 0x33, 0x37, 0x32, 0x30, 0x33, 0x37] 9223372037 ∧
      i.outcome.httpStatus = 429 ∧ i.outcome.err = none ∧
      i.policy.Exhausted i.attempt i.firstAttemptAt i.now = false ∧
      (Decide i none).nextAttemptAt = some (i.now + second) ∧
      boundedWait 9223372037 i.policy i.firstAttemptAt i.now = hour := by
  decide

end Hookubit.Worker.RetryAfter
