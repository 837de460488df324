/- sources: worker/store.go Complete and Defer, worker/state.go Decide, worker/deliver.go,
     queue/postgres.go
   digest: Attempts are numbered without gap, bounded by the budget, and final rows are final. -/

import Hookubit.Worker.AttemptLedger

set_option autoImplicit false
set_option relaxedAutoImplicit false

namespace Hookubit.Worker.LedgerInvariant

open Automata.LabelledSystem Postgres.Clock Queue.Deliveries Worker.StateMachine Worker.Store
open Worker.AttemptLedger

variable {Id W : Type} {log : List (AttemptRecord W)} {s t : Ledger Id W} {lease : W → ℤ}
  {op : Op W}

/-- The row is locked exactly while it is being processed. -/
def LockedWhileProcessing (d : Delivery Id W) : Prop :=
  d.lockedBy.isSome = true ↔ d.status = .processing

/-- The attempt rows carry the numbers from one to `count`, each once and in order. -/
def Numbered (count : ℤ) (log : List (AttemptRecord W)) : Prop :=
  log.map AttemptRecord.number = (List.range count.toNat).map fun i : ℕ => (i : ℤ) + 1

/-- What holds of the delivery and of every goroutine that has read it. A loaded number may
be out of date, but it is never ahead of the row by more than one. -/
structure Sound (s : Ledger Id W) : Prop where
  locked : LockedWhileProcessing s.row
  nonneg : 0 ≤ s.row.attemptCount
  numbered : Numbered s.row.attemptCount s.log
  within : s.row.attemptCount ≤ s.row.maxAttempts
  room : s.row.status.Terminal = false → s.row.attemptCount < s.row.maxAttempts
  loaded : ∀ n a j, s.attempts n = some a → a.job = some j →
    1 ≤ j.attemptNumber ∧ j.attemptNumber ≤ s.row.attemptCount + 1 ∧
      j.policy.maxAttempts = s.row.maxAttempts
  budget : 1 ≤ s.row.maxAttempts

private theorem mem_numbers {count k : ℤ} (numbered : Numbered count log) (low : 1 ≤ k)
    (high : k ≤ count) : k ∈ log.map AttemptRecord.number := by
  rw [numbered, List.mem_map]
  exact ⟨(k - 1).toNat, by rw [List.mem_range]; omega, by omega⟩

private theorem numbered_append {count : ℤ} {r : AttemptRecord W} (nonneg : 0 ≤ count)
    (numbered : Numbered count log) (number : r.number = count + 1) :
    Numbered (count + 1) (log ++ [r]) := by
  unfold Numbered at *
  have length : (count + 1).toNat = count.toNat + 1 := by omega
  rw [List.map_append, numbered, length, List.range_succ, List.map_append]
  simp only [List.map_cons, List.map_nil, number, Int.toNat_of_nonneg nonneg]

/-- The rows after one step, and nothing about the goroutines. -/
private structure SoundRow (s : Ledger Id W) (d : Delivery Id W) (log : List (AttemptRecord W)) :
    Prop where
  locked : LockedWhileProcessing d
  grown : s.row.attemptCount ≤ d.attemptCount
  numbered : Numbered d.attemptCount log
  within : d.attemptCount ≤ d.maxAttempts
  room : d.status.Terminal = false → d.attemptCount < d.maxAttempts
  frozen : d.maxAttempts = s.row.maxAttempts

/-- A commit that carries an attempt carries the next number: an older one is taken and the
unique index rolls it back. -/
private theorem number_of_commit {n : ℕ} {a : Attempt W} {j : Job} (sound : Sound s)
    (ha : s.attempts n = some a) (hj : a.job = some j)
    (unused : j.attemptNumber ∉ s.log.map AttemptRecord.number) :
    j.attemptNumber = s.row.attemptCount + 1 := by
  obtain ⟨low, high, _⟩ := sound.loaded n a j ha hj
  by_contra stale
  exact unused (mem_numbers sound.numbered low (by omega))

private theorem unlocked_advance {move : Transition} {now : ℤ} {d : Delivery Id W}
    (idle : move.state ≠ .processing) : LockedWhileProcessing (advanceRow move now d) :=
  ⟨nofun, fun h => absurd h idle⟩

private theorem soundRow_step {d : Delivery Id W} (sound : Sound s)
    (step : RowStep lease s op d log) : SoundRow s d log := by
  cases step with
  | keep _ => exact ⟨sound.locked, le_rfl, sound.numbered, sound.within, sound.room, rfl⟩
  | claim ready =>
    have running : s.row.status.Terminal = false := by
      simp only [readyPredicate, Bool.and_eq_true, claimStatuses_eq] at ready
      simpa using ready.1.1
    exact ⟨⟨fun _ => rfl, fun _ => rfl⟩, le_rfl, sound.numbered, sound.within,
      fun _ => sound.room running, rfl⟩
  | renew _ _ => exact ⟨sound.locked, le_rfl, sound.numbered, sound.within, sound.room, rfl⟩
  | unlock leased _ =>
    have processing : s.row.status = .processing := leased.elim sound.locked.mp id
    exact ⟨⟨nofun, nofun⟩, le_rfl, sound.numbered, sound.within,
      fun _ => sound.room (by rw [processing]; rfl), rfl⟩
  | @commit n x a record move ha _ planned held unused =>
    have processing : s.row.status = .processing := sound.locked.mp (by rw [held]; rfl)
    have room := sound.room (by rw [processing]; rfl)
    rcases Write.plan_cases planned with ⟨rfl, zero, ends⟩ |
      ⟨j, r, hj, rfl, number, count, ends⟩
    · have same : (advanceRow move s.clock s.row).attemptCount = s.row.attemptCount :=
        if_neg (by omega)
      have idle : move.state ≠ .processing := by
        intro h
        simp [h, State.Terminal] at ends
      refine ⟨unlocked_advance idle, same.ge, ?_, same.trans_le sound.within, ?_, rfl⟩
      · rw [same]
        simpa using sound.numbered
      · intro _
        rw [same]
        exact room
    · obtain ⟨low, _, cap⟩ := sound.loaded n a j ha hj
      have fresh := number_of_commit sound ha hj (number ▸ unused r rfl)
      have count : (advanceRow move s.clock s.row).attemptCount = s.row.attemptCount + 1 :=
        (if_pos (by omega)).trans (by omega)
      have idle : move.state ≠ .processing := by
        intro h
        simp [h, State.Terminal] at ends
      refine ⟨unlocked_advance idle, by omega, ?_, ?_, ?_, rfl⟩
      · rw [count]
        exact numbered_append sound.nonneg sound.numbered (number.trans fresh)
      · rw [count]
        exact Int.add_one_le_of_lt room
      · intro goes_on
        rw [count]
        rcases ends with ended | ⟨_, left⟩
        · exact absurd ended (Bool.eq_false_iff.mp goes_on)
        · have := left (by have := sound.budget; omega)
          change s.row.attemptCount + 1 < s.row.maxAttempts
          omega

variable [DecidableEq W]

private theorem sound_step (sound : Sound s) (edge : next lease s op = some t) : Sound t := by
  have row := soundRow_step sound (next_row edge)
  refine ⟨row.locked, sound.nonneg.trans row.grown, row.numbered, row.within, row.room, ?_,
    row.frozen ▸ sound.budget⟩
  intro n b j hb hj
  rw [row.frozen]
  have grown := row.grown
  cases next_attempt edge hb with
  | keep was _ job _ _ =>
    obtain ⟨low, high, cap⟩ := sound.loaded n _ j was (job.trans hj)
    exact ⟨low, by omega, cap⟩
  | load was loaded =>
    subst loaded
    obtain rfl := Option.some.inj hj
    have nonneg := sound.nonneg
    have budget := sound.budget
    refine ⟨?_, ?_, ?_⟩
    · change 1 ≤ s.row.attemptCount + 1
      omega
    · change s.row.attemptCount + 1 ≤ _
      omega
    · exact if_pos (by omega)
  | start fresh =>
    subst fresh
    cases hj

private theorem sound_of_reachable (reach : Reachable (ledger lease) s) : Sound s := by
  refine reach.invariant (I := Sound) ?_ fun s op t sound edge => sound_step sound edge
  intro s start
  obtain ⟨row, log, _, attempts, _, _⟩ := (start : Initial s)
  have budget := row.budget
  refine ⟨?_, row.unattempted.ge, ?_, ?_, ?_, ?_, budget⟩
  · rw [LockedWhileProcessing, row.unlocked, row.pending]
    exact ⟨nofun, nofun⟩
  · rw [log, row.unattempted]
    rfl
  · rw [row.unattempted]
    omega
  · intro _
    rw [row.unattempted]
    omega
  · intro n a j ha
    rw [attempts n] at ha
    cases ha

private theorem final_step (sound : Sound s) (final : s.row.status.Terminal = true)
    (edge : next lease s op = some t) : t.row = s.row ∧ t.log = s.log := by
  have idle : s.row.status ≠ .processing := fun h => by
    rw [h] at final
    cases final
  have unlocked : s.row.lockedBy.isSome ≠ true := fun h => idle (sound.locked.mp h)
  have step := next_row edge
  generalize t.row = d, t.log = log at step
  cases step with
  | keep _ => exact ⟨rfl, rfl⟩
  | claim ready =>
    simp only [readyPredicate, claimStatuses_eq, final] at ready
    cases ready
  | renew _ processing => exact absurd processing idle
  | unlock leased _ => exact (leased.elim unlocked idle).elim
  | commit _ _ _ held _ => exact absurd (by rw [held]; rfl) unlocked

private theorem final_run {l : List (Op W)} (sound : Sound s) (final : s.row.status.Terminal = true)
    (run : Run (ledger lease) s l t) : t.row = s.row ∧ t.log = s.log := by
  refine run.keeps (I := Sound) (P := fun t => t.row = s.row ∧ t.log = s.log)
    (fun s op t sound edge => sound_step sound edge) ?_ sound ⟨rfl, rfl⟩
  intro r op t sound ⟨row, log⟩ edge
  obtain ⟨same, kept⟩ := final_step sound (row ▸ final) edge
  exact ⟨same.trans row, kept.trans log⟩

/-- The ledger of one delivery under any interleaving of workers, lost leases and crashes:
a final row and its attempts never change again, the row is locked exactly while it is
processing, the attempts are numbered from one to the count, and the count is within budget. -/
theorem delivery_ledger {lease : W → ℤ} {s : Ledger Id W} (reach : Reachable (ledger lease) s) :
    (s.row.status.Terminal = true → ∀ l t, Run (ledger lease) s l t →
      t.row = s.row ∧ t.log = s.log) ∧
    LockedWhileProcessing s.row ∧
    Numbered s.row.attemptCount s.log ∧ 0 ≤ s.row.attemptCount ∧
    s.row.attemptCount ≤ s.row.maxAttempts := by
  have sound := sound_of_reachable reach
  exact ⟨fun final l t run => final_run sound final run, sound.locked, sound.numbered,
    sound.nonneg, sound.within⟩

/-- A delivery that one worker claims and delivers at the first attempt. -/
theorem delivered_ledger :
    ∃ s : Ledger ℕ ℕ, Reachable (ledger fun _ => 2 * minute) s ∧ s.row.status = .succeeded ∧
      s.row.attemptCount = 1 ∧
      (∀ l t, Run (ledger fun _ => 2 * minute) s l t → t.row = s.row ∧ t.log = s.log) ∧
      LockedWhileProcessing s.row ∧ Numbered 1 s.log := by
  have start : Reachable (ledger fun _ => 2 * minute) (.inserted (.inserted 1 1 1 1 1 1 8 0)) :=
    .start (initial_inserted (W := ℕ) 1 1 1 1 1 1 (by decide) 0)
  obtain ⟨s, run, status, count⟩ : ∃ s, execute (next fun _ => 2 * minute)
      (.inserted (.inserted 1 1 1 1 1 1 8 0)) [.claim 7 true, .track 1,
        .load 1 ⟨none, none, none, none, none, none, none⟩ .active true,
        .write 1 (.attempt 0 second ⟨200, none, none⟩ none second)] = some s ∧
      s.row.status = .succeeded ∧ s.row.attemptCount = 1 := ⟨_, rfl, rfl, rfl⟩
  have reach : Reachable (ledger fun _ => 2 * minute) s := start.run (run_of_execute run)
  obtain ⟨final, locked, numbered, _⟩ := delivery_ledger reach
  exact ⟨s, reach, status, count, final (by rw [status]; rfl), locked, count ▸ numbered⟩

end Hookubit.Worker.LedgerInvariant
