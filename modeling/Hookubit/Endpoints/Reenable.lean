/- sources: maintenance/endpoint-auto-disable.service.ts sweep, endpoints/endpoints.service.ts enable,
     maintenance/auto-disable-policy.ts hasBeenOpenLongEnough, worker/store.go recordFailureSQL
   digest: When a sweep takes back what an operator has enabled. -/

import Hookubit.Endpoints.Machine

/-!
`enable` writes the endpoint row and one column of the health row, and leaves `state` and
`opened_at` as the breaker left them. The sweep reads exactly those two. The history below
remembers what the tables do not: whether an operator has enabled the endpoint since the sweep
last disabled it, and which attempts were made since.
-/

set_option autoImplicit false
set_option relaxedAutoImplicit false

namespace Hookubit.Endpoints.Reenable

open Automata.LabelledSystem Endpoints.Machine Endpoints.Store Maintenance.AutoDisable
open Postgres.Clock Worker.Breaker

structure History where
  /-- An operator has enabled the endpoint since the sweep last disabled it. -/
  enabled : Bool
  /-- The attempts made since the latest enable. -/
  made : ℕ → Bool
  /-- One of those has been recorded as a failure. -/
  failed : Bool
  /-- The outcome recorded last is of one of those. -/
  answered : Bool

def enables (s : State) (c : ℕ) : Bool := s.calls c = some .enableWrite && s.row.isSome

/-- The next statement of the pass in flight switches the endpoint off. -/
def SweepDisables (s : State) : Prop :=
  ∃ p ∈ s.pass, hasBeenOpenLongEnough p.snapshot p.now p.afterHours = true ∧
    ∃ e ∈ s.row, e.status = .active ∧ e.enabled = true

instance (s : State) : Decidable (SweepDisables s) :=
  inferInstanceAs (Decidable (∃ p ∈ s.pass,
    hasBeenOpenLongEnough p.snapshot p.now p.afterHours = true ∧
      ∃ e ∈ s.row, e.status = .active ∧ e.enabled = true))

def note (s : State) (a : Op) (log : History) : History :=
  match a with
  | .updateById c => if enables s c then ⟨true, fun _ => false, false, false⟩ else log
  | .autoDisable => if SweepDisables s then { log with enabled := false } else log
  | .attempt k => { log with made := Function.update log.made k true }
  | .recordOutcome k success _ _ =>
      { log with failed := log.failed || (log.made k && !success), answered := log.made k }
  | _ => log

def observed (cfg : BreakerConfig) : System (State × History) Op :=
  (endpoints cfg).observe note ⟨false, fun _ => false, false, false⟩

/-- Should the pass in flight disable an endpoint that an operator has enabled since the sweep's
last disable, then an attempt made after the enable has been recorded as a failure. -/
def Sticks (p : State × History) : Prop :=
  SweepDisables p.1 → p.2.enabled = true → p.2.failed = true

/-- A pass takes an endpoint enabled since the last disable only when the outcome recorded last
is of an attempt made since; and no `enable` writes while a pass has the endpoint on its list. -/
def Answered (p : State × History) (a : Op) (_ : State × History) : Prop :=
  match a with
  | .candidates _ apiNow afterHours =>
      isCandidate p.1.row p.1.health apiNow afterHours → p.2.enabled = true → p.2.answered = true
  | .updateById c => enables p.1 c = true → p.1.pass = none
  | _ => True

instance (p : State × History) (a : Op) (q : State × History) : Decidable (Answered p a q) :=
  match a with
  | .candidates _ apiNow afterHours => inferInstanceAs (Decidable
      (isCandidate p.1.row p.1.health apiNow afterHours → p.2.enabled = true →
        p.2.answered = true))
  | .updateById c => inferInstanceAs (Decidable (enables p.1 c = true → p.1.pass = none))
  | .tick _ | .call _ _ | .require _ | .requireRetryPolicy _ _ | .requireHeadroom _ _
  | .hasLiveSecret _ _ | .mintInitial _ _ | .insert _ | .armBreakerProbe _ _ | .fail _
  | .autoDisable | .rollback | .claimProbe | .attempt _ | .recordOutcome _ _ _ _ =>
      inferInstanceAs (Decidable True)

/-- Where the history and the breaker meet: open, with an outcome of an attempt made since the
enable as the last one, means that this outcome was a failure. -/
structure Accounted (p : State × History) : Prop where
  opened : p.2.answered = true → ∀ h, p.1.health = some h → h.state = .opened → p.2.failed = true
  listed : p.1.pass.isSome = true → p.2.enabled = true → p.2.failed = true

theorem recordOutcome_success_not_opened (row : Option Health) (cfg : BreakerConfig) (jitter : ℚ)
    (now appNow : ℤ) : (RecordOutcome row true cfg jitter now appNow).state ≠ .opened := by
  cases row with
  | none => nofun
  | some h =>
    rw [recordOutcome_success_state]
    split <;> nofun

variable {now afterHours : ℤ} {cfg : BreakerConfig} {s t : State} {log : History}

theorem claimProbe_opened {row : Option Health} {ttl : ℤ} {g : Health}
    (hg : (ClaimProbe row ttl now).2 = some g) (opened : g.state = .opened) : row = some g := by
  rcases claimProbe_cases row ttl now with ⟨f, p, rfl, shut, hp, passed⟩ | lost
  · rw [claimProbe_due shut hp passed] at hg
    cases hg
    cases opened
  · rwa [lost] at hg

theorem armBreakerProbe_state {row : Option Health} {apiNow : ℤ} {g : Health}
    (hg : armBreakerProbe row apiNow = some g) : ∃ f, row = some f ∧ f.state = g.state := by
  obtain ⟨f, hf, rfl⟩ := Option.map_eq_some_iff.mp hg
  refine ⟨f, hf, ?_⟩
  split <;> rfl

theorem accounted_recordOutcome {k : ℕ} {success : Bool} {jitter : ℚ} {appNow : ℤ}
    (acc : Accounted (s, log)) : Accounted ({ s with
        attempts := s.attempts.erase k
        health := some (RecordOutcome s.health success cfg jitter s.clock appNow) },
      note s (.recordOutcome k success jitter appNow) log) where
  opened := by
    intro answered g hg opened
    cases hg
    cases success with
    | true => exact absurd opened (recordOutcome_success_not_opened _ _ _ _ _)
    | false =>
      have made : log.made k = true := answered
      simp [note, made]
  listed := by
    intro listed enabled
    have failed : log.failed = true := acc.listed listed enabled
    simp [note, failed]

theorem isCandidate_opened {row : Option Endpoint} {health : Option Health} {h : Health}
    (candidate : isCandidate row health now afterHours) (hh : health = some h) :
    h.state = .opened := by
  obtain ⟨e, _, g, hg, opened, _⟩ := candidate
  cases hh.symm.trans hg
  exact opened

theorem note_updateById {c : ℕ} (other : enables s c = false) :
    note s (.updateById c) log = log := by
  simp [note, other]

theorem accounted_step {a : Op} (acc : Accounted (s, log)) (h : next cfg s a = some t)
    (ok : Answered (s, log) a (t, note s a log)) : Accounted (t, note s a log) := by
  cases next_step h with
  | recordOutcome success jitter appNow running => exact accounted_recordOutcome acc
  | @write c p data e hp hd hr =>
    cases enabling : enables s c with
    | false =>
      rw [note_updateById enabling]
      exact ⟨acc.opened, acc.listed⟩
    | true =>
      -- the history starts again, and no pass has the endpoint on its list
      have idle : s.pass = none := ok enabling
      simp only [note, enabling, if_true]
      exact ⟨nofun, fun listed => by simp [State.setCall, idle] at listed⟩
  | move moves =>
    cases moves with
    | updateRefused c err empty =>
      rw [note_updateById (by simp [enables, empty])]
      exact ⟨acc.opened, acc.listed⟩
    | _ => exact ⟨acc.opened, acc.listed⟩
  | arm apiNow arming =>
    refine ⟨fun answered g hg opened => ?_, acc.listed⟩
    obtain ⟨f, hf, same⟩ := armBreakerProbe_state hg
    exact acc.opened answered f hf (same.trans opened)
  | take idle hh candidate =>
    refine ⟨acc.opened, fun _ enabled => ?_⟩
    exact acc.opened (ok candidate enabled) _ hh (isCandidate_opened candidate hh)
  | autoDisable hp =>
    refine ⟨?_, nofun⟩
    simp only [note]
    split <;> exact acc.opened
  | claimProbe =>
    exact ⟨fun answered g hg opened => acc.opened answered g (claimProbe_opened hg opened) opened,
      acc.listed⟩
  | rollback => exact ⟨acc.opened, nofun⟩
  | tick | insert | skip | attempt => exact ⟨acc.opened, acc.listed⟩

theorem accounted_of_reachable {p : State × History}
    (reach : Reachable ((observed cfg).constrain Answered) p) : Accounted p := by
  refine reach.invariant (I := Accounted) ?_ ?_
  · rintro ⟨s, log⟩ ⟨⟨_, empty, _, idle, _⟩, rfl⟩
    exact ⟨nofun, fun listed => by simp [show s.pass = none from idle] at listed⟩
  · rintro ⟨s, log⟩ a ⟨t, log'⟩ acc ⟨⟨edge, rfl⟩, ok⟩
    exact accounted_step acc edge ok

theorem isCandidate_long {row : Option Endpoint} {health : Option Health} {h : Health}
    {failures : ℤ} {lastSuccessAt : Option Payloadstore.Keys.Text}
    (candidate : isCandidate row health now afterHours) (hh : health = some h) :
    hasBeenOpenLongEnough ⟨h.openedAt, failures, lastSuccessAt⟩ now afterHours = true := by
  obtain ⟨e, _, g, hg, _, ⟨openedAt, ho, past⟩, _⟩ := candidate
  cases hh.symm.trans hg
  simp only [hasBeenOpenLongEnough, show h.openedAt = some openedAt from ho, decide_eq_true_eq]
  omega

/-- The check in process repeats the query's, so it turns no candidate away. -/
theorem listed_long (reach : Reachable (endpoints cfg) s) :
    ∀ p, s.pass = some p → hasBeenOpenLongEnough p.snapshot p.now p.afterHours = true := by
  refine reach.invariant (I := fun s => ∀ p, s.pass = some p →
    hasBeenOpenLongEnough p.snapshot p.now p.afterHours = true) ?_ ?_
  · rintro s ⟨_, _, _, idle, _⟩ p hp
    cases idle.symm.trans hp
  · intro s a t ih edge p hp
    cases next_step edge with
    | take idle hh candidate =>
      cases hp
      exact isCandidate_long candidate hh
    | autoDisable | rollback => cases hp
    | _ => exact ih p hp

theorem sweepDisables_of_candidate {apiNow : ℤ} {lastSuccessAt : Option Payloadstore.Keys.Text}
    (h : next cfg s (.candidates lastSuccessAt apiNow afterHours) = some t)
    (candidate : isCandidate s.row s.health apiNow afterHours) : SweepDisables t := by
  cases next_step h with
  | move moves => cases moves
  | take idle hh candidate =>
    obtain ⟨e, he, _, _, _, _, active, on⟩ := id candidate
    exact ⟨_, rfl, isCandidate_long candidate hh, e, he, active, on⟩
  | skip other => exact absurd candidate other

theorem sweepDisables_of_enables {c : ℕ} (reach : Reachable (endpoints cfg) s)
    (h : next cfg s (.updateById c) = some t) (enabling : enables s c = true)
    (listed : s.pass ≠ none) : SweepDisables t := by
  obtain ⟨p, hp⟩ := Option.ne_none_iff_exists'.mp listed
  obtain ⟨phase, present⟩ : s.calls c = some .enableWrite ∧ s.row.isSome = true := by
    simpa [enables] using enabling
  obtain ⟨e, hr⟩ := Option.isSome_iff_exists.mp present
  cases (next_updateById cfg phase rfl hr).symm.trans h
  exact ⟨p, hp, listed_long reach p hp, _, rfl, rfl, rfl⟩

/-- In every run whose steps are all answered, an enabled endpoint stays enabled until an attempt
made since has failed; and a step that is not answered lets the sweep take the endpoint back, unless
such an attempt has failed already. -/
theorem enable_sticks_when_answered (cfg : BreakerConfig) :
    (∀ p, Reachable ((observed cfg).constrain Answered) p → Sticks p) ∧
    ∀ p a q, Reachable (observed cfg) p → (observed cfg).step p a q → ¬ Answered p a q →
      q.2.failed = false → ¬ Sticks q := by
  constructor
  · rintro ⟨s, log⟩ reach ⟨p, hp, _⟩ enabled
    exact (accounted_of_reachable reach).listed (Option.isSome_of_mem hp) enabled
  · rintro ⟨s, log⟩ a ⟨t, log'⟩ reach ⟨edge, rfl⟩ unanswered unfailed sticks
    have failed : (note s a log).failed = true := by
      cases a with
      | candidates lastSuccessAt apiNow afterHours =>
        obtain ⟨candidate, enabled, _⟩ : isCandidate s.row s.health apiNow afterHours ∧
            log.enabled = true ∧ log.answered ≠ true := by simpa [Answered] using unanswered
        exact sticks (sweepDisables_of_candidate edge candidate) enabled
      | updateById c =>
        obtain ⟨enabling, listed⟩ : enables s c = true ∧ s.pass ≠ none := by
          simpa [Answered] using unanswered
        exact sticks (sweepDisables_of_enables reach.of_observe edge enabling listed)
          (by simp [note, enabling])
      | _ => exact absurd trivial unanswered
    exact Bool.false_ne_true (unfailed.symm.trans failed)

/-- Five failures open the breaker, three days later a pass disables the endpoint, and the operator
enables it again. -/
private def reenabled : List Op :=
  [.call 0 (.create true ⟨"orders".toList, "https://orders.test/hook".toList, none, 30000, 16, none,
      1, none, none⟩), .requireHeadroom 0 0, .insert 0, .mintInitial 0 none, .updateById 0,
    .attempt 0, .attempt 1, .attempt 2, .attempt 3, .attempt 4, .recordOutcome 0 false 1 0,
    .recordOutcome 1 false 1 0, .recordOutcome 2 false 1 0, .recordOutcome 3 false 1 0,
    .recordOutcome 4 false 1 0, .tick (72 * hour), .candidates none (72 * hour) 72, .autoDisable,
    .call 1 .enable, .require 1, .hasLiveSecret 1 true, .updateById 1,
    .armBreakerProbe 1 (72 * hour), .tick (72 * hour + 15 * minute)]

private def nextPass : Op := .candidates none (72 * hour + 15 * minute) 72

private def unused : State × History :=
  (⟨0, none, none, fun _ => none, none, []⟩, ⟨false, fun _ => false, false, false⟩)

private theorem unused_fresh : unused.1.Fresh ∧ unused.2 = ⟨false, fun _ => false, false, false⟩ :=
  ⟨⟨rfl, rfl, fun _ => rfl, rfl, rfl⟩, rfl⟩

/-- A probe that fails after the enable gives the next pass its reason. -/
theorem failed_probe_is_held_against_it :
    ∃ p, Reachable ((observed DefaultBreakerConfig).constrain Answered) p ∧ SweepDisables p.1 ∧
      p.2.enabled = true ∧ p.2.failed = true := by
  have run : (execute (fun p a => (observeNext (next DefaultBreakerConfig) note p a).filter
      fun q => Answered p a q) unused (reenabled ++ [.claimProbe, .attempt 5,
        .recordOutcome 5 false 1 0, nextPass])).any
      (fun p => SweepDisables p.1 && p.2.enabled) = true := by decide +kernel
  obtain ⟨p, hp, facts⟩ := (Option.any_eq_true _ _).mp run
  obtain ⟨ready, enabled⟩ : SweepDisables p.1 ∧ p.2.enabled = true := by simpa using facts
  have reach : Reachable ((observed DefaultBreakerConfig).constrain Answered) p := by
    rw [observed, endpoints, ofStep_observe]
    exact reachable_constrain_of_execute unused_fresh hp
  exact ⟨p, reach, ready, enabled,
    (enable_sticks_when_answered DefaultBreakerConfig).1 p reach ready enabled⟩

/-- The next pass finds the breaker as the last one left it, and nothing has been sent since. -/
theorem next_pass_undoes_enable :
    ∃ p, Reachable (observed DefaultBreakerConfig) p ∧ p.2.enabled = true ∧ p.2.failed = false ∧
      p.1.attempts = [] ∧ SweepDisables p.1 ∧ ¬ Sticks p := by
  have run : (execute (observeNext (next DefaultBreakerConfig) note) unused
      (reenabled ++ [nextPass])).any (fun p => SweepDisables p.1 && p.2.enabled && !p.2.failed &&
        p.1.attempts.isEmpty) = true := by decide +kernel
  obtain ⟨p, hp, facts⟩ := (Option.any_eq_true _ _).mp run
  simp only [Bool.and_eq_true, decide_eq_true_eq, Bool.not_eq_true', List.isEmpty_iff] at facts
  obtain ⟨⟨⟨ready, enabled⟩, unfailed⟩, idle⟩ := facts
  have reach : Reachable (observed DefaultBreakerConfig) p := by
    rw [observed, endpoints, ofStep_observe]
    exact reachable_of_execute unused_fresh hp
  refine ⟨p, reach, enabled, unfailed, idle, ready, fun sticks => ?_⟩
  exact Bool.false_ne_true (unfailed.symm.trans (sticks ready enabled))

end Hookubit.Endpoints.Reenable
