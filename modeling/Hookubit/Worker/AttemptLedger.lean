/- sources: worker/worker.go poll, worker/deliver.go, worker/store.go, queue/postgres.go,
     queue/lease.go
   digest: One delivery, its attempt rows, and any number of workers handling leases on it. -/

import Hookubit.Automata.LabelledSystem
import Hookubit.Worker.Store

/-!
Every statement and every call of the lease keeper is a step of its own, so that a lease may
lapse, move or come back between any two of them. Claims of the row are counted, and an
attempt is known by the number of the claim that started it; the code keeps no such number.
-/

set_option autoImplicit false
set_option relaxedAutoImplicit false

namespace Hookubit.Worker.AttemptLedger

open Function (update)
open Automata.LabelledSystem Postgres.Clock Queue.Deliveries
open Retry.Backoff (DeliveryError Policy)
open Worker.StateMachine Worker.Store

variable {Id W : Type} [DecidableEq W]

/-- One goroutine of `poll`, handling one lease. It ends with at most one write. -/
structure Attempt (W : Type) where
  worker : W
  job : Option Job
  tracking : Bool
  cancelled : Bool
  written : Bool
  deriving DecidableEq

/-- The delivery in the database, the goroutines, and each worker's lease keeper: the claim
whose cancel function it holds, and whether a renewal has reported the delivery lost. -/
structure Ledger (Id W : Type) where
  clock : ℤ
  row : Delivery Id W
  log : List (AttemptRecord W)
  claims : ℕ
  attempts : ℕ → Option (Attempt W)
  tracked : W → Option ℕ
  lost : W → Bool

/-- How a goroutine ends, with the readings of the worker's clock that it uses. -/
inductive Write
  | attempt (started finished : ℤ) (outcome : Outcome) (rng : Option ℚ) (now : ℤ)
  | nonHTTP (started decided : ℤ) (cause : DeliveryError) (rng : Option ℚ) (now : ℤ)
  | undeliverable (now : ℤ)
  | defer (budget : Budget) (reason : Reason) (delay now : ℤ) (shutdown : Bool)
  deriving DecidableEq

/-- The attempt row and the transition that a goroutine hands to the store. All but a
deferral need the loaded job. -/
def Write.plan (w : W) (job : Option Job) :
    Write → Option (Option (AttemptRecord W) × Transition)
  | .attempt started finished outcome rng now => job.map fun j =>
      let (record, decision) := attempted j w started finished outcome rng
      (some record, finishTransition (some record) decision now)
  | .nonHTTP started decided cause rng now => job.map fun j =>
      let (record, decision) := recordNonHTTP j w started decided cause rng
      (some record, finishTransition (some record) decision now)
  | .undeliverable now => job.bind fun j => j.undeliverable.map fun reason =>
      (none, finishTransition (none : Option (AttemptRecord W))
        ⟨.cancelled, reason, .error, none, "", false⟩ now)
  | .defer budget reason delay now shutdown =>
      some (none, deferDelivery budget reason delay now shutdown)

omit [DecidableEq W] in
/-- What a goroutine may hand to the store: nothing to charge and an end or a deferral, or
the number of its job with an end or a retry inside the policy's budget. -/
theorem Write.plan_cases {x : Write} {w : W} {job : Option Job}
    {record : Option (AttemptRecord W)} {move : Transition}
    (h : x.plan w job = some (record, move)) :
    record = none ∧ move.attemptCount = 0 ∧
        (move.state.Terminal = true ∨ move.state = .scheduled) ∨
      ∃ j r, job = some j ∧ record = some r ∧ r.number = j.attemptNumber ∧
        move.attemptCount = j.attemptNumber ∧
        (move.state.Terminal = true ∨ move.state = .retrying ∧
          (0 < j.policy.maxAttempts → j.attemptNumber < j.policy.maxAttempts)) := by
  cases x with
  | attempt _ _ _ rng _ | nonHTTP _ _ _ rng _ =>
    obtain ⟨j, rfl, hj⟩ := Option.map_eq_some_iff.mp h
    cases hj
    refine .inr ⟨j, _, rfl, rfl, rfl, rfl, ?_⟩
    exact (decide_state _ rng).imp_right fun retry =>
      ⟨retry.1, fun capped => Policy.attempt_lt_of_not_exhausted capped retry.2⟩
  | undeliverable now =>
    obtain ⟨j, rfl, hj⟩ := Option.bind_eq_some_iff.mp h
    obtain ⟨reason, _, hr⟩ := Option.map_eq_some_iff.mp hj
    cases hr
    exact .inl ⟨rfl, rfl, .inl rfl⟩
  | defer budget reason delay now shutdown =>
    cases h
    refine .inl ⟨rfl, ?_⟩
    unfold deferDelivery
    split
    · exact ⟨rfl, .inl rfl⟩
    · exact ⟨rfl, .inr rfl⟩

inductive Op (W : Type)
  | tick (now : ℤ)
  | claim (w : W) (received : Bool)
  | renew (w : W) (replied : Bool)
  | abandon (w : W)
  | reclaimExpired
  | release (w : W)
  | track (n : ℕ)
  | load (n : ℕ) (pol : PolicyColumns) (status : EndpointStatus) (enabled : Bool)
  | write (n : ℕ) (x : Write)
  | done (n : ℕ)
  | crash (w : W)
  deriving DecidableEq

/-- The state of the ledger after the write of attempt `a`, `none` where nothing commits. -/
def committed (s : Ledger Id W) (a : Attempt W) (x : Write) :
    Option (Delivery Id W × List (AttemptRecord W)) :=
  (x.plan a.worker a.job).bind fun p => Complete a.worker p.1 p.2 s.clock s.row s.log

def next (lease : W → ℤ) (s : Ledger Id W) : Op W → Option (Ledger Id W)
  | .tick now => if s.clock ≤ now then some { s with clock := now } else none
  | .claim w received =>
      -- A reply that is lost on the way leaves a lease that no goroutine handles.
      (claimFIFOSQL w (lease w) s.clock s.row).map fun d =>
        { s with
          row := d
          claims := s.claims + 1
          attempts :=
            if received then update s.attempts (s.claims + 1) (some ⟨w, none, false, false, false⟩)
            else s.attempts }
  | .renew w replied =>
      if (s.tracked w).isSome then
        match renewSQL w (lease w) s.clock s.row with
        | some d => some { s with row := d }
        | none => some { s with lost := if replied then update s.lost w true else s.lost }
      else none
  | .abandon w =>
      if s.lost w then
        some { s with
          lost := update s.lost w false
          tracked := update s.tracked w none
          attempts := fun n =>
            if s.tracked w = some n then (s.attempts n).map ({ · with cancelled := true })
            else s.attempts n }
      else none
  | .reclaimExpired => (reclaimSQL s.clock s.row).map fun d => { s with row := d }
  | .release w => (releaseSQL w s.row).map fun d => { s with row := d }
  | .track n =>
      -- `Track` overwrites what the keeper held for this delivery.
      (s.attempts n).bind fun a =>
        if a.tracking || a.written then none
        else some { s with
          tracked := update s.tracked a.worker (some n)
          attempts := update s.attempts n (some { a with tracking := true }) }
  | .load n pol status enabled =>
      (s.attempts n).bind fun a =>
        if a.tracking && !a.written && a.job.isNone then
          let job := Load s.row s.log pol status enabled
          some { s with attempts := update s.attempts n (some { a with job := some job }) }
        else none
  | .write n x =>
      (s.attempts n).bind fun a =>
        if a.written || (x.plan a.worker a.job).isNone then none
        else
          let stored := (committed s a x).getD (s.row, s.log)
          some { s with
            row := stored.1
            log := stored.2
            attempts := update s.attempts n (some { a with written := true }) }
  | .done n =>
      -- The done function deletes the delivery's entry, whichever attempt put it there.
      (s.attempts n).map fun a =>
        { s with
          tracked := if a.tracking then update s.tracked a.worker none else s.tracked
          attempts := update s.attempts n none }
  | .crash w =>
      some { s with
        lost := update s.lost w false
        tracked := update s.tracked w none
        attempts := fun n => (s.attempts n).filter fun a => a.worker ≠ w }

/-- A row as the router or a replay inserts it: unleased, never attempted, with a budget. -/
structure Fresh (d : Delivery Id W) : Prop where
  pending : d.status = .pending
  unattempted : d.attemptCount = 0
  budget : 1 ≤ d.maxAttempts
  unlocked : d.lockedBy = none
  unleased : d.lockedUntil = none

structure Initial (s : Ledger Id W) : Prop where
  row : Fresh s.row
  log : s.log = []
  claims : s.claims = 0
  attempts : ∀ n, s.attempts n = none
  tracked : ∀ w, s.tracked w = none
  lost : ∀ w, s.lost w = false

def Ledger.inserted (d : Delivery Id W) : Ledger Id W where
  clock := d.createdAt
  row := d
  log := []
  claims := 0
  attempts := fun _ => none
  tracked := fun _ => none
  lost := fun _ => false

omit [DecidableEq W] in
theorem initial_inserted (id eventId endpointId subscriptionId organizationId projectId : Id)
    {maxAttempts : ℤ} (budget : 1 ≤ maxAttempts) (now : ℤ) :
    Initial (.inserted (W := W) (Delivery.inserted id eventId endpointId subscriptionId
      organizationId projectId maxAttempts now)) where
  row := ⟨rfl, rfl, budget, rfl, rfl⟩
  log := rfl
  claims := rfl
  attempts := fun _ => rfl
  tracked := fun _ => rfl
  lost := fun _ => rfl

def ledger (lease : W → ℤ) : System (Ledger Id W) (Op W) := .ofStep Initial (next lease)

/-- Everything one step can do to the delivery's rows. -/
inductive RowStep (lease : W → ℤ) (s : Ledger Id W) :
    Op W → Delivery Id W → List (AttemptRecord W) → Prop
  | keep {a : Op W} : (∀ w received, a ≠ .claim w received) → RowStep lease s a s.row s.log
  | claim {w : W} {received : Bool} : readyPredicate s.clock s.row = true →
      RowStep lease s (.claim w received) (claimRow w (lease w) s.clock s.row) s.log
  | renew {w : W} {replied : Bool} : s.row.lockedBy = some w → s.row.status = .processing →
      RowStep lease s (.renew w replied)
        { s.row with lockedUntil := some (timestamp3 (s.clock + intervalOf (lease w))) } s.log
  | unlock {op : Op W} : s.row.lockedBy.isSome = true ∨ s.row.status = .processing →
      (∀ w received, op ≠ .claim w received) → RowStep lease s op (unlockRow s.row) s.log
  | commit {n : ℕ} {x : Write} {a : Attempt W} {record : Option (AttemptRecord W)}
      {move : Transition} : s.attempts n = some a → a.written = false →
      x.plan a.worker a.job = some (record, move) → s.row.lockedBy = some a.worker →
      (∀ r, record = some r → r.number ∉ s.log.map AttemptRecord.number) →
      RowStep lease s (.write n x) (advanceRow move s.clock s.row)
        (s.log ++ (record.map AttemptRecord.stored).toList)

variable {lease : W → ℤ} {s t : Ledger Id W} {b : Attempt W} {op : Op W}

theorem next_row {a : Op W} (h : next lease s a = some t) : RowStep lease s a t.row t.log := by
  cases a with
  | tick now =>
    obtain ⟨-, ⟨⟩⟩ := Option.ite_none_right_eq_some.mp h
    exact .keep (by simp)
  | claim w received =>
    obtain ⟨d, hd, rfl⟩ := Option.map_eq_some_iff.mp h
    obtain ⟨_, ⟨⟩⟩ := Option.ite_none_right_eq_some.mp hd
    exact .claim (by assumption)
  | renew w replied =>
    simp only [next] at h
    split at h
    · split at h
      · rename_i d hd
        cases h
        obtain ⟨mine, ⟨⟩⟩ := Option.ite_none_right_eq_some.mp hd
        exact .renew mine.1 mine.2
      · cases h
        exact .keep (by simp)
    · cases h
  | abandon w =>
    obtain ⟨-, ⟨⟩⟩ := Option.ite_none_right_eq_some.mp h
    exact .keep (by simp)
  | reclaimExpired =>
    obtain ⟨d, hd, rfl⟩ := Option.map_eq_some_iff.mp h
    obtain ⟨expired, ⟨⟩⟩ := Option.ite_none_right_eq_some.mp hd
    exact .unlock (.inr expired.1) (by simp)
  | release w =>
    obtain ⟨d, hd, rfl⟩ := Option.map_eq_some_iff.mp h
    obtain ⟨mine, ⟨⟩⟩ := Option.ite_none_right_eq_some.mp hd
    exact .unlock (.inl (by rw [mine]; rfl)) (by simp)
  | track n =>
    obtain ⟨a, _, ha⟩ := Option.bind_eq_some_iff.mp h
    obtain ⟨-, ⟨⟩⟩ := Option.ite_none_left_eq_some.mp ha
    exact .keep (by simp)
  | load n pol status enabled =>
    obtain ⟨a, _, ha⟩ := Option.bind_eq_some_iff.mp h
    obtain ⟨-, ⟨⟩⟩ := Option.ite_none_right_eq_some.mp ha
    exact .keep (by simp)
  | write n x =>
    obtain ⟨a, hn, ha⟩ := Option.bind_eq_some_iff.mp h
    obtain ⟨fresh, ⟨⟩⟩ := Option.ite_none_left_eq_some.mp ha
    cases hc : committed s a x with
    | none => exact .keep (by simp)
    | some stored =>
      obtain ⟨⟨record, move⟩, planned, commits⟩ := Option.bind_eq_some_iff.mp hc
      obtain ⟨held, unused, rfl⟩ := complete_eq_some_iff.mp commits
      refine .commit hn ?_ planned held unused
      cases hw : a.written
      · rfl
      · simp [hw] at fresh
  | done n =>
    obtain ⟨a, _, rfl⟩ := Option.map_eq_some_iff.mp h
    exact .keep (by simp)
  | crash w =>
    cases h
    exact .keep (by simp)

/-- Everything one step can do to a goroutine: it goes on, learns its job from the present
row, is cancelled or has written; or it is the one that a claim just started. -/
inductive AttemptStep (s : Ledger Id W) (b : Attempt W) : Op W → ℕ → Prop
  | keep {op : Op W} {n : ℕ} {a : Attempt W} : s.attempts n = some a → a.worker = b.worker →
      a.job = b.job → (b.cancelled = false → a.cancelled = false) →
      (b.written = false → a.written = false) → AttemptStep s b op n
  | load {n : ℕ} {a : Attempt W} {pol : PolicyColumns} {status : EndpointStatus}
      {enabled : Bool} : s.attempts n = some a →
      b = { a with job := some (Load s.row s.log pol status enabled) } →
      AttemptStep s b (.load n pol status enabled) n
  | start {w : W} : b = ⟨w, none, false, false, false⟩ →
      AttemptStep s b (.claim w true) (s.claims + 1)

omit [DecidableEq W] in
private theorem AttemptStep.same {n : ℕ} (hb : s.attempts n = some b) : AttemptStep s b op n :=
  .keep hb rfl rfl id id

omit [DecidableEq W] in
private theorem replaced_or_old {n m : ℕ} {new : Attempt W}
    (hb : update s.attempts n (some new) m = some b) : m = n ∧ new = b ∨ s.attempts m = some b := by
  by_cases hm : m = n
  · subst hm
    rw [Function.update_self] at hb
    exact .inl ⟨rfl, Option.some.inj hb⟩
  · rw [Function.update_of_ne hm] at hb
    exact .inr hb

theorem next_attempt (h : next lease s op = some t) {m : ℕ} (hb : t.attempts m = some b) :
    AttemptStep s b op m := by
  cases op with
  | tick now =>
    obtain ⟨-, ⟨⟩⟩ := Option.ite_none_right_eq_some.mp h
    exact .same hb
  | claim w received =>
    obtain ⟨d, _, rfl⟩ := Option.map_eq_some_iff.mp h
    cases received with
    | false => exact .same hb
    | true =>
      obtain ⟨rfl, started⟩ | old := replaced_or_old hb
      · exact .start started.symm
      · exact .same old
  | renew w replied =>
    simp only [next] at h
    split at h
    · split at h <;> cases h <;> exact .same hb
    · cases h
  | abandon w =>
    obtain ⟨-, ⟨⟩⟩ := Option.ite_none_right_eq_some.mp h
    dsimp only at hb
    split at hb
    · obtain ⟨a, ha, rfl⟩ := Option.map_eq_some_iff.mp hb
      exact .keep ha rfl rfl (fun h => by cases h) id
    · exact .same hb
  | reclaimExpired =>
    obtain ⟨d, _, rfl⟩ := Option.map_eq_some_iff.mp h
    exact .same hb
  | release w =>
    obtain ⟨d, _, rfl⟩ := Option.map_eq_some_iff.mp h
    exact .same hb
  | track n =>
    obtain ⟨a, hn, ha⟩ := Option.bind_eq_some_iff.mp h
    obtain ⟨-, ⟨⟩⟩ := Option.ite_none_left_eq_some.mp ha
    obtain ⟨rfl, rfl⟩ | old := replaced_or_old hb
    · exact .keep hn rfl rfl id id
    · exact .same old
  | load n pol status enabled =>
    obtain ⟨a, hn, ha⟩ := Option.bind_eq_some_iff.mp h
    obtain ⟨-, ⟨⟩⟩ := Option.ite_none_right_eq_some.mp ha
    obtain ⟨rfl, loaded⟩ | old := replaced_or_old hb
    · exact .load hn loaded.symm
    · exact .same old
  | write n x =>
    obtain ⟨a, hn, ha⟩ := Option.bind_eq_some_iff.mp h
    obtain ⟨-, ⟨⟩⟩ := Option.ite_none_left_eq_some.mp ha
    obtain ⟨rfl, rfl⟩ | old := replaced_or_old hb
    · exact .keep hn rfl rfl id (fun h => by cases h)
    · exact .same old
  | done n =>
    obtain ⟨a, _, rfl⟩ := Option.map_eq_some_iff.mp h
    by_cases hm : m = n
    · subst hm
      simp at hb
    · simp only [Function.update_of_ne hm] at hb
      exact .same hb
  | crash w =>
    cases h
    exact .same (Option.filter_eq_some_iff.mp hb).1

theorem next_claims (h : next lease s op = some t) :
    t.claims = s.claims + 1 ∧ (∃ w received, op = .claim w received) ∨
      t.claims = s.claims ∧ ∀ w received, op ≠ .claim w received := by
  cases op with
  | claim w received =>
    obtain ⟨d, _, rfl⟩ := Option.map_eq_some_iff.mp h
    exact .inl ⟨rfl, w, received, rfl⟩
  | _ =>
    refine .inr ⟨?_, by simp⟩
    simp only [next, Option.bind_eq_some_iff, Option.map_eq_some_iff] at h
    grind

end Hookubit.Worker.AttemptLedger
