/- sources: worker/store.go advanceSQL, queue/postgres.go claimFIFOSQL, worker/worker.go poll,
     queue/lease.go
   digest: When the worker id in the write guard still names the latest claim. -/

import Hookubit.Worker.AttemptLedger

/-!
`advanceSQL` asks only whether the row is locked by the worker's id. That id names the latest
claim as long as no worker takes the row again while an earlier attempt of its own is live; a
worker that does hands its new lease to the old attempt as well, and the keeper, which holds
one cancel function for each delivery, no longer reaches the old one.
-/

set_option autoImplicit false
set_option relaxedAutoImplicit false

namespace Hookubit.Worker.LeaseCurrency

open Automata.LabelledSystem Postgres.Clock Queue.Deliveries
open Retry.Backoff (DefaultPolicy)
open Worker.Store Worker.AttemptLedger

variable {Id W : Type} [DecidableEq W] {w : W} {lease : W → ℤ} {s t : Ledger Id W} {op : Op W}
  {a : Attempt W}

/-- The goroutine may still write: it has not done so, and the keeper has not cancelled it. -/
def Live (a : Attempt W) : Prop := a.cancelled = false ∧ a.written = false

/-- Attempt `n` is live and its write commits. -/
def Commits (s : Ledger Id W) (n : ℕ) (x : Write) : Prop :=
  ∃ a, s.attempts n = some a ∧ Live a ∧ (committed s a x).isSome = true

/-- Only attempts that the lease keeper has not cancelled write. -/
def HeedsCancel (s : Ledger Id W) (op : Op W) : Prop :=
  ∀ n x a, op = .write n x → s.attempts n = some a → a.cancelled = false

/-- No worker takes the row while an attempt of its own on it is live. -/
def NoSelfOverlap (s : Ledger Id W) (op : Op W) : Prop :=
  ∀ w received n a, op = .claim w received → s.attempts n = some a → a.worker = w → ¬ Live a

/-- Whatever commits was started by the latest claim of the row. -/
def CommitsAreCurrent (s : Ledger Id W) : Prop := ∀ n x, Commits s n x → n = s.claims

/-- The lease-holder's live attempts are the latest claim's. -/
private def Current (s : Ledger Id W) : Prop :=
  ∀ n a, s.attempts n = some a → s.row.lockedBy = some a.worker → Live a → n = s.claims

omit [DecidableEq W] in
private theorem claimed_by {lease now : ℤ} {d e : Delivery Id W}
    (claimed : claimFIFOSQL w lease now d = some e) : e.lockedBy = some w := by
  unfold claimFIFOSQL at claimed
  split at claimed
  · cases claimed
    rfl
  · cases claimed

private theorem numbered_step (numbered : ∀ n a, s.attempts n = some a → n ≤ s.claims)
    (edge : next lease s op = some t) : ∀ n a, t.attempts n = some a → n ≤ t.claims := by
  intro n a ha
  cases next_attempt edge ha with
  | keep was _ _ _ _ =>
    have := numbered n _ was
    rcases next_claims edge with ⟨more, _⟩ | ⟨same, _⟩ <;> omega
  | load was _ =>
    have := numbered n _ was
    rcases next_claims edge with ⟨more, _⟩ | ⟨same, _⟩ <;> omega
  | start _ =>
    rcases next_claims edge with ⟨more, _⟩ | ⟨_, other⟩
    · omega
    · exact absurd rfl (other _ _)

private theorem numbered_of_reachable (reach : Reachable (ledger lease) s) :
    ∀ n a, s.attempts n = some a → n ≤ s.claims := by
  refine reach.invariant (I := fun s => ∀ n a, s.attempts n = some a → n ≤ s.claims) ?_
    fun s op t numbered edge => numbered_step numbered edge
  intro s start n a ha
  rw [(show Initial s from start).attempts n] at ha
  cases ha

private theorem holder_step (edge : next lease s op = some t)
    (other : ∀ w received, op ≠ .claim w received) (holds : t.row.lockedBy = some w) :
    s.row.lockedBy = some w := by
  have := next_row edge
  generalize t.row = d, t.log = log at this holds
  cases this with
  | keep _ => exact holds
  | claim _ => exact absurd rfl (other _ _)
  | renew _ _ => exact holds
  | unlock _ _ => cases holds
  | commit _ _ _ _ _ => cases holds

/-- Under the condition every step keeps the holder's live attempts current: a claim finds
no live attempt of its worker, and no other step brings a holder or a live attempt back. -/
private theorem current_step (cur : Current s) (alone : NoSelfOverlap s op)
    (edge : next lease s op = some t) : Current t := by
  intro n b hb holds live
  rcases next_claims edge with ⟨more, w, received, rfl⟩ | ⟨same, other⟩
  · have holder : t.row.lockedBy = some w := by
      obtain ⟨d, hd, rfl⟩ := Option.map_eq_some_iff.mp edge
      exact claimed_by hd
    have mine : w = b.worker := Option.some.inj (holder.symm.trans holds)
    cases next_attempt edge hb with
    | keep was worker _ cancelled written =>
      exact absurd ⟨cancelled live.1, written live.2⟩
        (alone w received n _ rfl was (worker.trans mine.symm))
    | start _ => exact more.symm
  · have held := holder_step edge other holds
    rw [same]
    cases next_attempt edge hb with
    | keep was worker _ cancelled written =>
      exact cur n _ was (worker ▸ held) ⟨cancelled live.1, written live.2⟩
    | load was loaded =>
      subst loaded
      exact cur n _ was held live
    | start _ => exact absurd rfl (other _ _)

private theorem current_of_reachable
    (reach : Reachable ((ledger lease).constrain fun s op _ => HeedsCancel s op ∧
      NoSelfOverlap s op) s) :
    Current s := by
  refine reach.invariant (I := Current) ?_ ?_
  · intro s start n a ha
    rw [(show Initial s from start).attempts n] at ha
    cases ha
  · intro s op t cur edge
    exact current_step cur edge.2.2 edge.1

private theorem held_of_commits {x : Write} (commits : (committed s a x).isSome = true) :
    s.row.lockedBy = some a.worker := by
  obtain ⟨stored, hs⟩ := Option.isSome_iff_exists.mp commits
  obtain ⟨p, _, done⟩ := Option.bind_eq_some_iff.mp hs
  exact (complete_eq_some_iff.mp done).1

private theorem defer_commits (held : s.row.lockedBy = some a.worker) (budget : Budget)
    (reason : StateMachine.Reason) (delay now : ℤ) (shutdown : Bool) :
    (committed s a (.defer budget reason delay now shutdown)).isSome = true := by
  have stored : Complete a.worker none (deferDelivery budget reason delay now shutdown) s.clock
      s.row s.log = some _ := complete_eq_some_iff.mpr ⟨held, nofun, rfl⟩
  exact Option.isSome_iff_exists.mpr ⟨_, stored⟩

private theorem overlap_commits {received : Bool} {n : ℕ} (older : n ≤ s.claims)
    (edge : next lease s (.claim w received) = some t) (ha : s.attempts n = some a)
    (mine : a.worker = w) (live : Live a) : n ≠ t.claims ∧ ∀ budget reason delay now shutdown,
      Commits t n (.defer budget reason delay now shutdown) := by
  obtain ⟨d, hd, rfl⟩ := Option.map_eq_some_iff.mp edge
  have kept : n ≠ s.claims + 1 := by omega
  refine ⟨kept, fun budget reason delay now shutdown =>
    ⟨a, ?_, live, defer_commits ?_ budget reason delay now shutdown⟩⟩
  · cases received with
    | false => exact ha
    | true => exact (Function.update_of_ne kept _ _).trans ha
  · rw [mine]
    exact claimed_by hd

/-- In every run in which no worker takes the row over a live attempt of its own, whatever
commits is current. The condition cannot be dropped at any claim: after one that overlaps,
any deferral by the older attempt commits although that attempt is not current. -/
theorem commits_are_current (lease : W → ℤ) :
    (∀ s : Ledger Id W, Reachable ((ledger lease).constrain fun s op _ =>
      HeedsCancel s op ∧ NoSelfOverlap s op) s → CommitsAreCurrent s) ∧
    ∀ (s t : Ledger Id W) (w : W) (received : Bool) (n : ℕ) (a : Attempt W),
      Reachable ((ledger lease).constrain fun s op _ => HeedsCancel s op) s →
      next lease s (.claim w received) = some t →
      s.attempts n = some a → a.worker = w → Live a →
        n ≠ t.claims ∧ ∀ budget reason delay now shutdown,
          Commits t n (.defer budget reason delay now shutdown) := by
  constructor
  · intro s reach n x commits
    obtain ⟨a, ha, live, done⟩ := commits
    exact current_of_reachable reach n a ha (held_of_commits done) live
  · intro s t w received n a reach edge ha mine live
    exact overlap_commits (numbered_of_reachable reach.of_constrain n a ha) edge ha mine live

private theorem reach_quiet (op : Op W)
    (reach : Reachable ((ledger lease).constrain fun s op _ => HeedsCancel s op) s)
    (edge : next lease s op = some t) (quiet : ∀ n x, op ≠ .write n x) :
    Reachable ((ledger lease).constrain fun s op _ => HeedsCancel s op) t :=
  reach.step ⟨edge, fun n x _ h => absurd h (quiet n x)⟩

private def unclaimed : Ledger ℕ ℕ := .inserted (.inserted 1 1 1 1 1 1 8 0)

private theorem unclaimed_initial : Initial unclaimed := initial_inserted 1 1 1 1 1 1 (by decide) 0

private theorem reach_alone (op : Op W)
    (reach : Reachable ((ledger lease).constrain fun s op _ =>
      HeedsCancel s op ∧ NoSelfOverlap s op) s)
    (edge : next lease s op = some t) (quiet : ∀ n x, op ≠ .write n x)
    (alone : NoSelfOverlap s op) :
    Reachable ((ledger lease).constrain fun s op _ => HeedsCancel s op ∧ NoSelfOverlap s op) t :=
  reach.step ⟨edge, fun n x _ h => absurd h (quiet n x), alone⟩

/-- Worker 7's lease lapses and worker 8 claims the row: attempt 1 is still running and what
attempt 2 commits is current. -/
theorem second_worker_commit_is_current :
    ∃ s : Ledger ℕ ℕ, Reachable ((ledger fun _ => 2 * minute).constrain fun s op _ =>
        HeedsCancel s op ∧ NoSelfOverlap s op) s ∧
      (∃ a, s.attempts 1 = some a ∧ Live a) ∧ (∃ x, Commits s 2 x) ∧ CommitsAreCurrent s := by
  have start : Reachable ((ledger fun _ => 2 * minute).constrain fun s op _ =>
      HeedsCancel s op ∧ NoSelfOverlap s op) unclaimed := .start unclaimed_initial
  have claimed := reach_alone (.claim 7 true) start rfl (by simp) (fun _ _ _ _ _ h => by cases h)
  have lapsed := reach_alone (.tick (3 * minute)) claimed rfl (by simp)
    (fun _ _ _ _ h => by cases h)
  -- Worker 7's is the only attempt so far.
  have taken := reach_alone (.claim 8 true) lapsed rfl (by simp) fun w _ n a h ha hw => by
    obtain ⟨rfl, rfl⟩ := Op.claim.inj h
    by_cases first : n = 1
    · subst first
      cases ha
      cases hw
    · exact absurd ha (by simp [Function.update_of_ne first, unclaimed, Ledger.inserted])
  refine ⟨_, taken, ⟨⟨7, none, false, false, false⟩, rfl, rfl, rfl⟩,
    ⟨.defer ⟨DefaultPolicy, none⟩ .concurrencyLimited second 0 false,
      ⟨8, none, false, false, false⟩, rfl, ⟨rfl, rfl⟩, ?_⟩, (commits_are_current _).1 _ taken⟩
  exact defer_commits rfl ⟨DefaultPolicy, none⟩ .concurrencyLimited second 0 false

/-- Worker 7 claims with the default lease of two minutes and tracks its attempt; no renewal
goes through, the lease lapses, and the next poll of the same worker claims the row again.
The first attempt is neither cancelled nor current, and its deferral commits. -/
theorem own_reclaim_revives_old_attempt :
    ∃ s : Ledger ℕ ℕ,
      Reachable ((ledger fun _ => 2 * minute).constrain fun s op _ => HeedsCancel s op) s ∧
        ¬ CommitsAreCurrent s := by
  have start : Reachable ((ledger fun _ => 2 * minute).constrain fun s op _ => HeedsCancel s op)
      unclaimed := .start unclaimed_initial
  have claimed := reach_quiet (.claim 7 true) start rfl (by simp)
  have tracked := reach_quiet (.track 1) claimed rfl (by simp)
  have lapsed := reach_quiet (.tick (3 * minute)) tracked rfl (by simp)
  have overlap := reach_quiet (.claim 7 true) lapsed rfl (by simp)
  refine ⟨_, overlap, ?_⟩
  intro current
  obtain ⟨stale, commits⟩ := overlap_commits
    (numbered_of_reachable lapsed.of_constrain 1 _ rfl)
    (show next (fun _ => 2 * minute) _ (.claim 7 true) = some _ from rfl) rfl rfl ⟨rfl, rfl⟩
  exact stale (current 1 _ (commits ⟨DefaultPolicy, none⟩ .concurrencyLimited second 0 false))

end Hookubit.Worker.LeaseCurrency
