/- sources: worker/deliver.go (handle, deliver, deferDelivery, expireDelivery, tenantGateBudget),
     worker/gatewatch.go, retry/retry.go DurationExhausted
   digest: A delivery that is only ever refused still ends when its wall-clock budget does. -/

import Hookubit.Automata.LabelledSystem
import Hookubit.Worker.GateWatch
import Hookubit.Worker.Store

/-!
One worker process claims one delivery again and again, and every claim ends in a refusal. The
clock of the state is the worker's, which `deferDelivery` reads; a refusal is written at that
reading. The database clock only decides when a row is ready and what it is stamped with. Other
deliveries go through the same gate and share the tracker.
-/

set_option autoImplicit false
set_option relaxedAutoImplicit false

namespace Hookubit.Worker.DeferralBudget

open Automata.LabelledSystem Postgres.Clock Queue.Deliveries Retry.Backoff Worker.GateWatch
open Worker.StateMachine Worker.Store

variable {Id W : Type} [DecidableEq Id]

/-- The five ways in which a claim ends without a request. -/
inductive Refusal
  | tenantGate | endpointGate | rateLimit | payloadStore | openBreaker
  deriving DecidableEq

def Refusal.reason : Refusal → Reason
  | .tenantGate | .endpointGate => .concurrencyLimited
  | .rateLimit => .rateLimited
  | .payloadStore => .payloadUnavailable
  | .openBreaker => .breakerOpen

/-- What stays fixed: the worker, its lease, and the retry policy the delivery resolves to. -/
structure Setup (W : Type) where
  workerID : W
  lease : ℤ
  policy : PolicyColumns

structure State (Id W : Type) [DecidableEq Id] where
  clock : ℤ
  delivery : Delivery Id W
  attempts : List (AttemptRecord W)
  watch : TenantGateWatch Id

inductive Op (Id : Type)
  | tick (now : ℤ)
  | refuse (r : Refusal) (delay : ℤ) (shutdown : Bool) (dbNow : ℤ)
  | otherRefused (id : Id)
  | otherAdmitted (id : Id)

/-- The budget a refusal is judged by, and the tracker after it. The tenant gate refuses before
the row is read, so its budget is unknown until the tracker calls the delivery stuck; every
other refusal comes after the gate was passed and the row was read. -/
def judge (setup : Setup W) (s : State Id W) : Refusal → Budget × TenantGateWatch Id
  | .tenantGate =>
      let refused := s.watch.persistent s.delivery.id
      (if refused.1 then LoadBudget s.delivery s.attempts setup.policy else unknownBudget,
        refused.2)
  | _ => (budgetOf (Load s.delivery s.attempts setup.policy .active true),
      s.watch.forget s.delivery.id)

variable {setup : Setup W} {s : State Id W} {r : Refusal}

theorem judge_loaded (h : r ≠ .tenantGate) :
    judge setup s r = (LoadBudget s.delivery s.attempts setup.policy,
      s.watch.forget s.delivery.id) := by
  cases r <;> first | rfl | exact absurd rfl h

/-- When the wall-clock budget ends. -/
def deadline (setup : Setup W) (s : State Id W) : ℤ :=
  firstAttemptAt s.delivery s.attempts +
    (setup.policy.policy s.delivery.maxAttempts).maxRetryDuration

theorem loadBudget_expired_iff {now : ℤ}
    (capped : 0 < (setup.policy.policy s.delivery.maxAttempts).maxRetryDuration) :
    (LoadBudget s.delivery s.attempts setup.policy).expired now = true ↔
      deadline setup s ≤ now := by
  have positive : ¬ (setup.policy.policy s.delivery.maxAttempts).maxRetryDuration ≤ 0 := by omega
  have spent : (LoadBudget s.delivery s.attempts setup.policy).expired now =
      decide ((setup.policy.policy s.delivery.maxAttempts).maxRetryDuration ≤
        now - firstAttemptAt s.delivery s.attempts) := if_neg positive
  rw [spent, decide_eq_true_iff, deadline]
  omega

/-- A refusal that finds its budget unspent came before the deadline, or lengthened a streak at
the tenant gate. -/
theorem judge_left (capped : 0 < (setup.policy.policy s.delivery.maxAttempts).maxRetryDuration)
    (left : (judge setup s r).1.expired s.clock = false) :
    s.clock < deadline setup s ∨
      r = .tenantGate ∧
        (judge setup s r).2.count s.delivery.id = s.watch.count s.delivery.id + 1 := by
  have early : (LoadBudget s.delivery s.attempts setup.policy).expired s.clock = false →
      s.clock < deadline setup s := by
    intro unspent
    by_contra late
    rw [(loadBudget_expired_iff capped).mpr (Int.not_lt.mp late)] at unspent
    cases unspent
  by_cases gate : r = .tenantGate
  · subst gate
    cases reached : (s.watch.persistent s.delivery.id).1 with
    | true =>
      left
      simp only [judge, reached, if_true] at left
      exact early left
    | false =>
      right
      have short : s.watch.count s.delivery.id ≠ s.watch.threshold - 1 := by
        intro last
        rw [(TenantGateWatch.persistent_fst _ _).mpr last] at reached
        cases reached
      refine ⟨rfl, ?_⟩
      simp only [judge, TenantGateWatch.count_persistent, if_neg short]
  · left
    rw [judge_loaded gate] at left
    exact early left

/-- The columns that the deadline and the attempt count are read from. -/
def SameBudget (d d' : Delivery Id W) : Prop :=
  d'.id = d.id ∧ d'.attemptCount = d.attemptCount ∧ d'.maxAttempts = d.maxAttempts ∧
    d'.createdAt = d.createdAt

variable {s t : State Id W}

theorem deadline_congr
    (same : SameBudget s.delivery t.delivery) (attempts : t.attempts = s.attempts) :
    deadline setup t = deadline setup s := by
  obtain ⟨_, _, maxAttempts, createdAt⟩ := same
  simp only [deadline, firstAttemptAt, maxAttempts, createdAt, attempts]

variable [DecidableEq W]

/-- The write that ends the claim: `expireDelivery` completes without an attempt, and anything
else is a `Defer`. -/
def write (setup : Setup W) (budget : Budget) (next : Transition) (clock dbNow : ℤ)
    (d : Delivery Id W) (attempts : List (AttemptRecord W)) :
    Option (Delivery Id W × List (AttemptRecord W)) :=
  if budget.expired clock then Complete setup.workerID none next dbNow d attempts
  else (Defer setup.workerID next dbNow d).map fun d => (d, attempts)

def next (setup : Setup W) (s : State Id W) : Op Id → Option (State Id W)
  | .tick now => if s.clock ≤ now then some { s with clock := now } else none
  | .refuse r delay shutdown dbNow =>
      (claimFIFOSQL setup.workerID setup.lease dbNow s.delivery).bind fun d =>
        let judged := judge setup s r
        (write setup judged.1 (deferDelivery judged.1 r.reason delay s.clock shutdown) s.clock dbNow
          d s.attempts).map fun stored =>
            { s with delivery := stored.1, attempts := stored.2, watch := judged.2 }
  | .otherRefused id =>
      if id = s.delivery.id then none else some { s with watch := (s.watch.persistent id).2 }
  | .otherAdmitted id =>
      if id = s.delivery.id then none else some { s with watch := s.watch.forget id }

/-- A worker process starts with an empty tracker; the delivery may have any past. -/
def refusals (setup : Setup W) (threshold capacity : ℤ) : System (State Id W) (Op Id) :=
  .ofStep (fun s => s.watch = newTenantGateWatch threshold capacity) (next setup)

/-- One deferral that was written. -/
structure Deferral where
  writtenAt : ℤ
  refusal : Refusal
  deriving DecidableEq

def note (setup : Setup W) (s : State Id W) (a : Op Id) (written : List Deferral) :
    List Deferral :=
  match a with
  | .refuse r _ _ _ =>
      if (judge setup s r).1.expired s.clock then written else ⟨s.clock, r⟩ :: written
  | _ => written

def observed (setup : Setup W) (threshold capacity : ℤ) :
    System (State Id W × List Deferral) (Op Id) :=
  (refusals setup threshold capacity).observe (note setup) []

/-- The tracker has not dropped the delivery's count under the refusals of others. -/
def CountKept (p : State Id W × List Deferral) (a : Op Id) (q : State Id W × List Deferral) :
    Prop :=
  match a with
  | .otherRefused _ => q.1.watch.count p.1.delivery.id = p.1.watch.count p.1.delivery.id
  | _ => True

/-- The tenant-gate deferrals written at or after `t`. -/
def lateTenant (t : ℤ) (written : List Deferral) : ℕ :=
  written.countP fun x => x.refusal = .tenantGate && t ≤ x.writtenAt

/-- A written refusal either expires the delivery or schedules it, and moves nothing else that a
later one is judged by. -/
structure Refused (setup : Setup W) (s : State Id W) (r : Refusal) (t : State Id W) : Prop where
  running : s.delivery.status.Terminal = false
  clock : t.clock = s.clock
  attempts : t.attempts = s.attempts
  watch : t.watch = (judge setup s r).2
  status : t.delivery.status =
    if (judge setup s r).1.expired s.clock then State.exhausted else State.scheduled
  same : SameBudget s.delivery t.delivery

theorem next_refused {delay : ℤ}
    {shutdown : Bool} {dbNow : ℤ} (h : next setup s (.refuse r delay shutdown dbNow) = some t) :
    Refused setup s r t := by
  obtain ⟨d, claimed, h⟩ := Option.bind_eq_some_iff.mp h
  obtain ⟨ready, ⟨⟩⟩ := Option.ite_none_right_eq_some.mp claimed
  obtain ⟨stored, written, rfl⟩ := Option.map_eq_some_iff.mp h
  have running : s.delivery.status.Terminal = false := by
    have unfinished : claimStatuses s.delivery.status = true := by
      simp only [readyPredicate, Bool.and_eq_true] at ready
      exact ready.1.1
    rwa [claimStatuses_eq, Bool.not_eq_true'] at unfinished
  simp only [write] at written
  split at written
  · rename_i spent
    obtain ⟨_, _, rfl⟩ := complete_eq_some_iff.mp written
    refine ⟨running, rfl, by simp, rfl, ?_, ?_⟩
    · simp only [deferDelivery, spent, if_true, advanceRow]
    · simp [SameBudget, deferDelivery, spent, advanceRow, claimRow]
  · rename_i left
    obtain ⟨d, advanced, rfl⟩ := Option.map_eq_some_iff.mp written
    obtain ⟨_, ⟨⟩⟩ := Option.ite_none_right_eq_some.mp advanced
    refine ⟨running, rfl, rfl, rfl, ?_, ?_⟩
    · simp only [deferDelivery, left, if_false, advanceRow, Bool.false_eq_true]
    · simp [SameBudget, deferDelivery, left, advanceRow, claimRow]

theorem next_budget {a : Op Id} (h : next setup s a = some t) :
    SameBudget s.delivery t.delivery ∧ t.attempts = s.attempts ∧ s.clock ≤ t.clock := by
  cases a with
  | tick now =>
    obtain ⟨forward, ⟨⟩⟩ := Option.ite_none_right_eq_some.mp h
    exact ⟨⟨rfl, rfl, rfl, rfl⟩, rfl, forward⟩
  | refuse r delay shutdown dbNow =>
    have refused := next_refused h
    exact ⟨refused.same, refused.attempts, refused.clock.ge⟩
  | otherRefused id =>
    obtain ⟨_, ⟨⟩⟩ := Option.ite_none_left_eq_some.mp h
    exact ⟨⟨rfl, rfl, rfl, rfl⟩, rfl, le_rfl⟩
  | otherAdmitted id =>
    obtain ⟨_, ⟨⟩⟩ := Option.ite_none_left_eq_some.mp h
    exact ⟨⟨rfl, rfl, rfl, rfl⟩, rfl, le_rfl⟩

theorem next_threshold {a : Op Id}
    (h : next setup s a = some t) : t.watch.threshold = s.watch.threshold := by
  cases a with
  | tick now =>
    obtain ⟨_, ⟨⟩⟩ := Option.ite_none_right_eq_some.mp h
    rfl
  | refuse r delay shutdown dbNow =>
    rw [(next_refused h).watch]
    cases r <;> simp [judge]
  | otherRefused id | otherAdmitted id =>
    obtain ⟨_, ⟨⟩⟩ := Option.ite_none_left_eq_some.mp h
    simp

/-- What the deferrals written so far say about the streak and the clock. -/
structure Bounded (setup : Setup W) (s : State Id W) (written : List Deferral) : Prop where
  past : ∀ x ∈ written, x.writtenAt ≤ s.clock
  loaded : ∀ x ∈ written, x.refusal ≠ .tenantGate → x.writtenAt < deadline setup s
  late : (lateTenant (deadline setup s) written : ℤ) ≤ s.watch.threshold - 1
  streak : s.delivery.status.Terminal = false →
    (lateTenant (deadline setup s) written : ℤ) ≤ s.watch.count s.delivery.id

variable {written : List Deferral}

theorem lateTenant_eq_zero {t now : ℤ} (past : ∀ x ∈ written, x.writtenAt ≤ now)
    (early : now < t) : lateTenant t written = 0 := by
  rw [lateTenant, List.countP_eq_zero]
  intro x hx
  have := past x hx
  simp only [Bool.and_eq_true, decide_eq_true_eq, not_and, not_le]
  omega

theorem lateTenant_cons_le (t : ℤ) (x : Deferral) (written : List Deferral) :
    lateTenant t (x :: written) ≤ lateTenant t written + 1 := by
  rw [lateTenant, List.countP_cons, lateTenant]
  split <;> omega

omit [DecidableEq W] in
theorem judge_expired (capped : 0 < (setup.policy.policy s.delivery.maxAttempts).maxRetryDuration)
    (bounded : Bounded setup s written) (running : s.delivery.status.Terminal = false)
    (due : deadline setup s ≤ s.clock)
    (last : r = .tenantGate →
      (lateTenant (deadline setup s) written : ℤ) = s.watch.threshold - 1) :
    (judge setup s r).1.expired s.clock = true := by
  have spent := (loadBudget_expired_iff capped).mpr due
  by_cases gate : r = .tenantGate
  · subst gate
    have reached : (s.watch.persistent s.delivery.id).1 = true := by
      rw [TenantGateWatch.persistent_fst]
      have streak := bounded.streak running
      have bounds := s.watch.count_bounds s.delivery.id
      have last := last rfl
      omega
    simpa only [judge, reached, if_true] using spent
  · rwa [judge_loaded gate]

theorem bounded_refuse {delay : ℤ} {shutdown : Bool} {dbNow : ℤ}
    (capped : 0 < (setup.policy.policy s.delivery.maxAttempts).maxRetryDuration)
    (bounded : Bounded setup s written)
    (h : next setup s (.refuse r delay shutdown dbNow) = some t) :
    Bounded setup t (note setup s (.refuse r delay shutdown dbNow) written) := by
  have refused := next_refused h
  have fixed : deadline setup t = deadline setup s := deadline_congr refused.same refused.attempts
  have threshold : t.watch.threshold = s.watch.threshold := next_threshold h
  obtain ⟨past, loaded, late, streak⟩ := bounded
  cases spent : (judge setup s r).1.expired s.clock with
  | true =>
    simp only [note, spent, if_true]
    refine ⟨fun x hx => refused.clock ▸ past x hx, ?_, ?_, ?_⟩
    · simpa only [fixed] using loaded
    · simpa only [fixed, threshold] using late
    · intro running
      rw [refused.status, spent] at running
      cases running
  | false =>
    simp only [note, spent, Bool.false_eq_true, if_false]
    have past' : ∀ x ∈ (⟨s.clock, r⟩ : Deferral) :: written, x.writtenAt ≤ s.clock :=
      List.forall_mem_cons.mpr ⟨le_rfl, past⟩
    have counted := t.watch.count_bounds t.delivery.id
    rcases judge_left capped spent with early | ⟨rfl, longer⟩
    · have noneLate := lateTenant_eq_zero past' early
      refine ⟨fun x hx => refused.clock ▸ past' x hx, ?_, ?_, fun _ => ?_⟩
      · intro x hx _
        rw [fixed]
        exact (past' x hx).trans_lt early
      · rw [fixed, noneLate]
        have := t.watch.threshold_pos
        omega
      · rw [fixed, noneLate]
        exact counted.1
    · -- the streak grows by the one deferral just written
      rw [← refused.watch, ← refused.same.1] at longer
      have grown := lateTenant_cons_le (deadline setup s) ⟨s.clock, .tenantGate⟩ written
      have before := streak refused.running
      have same : s.watch.count s.delivery.id = s.watch.count t.delivery.id := by
        rw [refused.same.1]
      refine ⟨fun x hx => refused.clock ▸ past' x hx, ?_, ?_, fun _ => ?_⟩
      · intro x hx gate
        rw [fixed]
        obtain rfl | old := List.mem_cons.mp hx
        · exact absurd rfl gate
        · exact loaded x old gate
      · rw [fixed]
        omega
      · rw [fixed]
        omega

theorem bounded_step {a : Op Id}
    (capped : 0 < (setup.policy.policy s.delivery.maxAttempts).maxRetryDuration)
    (bounded : Bounded setup s written) (h : next setup s a = some t)
    (kept : CountKept (s, written) a (t, note setup s a written)) :
    Bounded setup t (note setup s a written) := by
  cases a with
  | refuse r delay shutdown dbNow => exact bounded_refuse capped bounded h
  | tick now =>
    obtain ⟨forward, ⟨⟩⟩ := Option.ite_none_right_eq_some.mp h
    exact ⟨fun x hx => (bounded.past x hx).trans forward, bounded.loaded, bounded.late,
      bounded.streak⟩
  | otherRefused id =>
    obtain ⟨_, ⟨⟩⟩ := Option.ite_none_left_eq_some.mp h
    refine ⟨bounded.past, bounded.loaded, ?_, ?_⟩
    · rw [TenantGateWatch.threshold_persistent]
      exact bounded.late
    · intro running
      exact (bounded.streak running).trans kept.ge
  | otherAdmitted id =>
    obtain ⟨other, ⟨⟩⟩ := Option.ite_none_left_eq_some.mp h
    refine ⟨bounded.past, bounded.loaded, bounded.late, fun running => ?_⟩
    exact (bounded.streak running).trans (s.watch.count_forget_ne (Ne.symm other)).ge

theorem bounded_of_reachable {n capacity : ℤ} (positive : 1 ≤ n)
    (capped : ∀ m, 0 < (setup.policy.policy m).maxRetryDuration)
    (reach : Reachable ((observed setup n capacity).constrain CountKept) (s, written)) :
    Bounded setup s written ∧ s.watch.threshold = n := by
  refine reach.invariant (I := fun p => Bounded setup p.1 p.2 ∧ p.1.watch.threshold = n) ?_ ?_
  · rintro ⟨s, written⟩ ⟨empty, rfl⟩
    have threshold : s.watch.threshold = n := by
      rw [show s.watch = newTenantGateWatch n capacity from empty]
      simp only [newTenantGateWatch]
      exact if_neg (Int.not_lt.mpr positive)
    refine ⟨⟨by simp, by simp, ?_, fun _ => ?_⟩, threshold⟩
    · simp only [lateTenant, List.countP_nil, threshold]
      omega
    · exact (s.watch.count_bounds s.delivery.id).1
  · rintro ⟨s, written⟩ a ⟨t, written'⟩ ⟨bounded, threshold⟩ ⟨⟨edge, rfl⟩, kept⟩
    exact ⟨bounded_step (capped _) bounded edge kept, (next_threshold edge).trans threshold⟩

/-- A delivery that every claim refuses: nothing that has read the row defers it at or after the
deadline; the tenant gate does so at most `n - 1` times; the refusal after those, like every other
one, ends it as exhausted; and no refusal is charged as an attempt. -/
theorem refused_delivery_ends {n capacity : ℤ} (positive : 1 ≤ n)
    (capped : 0 < (setup.policy.policy s.delivery.maxAttempts).maxRetryDuration)
    (reach : Reachable ((observed setup n capacity).constrain CountKept) (s, written)) :
    (∀ x ∈ written, x.refusal ≠ .tenantGate → x.writtenAt < deadline setup s) ∧
    (lateTenant (deadline setup s) written : ℤ) ≤ n - 1 ∧
    (∀ r delay shutdown dbNow t, next setup s (.refuse r delay shutdown dbNow) = some t →
      deadline setup s ≤ s.clock →
      (r = .tenantGate → (lateTenant (deadline setup s) written : ℤ) = n - 1) →
        t.delivery.status = .exhausted) ∧
    ∀ a t, next setup s a = some t →
      t.delivery.attemptCount = s.delivery.attemptCount ∧ t.attempts = s.attempts ∧
        deadline setup t = deadline setup s := by
  obtain ⟨bounded, threshold⟩ := bounded_of_reachable positive (fun _ => capped) reach
  refine ⟨bounded.loaded, threshold ▸ bounded.late, ?_, ?_⟩
  · intro r delay shutdown dbNow t h due last
    have refused := next_refused h
    have spent := judge_expired capped bounded refused.running due
      fun gate => (last gate).trans (by rw [threshold])
    rw [refused.status, spent, if_pos rfl]
  · intro a t h
    obtain ⟨same, attempts, _⟩ := next_budget h
    exact ⟨same.2.1, attempts, deadline_congr same attempts⟩

private def defaultSetup : Setup ℕ := ⟨7, 2 * minute, ⟨none, none, none, none, none, none, none⟩⟩

private def stuck : State ℕ ℕ × List Deferral :=
  (⟨0, .inserted 1 2 3 4 5 6 8 0, [], newTenantGateWatch 3 4096⟩, [])

/-- A day after its first claim the delivery has been turned away twice more at the tenant gate,
and the third time ends it. -/
theorem stuck_delivery_ends :
    ∃ (s t : State ℕ ℕ) (written : List Deferral),
      Reachable ((observed defaultSetup 3 4096).constrain CountKept) (s, written) ∧
      (lateTenant (deadline defaultSetup s) written : ℤ) = 3 - 1 ∧
      next defaultSetup s (.refuse .tenantGate (2 * second) false (25 * hour)) = some t ∧
      t.delivery.status = .exhausted := by
  have run : (execute (observeNext (next defaultSetup) (note defaultSetup)) stuck
      [.refuse .openBreaker (30 * second) false 0, .tick (24 * hour),
        .refuse .tenantGate (2 * second) false (24 * hour),
        .refuse .tenantGate (2 * second) false (24 * hour + 2 * second)]).any (fun p =>
      lateTenant (deadline defaultSetup p.1) p.2 = 2 && deadline defaultSetup p.1 ≤ p.1.clock &&
        (next defaultSetup p.1 (.refuse .tenantGate (2 * second) false (25 * hour))).isSome)
      = true := by decide +kernel
  obtain ⟨⟨s, written⟩, executed, facts⟩ := (Option.any_eq_true _ _).mp run
  simp only [Bool.and_eq_true, decide_eq_true_eq] at facts
  obtain ⟨⟨late, due⟩, enabled⟩ := facts
  obtain ⟨t, step⟩ := Option.isSome_iff_exists.mp enabled
  have reach : Reachable ((observed defaultSetup 3 4096).constrain CountKept) (s, written) := by
    rw [observed, refusals, ofStep_observe]
    refine Reachable.constrain_of_execute (s := stuck) (A := fun a => ∀ id, a ≠ .otherRefused id)
      (.start ⟨rfl, rfl⟩) ?_ (by simp) executed
    intro p a q other
    cases a <;> first | trivial | exact absurd rfl (other _)
  have capped : 0 < (defaultSetup.policy.policy 8).maxRetryDuration := by decide
  have ends := (refused_delivery_ends (by decide) capped reach).2.2.1
  exact ⟨s, t, written, reach, by rw [late]; rfl, step,
    ends _ _ _ _ t step due fun _ => by rw [late]; rfl⟩

end Hookubit.Worker.DeferralBudget
