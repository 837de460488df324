/- sources: endpoints/endpoints.service.ts (enable, disable, create, remove, assertNotDeleted),
     maintenance/endpoint-auto-disable.service.ts disable
   digest: Which interleavings bring a deleted endpoint back, and that no others do. -/

import Hookubit.Endpoints.Machine

/-!
Each call looks at the status in one statement and writes it, without looking again, in a later
one. A deletion is undone exactly by a write that was decided on before it.
-/

set_option autoImplicit false
set_option relaxedAutoImplicit false

namespace Hookubit.Endpoints.Finality

open Automata.LabelledSystem Endpoints.Machine Endpoints.Store Maintenance.AutoDisable
open Worker.Breaker

/-- The call has passed its look at the status (or has inserted the row) and may still write
another status than `deleted`. -/
def pending : Phase → Bool
  | .createMint mayReceiveSecret => mayReceiveSecret
  | .createActivate | .enableSecret | .enableWrite | .disableWrite => true
  | _ => false

def Quiet (s : State) : Prop := ∀ d q, s.calls d = some q → pending q = false

/-- The step is a statement that sets the status to `deleted`. -/
def Deletes (s : State) (a : Op) : Prop :=
  ∃ c p, a = .updateById c ∧ s.calls c = some p ∧ p.payload = some removeData

/-- A deletion commits only while no other call stands between its check and its write. -/
def Uncontended (s : State) (a : Op) (_ : State) : Prop := Deletes s a → Quiet s

def Deleted (s : State) : Prop := ∃ e, s.row = some e ∧ e.status = .deleted

variable {s t : State} {p q : Phase} {e : Endpoint} {a : Op} {data : EndpointUpdate}
  {cfg : BreakerConfig}

theorem quiet_setCall (quiet : Quiet s) (c : ℕ) (idle : pending p = false) :
    Quiet (s.setCall c p) := by
  intro d q hq
  by_cases same : d = c
  · subst same
    obtain rfl : p = q := by simpa [State.setCall] using hq
    exact idle
  · exact quiet d q (by simpa [State.setCall, same] using hq)

theorem requireNotDeleted_deleted {row : Option Endpoint} (hr : row = some e)
    (gone : e.status = .deleted) : requireNotDeleted row = .error deletedConflict := by
  subst hr
  simp [requireNotDeleted, gone]

theorem pending_begin (request : Request) : pending request.begin = false := by
  cases request with
  | create mayReceiveSecret columns =>
    simp only [Request.begin]
    split <;> rfl
  | _ => rfl

theorem pending_afterWrite (p : Phase) : pending p.afterWrite = false := by
  cases p <;> rfl

theorem pending_require {row : Option Endpoint} (hr : row = some e) (gone : e.status = .deleted)
    (h : p.require row = some q) : pending q = false := by
  have refused := requireNotDeleted_deleted hr gone
  cases p <;> simp only [Phase.require, refused, reduceCtorEq, Option.some.injEq] at h
  case removeRequire =>
    subst hr
    simp only [gone, if_true] at h
    subst h
    rfl
  all_goals
    subst h
    rfl

theorem pending_requireRetryPolicy {found : Bool} (h : p.requireRetryPolicy found = some q) :
    pending q = false := by
  cases p <;> simp only [Phase.requireRetryPolicy, reduceCtorEq, Option.some.injEq] at h
  all_goals
    subst h
    cases found <;> rfl

theorem pending_requireHeadroom {live : ℕ} (h : p.requireHeadroom live = some q) :
    pending q = false := by
  cases p <;> simp only [Phase.requireHeadroom, reduceCtorEq, Option.some.injEq] at h
  subst h
  split <;> rfl

theorem pending_hasLiveSecret {live : Bool} (idle : pending p = false)
    (h : p.hasLiveSecret live = some q) : pending q = false := by
  cases p <;> simp only [Phase.hasLiveSecret, reduceCtorEq, Option.some.injEq] at h
  case updateSecret dto =>
    subst h
    split <;> rfl
  case enableSecret => cases idle

theorem pending_mintInitial {failure : Option Common.Errors.AppError} (idle : pending p = false)
    (h : p.mintInitial failure = some q) : pending q = false := by
  cases p <;> simp only [Phase.mintInitial, reduceCtorEq, Option.some.injEq] at h
  case createMint mayReceiveSecret =>
    subst h
    obtain rfl : mayReceiveSecret = false := idle
    cases failure <;> rfl

/-- Once the row is deleted, no call comes to stand before a status write any more. -/
theorem pending_moves {c : ℕ} (gone : Deleted s) (quiet : Quiet s) (h : Moves s a c q) :
    pending q = false := by
  obtain ⟨e, hr, gone⟩ := gone
  cases h with
  | call c request free => exact pending_begin request
  | require hp hq => exact pending_require hr gone hq
  | requireRetryPolicy hp hq => exact pending_requireRetryPolicy hq
  | requireHeadroom hp hq => exact pending_requireHeadroom hq
  | hasLiveSecret hp hq => exact pending_hasLiveSecret (quiet _ _ hp) hq
  | mintInitial hp hq => exact pending_mintInitial (quiet _ _ hp) hq
  | insertRefused | updateRefused | fail => rfl

theorem payload_deletes (hd : p.payload = some data) (live : e.status ≠ .deleted)
    (gone : (data.apply e).status = .deleted) : data = removeData := by
  cases p <;> simp only [Phase.payload, reduceCtorEq, Option.some.injEq] at hd
  case createCleanup err => exact hd.symm
  case removeWrite => exact hd.symm
  case updateWrite dto =>
    subst hd
    exact absurd gone live
  all_goals
    subst hd
    cases gone

theorem payload_idle (hd : p.payload = some data) (idle : pending p = false)
    (gone : e.status = .deleted) (off : e.enabled = false) :
    (data.apply e).status = .deleted ∧ (data.apply e).enabled = false := by
  cases p <;> simp only [Phase.payload, reduceCtorEq, Option.some.injEq] at hd
  case updateWrite dto =>
    subst hd
    exact ⟨gone, off⟩
  case createCleanup err | removeWrite =>
    subst hd
    exact ⟨rfl, rfl⟩
  all_goals cases idle

theorem disable_of_off {snapshot : BreakerSnapshot} {now : ℤ} (off : e.enabled = false) :
    disable (some e) snapshot now = some e := by
  simp [disable, off]

theorem deleted_of_disable {p : Pass} {b : Bool} {f : Endpoint}
    (hf : (if b then disable s.row p.snapshot p.now else s.row) = some f)
    (gone : f.status = .deleted) : Deleted s := by
  cases b with
  | false => exact ⟨f, hf, gone⟩
  | true =>
    obtain ⟨e, hr, rfl⟩ := Option.map_eq_some_iff.mp hf
    split at gone
    · cases gone
    · exact ⟨e, hr, gone⟩

/-- The row is deleted and stays so: nobody is left who would write anything else. -/
def Settled (s : State) : Prop :=
  Quiet s ∧ ∃ e, s.row = some e ∧ e.status = .deleted ∧ e.enabled = false

theorem settled_step (settled : Settled s) (h : next cfg s a = some t) : Settled t := by
  obtain ⟨quiet, e, hr, gone, off⟩ := settled
  cases next_step h with
  | move moves =>
    exact ⟨quiet_setCall quiet _ (pending_moves ⟨e, hr, gone⟩ quiet moves), e, hr, gone, off⟩
  | insert inserting empty => cases empty.symm.trans hr
  | write hp hd hf =>
    cases hf.symm.trans hr
    exact ⟨quiet_setCall quiet _ (pending_afterWrite _), _, rfl,
      payload_idle hd (quiet _ _ hp) gone off⟩
  | arm apiNow arming => exact ⟨quiet_setCall quiet _ rfl, e, hr, gone, off⟩
  | autoDisable hp =>
    refine ⟨quiet, e, ?_, gone, off⟩
    simp only [hr, disable_of_off off, ite_self]
  | tick | take | skip | rollback | claimProbe | attempt | recordOutcome =>
    exact ⟨quiet, e, hr, gone, off⟩

theorem settled_of_deletion (live : ¬ Deleted s) (h : next cfg s a = some t)
    (alone : Uncontended s a t) (gone : Deleted t) : Settled t := by
  cases next_step h with
  | insert inserting empty =>
    obtain ⟨e, ⟨⟩, gone⟩ := gone
    cases gone
  | @write c p data e hp hd hr =>
    obtain ⟨f, ⟨⟩, gone⟩ := gone
    have dead : data = removeData := payload_deletes hd (fun h => live ⟨e, hr, h⟩) gone
    have quiet : Quiet s := alone ⟨c, p, rfl, hp, dead ▸ hd⟩
    refine ⟨quiet_setCall quiet c (pending_afterWrite p), _, rfl, gone, ?_⟩
    rw [dead]
    rfl
  | autoDisable hp =>
    obtain ⟨f, hf, gone⟩ := gone
    exact absurd (deleted_of_disable hf gone) live
  | move | arm | tick | take | skip | rollback | claimProbe | attempt | recordOutcome =>
    exact absurd gone live

theorem settled_of_deleted (reach : Reachable ((endpoints cfg).constrain Uncontended) s)
    (gone : Deleted s) : Settled s := by
  refine reach.invariant (I := fun s => Deleted s → Settled s) ?_ ?_ gone
  · rintro s ⟨empty, _⟩ ⟨e, hr, _⟩
    cases empty.symm.trans hr
  · intro s a t ih edge gone
    by_cases before : Deleted s
    · exact settled_step (ih before) edge.1
    · exact settled_of_deletion before edge.1 edge.2 gone

theorem pending_of_deletes (hd : p.payload = some removeData) : pending p = false := by
  cases p <;> simp only [Phase.payload, reduceCtorEq, Option.some.injEq] at hd
  case createActivate => cases (congrArg EndpointUpdate.status hd : some _ = some _)
  case enableWrite => cases (congrArg EndpointUpdate.status hd : some _ = some _)
  case disableWrite => cases (congrArg EndpointUpdate.status hd : some _ = some _)
  all_goals rfl

/-- What a call in a pending phase still has to do until its status write. -/
def remaining (d : ℕ) : Phase → List Op
  | .createMint _ => [.mintInitial d none, .updateById d]
  | .enableSecret => [.hasLiveSecret d true, .updateById d]
  | _ => [.updateById d]

theorem run_updateById (cfg : BreakerConfig) {d : ℕ} (hq : s.calls d = some q)
    (hd : q.payload = some data) (hr : s.row = some e) :
    ∃ t, Run (endpoints cfg) s [.updateById d] t ∧ t.row = some (data.apply e) :=
  ⟨_, .single (next_updateById cfg hq hd hr), rfl⟩

theorem pending_writes (cfg : BreakerConfig) {d : ℕ} (hq : s.calls d = some q)
    (unfinished : pending q = true) (hr : s.row = some e) :
    ∃ t f, Run (endpoints cfg) s (remaining d q) t ∧ t.row = some f ∧ f.status ≠ .deleted := by
  have advanced : ∀ p, (s.setCall d p).calls d = some p := fun p => Function.update_self ..
  cases q <;> simp only [pending, Bool.false_eq_true] at unfinished
  case createMint mayReceiveSecret =>
    subst unfinished
    have minted : next cfg s (.mintInitial d none) = some (s.setCall d .createActivate) := by
      simp only [next, hq, Phase.mintInitial, Option.bind_some, Option.map_some, if_true]
    obtain ⟨t, run, row⟩ := run_updateById cfg (advanced .createActivate) rfl hr
    exact ⟨t, _, .cons minted run, row, (by decide : EndpointStatus.active ≠ .deleted)⟩
  case createActivate =>
    obtain ⟨t, run, row⟩ := run_updateById cfg hq rfl hr
    exact ⟨t, _, run, row, (by decide : EndpointStatus.active ≠ .deleted)⟩
  case enableSecret =>
    have found : next cfg s (.hasLiveSecret d true) = some (s.setCall d .enableWrite) := by
      simp only [next, hq, Phase.hasLiveSecret, Option.bind_some, Option.map_some, if_true]
    obtain ⟨t, run, row⟩ := run_updateById cfg (advanced .enableWrite) rfl hr
    exact ⟨t, _, .cons found run, row, (by decide : EndpointStatus.active ≠ .deleted)⟩
  case enableWrite =>
    obtain ⟨t, run, row⟩ := run_updateById cfg hq rfl hr
    exact ⟨t, _, run, row, (by decide : EndpointStatus.active ≠ .deleted)⟩
  case disableWrite =>
    obtain ⟨t, run, row⟩ := run_updateById cfg hq rfl hr
    exact ⟨t, _, run, row, (by decide : EndpointStatus.paused ≠ .deleted)⟩

/-- Deletion is final in every run whose deletions are all uncontended; and a contended deletion
is one that the other call goes on to undo. -/
theorem deletion_final_when_uncontended (cfg : BreakerConfig) :
    (∀ s l t, Reachable ((endpoints cfg).constrain Uncontended) s → Deleted s →
      Run (endpoints cfg) s l t → ∃ e, t.row = some e ∧ e.status = .deleted ∧ e.enabled = false) ∧
    ∀ s a t, Reachable (endpoints cfg) s → s.row.isSome = true → next cfg s a = some t →
      Deletes s a → ¬ Uncontended s a t →
        Deleted t ∧ ∃ l w, Run (endpoints cfg) t l w ∧ w.row.isSome = true ∧ ¬ Deleted w := by
  constructor
  · intro s l t reach gone run
    have settled : Settled t :=
      run.keeps (I := fun _ => True) (P := Settled) (fun _ _ _ _ _ => trivial)
        (fun _ _ _ _ settled edge => settled_step settled edge) trivial
        (settled_of_deleted reach gone)
    exact settled.2
  · intro s a t _ present step deletes contended
    obtain ⟨e, hr⟩ := Option.isSome_iff_exists.mp present
    obtain ⟨c, p, rfl, hp, hd⟩ := deletes
    have rival : ∃ d q, s.calls d = some q ∧ pending q = true := by
      by_contra alone
      refine contended fun _ d q hq => ?_
      exact Bool.eq_false_iff.mpr fun unfinished => alone ⟨d, q, hq, unfinished⟩
    obtain ⟨d, q, hq, unfinished⟩ := rival
    cases (next_updateById cfg hp hd hr).symm.trans step
    -- the deleting call itself has nothing pending, so the two calls are different ones
    have other : d ≠ c := by
      rintro rfl
      cases hp.symm.trans hq
      cases (pending_of_deletes hd).symm.trans unfinished
    refine ⟨⟨_, rfl, rfl⟩, ?_⟩
    obtain ⟨w, f, run, row, live⟩ := pending_writes cfg (d := d) (q := q)
      (s := { s.setCall c p.afterWrite with row := some (removeData.apply e) })
      (by simpa [State.setCall, other] using hq) unfinished rfl
    refine ⟨_, w, run, by simp [row], ?_⟩
    rintro ⟨g, hg, gone⟩
    cases row.symm.trans hg
    exact live gone

private def hookColumns : Columns :=
  ⟨"orders".toList, "https://orders.test/hook".toList, none, 30000, 16, none, 1, none, none⟩

private def beforeCreate : State := ⟨0, none, none, fun _ => none, none, []⟩

private theorem beforeCreate_fresh : beforeCreate.Fresh := ⟨rfl, rfl, fun _ => rfl, rfl, rfl⟩

private theorem uncontended_of_ne (other : ∀ c, a ≠ .updateById c) : Uncontended s a t :=
  fun ⟨c, _, ha, _⟩ => absurd ha (other c)

/-- The cleanup of a `create` whose secret could not be minted stands, whatever a later `enable`
tries. -/
theorem lone_cleanup_is_final :
    ∃ s t e, Reachable ((endpoints DefaultBreakerConfig).constrain Uncontended) s ∧ Deleted s ∧
      execute (next DefaultBreakerConfig) s [.call 1 .enable, .require 1] = some t ∧
      t.row = some e ∧ e.status = .deleted ∧ e.enabled = false := by
  have start : Reachable ((endpoints DefaultBreakerConfig).constrain Uncontended) beforeCreate :=
    .start beforeCreate_fresh
  have minted := start.constrain_of_execute (A := fun a => ∀ c, a ≠ .updateById c)
    (l := [.call 0 (.create true hookColumns), .requireHeadroom 0 0, .insert 0,
      .mintInitial 0 (some Common.Errors.unexpected)])
    (fun _ _ _ => uncontended_of_ne) (by simp) rfl
  have removed := minted.step ⟨next_updateById _ (c := 0) rfl rfl rfl, fun _ d q hq => by
    match d with
    | 0 => cases hq; rfl
    | d + 1 => cases hq⟩
  obtain ⟨e, row, gone, off⟩ := (deletion_final_when_uncontended DefaultBreakerConfig).1 _
    [.call 1 .enable, .require 1] _ removed ⟨_, rfl, rfl⟩ (run_of_execute rfl)
  exact ⟨_, _, e, removed, ⟨_, rfl, rfl⟩, rfl, row, gone, off⟩

/-- An `enable` that had looked at the endpoint before `remove` wrote brings it back. -/
theorem enable_revives_removed :
    ∃ s t e f, Reachable (endpoints DefaultBreakerConfig) s ∧ s.row = some e ∧
      e.status = .deleted ∧ e.enabled = false ∧
      next DefaultBreakerConfig s (.updateById 1) = some t ∧ t.row = some f ∧
      f.status = .active ∧ f.enabled = true :=
  ⟨_, _, _, _, reachable_of_execute (s := beforeCreate)
    (l := [.call 0 (.create true hookColumns), .requireHeadroom 0 0, .insert 0, .mintInitial 0 none,
      .updateById 0, .call 1 .enable, .require 1, .hasLiveSecret 1 true, .call 2 .remove,
      .require 2, .updateById 2])
    beforeCreate_fresh rfl, rfl, rfl, rfl, rfl, rfl, rfl, rfl⟩

end Hookubit.Endpoints.Finality
