/- sources: router/store.go insertDeliveriesSQL, worker/store.go, queue/postgres.go, delivery-replay.service.ts insertReplay
   digest: Whatever changes between two batches, a delivery has one original and its event's
     tenant. -/

import Hookubit.Pipeline.Leases

set_option autoImplicit false
set_option relaxedAutoImplicit false

namespace Hookubit.Pipeline.Lineage

open Automata.LabelledSystem Data.Rows Pipeline.Leases Pipeline.Machine Pipeline.Moves
open Postgres.Clock Queue.Deliveries Router.Planning Router.Process Router.Store Worker.Store

variable {Id R W : Type} [LinearOrder Id]

/-- Every delivery, a replay of a replay included, has one original for its event and endpoint. -/
def OneOriginal (deliveries : List (Delivery Id W)) : Prop :=
  ∀ d ∈ deliveries, deliveries.countP (isOriginal d.eventId d.endpointId) = 1

variable {deliveries : List (Delivery Id W)}

theorem OneOriginal.append_original {new : Delivery Id W}
    (one : OneOriginal deliveries) (original : new.replayOfDeliveryId = none)
    (free : deliveries.countP (isOriginal new.eventId new.endpointId) = 0) :
    OneOriginal (deliveries ++ [new]) := by
  intro d hd
  rw [List.countP_append]
  rcases List.mem_append.mp hd with old | added
  · -- An older delivery of this event and endpoint would have an original already.
    have apart : isOriginal d.eventId d.endpointId new = false := by
      by_contra same
      simp only [isOriginal, Bool.and_eq_true, decide_eq_true_eq, Bool.not_eq_false] at same
      have taken := one d old
      rw [← same.1.1, ← same.1.2, free] at taken
      cases taken
    simp [one d old, apart]
  · obtain rfl := List.mem_singleton.mp added
    simp [free, isOriginal, original]

theorem OneOriginal.insertDeliveriesSQL {ev : Event Id} {now : ℤ} (rows : List (Target Id × Id))
    (one : OneOriginal deliveries) :
    OneOriginal (insertDeliveriesSQL ev now rows deliveries) := by
  induction rows generalizing deliveries with
  | nil => exact one
  | cons row rest ih =>
    rw [Router.Store.insertDeliveriesSQL]
    split
    · exact ih one
    · rename_i conflict
      refine ih (one.append_original rfl (List.countP_eq_zero.mpr ?_))
      intro d hd taken
      exact conflict (List.any_eq_true.mpr ⟨d, hd, taken⟩)

theorem OneOriginal.updateWhere {f : Delivery Id W → Option (Delivery Id W)}
    (same : ∀ d e, f d = some e → SameDelivery d e)
    (one : OneOriginal deliveries) : OneOriginal (updateWhere f deliveries) := by
  intro d hd
  have kept : ∀ eventID endpointID, (Data.Rows.updateWhere f deliveries).countP
      (isOriginal eventID endpointID) = deliveries.countP (isOriginal eventID endpointID) := by
    intro eventID endpointID
    rw [List.countP_eq_length_filter, filter_updateWhere, Data.Rows.updateWhere, List.length_map,
      List.countP_eq_length_filter]
    intro c _ e written
    have row := same c e written
    rw [isOriginal, row.event, row.endpoint, row.replay, isOriginal]
  rw [kept]
  obtain ⟨c, hc, rfl⟩ := mem_updateWhere.mp hd
  cases hf : f c with
  | none => exact one c hc
  | some e =>
    rw [Option.getD_some, (same c e hf).event, (same c e hf).endpoint]
    exact one c hc

theorem OneOriginal.insertReplay {d : Delivery Id W}
    (one : OneOriginal deliveries) (hd : d ∈ deliveries) (id : Id) (subscriptionId : Option Id)
    (apiNow : ℤ) : OneOriginal (deliveries ++ [insertReplay d id subscriptionId apiNow]) := by
  intro c hc
  have replay : isOriginal c.eventId c.endpointId (Machine.insertReplay d id subscriptionId apiNow)
      = false := by simp [isOriginal, Machine.insertReplay]
  rw [List.countP_append, List.countP_singleton, replay, if_neg Bool.false_ne_true]
  rcases List.mem_append.mp hc with old | added
  · exact one c old
  · obtain rfl := List.mem_singleton.mp added
    exact one d hd

/-- The delivery is for this event, in its organization and project, and may be attempted. -/
def Serves (e : Event Id) (d : Delivery Id W) : Prop :=
  e.id = d.eventId ∧ e.organizationID = d.organizationId ∧ e.projectID = d.projectId ∧
    1 ≤ d.maxAttempts

def Served (db : Tables Id R W) : Prop :=
  ∀ d ∈ db.deliveries, ∃ e ∈ db.events, Serves e.toEvent d

theorem one_le_maxAttempts {ev : Event Id} {candidates : List (Candidate Id)} {t : Target Id}
    (ht : t ∈ (BuildPlan ev candidates 0).targets) : 1 ≤ t.maxAttempts := by
  simp only [BuildPlan, lt_self_iff_false, false_and, if_false, List.mem_filterMap,
    Option.map_eq_some_iff] at ht
  obtain ⟨_, _, c, _, rfl⟩ := ht
  exact one_le_resolveMaxAttempts _ _

theorem serves_of_mem_insert {ev : Event Id} {now : ℤ} {rows : List (Target Id × Id)}
    {d : Delivery Id W}
    (promised : ∀ row ∈ rows, 1 ≤ row.1.maxAttempts)
    (hd : d ∈ insertDeliveriesSQL ev now rows deliveries) : d ∈ deliveries ∨ Serves ev d := by
  induction rows generalizing deliveries with
  | nil => exact .inl hd
  | cons row rest ih =>
    have promised' := fun r hr => promised r (List.mem_cons_of_mem _ hr)
    rw [insertDeliveriesSQL] at hd
    split at hd
    · exact ih promised' hd
    · rcases ih promised' hd with inside | serves
      · rcases List.mem_append.mp inside with old | added
        · exact .inl old
        · obtain rfl := List.mem_singleton.mp added
          exact .inr ⟨rfl, rfl, rfl, promised row List.mem_cons_self⟩
      · exact .inr serves

variable [OrderBot Id] [DecidableEq R] {s : Platform Id R W}

theorem oneOriginal_step {a : Op Id R W} {db : Tables Id R W}
    (one : OneOriginal s.db.deliveries) (step : TablesStep s a db) : OneOriginal db.deliveries := by
  cases step with
  | keep => exact one
  | createEvent inserted =>
    unfold insertEvent at inserted
    split at inserted <;> cases inserted
    exact one
  | claimOutbox _ => exact one
  | route _ routed =>
    cases routed with
    | rolledBack _ => exact one
    | continued _ _ _ _ _ => exact one.insertDeliveriesSQL _
    | finished _ _ _ _ _ => exact one.insertDeliveriesSQL _
  | releaseOutbox _ => exact one
  | parkOutbox _ _ _ => exact one
  | requeue => exact one
  | deliver _ same => exact one.updateWhere same
  | replay original => exact one.insertReplay original _ _ _

theorem served_unworked {a : Op Id R W} {db : Tables Id R W}
    (served : Served s.db) (step : TablesStep s a db) (other : a.byWorker = false) :
    Served db := by
  intro d hd
  suffices before : ∃ e ∈ s.db.events, Serves e.toEvent d by
    obtain ⟨e, he, serves⟩ := before
    obtain ⟨q, hq, same, _⟩ := event_after step he
    exact ⟨q, hq, same ▸ serves⟩
  cases step with
  | keep => exact served d hd
  | createEvent inserted =>
    unfold insertEvent at inserted
    split at inserted <;> cases inserted
    exact served d hd
  | claimOutbox _ => exact served d hd
  | route _ routed =>
    have minted : ∀ {ev : EventRow Id} {page : List (Candidate Id)} {minted : List Id} {id : Id},
        s.db.events.find? (·.id = id) = some ev →
        d ∈ insertDeliveriesSQL ev.toEvent s.clock
          ((BuildPlan ev.toEvent page 0).targets.zip minted) s.db.deliveries →
        ∃ e ∈ s.db.events, Serves e.toEvent d := fun found hd => by
      rcases serves_of_mem_insert
        (fun row hr => one_le_maxAttempts (List.of_mem_zip hr).1) hd with old | serves
      · exact served d old
      · exact ⟨_, List.mem_of_find?_eq_some found, serves⟩
    cases routed with
    | rolledBack _ => exact served d hd
    | continued found _ _ _ _ => exact minted found hd
    | finished _ found _ _ _ => exact minted found hd
  | releaseOutbox _ => exact served d hd
  | parkOutbox _ _ _ => exact served d hd
  | requeue => exact served d hd
  | deliver byWorker _ => exact absurd byWorker (Bool.eq_false_iff.mp other)
  | replay original =>
    rcases List.mem_append.mp hd with old | added
    · exact served d old
    · have serves := served _ original
      rw [List.mem_singleton.mp added]
      exact serves

variable [DecidableEq W]

/-- The columns that `Serves` reads. -/
def purpose (d : Delivery Id W) : Id × Id × Id × ℤ :=
  (d.eventId, d.organizationId, d.projectId, d.maxAttempts)

theorem purpose_kept {opts : R → Options} {s t : Platform Id R W} {a : Op Id R W}
    (h : next opts s a = some t) (byWorker : a.byWorker = true) :
    t.db.events = s.db.events ∧ t.db.deliveries.map purpose = s.db.deliveries.map purpose := by
  cases a with
  | claim w limit lease skip =>
    cases h
    refine ⟨rfl, map_updateWhere ?_⟩
    intro d _ e written
    split at written <;> cases written
    rfl
  | renew w ids lease =>
    cases h
    refine ⟨rfl, map_updateWhere ?_⟩
    intro d _ e written
    unfold renewSQL at written
    split at written
    · split at written <;> cases written
      rfl
    · cases written
  | release w id =>
    cases h
    refine ⟨rfl, map_updateWhere ?_⟩
    intro d _ e written
    unfold releaseSQL at written
    split at written
    · split at written <;> cases written
      rfl
    · cases written
  | reclaimExpired =>
    cases h
    refine ⟨rfl, map_updateWhere ?_⟩
    intro d _ e written
    unfold reclaimSQL at written
    split at written <;> cases written
    rfl
  | write w id x job =>
    obtain ⟨p, _, rfl⟩ := Option.map_eq_some_iff.mp h
    refine ⟨rfl, map_updateWhere ?_⟩
    intro d _ e written
    unfold advanceExec at written
    split at written
    · split at written <;> cases written
      rfl
    · cases written
  | _ => cases byWorker

theorem served_step {opts : R → Options} {s t : Platform Id R W} {a : Op Id R W}
    (served : Served s.db) (h : next opts s a = some t) : Served t.db := by
  cases byWorker : a.byWorker with
  | false => exact served_unworked served (next_tables h) byWorker
  | true =>
    intro d hd
    obtain ⟨events, kept⟩ := purpose_kept h byWorker
    obtain ⟨c, hc, same⟩ := List.mem_map.mp (kept ▸ List.mem_map_of_mem hd)
    simp only [purpose, Prod.mk.injEq] at same
    obtain ⟨e, he, serves⟩ := served c hc
    rw [events]
    rw [Serves, same.1, same.2.1, same.2.2.1, same.2.2.2] at serves
    exact ⟨e, he, serves⟩

/-- With any configuration at each batch, any routers and workers and any replays: a delivery
has exactly one original for its event and endpoint. -/
theorem delivery_has_one_original (opts : R → Options)
    (reach : Reachable (pipeline opts) s) {d : Delivery Id W} (hd : d ∈ s.db.deliveries) :
    s.db.deliveries.countP (isOriginal d.eventId d.endpointId) = 1 := by
  have one : OneOriginal s.db.deliveries := by
    refine reach.invariant (I := fun s => OneOriginal s.db.deliveries) ?_ ?_
    · intro s start
      simp [OneOriginal, start.1]
    · intro s a t one edge
      exact oneOriginal_step one (next_tables edge)
  exact one d hd

/-- Two originals, a replay and a replay of that replay. -/
theorem replay_of_replay_has_one_original : ∃ s : Platform ℕ ℕ ℕ,
    s.db.deliveries.map Delivery.replayOfDeliveryId = [none, none, some 101, some 201] ∧
      ∀ d ∈ s.db.deliveries, s.db.deliveries.countP (isOriginal d.eventId d.endpointId) = 1 := by
  have reach : Reachable (pipeline defaultOptions) _ := .run (.start empty_emptyPlatform)
    (run_of_execute (l := firstBatch ++ [.replay 101 201 none 0, .replay 201 202 none 0]) rfl)
  exact ⟨_, rfl, fun d hd => delivery_has_one_original defaultOptions reach hd⟩

/-- And it is in the organization and project of its event, with an attempt promised to it; what
says so is written by no statement of a worker. -/
theorem delivery_serves_its_event (opts : R → Options) (reach : Reachable (pipeline opts) s) :
    (∀ d ∈ s.db.deliveries, ∃ e ∈ s.db.events, Serves e.toEvent d) ∧
      ∀ a t, a.byWorker = true → next opts s a = some t →
        t.db.events = s.db.events ∧ t.db.deliveries.map purpose = s.db.deliveries.map purpose := by
  have served : Served s.db := by
    refine reach.invariant (I := fun s => Served s.db) ?_ ?_
    · intro s start
      simp [Served, start.1]
    · intro s a t served edge
      exact served_step served edge
  refine ⟨served, ?_⟩
  intro a t byWorker edge
  exact purpose_kept edge byWorker

/-- The deliveries of a batch and a replay, then claimed by a worker. -/
theorem first_batch_serves_its_event : ∃ s t : Platform ℕ ℕ ℕ,
    next defaultOptions s (.claim 4 10 minute fun _ => false) = some t ∧
      t.db.deliveries.map Delivery.lockedBy = [some 4, some 4, some 4] ∧
      s.db.deliveries.map purpose = [(1, 1, 1, 8), (1, 1, 1, 8), (1, 1, 1, 8)] ∧
      (∀ d ∈ s.db.deliveries, ∃ e ∈ s.db.events, Serves e.toEvent d) ∧
      t.db.deliveries.map purpose = s.db.deliveries.map purpose := by
  obtain ⟨s, t, run, claim, locked, same⟩ : ∃ s t, execute (next defaultOptions) emptyPlatform
      (firstBatch ++ [.replay 101 201 none 0]) = some s ∧
      next defaultOptions s (.claim 4 10 minute fun _ => false) = some t ∧
      t.db.deliveries.map Delivery.lockedBy = [some 4, some 4, some 4] ∧
      s.db.deliveries.map purpose = [(1, 1, 1, 8), (1, 1, 1, 8), (1, 1, 1, 8)] :=
    ⟨_, _, rfl, rfl, rfl, rfl⟩
  have reach : Reachable (pipeline defaultOptions) s := reachable_of_execute empty_emptyPlatform run
  obtain ⟨serves, kept⟩ := delivery_serves_its_event defaultOptions reach
  exact ⟨s, t, claim, locked, same, serves, (kept _ t rfl claim).2⟩

end Hookubit.Pipeline.Lineage
