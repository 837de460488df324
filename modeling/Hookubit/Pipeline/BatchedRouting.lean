/- sources: router/store.go (Route, loadCandidatesSQL, insertDeliveriesSQL), router/plan.go BuildPlan
   digest: Routing in batches, by any routers, ends with the deliveries of one plan over
     everything. -/

import Hookubit.Pipeline.Leases

set_option autoImplicit false
set_option relaxedAutoImplicit false

namespace Hookubit.Pipeline.BatchedRouting

open Automata.LabelledSystem Data.KeysetPage Data.Rows Pipeline.Leases Pipeline.Machine
open Pipeline.Moves Postgres.Clock Queue.Deliveries Router.Planning Router.Process Router.Store

variable {Id R W : Type} [LinearOrder Id]

/-- The deliveries that routing made for an event, without replays. -/
def originals (eventID : Id) (deliveries : List (Delivery Id W)) : List (Delivery Id W) :=
  deliveries.filter fun d => d.eventId = eventID && d.replayOfDeliveryId.isNone

/-- What was routed: the subscription, the endpoint and the promised attempts. -/
def routing (d : Delivery Id W) : Option Id × Id × ℤ :=
  (d.subscriptionId, d.endpointId, d.maxAttempts)

def planned (t : Target Id) : Option Id × Id × ℤ :=
  (some t.subscriptionID, t.endpointID, t.maxAttempts)

theorem any_isOriginal {eventID endpointID : Id} {deliveries : List (Delivery Id W)} :
    deliveries.any (isOriginal eventID endpointID) = true ↔
      endpointID ∈ (originals eventID deliveries).map Delivery.endpointId := by
  simp only [List.any_eq_true, isOriginal, originals, List.mem_map, List.mem_filter,
    Bool.and_eq_true, decide_eq_true_eq]
  exact ⟨fun ⟨d, hd, ⟨event, endpoint⟩, replay⟩ => ⟨d, ⟨hd, event, replay⟩, endpoint⟩,
    fun ⟨d, ⟨hd, event, replay⟩, endpoint⟩ => ⟨d, hd, ⟨event, endpoint⟩, replay⟩⟩

theorem originals_insert_other {ev : Event Id} {eventID : Id} (other : eventID ≠ ev.id) (now : ℤ)
    (rows : List (Target Id × Id)) (deliveries : List (Delivery Id W)) :
    originals eventID (insertDeliveriesSQL ev now rows deliveries) =
      originals eventID deliveries := by
  induction rows generalizing deliveries with
  | nil => rfl
  | cons row rest ih =>
    obtain ⟨t, id⟩ := row
    simp only [insertDeliveriesSQL]
    split
    · exact ih deliveries
    · rw [ih, originals, List.filter_append]
      simp [originals, Delivery.inserted, other.symm]

/-- `ON CONFLICT` leaves exactly the targets whose endpoint has no original delivery yet. -/
theorem originals_insert {ev : Event Id} {now : ℤ} {targets : List (Target Id)} {minted : List Id}
    (enough : minted.length = targets.length) (distinct : (targets.map Target.endpointID).Nodup)
    (deliveries : List (Delivery Id W)) :
    (originals ev.id (insertDeliveriesSQL ev now (targets.zip minted) deliveries)).map routing =
      (originals ev.id deliveries).map routing ++ (targets.filter fun t =>
        t.endpointID ∉ (originals ev.id deliveries).map Delivery.endpointId).map planned := by
  induction targets generalizing minted deliveries with
  | nil => simp [insertDeliveriesSQL]
  | cons t targets ih =>
    obtain ⟨id, minted, rfl⟩ := List.exists_cons_of_length_eq_add_one enough
    obtain ⟨new, distinct⟩ := List.nodup_cons.mp distinct
    have enough : minted.length = targets.length := by simpa using enough
    simp only [List.zip_cons_cons, insertDeliveriesSQL]
    by_cases taken : deliveries.any (isOriginal ev.id t.endpointID) = true
    · rw [if_pos taken, ih enough distinct, List.filter_cons_of_neg]
      simpa using any_isOriginal.mp taken
    · have free := mt any_isOriginal.mpr taken
      have grown : originals ev.id (deliveries ++ [Delivery.inserted id ev.id t.endpointID
          t.subscriptionID ev.organizationID ev.projectID t.maxAttempts now]) =
          originals ev.id deliveries ++ [Delivery.inserted id ev.id t.endpointID
            t.subscriptionID ev.organizationID ev.projectID t.maxAttempts now] := by
        simp [originals, Delivery.inserted]
      rw [if_neg taken, ih enough distinct, grown, List.filter_cons_of_pos (by simpa using free),
        List.map_append, List.map_append, List.map_cons, List.append_assoc]
      refine congrArg (_ ++ ·) (congrArg (planned t :: ·) (congrArg (List.map planned) ?_))
      apply List.filter_congr
      intro u hu
      have apart : u.endpointID ≠ t.endpointID := fun same =>
        new (List.mem_map.mpr ⟨u, hu, same⟩)
      simp [Delivery.inserted, apart]

theorem event_of_mem_insert {ev : Event Id} {now : ℤ} {rows : List (Target Id × Id)}
    {deliveries : List (Delivery Id W)} {d : Delivery Id W}
    (hd : d ∈ insertDeliveriesSQL ev now rows deliveries) : d ∈ deliveries ∨ d.eventId = ev.id := by
  induction rows generalizing deliveries with
  | nil => exact .inl hd
  | cons row rest ih =>
    simp only [insertDeliveriesSQL] at hd
    split at hd
    · exact ih hd
    · rcases ih hd with inside | same
      · rcases List.mem_append.mp inside with old | new
        · exact .inl old
        · exact .inr (by rw [List.mem_singleton.mp new]; rfl)
      · exact .inr same

theorem originals_updateWhere {f : Delivery Id W → Option (Delivery Id W)}
    (same : ∀ d e, f d = some e → SameDelivery d e) (eventID : Id)
    (deliveries : List (Delivery Id W)) :
    (originals eventID (updateWhere f deliveries)).map routing =
      (originals eventID deliveries).map routing := by
  rw [originals, filter_updateWhere fun d _ e h => by rw [(same d e h).event, (same d e h).replay],
    map_updateWhere fun d _ e h => by
      simp [routing, (same d e h).subscription, (same d e h).endpoint, (same d e h).budget]]
  rfl

variable [OrderBot Id]

/-- The candidates that the walk of an event has passed: up to the cursor, and in the end all. -/
def seen (dir : Directory Id) (e : Event Id) (o : OutboxRow Id R) : List (Candidate Id) :=
  if o.status = .processed then dir.candidates e.projectID e.createdAt
  else upTo Candidate.subscriptionID (dir.candidates e.projectID e.createdAt) o.routingCursor

theorem seen_sublist (dir : Directory Id) (e : Event Id) (o : OutboxRow Id R) :
    (seen dir e o).Sublist (dir.candidates e.projectID e.createdAt) := by
  unfold seen
  split
  · exact .refl _
  · exact List.filter_sublist

theorem seen_targets (dir : Directory Id) (e : Event Id) (o : OutboxRow Id R) :
    (BuildPlan e (seen dir e o) 0).targets <+:
      (BuildPlan e (dir.candidates e.projectID e.createdAt) 0).targets := by
  unfold seen
  split
  · exact List.prefix_refl _
  · have nodup := dir.candidates_nodup e.projectID e.createdAt
    have strict := dir.candidates_strict e.projectID e.createdAt
    nth_rewrite 2 [← upTo_append_beyond strict]
    rw [← upTo_append_beyond strict] at nodup
    rw [buildPlan_append nodup]
    exact List.prefix_append _ _

/-- Every event has exactly the deliveries of one plan over what its walk has passed. -/
def Walked (dir : Directory Id) (db : Tables Id R W) : Prop :=
  ∀ o ∈ db.outbox, ∀ e ∈ db.events, e.id = o.eventID →
    (originals e.id db.deliveries).map routing =
      (BuildPlan e.toEvent (seen dir e.toEvent o) 0).targets.map planned

/-- The foreign key of the deliveries. -/
def Known (db : Tables Id R W) : Prop :=
  ∀ d ∈ db.deliveries, d.eventId ∈ db.events.map fun e => e.id

variable {s : Platform Id R W} {db : Tables Id R W}

theorem walked_route {dir : Directory Id} {task : Task Id R}
    {ev : EventRow Id} {page : List (Candidate Id)} {minted : List Id}
    {f : OutboxRow Id R → Option (OutboxRow Id R)} (keyed : Keyed s.db)
    (leased : Leased s) (walked : Walked dir s.db) (ht : task ∈ s.tasks)
    (found : s.db.events.find? (·.id = task.row.eventID) = some ev)
    (guard : ∀ o q, f o = some q →
      o.id = task.row.id ∧ o.lockedBy = some task.router ∧ q.eventID = o.eventID)
    (hit : 0 < rowsAffected f s.db.outbox)
    (fresh : mintable minted (BuildPlan ev.toEvent page 0).targets s.db.deliveries = true)
    (grows : ∀ q, f task.row = some q → seen dir ev.toEvent q =
      upTo Candidate.subscriptionID (dir.candidates ev.projectID ev.createdAt)
        task.row.routingCursor ++ page)
    (outbox : db.outbox = updateWhere f s.db.outbox)
    (events : ∀ q ∈ db.events, ∃ e ∈ s.db.events, q.toEvent = e.toEvent)
    (deliveries : db.deliveries = insertDeliveriesSQL ev.toEvent s.clock
      ((BuildPlan ev.toEvent page 0).targets.zip minted) s.db.deliveries) : Walked dir db := by
  have hev := List.mem_of_find?_eq_some found
  have key_ev := List.find?_some found
  rw [decide_eq_true_iff] at key_ev
  intro q hq e' he' key
  obtain ⟨o, ho, rfl⟩ := mem_updateWhere.mp (outbox ▸ hq)
  obtain ⟨e, he, same⟩ := events e' he'
  rw [same] at key ⊢
  rw [deliveries]
  cases hf : f o with
  | none =>
    rw [hf, Option.getD_none] at key
    -- The row that was written is the only one of its event.
    have other : e.id ≠ ev.id := fun same => by
      obtain ⟨p, hp, matched⟩ := rowsAffected_pos.mp hit
      obtain ⟨p', hp'⟩ := Option.isSome_iff_exists.mp matched
      obtain ⟨id, lock, _⟩ := guard p p' hp'
      have row := leased.held task ht p hp id lock
      have : p = o := keyed.row_of_event hp ho (by rw [row, ← key_ev, ← same, key])
      rw [this, hf] at hp'
      cases hp'
    rw [originals_insert_other other, Option.getD_none]
    exact walked o ho e he key
  | some q =>
    rw [hf, Option.getD_some] at key
    obtain ⟨id, lock, event⟩ := guard o q hf
    have processing := (leased.locked o ho).mp (by rw [lock]; rfl)
    obtain rfl := leased.held task ht o ho id lock
    obtain rfl : e = ev := List.inj_on_of_nodup_map keyed.events he hev (by rw [key, event, key_ev])
    have passed : seen dir e.toEvent task.row = upTo Candidate.subscriptionID
        (dir.candidates e.projectID e.createdAt) task.row.routingCursor :=
      if_neg (by rw [processing]; decide)
    have before := walked task.row ho e he key_ev
    rw [passed] at before
    have nodup : ((upTo Candidate.subscriptionID (dir.candidates e.projectID e.createdAt)
        task.row.routingCursor ++ page).map Candidate.subscriptionID).Nodup :=
      (dir.candidates_nodup _ _).sublist ((grows q hf ▸ seen_sublist dir e.toEvent q).map _)
    have parts := List.nodup_append.mp (List.map_append ▸ nodup)
    have endpoints : (originals e.id s.db.deliveries).map Delivery.endpointId =
        (BuildPlan e.toEvent (upTo Candidate.subscriptionID
          (dir.candidates e.projectID e.createdAt) task.row.routingCursor) 0).targets.map
            Target.endpointID := by
      have := congrArg (List.map fun r => r.2.1) before
      rw [List.map_map, List.map_map] at this
      exact this
    have enough : minted.length = (BuildPlan e.toEvent page 0).targets.length := by
      simp only [mintable, Bool.and_eq_true, decide_eq_true_eq] at fresh
      exact fresh.1.1
    rw [originals_insert enough (nodup_buildPlan_endpoints parts.2.1), Option.getD_some,
      grows q hf, buildPlan_append nodup, List.map_append, before, endpoints]

variable [DecidableEq R]

theorem known_step {a : Op Id R W} (known : Known s.db) (step : TablesStep s a db) : Known db := by
  intro d hd
  suffices before : d.eventId ∈ s.db.events.map fun e => e.id by
    obtain ⟨e, he, key⟩ := List.mem_map.mp before
    obtain ⟨q, hq, same, _⟩ := event_after step he
    exact List.mem_map.mpr ⟨q, hq, by rw [same, key]⟩
  cases step with
  | keep => exact known d hd
  | createEvent inserted =>
    unfold insertEvent at inserted
    split at inserted <;> cases inserted
    exact known d hd
  | claimOutbox _ => exact known d hd
  | route _ routed =>
    have minted : ∀ {ev : EventRow Id} {rows : List (Target Id × Id)} {id : Id},
        s.db.events.find? (·.id = id) = some ev →
        d ∈ insertDeliveriesSQL ev.toEvent s.clock rows s.db.deliveries →
        d.eventId ∈ s.db.events.map fun e => e.id := fun found hd => by
      rcases event_of_mem_insert hd with old | same
      · exact known d old
      · exact List.mem_map.mpr ⟨_, List.mem_of_find?_eq_some found, same.symm⟩
    cases routed with
    | rolledBack _ => exact known d hd
    | continued found _ _ _ _ => exact minted found hd
    | finished _ found _ _ _ => exact minted found hd
  | releaseOutbox _ => exact known d hd
  | parkOutbox _ _ _ => exact known d hd
  | requeue => exact known d hd
  | @deliver _ f _ same =>
    obtain ⟨c, hc, rfl⟩ := mem_updateWhere.mp hd
    cases hf : f c with
    | none => exact known c hc
    | some e =>
      rw [Option.getD_some, (same c e hf).event]
      exact known c hc
  | replay original =>
    rcases List.mem_append.mp hd with old | new
    · exact known d old
    · have routed := known _ original
      rw [List.mem_singleton.mp new]
      exact routed

theorem originals_unrouted {a : Op Id R W}
    (other : ∀ task dir batch minted replied, a ≠ .route task dir batch minted replied)
    (step : TablesStep s a db) (eventID : Id) : (originals eventID db.deliveries).map routing =
      (originals eventID s.db.deliveries).map routing := by
  cases step with
  | keep => rfl
  | createEvent inserted =>
    unfold insertEvent at inserted
    split at inserted <;> cases inserted
    rfl
  | claimOutbox _ => rfl
  | route _ _ => exact absurd rfl (other _ _ _ _ _)
  | releaseOutbox _ => rfl
  | parkOutbox _ _ _ => rfl
  | requeue => rfl
  | deliver _ same => exact originals_updateWhere same eventID _
  | replay _ => simp [originals, List.filter_append, insertReplay]

theorem walked_unrouted {dir : Directory Id} {a : Op Id R W}
    (keyed : Keyed s.db) (leased : Leased s) (known : Known s.db)
    (walked : Walked dir s.db)
    (other : ∀ task dir batch minted replied, a ≠ .route task dir batch minted replied)
    (step : TablesStep s a db) : Walked dir db := by
  intro q hq e' he' key
  rw [originals_unrouted other step]
  rcases row_before keyed step hq with ⟨o, ho, moved⟩ | ⟨pending, _, unread, fresh⟩
  · have event : q.eventID = o.eventID := by
      rcases moved with rfl | move
      · rfl
      · exact move.guard.2.1
    have passed : ∀ e, seen dir e q = seen dir e o := fun e => by
      rcases moved with rfl | move
      · rfl
      · obtain ⟨cursor, unfinished⟩ := move.unrouted other
        have unfinished' : o.status ≠ .processed := fun done =>
          no_move_of_processed leased ho done move
        rw [seen, seen, if_neg unfinished, if_neg unfinished', cursor]
    rcases event_before step he' with ⟨e, he, same, _⟩ | ⟨_, fresh⟩
    · rw [same, passed]
      exact walked o ho e he (by rw [← same, key, event])
    · obtain ⟨e, he, key'⟩ := keyed.foreign o ho
      exact absurd (List.mem_map.mpr ⟨e, he, by rw [key', key, event]⟩) fresh
  · -- A new event has no deliveries, and its cursor has passed nothing.
    rw [seen, if_neg (by rw [pending]; decide), unread, dir.upTo_bot]
    have none_yet : originals e'.id s.db.deliveries = [] := by
      apply List.filter_eq_nil_iff.mpr
      intro d hd
      have : d.eventId ≠ e'.id := fun same => fresh (key ▸ same ▸ known d hd)
      simp [this]
    rw [none_yet]
    rfl

/-- The configuration does not change: every routing transaction joins these tables. -/
def RoutesWith (dir : Directory Id) (a : Op Id R W) : Prop :=
  ∀ task d batch minted replied, a = .route task d batch minted replied → d = dir

theorem walked_step {dir : Directory Id} {a : Op Id R W}
    (sound : Sound s) (known : Known s.db) (walked : Walked dir s.db)
    (fixed : RoutesWith dir a) (step : TablesStep s a db) : Walked dir db := by
  by_cases other : ∀ task dir batch minted replied, a ≠ .route task dir batch minted replied
  · exact walked_unrouted sound.keyed sound.leased known walked other step
  push Not at other
  obtain ⟨task, d, batch, minted, replied, rfl⟩ := other
  obtain rfl := fixed task d batch minted replied rfl
  cases step with
  | keep => exact walked
  | route ht routed =>
    cases routed with
    | rolledBack _ => exact walked
    | continued found page ends fresh held =>
      refine walked_route sound.keyed sound.leased walked ht found ?_ held fresh ?_ rfl
        (fun e he => ⟨e, he, rfl⟩) rfl
      · intro o q written
        unfold advanceRoutingSQL at written
        split at written <;> cases written
        rename_i mine
        exact ⟨mine.1, mine.2, rfl⟩
      · intro q written
        unfold advanceRoutingSQL at written
        split at written <;> cases written
        subst page
        rw [seen, if_neg (by simp)]
        exact upTo_last (d.candidates_strict _ _) ends
    | finished _ found page fresh held =>
      refine walked_route sound.keyed sound.leased walked ht found ?_ held fresh ?_ rfl ?_ rfl
      · intro o q written
        unfold markOutboxProcessedSQL at written
        split at written <;> cases written
        rename_i mine
        exact ⟨mine.1, mine.2, rfl⟩
      · intro q written
        unfold markOutboxProcessedSQL at written
        split at written <;> cases written
        rw [seen, if_pos rfl, page]
        exact (upTo_append_beyond (d.candidates_strict _ _)).symm
      · intro q hq
        obtain ⟨e, he, rfl⟩ := mem_updateWhere.mp hq
        exact ⟨e, he, (getD_markEventProcessedSQL _ _ e).1⟩
  | deliver byWorker _ => cases byWorker

variable [DecidableEq W]

/-- However the walk was cut into batches and whoever ran them, a processed event has the
deliveries of one plan over all its candidates, one for each endpoint; and an event on its
way there has nothing else. -/
theorem batched_routing_is_one_shot (opts : R → Options) (dir : Directory Id)
    (reach : Reachable ((pipeline opts).constrain fun _ a _ => RoutesWith dir a) s) :
    ∀ e ∈ s.db.events,
      (e.status = .processed → (originals e.id s.db.deliveries).map routing =
        (BuildPlan e.toEvent (dir.candidates e.projectID e.createdAt) 0).targets.map planned) ∧
      ((originals e.id s.db.deliveries).map Delivery.endpointId).Nodup ∧
      ∀ d ∈ originals e.id s.db.deliveries, routing d ∈
        (BuildPlan e.toEvent (dir.candidates e.projectID e.createdAt) 0).targets.map planned := by
  have inv : Sound s ∧ Known s.db ∧ Walked dir s.db := by
    refine reach.invariant (I := fun s => Sound s ∧ Known s.db ∧ Walked dir s.db) ?_ ?_
    · intro s start
      refine ⟨sound_empty start, ?_, ?_⟩
      · rw [start.1]
        intro d hd
        exact by cases hd
      · rw [start.1]
        intro o ho
        exact by cases ho
    · rintro s a t ⟨sound, known, walked⟩ ⟨edge, fixed⟩
      have step := next_tables edge
      exact ⟨sound_step sound edge, known_step known step,
        walked_step sound known walked fixed step⟩
  obtain ⟨sound, _, walked⟩ := inv
  intro e he
  obtain ⟨o, ho, key⟩ := sound.keyed.covered e he
  have plan := walked o ho e he key.symm
  have nodup := dir.candidates_nodup e.projectID e.createdAt
  refine ⟨?_, ?_, ?_⟩
  · intro done
    have retired := (sound.paired o ho e he key.symm).mpr done
    rw [plan, seen, if_pos retired]
  · have endpoints := congrArg (List.map fun r => r.2.1) plan
    rw [List.map_map, List.map_map] at endpoints
    exact (congrArg List.Nodup endpoints).mpr
      (nodup_buildPlan_endpoints (nodup.sublist ((seen_sublist dir e.toEvent o).map _)))
  · intro d hd
    have inside : routing d ∈ (originals e.id s.db.deliveries).map routing :=
      List.mem_map_of_mem hd
    rw [plan] at inside
    exact ((seen_targets dir e.toEvent o).map planned).subset inside

/-- Two routers route three subscriptions two at a time: two endpoints, one delivery each, with
the lower subscription id of the shared endpoint. -/
theorem two_batches_route_once :
    ∃ s : Platform ℕ ℕ ℕ, Reachable ((pipeline defaultOptions).constrain fun _ a _ =>
        RoutesWith twoEndpoints a) s ∧ s.db.events.map EventRow.status = [.processed] ∧
      ∀ e ∈ s.db.events, (originals e.id s.db.deliveries).map routing =
        (BuildPlan e.toEvent (twoEndpoints.candidates e.projectID e.createdAt) 0).targets.map
          planned := by
  obtain ⟨s, run, done⟩ : ∃ s, execute (next defaultOptions) emptyPlatform
      (firstBatch ++ secondBatch) = some s ∧ s.db.events.map EventRow.status = [.processed] :=
    ⟨_, rfl, rfl⟩
  have fixed : ∀ a ∈ firstBatch ++ secondBatch, RoutesWith twoEndpoints a := by
    rintro a ha task d batch minted replied rfl
    simp only [firstBatch, secondBatch, List.cons_append, List.nil_append, List.mem_cons,
      List.not_mem_nil, Op.route.injEq, reduceCtorEq, false_or, or_false] at ha
    rcases ha with ⟨_, rfl, _⟩ | ⟨_, rfl, _⟩ <;> rfl
  have reach : Reachable ((pipeline defaultOptions).constrain fun _ a _ =>
      RoutesWith twoEndpoints a) s :=
    Reachable.run (.start empty_emptyPlatform) (Run.constrain_labels (run_of_execute run) fixed)
  refine ⟨s, reach, done, ?_⟩
  intro e he
  have processed : e.status ∈ [EventStatus.processed] := done ▸ List.mem_map_of_mem he
  exact (batched_routing_is_one_shot defaultOptions twoEndpoints reach e he).1
    (List.mem_singleton.mp processed)

end Hookubit.Pipeline.BatchedRouting
