/- sources: router/store.go, router/router.go, worker/store.go, queue/postgres.go
   digest: Everything one step can do to the tables, the rows and the router's goroutines. -/

import Hookubit.Pipeline.Machine

set_option autoImplicit false
set_option relaxedAutoImplicit false

namespace Hookubit.Pipeline.Moves

open Data.Rows Pipeline.Machine Postgres.Clock Queue.Deliveries Router.Planning Router.Process
open Router.Store Worker.Store

variable {Id R W : Type} [LinearOrder Id] [OrderBot Id] [DecidableEq R] [DecidableEq W]
  {opts : R → Options} {s t : Platform Id R W} {task : Task Id R} {a : Op Id R W}
  {db : Tables Id R W} {o q : OutboxRow Id R}

/-- The columns of a delivery that say what was routed where; no worker writes them. -/
structure SameDelivery (d e : Delivery Id W) : Prop where
  id : e.id = d.id
  event : e.eventId = d.eventId
  endpoint : e.endpointId = d.endpointId
  subscription : e.subscriptionId = d.subscriptionId
  budget : e.maxAttempts = d.maxAttempts
  replay : e.replayOfDeliveryId = d.replayOfDeliveryId

/-- The goroutine of `task` ends or goes on, and leaves the tables `db`. -/
inductive Continues (s : Platform Id R W) (task : Task Id R) (db : Tables Id R W) :
    Platform Id R W → Prop
  | finish : Continues s task db (s.finish task db)
  | goOn {phase : Phase} : Continues s task db (s.goOn task phase db)

inductive Step (s : Platform Id R W) : Op Id R W → Platform Id R W → Prop
  | tick {now : ℤ} : s.clock ≤ now → Step s (.tick now) { s with clock := now }
  | createEvent {ev : Event Id} {outboxID : Id} {db : Tables Id R W} :
      insertEvent ev outboxID s.clock s.db = some db →
      Step s (.createEvent ev outboxID) { s with db := db }
  | claimOutbox {r : R} {limit : ℕ} {lease : ℤ} {skip : Id → Bool} {received : Bool} :
      (∀ task ∈ s.tasks, task.router ≠ r) →
      Step s (.claimOutbox r limit lease skip received) { s with
        db := (ClaimOutbox r limit lease s.clock skip s.db).2
        tasks := if received then
          (ClaimOutbox r limit lease s.clock skip s.db).1.map (⟨r, ·, .claimed⟩) ++ s.tasks
          else s.tasks }
  | process {task : Task Id R} {now : ℤ} {t : Platform Id R W} : task ∈ s.tasks →
      Continues s task s.db t → Step s (.process task now) t
  | route {task : Task Id R} {dir : Directory Id} {batch : ℤ} {minted : List Id} {replied : Bool}
      {t : Platform Id R W} : task ∈ s.tasks →
      Continues s task (Route dir task.router task.row batch minted s.clock s.db).2 t →
      Step s (.route task dir batch minted replied) t
  | routeError {task : Task Id R} {t : Platform Id R W} : task ∈ s.tasks →
      Continues s task s.db t → Step s (.routeError task) t
  | releaseOutbox {task : Task Id R} {retryAfter : ℤ} {t : Platform Id R W} : task ∈ s.tasks →
      Continues s task (ReleaseOutbox task.router task.row.id retryAfter s.clock s.db).2 t →
      Step s (.releaseOutbox task retryAfter) t
  | parkOutbox {task : Task Id R} {t : Platform Id R W} : task ∈ s.tasks →
      Continues s task (ParkOutbox task.router task.row.id task.row.eventID s.clock s.db).2 t →
      Step s (.parkOutbox task) t
  | abandon {task : Task Id R} {t : Platform Id R W} : task ∈ s.tasks →
      Continues s task s.db t → Step s (.abandon task) t
  | requeue {ids : List Id} {apiNow : ℤ} :
      Step s (.requeue ids apiNow) { s with db := returnToQueue ids apiNow s.db }
  | deliver {a : Op Id R W} {f : Delivery Id W → Option (Delivery Id W)} : a.byWorker = true →
      (∀ d e, f d = some e → SameDelivery d e) →
      Step s a (s.deliver (updateWhere f s.db.deliveries))
  | replay {original id : Id} {subscriptionId : Option Id} {apiNow : ℤ} {d : Delivery Id W} :
      d ∈ s.db.deliveries → Step s (.replay original id subscriptionId apiNow)
        (s.deliver (s.db.deliveries ++ [insertReplay d id subscriptionId apiNow]))

private theorem route_step {dir : Directory Id} {batch : ℤ} {minted : List Id} {replied : Bool}
    (h : next opts s (.route task dir batch minted replied) = some t) :
    Step s (.route task dir batch minted replied) t := by
  simp only [next] at h
  split at h
  · rename_i ready
    cases replied with
    | false =>
      cases h
      exact .route ready.1 .goOn
    | true =>
      simp only [if_true] at h
      split at h <;> cases h
      · exact .route ready.1 .goOn
      · exact .route ready.1 .goOn
      · exact .route ready.1 .finish
  · cases h

theorem next_step (h : next opts s a = some t) : Step s a t := by
  cases a with
  | tick now =>
    simp only [next] at h
    split at h <;> cases h
    exact .tick ‹_›
  | createEvent ev outboxID =>
    obtain ⟨db, inserted, rfl⟩ := Option.map_eq_some_iff.mp h
    exact .createEvent inserted
  | claimOutbox r limit lease skip received =>
    simp only [next] at h
    split at h <;> cases h
    rename_i idle
    exact .claimOutbox fun task ht hr => idle ⟨task, ht, hr⟩
  | process task now =>
    simp only [next] at h
    split at h
    · rename_i ready
      split at h <;> cases h <;> exact .process ready.1 .goOn
    · cases h
  | route task dir batch minted replied => exact route_step h
  | routeError task =>
    simp only [next] at h
    split at h <;> cases h
    rename_i ready
    exact .routeError ready.1 .goOn
  | releaseOutbox task retryAfter =>
    simp only [next] at h
    split at h <;> cases h
    rename_i ready
    exact .releaseOutbox ready.1 .finish
  | parkOutbox task =>
    simp only [next] at h
    split at h <;> cases h
    rename_i ready
    exact .parkOutbox ready.1 .finish
  | abandon task =>
    simp only [next] at h
    split at h <;> cases h
    exact .abandon ‹_› .finish
  | requeue ids apiNow =>
    cases h
    exact .requeue
  | claim w limit lease skip =>
    cases h
    refine .deliver rfl ?_
    intro d e hd
    split at hd <;> cases hd
    exact ⟨rfl, rfl, rfl, rfl, rfl, rfl⟩
  | renew w ids lease =>
    cases h
    refine .deliver rfl ?_
    intro d e hd
    unfold renewSQL at hd
    split at hd
    · split at hd <;> cases hd
      exact ⟨rfl, rfl, rfl, rfl, rfl, rfl⟩
    · cases hd
  | release w id =>
    cases h
    refine .deliver rfl ?_
    intro d e hd
    unfold releaseSQL at hd
    split at hd
    · split at hd <;> cases hd
      exact ⟨rfl, rfl, rfl, rfl, rfl, rfl⟩
    · cases hd
  | reclaimExpired =>
    cases h
    refine .deliver rfl ?_
    intro d e hd
    unfold reclaimSQL at hd
    split at hd <;> cases hd
    exact ⟨rfl, rfl, rfl, rfl, rfl, rfl⟩
  | write w id x job =>
    obtain ⟨p, _, rfl⟩ := Option.map_eq_some_iff.mp h
    refine .deliver rfl ?_
    intro d e hd
    unfold advanceExec at hd
    split at hd
    · split at hd <;> cases hd
      exact ⟨rfl, rfl, rfl, rfl, rfl, rfl⟩
    · cases hd
  | replay original id subscriptionId apiNow =>
    simp only [next] at h
    split at h
    · cases h
    · obtain ⟨d, hd, rfl⟩ := Option.map_eq_some_iff.mp h
      exact .replay (List.mem_of_find?_eq_some hd)

omit [OrderBot Id] [DecidableEq W] in
theorem Continues.db_eq (h : Continues s task db t) : t.db = db := by
  cases h with
  | finish => rfl
  | goOn => rfl

omit [OrderBot Id] [DecidableEq W] in
theorem Continues.of_mem (h : Continues s task db t) (held : task ∈ s.tasks) {task' : Task Id R}
    (ht : task' ∈ t.tasks) : ∃ old ∈ s.tasks, old.router = task'.router ∧ old.row = task'.row := by
  cases h with
  | finish => exact ⟨task', (List.mem_filter.mp ht).1, rfl, rfl⟩
  | goOn =>
    rcases List.mem_cons.mp ht with rfl | rest
    · exact ⟨task, held, rfl, rfl⟩
    · exact ⟨task', (List.mem_filter.mp rest).1, rfl, rfl⟩

/-- The tables after one step. -/
inductive TablesStep (s : Platform Id R W) : Op Id R W → Tables Id R W → Prop
  | keep {a : Op Id R W} : TablesStep s a s.db
  | createEvent {ev : Event Id} {outboxID : Id} {db : Tables Id R W} :
      insertEvent ev outboxID s.clock s.db = some db → TablesStep s (.createEvent ev outboxID) db
  | claimOutbox {r : R} {limit : ℕ} {lease : ℤ} {skip : Id → Bool} {received : Bool} :
      (∀ task ∈ s.tasks, task.router ≠ r) →
      TablesStep s (.claimOutbox r limit lease skip received)
        (ClaimOutbox r limit lease s.clock skip s.db).2
  | route {task : Task Id R} {dir : Directory Id} {batch : ℤ} {minted : List Id} {replied : Bool}
      {outcome : Outcome} {db : Tables Id R W} : task ∈ s.tasks →
      Routed dir task.router task.row batch minted s.clock s.db outcome db →
      TablesStep s (.route task dir batch minted replied) db
  | releaseOutbox {task : Task Id R} {retryAfter wait : ℤ} : task ∈ s.tasks →
      TablesStep s (.releaseOutbox task retryAfter) { s.db with
        outbox := updateWhere (releaseOutboxSQL task.row.id task.router wait s.clock) s.db.outbox }
  | parkOutbox {task : Task Id R} {events : List (EventRow Id)} : task ∈ s.tasks →
      0 < rowsAffected (parkOutboxSQL task.row.id task.router s.clock) s.db.outbox →
      events = s.db.events ∨
        events = updateWhere (failEventSQL task.row.eventID s.clock) s.db.events →
      TablesStep s (.parkOutbox task) { s.db with
        outbox := updateWhere (parkOutboxSQL task.row.id task.router s.clock) s.db.outbox
        events := events }
  | requeue {ids : List Id} {apiNow : ℤ} :
      TablesStep s (.requeue ids apiNow) (returnToQueue ids apiNow s.db)
  | deliver {a : Op Id R W} {f : Delivery Id W → Option (Delivery Id W)} : a.byWorker = true →
      (∀ d e, f d = some e → SameDelivery d e) →
      TablesStep s a { s.db with deliveries := updateWhere f s.db.deliveries }
  | replay {original id : Id} {subscriptionId : Option Id} {apiNow : ℤ} {d : Delivery Id W} :
      d ∈ s.db.deliveries →
      TablesStep s (.replay original id subscriptionId apiNow) { s.db with
        deliveries := s.db.deliveries ++ [insertReplay d id subscriptionId apiNow] }

theorem next_tables (h : next opts s a = some t) : TablesStep s a t.db := by
  cases next_step h with
  | tick _ => exact .keep
  | createEvent inserted => exact .createEvent inserted
  | claimOutbox idle => exact .claimOutbox idle
  | process _ moved | routeError _ moved | abandon _ moved => rw [moved.db_eq]; exact .keep
  | @route task dir batch minted _ _ held moved =>
    rw [moved.db_eq]
    exact .route held (route_routed dir task.router task.row batch minted s.clock s.db)
  | releaseOutbox held moved =>
    rw [moved.db_eq, releaseOutbox_eq]
    exact .releaseOutbox held
  | parkOutbox held moved =>
    rw [moved.db_eq]
    unfold ParkOutbox
    dsimp only
    split
    · exact .keep
    · rename_i hit
      refine .parkOutbox held (Nat.pos_of_ne_zero hit) ?_
      split
      · exact .inl rfl
      · exact .inr rfl
  | requeue => exact .requeue
  | deliver byWorker same => exact .deliver byWorker same
  | replay original => exact .replay original

/-- Everything one step can do to an outbox row. -/
inductive OutboxMove (s : Platform Id R W) : Op Id R W → OutboxRow Id R → OutboxRow Id R → Prop
  | claim {r : R} {limit : ℕ} {lease : ℤ} {skip : Id → Bool} {received : Bool}
      {o : OutboxRow Id R} : (∀ task ∈ s.tasks, task.router ≠ r) → outboxReady s.clock o = true →
      OutboxMove s (.claimOutbox r limit lease skip received) o (claimOutboxRow r lease s.clock o)
  | advance {task : Task Id R} {dir : Directory Id} {batch : ℤ} {minted : List Id}
      {replied : Bool} {o q : OutboxRow Id R} {cursor : Id} : task ∈ s.tasks →
      task.row.routingCursor < cursor →
      advanceRoutingSQL task.row.id task.router cursor s.clock o = some q →
      OutboxMove s (.route task dir batch minted replied) o q
  | retire {task : Task Id R} {dir : Directory Id} {batch : ℤ} {minted : List Id}
      {replied : Bool} {o q : OutboxRow Id R} : task ∈ s.tasks →
      markOutboxProcessedSQL task.row.id task.router s.clock o = some q →
      OutboxMove s (.route task dir batch minted replied) o q
  | release {task : Task Id R} {retryAfter wait : ℤ} {o q : OutboxRow Id R} : task ∈ s.tasks →
      releaseOutboxSQL task.row.id task.router wait s.clock o = some q →
      OutboxMove s (.releaseOutbox task retryAfter) o q
  | park {task : Task Id R} {o q : OutboxRow Id R} : task ∈ s.tasks →
      parkOutboxSQL task.row.id task.router s.clock o = some q →
      OutboxMove s (.parkOutbox task) o q
  | requeue {ids : List Id} {apiNow : ℤ} {o : OutboxRow Id R} : o.id ∈ ids → o.status = .failed →
      OutboxMove s (.requeue ids apiNow) o (requeuedRow apiNow o)

section Rows

omit [DecidableEq W]

/-- What a move needs of the row: to be ready for a claim, to be locked by the router that
writes, or to be parked and named in a requeue. -/
theorem OutboxMove.guard (move : OutboxMove s a o q) : q.id = o.id ∧ q.eventID = o.eventID ∧
      ((outboxReady s.clock o = true ∧ q.attempts = o.attempts + 1) ∨
        (∃ task ∈ s.tasks, o.id = task.row.id ∧ o.lockedBy = some task.router) ∨
        (o.status = .failed ∧ ∃ ids apiNow, a = .requeue ids apiNow ∧ o.id ∈ ids ∧
          q = requeuedRow apiNow o)) := by
  cases move with
  | claim _ ready => exact ⟨rfl, rfl, .inl ⟨ready, rfl⟩⟩
  | advance task _ written =>
    unfold advanceRoutingSQL at written
    split at written <;> cases written
    exact ⟨rfl, rfl, .inr (.inl ⟨_, task, by assumption⟩)⟩
  | retire task written =>
    unfold markOutboxProcessedSQL at written
    split at written <;> cases written
    exact ⟨rfl, rfl, .inr (.inl ⟨_, task, by assumption⟩)⟩
  | release task written =>
    unfold releaseOutboxSQL at written
    split at written <;> cases written
    exact ⟨rfl, rfl, .inr (.inl ⟨_, task, by assumption⟩)⟩
  | park task written =>
    unfold parkOutboxSQL at written
    split at written <;> cases written
    exact ⟨rfl, rfl, .inr (.inl ⟨_, task, by assumption⟩)⟩
  | requeue inside parked => exact ⟨rfl, rfl, .inr (.inr ⟨parked, _, _, rfl, inside, rfl⟩)⟩

/-- After a move the row is locked by its claimer, or it is not locked and not processing;
claims are counted and nothing counts back. -/
theorem OutboxMove.result (move : OutboxMove s a o q) : o.attempts ≤ q.attempts ∧
      ((∃ r, (∀ task ∈ s.tasks, task.router ≠ r) ∧ q.lockedBy = some r ∧ q.status = .processing) ∨
        (q.lockedBy = none ∧ q.status ≠ .processing)) := by
  cases move with
  | @claim r _ _ _ _ _ idle _ => exact ⟨by simp [claimOutboxRow], .inl ⟨r, idle, rfl, rfl⟩⟩
  | advance _ _ written =>
    unfold advanceRoutingSQL at written
    split at written <;> cases written
    exact ⟨le_rfl, .inr ⟨rfl, by simp⟩⟩
  | retire _ written =>
    unfold markOutboxProcessedSQL at written
    split at written <;> cases written
    exact ⟨le_rfl, .inr ⟨rfl, by simp⟩⟩
  | release _ written =>
    unfold releaseOutboxSQL at written
    split at written <;> cases written
    exact ⟨le_rfl, .inr ⟨rfl, by simp⟩⟩
  | park _ written =>
    unfold parkOutboxSQL at written
    split at written <;> cases written
    exact ⟨le_rfl, .inr ⟨rfl, by simp⟩⟩
  | requeue _ _ => exact ⟨le_rfl, .inr ⟨rfl, by simp [requeuedRow]⟩⟩

theorem OutboxMove.unrouted
    (other : ∀ task dir batch minted replied, a ≠ .route task dir batch minted replied)
    (move : OutboxMove s a o q) : q.routingCursor = o.routingCursor ∧ q.status ≠ .processed := by
  cases move with
  | claim _ _ => exact ⟨rfl, by simp [claimOutboxRow]⟩
  | advance _ _ _ => exact absurd rfl (other _ _ _ _ _)
  | retire _ _ => exact absurd rfl (other _ _ _ _ _)
  | release _ written =>
    unfold releaseOutboxSQL at written
    split at written <;> cases written
    exact ⟨rfl, by simp⟩
  | park _ written =>
    unfold parkOutboxSQL at written
    split at written <;> cases written
    exact ⟨rfl, by simp⟩
  | requeue _ _ => exact ⟨rfl, by simp [requeuedRow]⟩

theorem outbox_moves (key : (s.db.outbox.map OutboxRow.id).Nodup) (step : TablesStep s a db) :
    (∃ f, db.outbox = updateWhere f s.db.outbox ∧
        ∀ o ∈ s.db.outbox, ∀ q, f o = some q → OutboxMove s a o q) ∨
      ∃ ev outboxID, a = .createEvent ev outboxID ∧
        insertEvent ev outboxID s.clock s.db = some db := by
  have unmoved : ∃ f, s.db.outbox = updateWhere f s.db.outbox ∧
      ∀ o ∈ s.db.outbox, ∀ q, f o = some q → OutboxMove s a o q :=
    ⟨fun _ => none, (updateWhere_of_rowsAffected_eq_zero (by simp [rowsAffected])).symm,
      fun _ _ _ h => by cases h⟩
  cases step with
  | keep => exact .inl unmoved
  | createEvent inserted => exact .inr ⟨_, _, rfl, inserted⟩
  | claimOutbox idle =>
    refine .inl ⟨_, rfl, ?_⟩
    intro o ho q h
    split at h <;> cases h
    rename_i picked
    exact .claim idle (ready_of_picked key ho picked)
  | route task routed =>
    cases routed with
    | rolledBack _ => exact .inl unmoved
    | continued _ page ends _ _ =>
      refine .inl ⟨_, rfl, fun o _ q h => .advance task ?_ h⟩
      subst page
      have behind := List.mem_of_mem_take (List.mem_of_getLast? ends)
      simpa using (List.mem_filter.mp behind).2
    | finished _ _ _ _ _ => exact .inl ⟨_, rfl, fun o _ q h => .retire task h⟩
  | releaseOutbox task => exact .inl ⟨_, rfl, fun o _ q h => .release task h⟩
  | parkOutbox task _ _ => exact .inl ⟨_, rfl, fun o _ q h => .park task h⟩
  | requeue =>
    refine .inl ⟨_, rfl, ?_⟩
    intro o _ q h
    split at h <;> cases h
    rename_i parked
    exact .requeue parked.1 parked.2
  | deliver _ _ => exact .inl unmoved
  | replay _ => exact .inl unmoved

theorem event_moves (step : TablesStep s a db) : (∃ g, db.events = updateWhere g s.db.events ∧
        ∀ e q, g e = some q → q.toEvent = e.toEvent ∧ e.status ≠ .processed) ∨
      ∃ ev outboxID, a = .createEvent ev outboxID ∧
        insertEvent ev outboxID s.clock s.db = some db := by
  have unmoved : ∃ g, s.db.events = updateWhere g s.db.events ∧
      ∀ e q, g e = some q → q.toEvent = e.toEvent ∧ e.status ≠ .processed :=
    ⟨fun _ => none, (updateWhere_of_rowsAffected_eq_zero (by simp [rowsAffected])).symm,
      fun _ _ h => by cases h⟩
  cases step with
  | keep => exact .inl unmoved
  | createEvent inserted => exact .inr ⟨_, _, rfl, inserted⟩
  | claimOutbox _ =>
    refine .inl ⟨_, rfl, ?_⟩
    intro e q h
    unfold markEventsProcessingSQL at h
    split at h <;> cases h
    rename_i received
    exact ⟨rfl, by rw [received.2]; decide⟩
  | route _ routed =>
    cases routed with
    | rolledBack _ => exact .inl unmoved
    | continued _ _ _ _ _ => exact .inl unmoved
    | finished _ _ _ _ _ =>
      refine .inl ⟨_, rfl, ?_⟩
      intro e q h
      unfold markEventProcessedSQL at h
      split at h <;> cases h
      rename_i unfinished
      exact ⟨rfl, unfinished.2⟩
  | releaseOutbox _ => exact .inl unmoved
  | parkOutbox _ _ events =>
    rcases events with rfl | rfl
    · exact .inl unmoved
    · refine .inl ⟨_, rfl, ?_⟩
      intro e q h
      unfold failEventSQL at h
      split at h <;> cases h
      rename_i unfinished
      exact ⟨rfl, unfinished.2⟩
  | requeue =>
    refine .inl ⟨_, rfl, ?_⟩
    intro e q h
    split at h <;> cases h
    rename_i failed
    exact ⟨rfl, by rw [failed.2]; decide⟩
  | deliver _ _ => exact .inl unmoved
  | replay _ => exact .inl unmoved

end Rows

/-- A goroutine of the next state was there before, with the same row, or has just been
started by a claim that returned its row. -/
theorem next_tasks (h : next opts s a = some t) (ht : task ∈ t.tasks) :
    (∃ old ∈ s.tasks, old.router = task.router ∧ old.row = task.row) ∨
      ∃ limit lease skip, a = .claimOutbox task.router limit lease skip true ∧
        t.db = (ClaimOutbox task.router limit lease s.clock skip s.db).2 ∧
        task.row ∈ (ClaimOutbox task.router limit lease s.clock skip s.db).1 := by
  have stays : task ∈ s.tasks → ∃ old ∈ s.tasks, old.router = task.router ∧ old.row = task.row :=
    fun h => ⟨task, h, rfl, rfl⟩
  cases next_step h with
  | tick _ | createEvent _ | requeue | deliver _ _ | replay _ => exact .inl (stays ht)
  | process held moved | route held moved | routeError held moved | releaseOutbox held moved
  | parkOutbox held moved | abandon held moved => exact .inl (moved.of_mem held ht)
  | @claimOutbox r limit lease skip received _ =>
    cases received with
    | false => exact .inl (stays ht)
    | true =>
      rcases List.mem_append.mp ht with new | old
      · obtain ⟨row, hrow, rfl⟩ := List.mem_map.mp new
        exact .inr ⟨limit, lease, skip, rfl, rfl, hrow⟩
      · exact .inl (stays old)

end Hookubit.Pipeline.Moves
