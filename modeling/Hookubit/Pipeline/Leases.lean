/- sources: router/store.go, router/router.go RunOnce, ingest/store.go CreateEvent
   digest: Keys, the event and outbox pair, and a router that holds a lock holds its own claim. -/

import Hookubit.Pipeline.Moves

set_option autoImplicit false
set_option relaxedAutoImplicit false

namespace Hookubit.Pipeline.Leases

open Automata.LabelledSystem Data.Rows Pipeline.Machine Pipeline.Moves Router.Planning
open Router.Process Router.Store

variable {Id R W : Type}

/-- The primary and foreign keys, with one outbox row for each event. -/
structure Keyed (db : Tables Id R W) : Prop where
  outbox : (db.outbox.map OutboxRow.id).Nodup
  events : (db.events.map fun e => e.id).Nodup
  single : (db.outbox.map OutboxRow.eventID).Nodup
  foreign : ∀ o ∈ db.outbox, ∃ e ∈ db.events, e.id = o.eventID
  covered : ∀ e ∈ db.events, ∃ o ∈ db.outbox, o.eventID = e.id

/-- A row is locked exactly while it is processing; a goroutine whose router holds the lock
has the row in hand as it is, and otherwise has a row that was claimed no later. -/
structure Leased (s : Platform Id R W) : Prop where
  locked : ∀ o ∈ s.db.outbox, o.lockedBy.isSome = true ↔ o.status = .processing
  held : ∀ task ∈ s.tasks, ∀ o ∈ s.db.outbox, o.id = task.row.id →
    o.lockedBy = some task.router → o = task.row
  claimed : ∀ task ∈ s.tasks, ∃ o ∈ s.db.outbox, o.id = task.row.id ∧
    o.eventID = task.row.eventID ∧ task.row.attempts ≤ o.attempts

/-- An event and its outbox row are processed together. -/
def Paired (db : Tables Id R W) : Prop :=
  ∀ o ∈ db.outbox, ∀ e ∈ db.events, e.id = o.eventID →
    (o.status = .processed ↔ e.status = .processed)

variable {db : Tables Id R W}

theorem Keyed.row_eq (keyed : Keyed db) {o q : OutboxRow Id R}
    (ho : o ∈ db.outbox) (hq : q ∈ db.outbox) (same : o.id = q.id) : o = q :=
  List.inj_on_of_nodup_map keyed.outbox ho hq same

theorem Keyed.row_of_event (keyed : Keyed db) {o q : OutboxRow Id R}
    (ho : o ∈ db.outbox) (hq : q ∈ db.outbox) (same : o.eventID = q.eventID) : o = q :=
  List.inj_on_of_nodup_map keyed.single ho hq same

variable [LinearOrder Id] [OrderBot Id] [DecidableEq R] {s : Platform Id R W} {a : Op Id R W}

theorem row_before
    (keyed : Keyed s.db) (step : TablesStep s a db) {q : OutboxRow Id R} (hq : q ∈ db.outbox) :
    (∃ o ∈ s.db.outbox, o = q ∨ OutboxMove s a o q) ∨
      (q.status = .pending ∧ q.lockedBy = none ∧ q.routingCursor = ⊥ ∧
        q.eventID ∉ s.db.events.map fun e => e.id) := by
  rcases outbox_moves keyed.outbox step with ⟨f, moved, moves⟩ | ⟨ev, outboxID, _, inserted⟩
  · rw [moved] at hq
    obtain ⟨o, ho, rfl⟩ := mem_updateWhere.mp hq
    cases hf : f o with
    | none => exact .inl ⟨o, ho, .inl rfl⟩
    | some p => exact .inl ⟨o, ho, .inr (moves o ho p hf)⟩
  · unfold insertEvent at inserted
    split at inserted <;> cases inserted
    rename_i fresh
    rcases List.mem_append.mp hq with old | new
    · exact .inl ⟨q, old, .inl rfl⟩
    · obtain rfl := List.mem_singleton.mp new
      exact .inr ⟨rfl, rfl, rfl, fun h => fresh (.inl h)⟩

theorem row_after (keyed : Keyed s.db) (step : TablesStep s a db) {o : OutboxRow Id R}
    (ho : o ∈ s.db.outbox) : ∃ q ∈ db.outbox, o = q ∨ OutboxMove s a o q := by
  rcases outbox_moves keyed.outbox step with ⟨f, moved, moves⟩ | ⟨ev, outboxID, _, inserted⟩
  · refine ⟨(f o).getD o, moved ▸ mem_updateWhere.mpr ⟨o, ho, rfl⟩, ?_⟩
    cases hf : f o with
    | none => exact .inl rfl
    | some p => exact .inr (moves o ho p hf)
  · unfold insertEvent at inserted
    split at inserted <;> cases inserted
    exact ⟨o, List.mem_append_left _ ho, .inl rfl⟩

theorem event_before (step : TablesStep s a db) {q : EventRow Id} (hq : q ∈ db.events) :
    (∃ e ∈ s.db.events, q.toEvent = e.toEvent ∧ (e.status = .processed → q = e)) ∨
      (q.status = .received ∧ q.id ∉ s.db.events.map fun e => e.id) := by
  rcases event_moves step with ⟨g, moved, moves⟩ | ⟨ev, outboxID, _, inserted⟩
  · rw [moved] at hq
    obtain ⟨e, he, rfl⟩ := mem_updateWhere.mp hq
    refine .inl ⟨e, he, ?_⟩
    cases hg : g e with
    | none => exact ⟨rfl, fun _ => rfl⟩
    | some p => exact ⟨(moves e p hg).1, fun done => absurd done (moves e p hg).2⟩
  · unfold insertEvent at inserted
    split at inserted <;> cases inserted
    rename_i fresh
    rcases List.mem_append.mp hq with old | new
    · exact .inl ⟨q, old, rfl, fun _ => rfl⟩
    · obtain rfl := List.mem_singleton.mp new
      exact .inr ⟨rfl, fun h => fresh (.inl h)⟩

theorem event_after (step : TablesStep s a db) {e : EventRow Id} (he : e ∈ s.db.events) :
    ∃ q ∈ db.events, q.toEvent = e.toEvent ∧ (e.status = .processed → q = e) := by
  rcases event_moves step with ⟨g, moved, moves⟩ | ⟨ev, outboxID, _, inserted⟩
  · refine ⟨(g e).getD e, moved ▸ mem_updateWhere.mpr ⟨e, he, rfl⟩, ?_⟩
    cases hg : g e with
    | none => exact ⟨rfl, fun _ => rfl⟩
    | some p => exact ⟨(moves e p hg).1, fun done => absurd done (moves e p hg).2⟩
  · unfold insertEvent at inserted
    split at inserted <;> cases inserted
    exact ⟨e, List.mem_append_left _ he, rfl, fun _ => rfl⟩

omit [DecidableEq R] in
theorem keyed_insertEvent {ev : Event Id} {outboxID : Id} {now : ℤ} {db db' : Tables Id R W}
    (keyed : Keyed db) (inserted : insertEvent ev outboxID now db = some db') : Keyed db' := by
  unfold insertEvent at inserted
  split at inserted <;> cases inserted
  rename_i fresh
  rw [not_or] at fresh
  -- A row of the new event would already have needed that event.
  have unused : ev.id ∉ db.outbox.map OutboxRow.eventID := fun used => by
    obtain ⟨o, ho, same⟩ := List.mem_map.mp used
    obtain ⟨e, he, key⟩ := keyed.foreign o ho
    exact fresh.1 (List.mem_map.mpr ⟨e, he, key.trans same⟩)
  refine ⟨?_, ?_, ?_, ?_, ?_⟩
  · simpa using keyed.outbox.concat fresh.2
  · simpa using keyed.events.concat fresh.1
  · simpa using keyed.single.concat unused
  · intro o ho
    rcases List.mem_append.mp ho with old | new
    · obtain ⟨e, he, key⟩ := keyed.foreign o old
      exact ⟨e, List.mem_append_left _ he, key⟩
    · obtain rfl := List.mem_singleton.mp new
      exact ⟨_, List.mem_append_right _ (List.mem_singleton.mpr rfl), rfl⟩
  · intro e he
    rcases List.mem_append.mp he with old | new
    · obtain ⟨o, ho, key⟩ := keyed.covered e old
      exact ⟨o, List.mem_append_left _ ho, key⟩
    · obtain rfl := List.mem_singleton.mp new
      exact ⟨_, List.mem_append_right _ (List.mem_singleton.mpr rfl), rfl⟩

theorem keyed_step (keyed : Keyed s.db) (step : TablesStep s a db) : Keyed db := by
  rcases outbox_moves keyed.outbox step with ⟨f, moved, moves⟩ | ⟨_, _, _, inserted⟩
  · rcases event_moves step with ⟨g, renewed, renews⟩ | ⟨_, _, _, inserted⟩
    · have same_row : ∀ o ∈ s.db.outbox, ((f o).getD o).eventID = o.eventID := fun o ho => by
        cases h : f o with
        | none => rfl
        | some q => exact (moves o ho q h).guard.2.1
      have same_event : ∀ e, ((g e).getD e).id = e.id := fun e => by
        cases h : g e with
        | none => rfl
        | some q => exact congrArg Event.id (renews e q h).1
      refine ⟨?_, ?_, ?_, ?_, ?_⟩
      · rw [moved, map_updateWhere fun o ho q h => (moves o ho q h).guard.1]
        exact keyed.outbox
      · rw [renewed, map_updateWhere fun e _ q h => congrArg Event.id (renews e q h).1]
        exact keyed.events
      · rw [moved, map_updateWhere fun o ho q h => (moves o ho q h).guard.2.1]
        exact keyed.single
      · intro q hq
        obtain ⟨o, ho, rfl⟩ := mem_updateWhere.mp (moved ▸ hq)
        obtain ⟨e, he, key⟩ := keyed.foreign o ho
        exact ⟨_, renewed ▸ mem_updateWhere.mpr ⟨e, he, rfl⟩,
          (same_event e).trans (key.trans (same_row o ho).symm)⟩
      · intro q hq
        obtain ⟨e, he, rfl⟩ := mem_updateWhere.mp (renewed ▸ hq)
        obtain ⟨o, ho, key⟩ := keyed.covered e he
        exact ⟨_, moved ▸ mem_updateWhere.mpr ⟨o, ho, rfl⟩,
          (same_row o ho).trans (key.trans (same_event e).symm)⟩
    · exact keyed_insertEvent keyed inserted
  · exact keyed_insertEvent keyed inserted

theorem no_move_of_processed {o q : OutboxRow Id R}
    (leased : Leased s) (ho : o ∈ s.db.outbox) (done : o.status = .processed) :
    ¬ OutboxMove s a o q := fun move => by
  rcases move.guard.2.2 with ⟨ready, _⟩ | ⟨task, _, _, lock⟩ | ⟨parked, _⟩
  · simp [outboxReady, done] at ready
  · have := (leased.locked o ho).mp (by rw [lock]; rfl)
    rw [done] at this
    cases this
  · rw [done] at parked
    cases parked

/-- The step that ends an event: its outbox row is retired in the same transaction. -/
def Ends (s : Platform Id R W) (task : Task Id R) (db : Tables Id R W) : Prop :=
  0 < rowsAffected (markOutboxProcessedSQL task.row.id task.router s.clock) s.db.outbox ∧
    db.outbox = updateWhere (markOutboxProcessedSQL task.row.id task.router s.clock) s.db.outbox ∧
    db.events = updateWhere (markEventProcessedSQL task.row.eventID s.clock) s.db.events

theorem ends_or_old (step : TablesStep s a db) : (∃ task ∈ s.tasks, Ends s task db) ∨
      (∀ q ∈ db.outbox, q.status = .processed → q ∈ s.db.outbox) ∧
        ∀ q ∈ db.events, q.status = .processed → q ∈ s.db.events := by
  cases step with
  | keep => exact .inr ⟨fun _ h _ => h, fun _ h _ => h⟩
  | createEvent inserted =>
    unfold insertEvent at inserted
    split at inserted <;> cases inserted
    refine .inr ⟨fun q hq done => ?_, fun q hq done => ?_⟩
    · rcases List.mem_append.mp hq with old | new
      · exact old
      · obtain rfl := List.mem_singleton.mp new
        cases done
    · rcases List.mem_append.mp hq with old | new
      · exact old
      · obtain rfl := List.mem_singleton.mp new
        cases done
  | claimOutbox _ =>
    refine .inr ⟨mem_of_mem_updateWhere fun o q h => ?_, mem_of_mem_updateWhere fun e q h => ?_⟩
    · split at h <;> cases h
      simp [claimOutboxRow]
    · unfold markEventsProcessingSQL at h
      split at h <;> cases h
      simp
  | route ht routed =>
    cases routed with
    | rolledBack _ => exact .inr ⟨fun _ h _ => h, fun _ h _ => h⟩
    | continued _ _ _ _ _ =>
      refine .inr ⟨mem_of_mem_updateWhere fun o q h => ?_, fun _ h _ => h⟩
      unfold advanceRoutingSQL at h
      split at h <;> cases h
      simp
    | finished _ found _ _ held =>
      have key := List.find?_some found
      rw [decide_eq_true_iff] at key
      exact .inl ⟨_, ht, held, rfl, by rw [key]⟩
  | releaseOutbox _ =>
    refine .inr ⟨mem_of_mem_updateWhere fun o q h => ?_, fun _ h _ => h⟩
    unfold releaseOutboxSQL at h
    split at h <;> cases h
    simp
  | parkOutbox _ _ events =>
    refine .inr ⟨mem_of_mem_updateWhere fun o q h => ?_, ?_⟩
    · unfold parkOutboxSQL at h
      split at h <;> cases h
      simp
    · rcases events with rfl | rfl
      · intro _ h _
        exact h
      · apply mem_of_mem_updateWhere
        intro e q h
        unfold failEventSQL at h
        split at h <;> cases h
        simp
  | requeue =>
    refine .inr ⟨mem_of_mem_updateWhere fun o q h => ?_, mem_of_mem_updateWhere fun e q h => ?_⟩
    · split at h <;> cases h
      simp [requeuedRow]
    · split at h <;> cases h
      simp
  | deliver _ _ => exact .inr ⟨fun _ h _ => h, fun _ h _ => h⟩
  | replay _ => exact .inr ⟨fun _ h _ => h, fun _ h _ => h⟩

omit [OrderBot Id] in
theorem paired_ends {task : Task Id R}
    (keyed : Keyed s.db) (leased : Leased s) (paired : Paired s.db) (ht : task ∈ s.tasks)
    (ends : Ends s task db) : Paired db := by
  obtain ⟨held, outbox, events⟩ := ends
  intro q hq e' he' key
  obtain ⟨o, ho, rfl⟩ := mem_updateWhere.mp (outbox ▸ hq)
  obtain ⟨e, he, rfl⟩ := mem_updateWhere.mp (events ▸ he')
  rw [(getD_markOutboxProcessedSQL _ _ _ o).1, (getD_markEventProcessedSQL _ _ e).1] at key
  rw [(getD_markOutboxProcessedSQL _ _ _ o).2, (getD_markEventProcessedSQL _ _ e).2,
    paired o ho e he key]
  refine or_congr_left ⟨fun mine => ?_, fun same => ?_⟩
  · rw [key, leased.held task ht o ho mine.1 mine.2]
  · -- The retired row is the only one of its event.
    obtain ⟨p, hp, matched⟩ := rowsAffected_pos.mp held
    unfold markOutboxProcessedSQL at matched
    split at matched
    · rename_i mine
      have row := leased.held task ht p hp mine.1 mine.2
      rw [← keyed.row_of_event hp ho (by rw [row, ← same, key])]
      exact mine
    · cases matched

theorem paired_step
    (keyed : Keyed s.db) (leased : Leased s) (paired : Paired s.db) (step : TablesStep s a db) :
    Paired db := by
  rcases ends_or_old step with ⟨task, ht, ends⟩ | ⟨old_row, old_event⟩
  · exact paired_ends keyed leased paired ht ends
  intro q hq e' he' key
  constructor
  · intro done
    have hq' := old_row q hq done
    rcases event_before step he' with ⟨e, he, same, fixed⟩ | ⟨_, fresh⟩
    · have processed := (paired q hq' e he (same ▸ key)).mp done
      rwa [fixed processed]
    · obtain ⟨e, he, key'⟩ := keyed.foreign q hq'
      exact absurd (List.mem_map.mpr ⟨e, he, key'.trans key.symm⟩) fresh
  · intro done
    have he := old_event e' he' done
    rcases row_before keyed step hq with ⟨o, ho, rfl | move⟩ | ⟨_, _, _, fresh⟩
    · exact (paired o ho e' he key).mpr done
    · have processed := (paired o ho e' he (key.trans move.guard.2.1)).mpr done
      exact absurd move (no_move_of_processed leased ho processed)
    · exact absurd (List.mem_map.mpr ⟨e', he, key⟩) fresh

variable [DecidableEq W]

theorem leased_step {opts : R → Options} {s t : Platform Id R W}
    (keyed : Keyed s.db) (leased : Leased s) (h : next opts s a = some t) : Leased t := by
  have step := next_tables h
  have keyed' := keyed_step keyed step
  refine ⟨?_, ?_, ?_⟩
  · intro q hq
    rcases row_before keyed step hq with ⟨o, ho, rfl | move⟩ | ⟨pending, unlocked, _⟩
    · exact leased.locked o ho
    · rcases move.result.2 with ⟨r, _, lock, status⟩ | ⟨lock, status⟩
      · simp [lock, status]
      · simp [lock, status]
    · simp [pending, unlocked]
  · intro task ht q hq same lock
    rcases next_tasks h ht with ⟨old, hold, router, row⟩ | ⟨limit, lease, skip, _, hdb, claimed⟩
    · rw [← row] at same ⊢
      rw [← router] at lock
      rcases row_before keyed step hq with ⟨o, ho, rfl | move⟩ | ⟨_, unlocked, _⟩
      · exact leased.held old hold o ho same lock
      · -- Only a claim locks, and this router does not claim while it has goroutines.
        rcases move.result.2 with ⟨r, idle, lock', _⟩ | ⟨unlocked, _⟩
        · cases lock'.symm.trans lock
          exact absurd rfl (idle old hold)
        · cases unlocked.symm.trans lock
      · cases unlocked.symm.trans lock
    · have inside := (of_mem_claimOutbox keyed.outbox claimed).1
      exact keyed'.row_eq hq (hdb ▸ inside) same
  · intro task ht
    rcases next_tasks h ht with ⟨old, hold, router, row⟩ | ⟨limit, lease, skip, _, hdb, claimed⟩
    · obtain ⟨o, ho, id, event, attempts⟩ := leased.claimed old hold
      obtain ⟨q, hq, rfl | move⟩ := row_after keyed step ho
      · exact ⟨o, hq, row ▸ id, row ▸ event, row ▸ attempts⟩
      · exact ⟨q, hq, move.guard.1.trans (row ▸ id), move.guard.2.1.trans (row ▸ event),
          (row ▸ attempts).trans move.result.1⟩
    · exact ⟨task.row, hdb ▸ (of_mem_claimOutbox keyed.outbox claimed).1, rfl, rfl, le_rfl⟩

/-- What holds of the outbox and the events in every state of the platform. -/
structure Sound (s : Platform Id R W) : Prop where
  keyed : Keyed s.db
  leased : Leased s
  paired : Paired s.db

omit [LinearOrder Id] [OrderBot Id] [DecidableEq R] [DecidableEq W] in
theorem sound_empty (start : Empty s) : Sound s := by
  obtain ⟨clock, db, tasks⟩ := s
  obtain ⟨rfl, rfl⟩ : db = _ ∧ tasks = _ := start
  exact ⟨⟨by simp, by simp, by simp, by simp, by simp⟩, ⟨by simp, by simp, by simp⟩,
    by simp [Paired]⟩

theorem sound_step {opts : R → Options} {s t : Platform Id R W} (sound : Sound s)
    (h : next opts s a = some t) : Sound t :=
  ⟨keyed_step sound.keyed (next_tables h), leased_step sound.keyed sound.leased h,
    paired_step sound.keyed sound.leased sound.paired (next_tables h)⟩

theorem sound_of_reachable {opts : R → Options}
    (reach : Reachable (pipeline opts) s) : Sound s := by
  refine reach.invariant (I := Sound) ?_ ?_
  · intro _ start
    exact sound_empty start
  · intro _ _ _ sound edge
    exact sound_step sound edge

end Hookubit.Pipeline.Leases
