/- sources: router/store.go (Route, ReleaseOutbox, ParkOutbox, claimOutboxSQL),
     outbox.service.ts returnToQueue
   digest: What runs never undo in events and outbox rows, lost leases, and parked rows. -/

import Hookubit.Pipeline.Leases

set_option autoImplicit false
set_option relaxedAutoImplicit false

namespace Hookubit.Pipeline.Lifecycle

open Automata.LabelledSystem Data.Rows Pipeline.Leases Pipeline.Machine Pipeline.Moves
open Postgres.Clock Router.Process Router.Store

variable {Id R W : Type} [LinearOrder Id]

/-- What a later state owes an earlier one: processed rows as they were, and every outbox row
with its cursor and its claim counter no lower. -/
structure Onward (s t : Platform Id R W) : Prop where
  events : ∀ e ∈ s.db.events, e.status = .processed → e ∈ t.db.events
  retired : ∀ o ∈ s.db.outbox, o.status = .processed → o ∈ t.db.outbox
  rows : ∀ o ∈ s.db.outbox, ∃ q ∈ t.db.outbox, q.id = o.id ∧
    o.routingCursor ≤ q.routingCursor ∧ o.attempts ≤ q.attempts

theorem Onward.refl (s : Platform Id R W) : Onward s s :=
  ⟨fun _ he _ => he, fun _ ho _ => ho, fun o ho => ⟨o, ho, rfl, le_rfl, le_rfl⟩⟩

theorem Onward.trans {s t w : Platform Id R W} (h : Onward s t) (g : Onward t w) : Onward s w := by
  refine ⟨fun e he done => g.events e (h.events e he done) done,
    fun o ho done => g.retired o (h.retired o ho done) done, fun o ho => ?_⟩
  obtain ⟨q, hq, id, cursor, attempts⟩ := h.rows o ho
  obtain ⟨p, hp, id', cursor', attempts'⟩ := g.rows q hq
  exact ⟨p, hp, id'.trans id, cursor.trans cursor', attempts.trans attempts'⟩

variable [OrderBot Id] [DecidableEq R]

theorem cursor_le_of_move {s : Platform Id R W} {a : Op Id R W} {o q : OutboxRow Id R}
    (leased : Leased s) (ho : o ∈ s.db.outbox) (move : OutboxMove s a o q) :
    o.routingCursor ≤ q.routingCursor := by
  cases move with
  | claim _ _ => exact le_rfl
  | advance ht ahead written =>
    unfold advanceRoutingSQL at written
    split at written <;> cases written
    rename_i mine
    -- The cursor lies ahead of the one the router was given, which is still the row's own.
    rw [leased.held _ ht o ho mine.1 mine.2]
    exact ahead.le
  | retire _ written =>
    unfold markOutboxProcessedSQL at written
    split at written <;> cases written
    exact le_rfl
  | release _ written =>
    unfold releaseOutboxSQL at written
    split at written <;> cases written
    exact le_rfl
  | park _ written =>
    unfold parkOutboxSQL at written
    split at written <;> cases written
    exact le_rfl
  | requeue _ _ => exact le_rfl

/-- What is done on behalf of one claim. -/
inductive WritesFor (task : Task Id R) : Op Id R W → Prop
  | route (dir : Directory Id) (batch : ℤ) (minted : List Id) (replied : Bool) :
      WritesFor task (.route task dir batch minted replied)
  | releaseOutbox (retryAfter : ℤ) : WritesFor task (.releaseOutbox task retryAfter)
  | parkOutbox : WritesFor task (.parkOutbox task)

variable [DecidableEq W] {s t : Platform Id R W}

theorem onward_step {opts : R → Options} {a : Op Id R W}
    (sound : Sound s) (h : next opts s a = some t) : Onward s t := by
  have step := next_tables h
  refine ⟨?_, ?_, ?_⟩
  · intro e he done
    obtain ⟨q, hq, _, fixed⟩ := event_after step he
    exact fixed done ▸ hq
  · intro o ho done
    obtain ⟨q, hq, rfl | move⟩ := row_after sound.keyed step ho
    · exact hq
    · exact absurd move (no_move_of_processed sound.leased ho done)
  · intro o ho
    obtain ⟨q, hq, rfl | move⟩ := row_after sound.keyed step ho
    · exact ⟨o, hq, rfl, le_rfl, le_rfl⟩
    · exact ⟨q, hq, move.guard.1, cursor_le_of_move sound.leased ho move, move.result.1⟩

theorem onward_run {opts : R → Options} {l : List (Op Id R W)}
    (sound : Sound s) (run : Run (pipeline opts) s l t) : Onward s t :=
  run.relates (I := Sound) Onward.refl (fun _ _ _ => Onward.trans)
    (fun _ _ _ sound edge => sound_step sound edge) (fun _ _ _ sound edge => onward_step sound edge)
    sound

/-- Between the two states some router has claimed the row anew. -/
def TakenSince (opts : R → Options) (s : Platform Id R W) (row : OutboxRow Id R)
    (t : Platform Id R W) : Prop :=
  ∃ l₁ m r limit lease skip received m' l₂, Run (pipeline opts) s l₁ m ∧
    next opts m (.claimOutbox r limit lease skip received) = some m' ∧
    (∃ q ∈ (ClaimOutbox r limit lease m.clock skip m.db).1, q.id = row.id) ∧
    Run (pipeline opts) m' l₂ t

/-- The claim counter tells: it has passed the count that the old claim returned. -/
theorem attempts_lt_of_takenSince {opts : R → Options} {task : Task Id R}
    (sound : Sound s) (ht : task ∈ s.tasks) (taken : TakenSince opts s task.row t) :
    ∃ o ∈ t.db.outbox, o.id = task.row.id ∧ task.row.attempts < o.attempts := by
  obtain ⟨l₁, m, r, limit, lease, skip, received, m', l₂, before, edge, ⟨q, hq, id⟩, after⟩ := taken
  have sound_m : Sound m := before.keeps (I := Sound) (P := Sound)
    (fun _ _ _ sound edge => sound_step sound edge)
      (fun _ _ _ sound _ edge => sound_step sound edge)
    sound sound
  obtain ⟨o, ho, id_o, _, claimed⟩ := sound.leased.claimed task ht
  obtain ⟨p, hp, id_p, _, grown⟩ := (onward_run sound before).rows o ho
  obtain ⟨inside, p', hp', _, rfl⟩ := of_mem_claimOutbox sound_m.keyed.outbox hq
  obtain rfl : p' = p := sound_m.keyed.row_eq hp' hp (id.trans (id_o.symm.trans id_p.symm))
  have hm' : claimOutboxRow r lease m.clock p' ∈ m'.db.outbox := by
    simp only [next] at edge
    split at edge <;> cases edge
    exact inside
  obtain ⟨u, hu, id_u, _, kept⟩ := (onward_run (sound_step sound_m edge) after).rows _ hm'
  refine ⟨u, hu, id_u.trans id, ?_⟩
  simp only [claimOutboxRow] at kept
  omega

omit [DecidableEq W] in
/-- A write of a claim that is no longer the row's latest matches nothing. -/
theorem lost_lease_writes_nothing {s : Platform Id R W} {a : Op Id R W} {db : Tables Id R W}
    {task : Task Id R} (sound : Sound s) (ht : task ∈ s.tasks) {o : OutboxRow Id R}
    (ho : o ∈ s.db.outbox) (id : o.id = task.row.id) (later : task.row.attempts < o.attempts)
    (writes : WritesFor task a) (step : TablesStep s a db) : db = s.db := by
  have missed : ∀ p ∈ s.db.outbox, ¬ (p.id = task.row.id ∧ p.lockedBy = some task.router) := by
    rintro p hp ⟨same, lock⟩
    have row := sound.leased.held task ht p hp same lock
    obtain rfl := sound.keyed.row_eq ho hp (id.trans same.symm)
    exact absurd (congrArg OutboxRow.attempts row) later.ne'
  have unhit : ∀ {f : OutboxRow Id R → Option (OutboxRow Id R)},
      (∀ p, ¬ (p.id = task.row.id ∧ p.lockedBy = some task.router) → f p = none) →
      rowsAffected f s.db.outbox = 0 := fun guarded =>
    List.countP_eq_zero.mpr fun p hp => by simp [guarded p (missed p hp)]
  cases writes with
  | route dir batch minted replied =>
    cases step with
    | keep => rfl
    | route _ routed =>
      cases routed with
      | rolledBack _ => rfl
      | continued _ _ _ _ held => exact absurd (unhit fun p hp => if_neg hp) held.ne'
      | finished _ _ _ _ held => exact absurd (unhit fun p hp => if_neg hp) held.ne'
    | deliver byWorker _ => cases byWorker
  | releaseOutbox retryAfter =>
    cases step with
    | keep => rfl
    | @releaseOutbox _ _ wait _ =>
      have none_released := updateWhere_of_rowsAffected_eq_zero
        (unhit (f := releaseOutboxSQL task.row.id task.router wait s.clock) fun p hp => if_neg hp)
      simp only [none_released]
    | deliver byWorker _ => cases byWorker
  | parkOutbox =>
    cases step with
    | keep => rfl
    | parkOutbox _ held _ => exact absurd (unhit fun p hp => if_neg hp) held.ne'
    | deliver byWorker _ => cases byWorker

section Parked

variable {opts : R → Options} {s t : Platform Id R W} {l : List (Op Id R W)} {o : OutboxRow Id R}

theorem parked_run (sound : Sound s) (run : Run (pipeline opts) s l t) (ho : o ∈ s.db.outbox)
    (parked : o.status = .failed)
    (left_alone : ∀ ids apiNow, Op.requeue ids apiNow ∈ l → o.id ∉ ids) : o ∈ t.db.outbox := by
  refine run.keeps_labels (I := Sound) (P := fun s => o ∈ s.db.outbox)
    (A := fun a => ∀ ids apiNow, a = .requeue ids apiNow → o.id ∉ ids)
    (fun _ _ _ sound edge => sound_step sound edge) ?_
    (fun a ha ids apiNow h => left_alone ids apiNow (h ▸ ha)) sound ho
  intro s a t sound ho quiet edge
  obtain ⟨q, hq, rfl | move⟩ := row_after sound.keyed (next_tables edge) ho
  · exact hq
  · rcases move.guard.2.2 with ⟨ready, _⟩ | ⟨task, _, _, lock⟩ | ⟨_, ids, apiNow, rfl, inside, _⟩
    · simp [outboxReady, parked] at ready
    · have processing := (sound.leased.locked o ho).mp (by rw [lock]; rfl)
      rw [parked] at processing
      cases processing
    · exact absurd inside (quiet ids apiNow rfl)

theorem parked_cursor_run (sound : Sound s) (run : Run (pipeline opts) s l t)
    (ho : o ∈ s.db.outbox) (parked : o.status = .failed) :
    ∃ q ∈ t.db.outbox, q.id = o.id ∧ (o.attempts < q.attempts ∨
      q.attempts = o.attempts ∧ q.routingCursor = o.routingCursor ∧ q.lockedBy = none) := by
  have unlocked : o.lockedBy = none := by
    have := mt (sound.leased.locked o ho).mp (by rw [parked]; decide)
    simpa using this
  refine run.keeps (I := Sound) (P := fun t => ∃ q ∈ t.db.outbox, q.id = o.id ∧
      (o.attempts < q.attempts ∨
        q.attempts = o.attempts ∧ q.routingCursor = o.routingCursor ∧ q.lockedBy = none))
    (fun _ _ _ sound edge => sound_step sound edge) ?_ sound
    ⟨o, ho, rfl, .inr ⟨rfl, rfl, unlocked⟩⟩
  rintro s a t sound ⟨q, hq, id, kept⟩ edge
  obtain ⟨p, hp, rfl | move⟩ := row_after sound.keyed (next_tables edge) hq
  · exact ⟨q, hp, id, kept⟩
  refine ⟨p, hp, move.guard.1.trans id, ?_⟩
  have counted := move.result.1
  rcases kept with claimed | ⟨attempts, cursor, unlocked⟩
  · exact .inl (claimed.trans_le counted)
  · rcases move.guard.2.2 with ⟨_, claimed⟩ | ⟨_, _, _, lock⟩ | ⟨_, _, _, _, _, rfl⟩
    · exact .inl (by omega)
    · rw [unlocked] at lock
      cases lock
    · exact .inr ⟨attempts, cursor, rfl⟩

theorem queued_run (sound : Sound s) (run : Run (pipeline opts) s l t) (ho : o ∈ s.db.outbox)
    (pending : o.status = .pending) :
    o ∈ t.db.outbox ∨ ∃ q ∈ t.db.outbox, q.id = o.id ∧ o.attempts < q.attempts := by
  refine run.keeps (I := Sound) (P := fun t => o ∈ t.db.outbox ∨
      ∃ q ∈ t.db.outbox, q.id = o.id ∧ o.attempts < q.attempts)
    (fun _ _ _ sound edge => sound_step sound edge) ?_ sound (.inl ho)
  rintro s a t sound (waiting | ⟨q, hq, id, claimed⟩) edge
  · obtain ⟨q, hq, rfl | move⟩ := row_after sound.keyed (next_tables edge) waiting
    · exact .inl hq
    · -- Without a lock and not parked, the row can only be claimed.
      rcases move.guard.2.2 with ⟨_, claimed⟩ | ⟨_, _, _, lock⟩ | ⟨parked, _⟩
      · exact .inr ⟨q, hq, move.guard.1, by omega⟩
      · have processing := (sound.leased.locked o waiting).mp (by rw [lock]; rfl)
        rw [pending] at processing
        cases processing
      · rw [pending] at parked
        cases parked
  · obtain ⟨p, hp, rfl | move⟩ := row_after sound.keyed (next_tables edge) hq
    · exact .inr ⟨q, hp, id, claimed⟩
    · exact .inr ⟨p, hp, move.guard.1.trans id, claimed.trans_le move.result.1⟩

/-- The row is back in the queue with its cursor, stays there until it is claimed, and from its
`available_at` on a wide claim that meets no row lock returns it. -/
def Resumes (opts : R → Options) (apiNow : ℤ) (o : OutboxRow Id R) (s : Platform Id R W) : Prop :=
  ∃ q ∈ s.db.outbox, q.id = o.id ∧ q.status = .pending ∧ q.routingCursor = o.routingCursor ∧
    q.availableAt = timestamp3 apiNow ∧ ∀ l t, Run (pipeline opts) s l t →
      (q ∈ t.db.outbox ∨ ∃ p ∈ t.db.outbox, p.id = o.id ∧ o.attempts < p.attempts) ∧
      (q ∈ t.db.outbox → q.availableAt ≤ t.clock →
        ∀ r limit lease, t.db.outbox.length ≤ limit → claimOutboxRow r lease t.clock q ∈
          (ClaimOutbox r limit lease t.clock (fun _ => false) t.db).1)

theorem resumes_of_requeue {ids : List Id} {apiNow : ℤ} (sound : Sound s) (ho : o ∈ s.db.outbox)
    (parked : o.status = .failed) (named : o.id ∈ ids)
    (edge : next opts s (.requeue ids apiNow) = some t) : Resumes opts apiNow o t := by
  have sound_t : Sound t := sound_step sound edge
  have queued : requeuedRow apiNow o ∈ t.db.outbox := by
    cases edge
    exact mem_updateWhere_ite.mpr (.inr ⟨o, ho, ⟨named, parked⟩, rfl⟩)
  refine ⟨_, queued, rfl, rfl, rfl, rfl, fun l u run => ⟨queued_run sound_t run queued rfl, ?_⟩⟩
  intro waiting due r limit lease wide
  have ready : outboxReady u.clock (requeuedRow apiNow o) = true := by
    rw [outboxReady, decide_eq_true due]
    rfl
  exact mem_claimOutbox wide waiting ready

end Parked

/-- Along every run: what is processed stays as it is and no cursor or claim counter falls
back; once a row has been claimed anew, the writes of the older claim change no table; a
parked row is not claimed without a requeue, which makes it claimable again, and its next claim
hands out its cursor. -/
theorem event_and_outbox_lifecycle (opts : R → Options)
    {l : List (Op Id R W)} (reach : Reachable (pipeline opts) s)
    (run : Run (pipeline opts) s l t) :
    Onward s t ∧
    (∀ task ∈ s.tasks, TakenSince opts s task.row t →
      ∀ late ∈ t.tasks, late.router = task.router → late.row = task.row →
        ∀ a u, WritesFor late a → next opts t a = some u → u.db = t.db) ∧
    ∀ o ∈ s.db.outbox, o.status = .failed →
      ((∀ ids apiNow, Op.requeue ids apiNow ∈ l → o.id ∉ ids) → o ∈ t.db.outbox ∧
        ∀ r limit lease skip, ∀ q ∈ (ClaimOutbox r limit lease t.clock skip t.db).1,
          q.id ≠ o.id) ∧
      (∀ ids apiNow u, o.id ∈ ids → next opts s (.requeue ids apiNow) = some u →
        Resumes opts apiNow o u) ∧
      ∀ r limit lease skip, ∀ q ∈ (ClaimOutbox r limit lease t.clock skip t.db).1,
        q.id = o.id → q.attempts = o.attempts + 1 → q.routingCursor = o.routingCursor := by
  have sound := sound_of_reachable reach
  have sound_t := sound_of_reachable (reach.run run)
  refine ⟨onward_run sound run, ?_, fun o ho parked => ⟨fun left_alone => ?_, ?_, ?_⟩⟩
  · intro task ht taken late hlate router row a u writes edge
    obtain ⟨o, ho, id, later⟩ := attempts_lt_of_takenSince sound ht taken
    rw [← row] at id later
    exact lost_lease_writes_nothing sound_t hlate ho id later writes (next_tables edge)
  · have kept := parked_run sound run ho parked left_alone
    refine ⟨kept, ?_⟩
    intro r limit lease skip q hq same
    obtain ⟨_, p, hp, ready, rfl⟩ := of_mem_claimOutbox sound_t.keyed.outbox hq
    obtain rfl := sound_t.keyed.row_eq hp kept same
    simp [outboxReady, parked] at ready
  · intro ids apiNow u named edge
    exact resumes_of_requeue sound ho parked named edge
  · intro r limit lease skip q hq same first
    obtain ⟨p, hp, id, kept⟩ := parked_cursor_run sound run ho parked
    obtain ⟨_, p', hp', _, rfl⟩ := of_mem_claimOutbox sound_t.keyed.outbox hq
    obtain rfl := sound_t.keyed.row_eq hp' hp (Eq.trans same id.symm)
    simp only [claimOutboxRow] at first ⊢
    rcases kept with claimed | ⟨_, cursor, _⟩
    · omega
    · exact cursor

/-- Router 7 routes a batch, claims again and stalls past its lease; router 8 claims and parks the
row. What router 7 then routes changes nothing, and a requeue takes up behind the batch. -/
theorem stalled_router_writes_nothing :
    let opts : ℕ → Options := fun _ => ⟨1, 0⟩
    ∃ s t u p v : Platform ℕ ℕ ℕ, Reachable (pipeline opts) s ∧
      next opts t (.route ⟨7, claimedRow 7 2 2, .routing⟩ twoEndpoints 2 [103] true) = some u ∧
      s.db.outbox.map OutboxRow.lockedBy = [some 7] ∧
      t.db.outbox.map OutboxRow.lockedBy = [some 8] ∧ u.db = t.db ∧
      next opts p (.requeue [1] hour) = some v ∧
      ∃ o ∈ p.db.outbox, o.status = .failed ∧ o.routingCursor = 2 ∧ Resumes opts hour o v := by
  intro opts
  let late : OutboxRow ℕ ℕ := claimOutboxRow 8 minute (2 * minute) (claimedRow 7 2 2)
  obtain ⟨s, m, t, u, p, v, before, stall, claim, route, park, requeue, mine, his, task, stale,
      row, o, ho, parked, id, cursor⟩ :
      ∃ s m t u p v, execute (next opts) emptyPlatform
          (firstBatch ++ [.claimOutbox 7 10 minute (fun _ => false) true]) = some s ∧
        execute (next opts) s
          [.process ⟨7, claimedRow 7 2 2, .claimed⟩ 0, .tick (2 * minute)] = some m ∧
        next opts m (.claimOutbox 8 10 minute (fun _ => false) true) = some t ∧
        next opts t (.route ⟨7, claimedRow 7 2 2, .routing⟩ twoEndpoints 2 [103] true) = some u ∧
        execute (next opts) u
          [.process ⟨8, late, .claimed⟩ 0, .parkOutbox ⟨8, late, .parking .attemptsExhausted⟩] =
            some p ∧
        next opts p (.requeue [1] hour) = some v ∧
        s.db.outbox.map OutboxRow.lockedBy = [some 7] ∧
        t.db.outbox.map OutboxRow.lockedBy = [some 8] ∧
        ⟨7, claimedRow 7 2 2, .claimed⟩ ∈ s.tasks ∧ ⟨7, claimedRow 7 2 2, .routing⟩ ∈ t.tasks ∧
        (∃ q ∈ (ClaimOutbox 8 10 minute m.clock (fun _ => false) m.db).1, q.id = 1) ∧
        ∃ o ∈ p.db.outbox, o.status = .failed ∧ o.id = 1 ∧ o.routingCursor = 2 :=
    ⟨_, _, _, _, _, _, rfl, rfl, rfl, rfl, rfl, rfl, rfl, rfl, by decide, by decide, by decide,
      by decide⟩
  have reach : Reachable (pipeline opts) s := reachable_of_execute empty_emptyPlatform before
  have stalled : Run (pipeline opts) s _ m := run_of_execute stall
  have claimed : Run (pipeline opts) m _ t := .single claim
  have routed : Run (pipeline opts) t _ u := .single route
  have finished : Run (pipeline opts) u _ p := run_of_execute park
  have taken : TakenSince opts s (claimedRow 7 2 2) t :=
    ⟨_, m, 8, 10, minute, _, true, t, [], stalled, claim, row, .nil t⟩
  have reach_p : Reachable (pipeline opts) p :=
    (((reach.run stalled).run claimed).run routed).run finished
  refine ⟨s, t, u, p, v, reach, route, mine, his, ?_, requeue, o, ho, parked, cursor, ?_⟩
  · exact (event_and_outbox_lifecycle opts reach (stalled.append claimed)).2.1 _ task taken _
      stale rfl rfl _ u (.route _ _ _ _) route
  · have named : o.id ∈ [1] := by simp [id]
    exact ((event_and_outbox_lifecycle opts reach_p (.nil p)).2.2 o ho parked).2.1 [1] hour v named
      requeue

end Hookubit.Pipeline.Lifecycle
