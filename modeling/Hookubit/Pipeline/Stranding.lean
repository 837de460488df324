/- sources: router/store.go ClaimOutbox, queue/postgres.go readyPredicate, ingest/store.go CreateEvent
   digest: Once every lease and schedule has run out, the two claims find all unfinished work. -/

import Hookubit.Pipeline.Leases

set_option autoImplicit false
set_option relaxedAutoImplicit false

namespace Hookubit.Pipeline.Stranding

open Automata.LabelledSystem Pipeline.Leases Pipeline.Machine Postgres.Clock Queue.Deliveries
open Router.Process Router.Store Worker.StateMachine

variable {Id R W : Type}

/-- The instant lies past every `locked_until`, `available_at` and `next_attempt_at`. -/
structure Elapsed (now : ℤ) (db : Tables Id R W) : Prop where
  outbox : ∀ o ∈ db.outbox, o.availableAt ≤ now ∧ ∀ t ∈ o.lockedUntil, t < now
  deliveries : ∀ d ∈ db.deliveries, d.nextAttemptAt ≤ now ∧ ∀ t ∈ d.lockedUntil, t < now

private theorem lapsed_of_past {lockedUntil : Option ℤ} {now : ℤ}
    (past : ∀ t ∈ lockedUntil, t < now) : lapsed lockedUntil now = true := by
  cases lockedUntil with
  | none => rfl
  | some t => simpa [lapsed] using past t rfl

private theorem outboxReady_of_elapsed {now : ℤ} {db : Tables Id R W} (elapsed : Elapsed now db)
    {o : OutboxRow Id R} (ho : o ∈ db.outbox) (unprocessed : o.status ≠ .processed)
    (unparked : o.status ≠ .failed) : outboxReady now o = true := by
  obtain ⟨available, past⟩ := elapsed.outbox o ho
  have live : o.status = .pending ∨ o.status = .processing := by
    cases h : o.status with
    | pending => exact .inl rfl
    | processing => exact .inr rfl
    | processed => exact absurd h unprocessed
    | failed => exact absurd h unparked
  simp [outboxReady, live, available, lapsed_of_past past]

private theorem readyPredicate_of_elapsed {now : ℤ} {db : Tables Id R W} (elapsed : Elapsed now db)
    {d : Delivery Id W} (hd : d ∈ db.deliveries) (live : d.status.Terminal = false) :
    readyPredicate now d = true := by
  obtain ⟨due, past⟩ := elapsed.deliveries d hd
  simp [readyPredicate, claimStatuses_eq, live, due, lapsed_of_past past]

private theorem exists_above (l : List ℤ) : ∃ b, ∀ x ∈ l, x < b := by
  induction l with
  | nil => exact ⟨0, by simp⟩
  | cons x l ih =>
    obtain ⟨b, hb⟩ := ih
    refine ⟨max b (x + 1), ?_⟩
    intro y hy
    rcases List.mem_cons.mp hy with rfl | hy
    · exact lt_max_of_lt_right (lt_add_one y)
    · exact lt_max_of_lt_left (hb y hy)

private theorem exists_elapsed (clock : ℤ) (db : Tables Id R W) :
    ∃ now, clock ≤ now ∧ Elapsed now db := by
  obtain ⟨b, hb⟩ := exists_above ([clock] ++
    db.outbox.flatMap (fun o => o.availableAt :: o.lockedUntil.toList) ++
    db.deliveries.flatMap (fun d => d.nextAttemptAt :: d.lockedUntil.toList))
  simp only [List.mem_append, List.mem_flatMap, List.mem_cons, Option.mem_toList] at hb
  refine ⟨b, (hb _ (by simp)).le, fun o ho => ⟨?_, fun t ht => ?_⟩,
    fun d hd => ⟨?_, fun t ht => ?_⟩⟩
  · exact (hb _ (.inl (.inr ⟨o, ho, .inl rfl⟩))).le
  · exact hb _ (.inl (.inr ⟨o, ho, .inr ht⟩))
  · exact (hb _ (.inr ⟨d, hd, .inl rfl⟩)).le
  · exact hb _ (.inr ⟨d, hd, .inr ht⟩)

variable [LinearOrder Id] [OrderBot Id] [DecidableEq R] [DecidableEq W]

/-- In every state each event has its outbox row, retired only with the event; and once time
has passed, wide claims that meet no row lock return every row that is not at its end. -/
theorem nothing_stranded (opts : R → Options) {s : Platform Id R W}
    (reach : Reachable (pipeline opts) s) :
    (∀ e ∈ s.db.events, ∃ o ∈ s.db.outbox, o.eventID = e.id ∧
      (o.status = .processed → e.status = .processed)) ∧
    (∃ now, s.clock ≤ now ∧ Elapsed now s.db) ∧
    ∀ now, s.clock ≤ now → Elapsed now s.db →
      next opts s (.tick now) = some { s with clock := now } ∧
      (∀ r limit lease, s.db.outbox.length ≤ limit → ∀ o ∈ s.db.outbox,
        o.status ≠ .processed → o.status ≠ .failed → claimOutboxRow r lease now o ∈
          (ClaimOutbox r limit lease now (fun _ => false) s.db).1) ∧
      ∀ w limit lease, s.db.deliveries.length ≤ limit → ∀ d ∈ s.db.deliveries,
        d.status.Terminal = false → claimRow w lease now d ∈
          (Claim w limit lease now (fun _ => false) s.db.deliveries).1 := by
  have sound := sound_of_reachable reach
  refine ⟨fun e he => ?_, exists_elapsed s.clock s.db, fun now later elapsed => ⟨?_, ?_, ?_⟩⟩
  · obtain ⟨o, ho, key⟩ := sound.keyed.covered e he
    exact ⟨o, ho, key, (sound.paired o ho e he key.symm).mp⟩
  · simp [next, later]
  · intro r limit lease wide o ho unprocessed unparked
    exact mem_claimOutbox wide ho (outboxReady_of_elapsed elapsed ho unprocessed unparked)
  · intro w limit lease wide d hd live
    exact mem_claim wide hd (readyPredicate_of_elapsed elapsed hd live)

/-- After the first batch a second router and a worker claim and crash; two minutes later
the row and both deliveries are claimed again. -/
theorem crashed_claims_not_stranded :
    ∃ s : Platform ℕ ℕ ℕ, Reachable (pipeline defaultOptions) s ∧ Elapsed (2 * minute) s.db ∧
      s.db.outbox.map OutboxRow.status = [.processing] ∧
      s.db.deliveries.map Delivery.status = [.processing, .processing] ∧
      (∀ o ∈ s.db.outbox, claimOutboxRow 9 minute (2 * minute) o ∈
        (ClaimOutbox 9 1 minute (2 * minute) (fun _ => false) s.db).1) ∧
      ∀ d ∈ s.db.deliveries, claimRow 5 minute (2 * minute) d ∈
        (Claim 5 2 minute (2 * minute) (fun _ => false) s.db.deliveries).1 := by
  obtain ⟨s, run, clock, elapsed, rows, leases⟩ : ∃ s, execute (next defaultOptions) emptyPlatform
      (firstBatch ++ [.claimOutbox 8 10 minute (fun _ => false) false,
        .claim 4 10 minute (fun _ => false)]) = some s ∧ s.clock ≤ 2 * minute ∧
      Elapsed (2 * minute) s.db ∧ s.db.outbox.map OutboxRow.status = [.processing] ∧
      s.db.deliveries.map Delivery.status = [.processing, .processing] :=
    ⟨_, rfl, by decide, ⟨by decide, by decide⟩, rfl, rfl⟩
  have reach : Reachable (pipeline defaultOptions) s :=
    reachable_of_execute empty_emptyPlatform run
  obtain ⟨_, outbox, deliveries⟩ := (nothing_stranded defaultOptions reach).2.2 _ clock elapsed
  refine ⟨s, reach, elapsed, rows, leases, ?_, ?_⟩
  · intro o ho
    have processing : o.status ∈ [OutboxStatus.processing] := rows ▸ List.mem_map_of_mem ho
    rw [List.mem_singleton] at processing
    have short : s.db.outbox.length ≤ 1 := by simpa using (congrArg List.length rows).le
    exact outbox 9 1 minute short o ho (by simp [processing]) (by simp [processing])
  · intro d hd
    have processing : d.status ∈ [State.processing, .processing] :=
      leases ▸ List.mem_map_of_mem hd
    have short : s.db.deliveries.length ≤ 2 := by simpa using (congrArg List.length leases).le
    apply deliveries 5 2 minute short d hd
    have : d.status = .processing := by simpa using processing
    rw [this]
    rfl

end Hookubit.Pipeline.Stranding
