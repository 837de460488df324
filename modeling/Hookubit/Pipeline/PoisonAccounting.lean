/- sources: router/store.go (claimOutboxSQL, advanceRoutingSQL, releaseOutboxSQL),
     router/router.go process, outbox.service.ts returnToQueue
   digest: unaccounted_attempts counts the claims that no committed write has answered. -/

import Hookubit.Pipeline.Leases

/-!
The row keeps one number. What it should be is said of a history that the code does not have:
for every outbox row the claims of it, the committed writes with the claim that each was
made under, and the requeues. A claim is known by the value of `attempts` that it returned.
-/

set_option autoImplicit false
set_option relaxedAutoImplicit false

namespace Hookubit.Pipeline.PoisonAccounting

open Automata.LabelledSystem Data.Rows Pipeline.Leases Pipeline.Machine Pipeline.Moves
open Postgres.Clock Router.Process Router.Store

/-- What happens to one row: a claim, a cursor advance or release under that claim, a requeue. -/
inductive Mark
  | claimed (n : ℤ) | written (n : ℤ) | requeued
  deriving DecidableEq

def claimsOf (marks : List Mark) : List ℤ :=
  marks.filterMap fun
    | .claimed n => some n
    | _ => none

/-- The latest marks first, back to the last requeue. -/
def sinceRequeue (marks : List Mark) : List Mark := marks.takeWhile (· ≠ .requeued)

/-- The claims since the last requeue under which nothing was written. -/
def unwritten (marks : List Mark) : List ℤ :=
  (claimsOf (sinceRequeue marks)).filter fun n => .written n ∉ marks

variable {marks : List Mark}

private theorem unwritten_claimed {n : ℤ} (fresh : .written n ∉ marks) :
    unwritten (.claimed n :: marks) = n :: unwritten marks := by
  simp [unwritten, sinceRequeue, claimsOf, fresh]

private theorem unwritten_written (n : ℤ) (marks : List Mark) :
    unwritten (.written n :: marks) = (unwritten marks).filter (· != n) := by
  have same : claimsOf (sinceRequeue (.written n :: marks)) = claimsOf (sinceRequeue marks) := by
    simp [sinceRequeue, claimsOf]
  rw [unwritten, unwritten, same, List.filter_filter]
  apply List.filter_congr
  intro m _
  by_cases h : m = n <;> simp [h]

private theorem unwritten_requeued (marks : List Mark) : unwritten (.requeued :: marks) = [] := by
  simp [unwritten, sinceRequeue, claimsOf]

private theorem claimed_of_mem_unwritten {n : ℤ} (h : n ∈ unwritten marks) :
    .claimed n ∈ marks := by
  obtain ⟨m, hm, some_n⟩ := List.mem_filterMap.mp (List.mem_filter.mp h).1
  cases m with
  | claimed k =>
    cases some_n
    exact (List.takeWhile_sublist _).subset hm
  | written _ => cases some_n
  | requeued => cases some_n

private theorem length_unwritten_written {n : ℤ} (distinct : (unwritten marks).Nodup)
    (unfinished : n ∈ unwritten marks) :
    (unwritten (.written n :: marks)).length = (unwritten marks).length - 1 := by
  rw [unwritten_written, ← List.length_erase_of_mem unfinished, distinct.erase_eq_filter]

private theorem unwritten_eq_nil
    (answered : ∀ n ∈ claimsOf (sinceRequeue marks), .written n ∈ marks) : unwritten marks = [] :=
  List.filter_eq_nil_iff.mpr fun n hn => by simpa using answered n hn

private theorem unwritten_eq_claims
    (silent : ∀ n ∈ claimsOf (sinceRequeue marks), .written n ∉ marks) :
    unwritten marks = claimsOf (sinceRequeue marks) :=
  List.filter_eq_self.mpr fun n hn => by simpa using silent n hn

variable {Id R W : Type} [LinearOrder Id] [OrderBot Id] [DecidableEq R]

/-- What one operation marks on the row with that id; each transaction's own result says
whether it committed. -/
def marksOf (s : Platform Id R W) (id : Id) : Op Id R W → List Mark
  | .claimOutbox r limit lease skip _ =>
      (((ClaimOutbox r limit lease s.clock skip s.db).1.find? (·.id = id)).map
        fun q => .claimed q.attempts).toList
  | .route task dir batch minted _ =>
      if task.row.id = id ∧ (Route dir task.router task.row batch minted s.clock s.db).1 =
        .routingContinued then [.written task.row.attempts] else []
  | .releaseOutbox task retryAfter =>
      if task.row.id = id ∧ (ReleaseOutbox task.router task.row.id retryAfter s.clock s.db).1 = true
        then [.written task.row.attempts] else []
  | .requeue ids _ =>
      if ∃ o ∈ s.db.outbox, o.id = id ∧ id ∈ ids ∧ o.status = .failed then [.requeued] else []
  | _ => []

variable {s : Platform Id R W}

private theorem marksOf_of_byWorker {id : Id} {a : Op Id R W}
    (byWorker : a.byWorker = true) : marksOf s id a = [] := by
  cases a <;> first | rfl | cases byWorker

/-- The history of every row, kept beside the platform. -/
def remember (s : Platform Id R W) (a : Op Id R W) (history : Id → List Mark) (id : Id) :
    List Mark :=
  marksOf s id a ++ history id

/-- What one step does to a row, with the mark that it leaves. -/
inductive Noted (o : OutboxRow Id R) : OutboxRow Id R → List Mark → Prop
  | keep : Noted o o []
  | claim {r : R} {lease now : ℤ} : outboxReady now o = true →
      Noted o (claimOutboxRow r lease now o) [.claimed (o.attempts + 1)]
  | write {q : OutboxRow Id R} : o.lockedBy.isSome = true → q.lockedBy = none →
      q.attempts = o.attempts → q.unaccountedAttempts = max (o.unaccountedAttempts - 1) 0 →
      q.id = o.id → q.type = o.type → Noted o q [.written o.attempts]
  | retire {q : OutboxRow Id R} : q.status = .processed → q.lockedBy = none →
      q.attempts = o.attempts → q.id = o.id → q.type = o.type → Noted o q []
  | park {q : OutboxRow Id R} : o.lockedBy.isSome = true → q.lockedBy = none →
      q.attempts = o.attempts → q.unaccountedAttempts = o.unaccountedAttempts →
      q.id = o.id → q.type = o.type → Noted o q []
  | requeue {apiNow : ℤ} : Noted o (requeuedRow apiNow o) [.requeued]

omit [LinearOrder Id] [OrderBot Id] [DecidableEq R] in
theorem Noted.id {o q : OutboxRow Id R} (noted : Noted o q marks) :
    q.id = o.id := by
  cases noted with
  | keep => rfl
  | claim _ => rfl
  | write _ _ _ _ id _ => exact id
  | retire _ _ _ id _ => exact id
  | park _ _ _ _ id _ => exact id
  | requeue => rfl

variable {o : OutboxRow Id R}

omit [LinearOrder Id] [OrderBot Id] [DecidableEq R] in
private theorem guarded {task : Task Id R}
    {f : OutboxRow Id R → Option (OutboxRow Id R)} (sound : Sound s) (ht : task ∈ s.tasks)
    (guard : ∀ o q, f o = some q → o.id = task.row.id ∧ o.lockedBy = some task.router)
    (ho : o ∈ s.db.outbox) :
    (f o = none ∧ (task.row.id = o.id → rowsAffected f s.db.outbox = 0)) ∨
      ∃ q, f o = some q ∧ o = task.row ∧ 0 < rowsAffected f s.db.outbox := by
  cases hf : f o with
  | some q =>
    obtain ⟨id, lock⟩ := guard o q hf
    exact .inr ⟨q, rfl, sound.leased.held task ht o ho id lock,
      rowsAffected_pos.mpr ⟨o, ho, by rw [hf]; rfl⟩⟩
  | none =>
    refine .inl ⟨rfl, fun same => Nat.eq_zero_of_not_pos ?_⟩
    intro hit
    obtain ⟨p, hp, matched⟩ := rowsAffected_pos.mp hit
    obtain ⟨q, hq⟩ := Option.isSome_iff_exists.mp matched
    obtain rfl := sound.keyed.row_eq hp ho ((guard p q hq).1.trans same)
    rw [hf] at hq
    cases hq

private theorem noted_claim (sound : Sound s) (r : R) (limit : ℕ) (lease : ℤ)
    (skip : Id → Bool) (received : Bool) (ho : o ∈ s.db.outbox) :
    ∃ q ∈ (ClaimOutbox r limit lease s.clock skip s.db).2.outbox,
      Noted o q (marksOf s o.id (.claimOutbox r limit lease skip received)) := by
  simp only [marksOf]
  cases hq : (ClaimOutbox r limit lease s.clock skip s.db).1.find? (·.id = o.id) with
  | none =>
    have passed := List.find?_eq_none.mp hq
    rcases claimOutbox_cases r limit lease s.clock skip ho with taken | ⟨kept, _⟩
    · have := passed _ taken
      simp [claimOutboxRow] at this
    · exact ⟨o, kept, .keep⟩
  | some q =>
    have same := List.find?_some hq
    rw [decide_eq_true_iff] at same
    obtain ⟨inside, p, hp, ready, rfl⟩ :=
      of_mem_claimOutbox sound.keyed.outbox (List.mem_of_find?_eq_some hq)
    obtain rfl := sound.keyed.row_eq hp ho same
    exact ⟨_, inside, .claim ready⟩

private theorem noted_route (sound : Sound s) {task : Task Id R}
    (ht : task ∈ s.tasks) (dir : Directory Id) (batch : ℤ) (minted : List Id) (replied : Bool)
    (ho : o ∈ s.db.outbox) :
    ∃ q ∈ (Route dir task.router task.row batch minted s.clock s.db).2.outbox,
      Noted o q (marksOf s o.id (.route task dir batch minted replied)) := by
  have routed := route_routed dir task.router task.row batch minted s.clock s.db
  simp only [marksOf]
  generalize (Route dir task.router task.row batch minted s.clock s.db).1 = outcome at routed ⊢
  generalize (Route dir task.router task.row batch minted s.clock s.db).2 = db at routed ⊢
  cases routed with
  | rolledBack lost =>
    refine ⟨o, ho, ?_⟩
    rw [if_neg fun h => by rw [h.2] at lost; cases lost]
    exact .keep
  | @continued _ _ last _ _ _ _ hit =>
    refine ⟨_, mem_updateWhere.mpr ⟨o, ho, rfl⟩, ?_⟩
    have guard : ∀ o q, advanceRoutingSQL task.row.id task.router last.subscriptionID s.clock o =
        some q → o.id = task.row.id ∧ o.lockedBy = some task.router := fun o q written => by
      unfold advanceRoutingSQL at written
      split at written <;> [assumption; cases written]
    rcases guarded sound ht guard ho with ⟨missed, other⟩ | ⟨q, written, rfl, _⟩
    · rw [missed, Option.getD_none, if_neg fun h => hit.ne' (other h.1)]
      exact .keep
    · rw [written, Option.getD_some, if_pos ⟨rfl, rfl⟩]
      unfold advanceRoutingSQL at written
      split at written <;> cases written
      rename_i mine
      exact .write (by rw [mine.2]; rfl) rfl rfl rfl rfl rfl
  | finished ended _ _ _ _ =>
    refine ⟨_, mem_updateWhere.mpr ⟨o, ho, rfl⟩, ?_⟩
    rw [if_neg fun h => by rcases ended with e | e <;> rw [e] at h <;> cases h.2]
    cases written : markOutboxProcessedSQL task.row.id task.router s.clock o with
    | none => exact .keep
    | some q =>
      unfold markOutboxProcessedSQL at written
      split at written <;> cases written
      exact .retire rfl rfl rfl rfl rfl

private theorem noted_release (sound : Sound s) {task : Task Id R}
    (ht : task ∈ s.tasks) (retryAfter : ℤ) (ho : o ∈ s.db.outbox) :
    ∃ q ∈ (ReleaseOutbox task.router task.row.id retryAfter s.clock s.db).2.outbox,
      Noted o q (marksOf s o.id (.releaseOutbox task retryAfter)) := by
  rw [releaseOutbox_eq]
  refine ⟨_, mem_updateWhere.mpr ⟨o, ho, rfl⟩, ?_⟩
  simp only [marksOf, releaseOutbox_eq, decide_eq_true_eq]
  have guard : ∀ o q, releaseOutboxSQL task.row.id task.router
      (if retryAfter < 0 then 0 else retryAfter) s.clock o = some q →
      o.id = task.row.id ∧ o.lockedBy = some task.router := fun o q written => by
    unfold releaseOutboxSQL at written
    split at written <;> [assumption; cases written]
  rcases guarded sound ht guard ho with ⟨missed, other⟩ | ⟨q, written, rfl, hit⟩
  · rw [missed, Option.getD_none, if_neg fun h => h.2.ne' (other h.1)]
    exact .keep
  · rw [written, Option.getD_some, if_pos ⟨rfl, hit⟩]
    have mine := guard _ _ written
    unfold releaseOutboxSQL at written
    rw [if_pos mine] at written
    cases written
    exact .write (by rw [mine.2]; rfl) rfl rfl rfl rfl rfl

private theorem noted_park (task : Task Id R) (ho : o ∈ s.db.outbox) :
    ∃ q ∈ (ParkOutbox task.router task.row.id task.row.eventID s.clock s.db).2.outbox,
      Noted o q [] := by
  unfold ParkOutbox
  dsimp only
  split
  · exact ⟨o, ho, .keep⟩
  · refine ⟨_, mem_updateWhere.mpr ⟨o, ho, rfl⟩, ?_⟩
    cases written : parkOutboxSQL task.row.id task.router s.clock o with
    | none => exact .keep
    | some q =>
      unfold parkOutboxSQL at written
      split at written <;> cases written
      rename_i mine
      exact .park (by rw [mine.2]; rfl) rfl rfl rfl rfl rfl

private theorem noted_requeue (sound : Sound s)
    (ids : List Id) (apiNow : ℤ) (ho : o ∈ s.db.outbox) :
    ∃ q ∈ (returnToQueue ids apiNow s.db).outbox,
      Noted o q (marksOf s o.id (.requeue ids apiNow)) := by
  refine ⟨_, mem_updateWhere.mpr ⟨o, ho, rfl⟩, ?_⟩
  simp only [marksOf]
  by_cases parked : o.id ∈ ids ∧ o.status = .failed
  · rw [if_pos parked, if_pos ⟨o, ho, rfl, parked⟩]
    exact .requeue
  · rw [if_neg parked, if_neg]
    · exact .keep
    · rintro ⟨p, hp, same, inside, failed⟩
      obtain rfl := sound.keyed.row_eq hp ho same
      exact parked ⟨inside, failed⟩

variable [DecidableEq W] {opts : R → Options}

private theorem row_noted {s t : Platform Id R W} {a : Op Id R W} (sound : Sound s)
    (h : next opts s a = some t) (ho : o ∈ s.db.outbox) :
    ∃ q ∈ t.db.outbox, Noted o q (marksOf s o.id a) := by
  cases next_step h with
  | tick _ | replay _ => exact ⟨o, ho, .keep⟩
  | createEvent inserted =>
    unfold insertEvent at inserted
    split at inserted <;> cases inserted
    exact ⟨o, List.mem_append_left _ ho, .keep⟩
  | @claimOutbox r limit lease skip received _ =>
    exact noted_claim sound r limit lease skip received ho
  | process _ moved | routeError _ moved | abandon _ moved =>
    rw [moved.db_eq]
    exact ⟨o, ho, .keep⟩
  | @route task dir batch minted replied _ held moved =>
    rw [moved.db_eq]
    exact noted_route sound held dir batch minted replied ho
  | @releaseOutbox task retryAfter _ held moved =>
    rw [moved.db_eq]
    exact noted_release sound held retryAfter ho
  | @parkOutbox task _ _ moved =>
    rw [moved.db_eq]
    exact noted_park task ho
  | @requeue ids apiNow => exact noted_requeue sound ids apiNow ho
  | deliver byWorker _ =>
    rw [marksOf_of_byWorker byWorker]
    exact ⟨o, ho, .keep⟩

/-- A row against its history. -/
structure Accounted (o : OutboxRow Id R) (marks : List Mark) : Prop where
  count : o.status ≠ .processed → o.unaccountedAttempts = (unwritten marks).length
  distinct : (unwritten marks).Nodup
  held : o.lockedBy.isSome = true → o.attempts ∈ unwritten marks
  past : ∀ n, .claimed n ∈ marks ∨ .written n ∈ marks → n ≤ o.attempts
  typed : o.type = OutboxTypeEventCreated

section Row

omit [LinearOrder Id] [OrderBot Id] [DecidableEq R] [DecidableEq W]

variable {o q : OutboxRow Id R} {marks new : List Mark}

/-- A held row has a claim to refund, so the clamp at zero is never what decides. -/
theorem Accounted.one_le (accounted : Accounted o marks)
    (locked : o.lockedBy.isSome = true → o.status = .processing)
    (lock : o.lockedBy.isSome = true) : 1 ≤ o.unaccountedAttempts := by
  rw [accounted.count (by rw [locked lock]; decide)]
  exact_mod_cast List.length_pos_of_mem (accounted.held lock)

theorem Accounted.claim (accounted : Accounted o marks) {r : R} {lease now : ℤ}
    (ready : outboxReady now o = true) :
    Accounted (claimOutboxRow r lease now o) (.claimed (o.attempts + 1) :: marks) := by
  have unfinished : o.status ≠ .processed := fun done => by simp [outboxReady, done] at ready
  have new : ¬ o.attempts + 1 ≤ o.attempts := by omega
  have unclaimed : .claimed (o.attempts + 1) ∉ marks := fun h => new (accounted.past _ (.inl h))
  have fresh : .written (o.attempts + 1) ∉ marks := fun h => new (accounted.past _ (.inr h))
  have grown := unwritten_claimed fresh
  refine ⟨?_, ?_, ?_, ?_, accounted.typed⟩
  · intro _
    rw [grown, List.length_cons, claimOutboxRow, accounted.count unfinished]
    push_cast
    rfl
  · rw [grown]
    exact List.nodup_cons.mpr
      ⟨fun h => unclaimed (claimed_of_mem_unwritten h), accounted.distinct⟩
  · intro _
    rw [grown]
    exact List.mem_cons_self
  · intro n hn
    simp only [List.mem_cons, Mark.claimed.injEq, reduceCtorEq, false_or, or_assoc] at hn
    rcases hn with rfl | old
    · exact le_rfl
    · exact (accounted.past n old).trans (Int.le_add_one le_rfl)

theorem Accounted.write (accounted : Accounted o marks)
    (locked : o.lockedBy.isSome = true → o.status = .processing)
    (lock : o.lockedBy.isSome = true) (unlocked : q.lockedBy = none)
    (attempts : q.attempts = o.attempts)
    (refund : q.unaccountedAttempts = max (o.unaccountedAttempts - 1) 0)
    (type : q.type = o.type) : Accounted q (.written o.attempts :: marks) := by
  have charged := accounted.one_le locked lock
  refine ⟨?_, ?_, ?_, ?_, type.trans accounted.typed⟩
  · intro _
    have counted := accounted.count (by rw [locked lock]; decide)
    rw [length_unwritten_written accounted.distinct (accounted.held lock), refund]
    omega
  · rw [unwritten_written]
    exact accounted.distinct.filter _
  · intro h
    rw [unlocked] at h
    cases h
  · intro n hn
    simp only [List.mem_cons, Mark.written.injEq, reduceCtorEq, false_or] at hn
    rw [attempts]
    rcases hn with old | rfl | old
    · exact accounted.past n (.inl old)
    · exact le_rfl
    · exact accounted.past n (.inr old)

private theorem accounted_noted (accounted : Accounted o marks)
    (locked : o.lockedBy.isSome = true → o.status = .processing) (noted : Noted o q new) :
    Accounted q (new ++ marks) := by
  cases noted with
  | keep => exact accounted
  | claim ready => exact accounted.claim ready
  | write lock unlocked attempts refund _ type =>
    exact accounted.write locked lock unlocked attempts refund type
  | retire done unlocked attempts _ type =>
    refine ⟨fun h => absurd done h, accounted.distinct, fun h => ?_, fun n hn => ?_,
      type.trans accounted.typed⟩
    · rw [unlocked] at h
      cases h
    · exact attempts ▸ accounted.past n hn
  | park lock unlocked attempts unrefunded _ type =>
    refine ⟨fun _ => ?_, accounted.distinct, fun h => ?_, fun n hn => ?_,
      type.trans accounted.typed⟩
    · rw [unrefunded]
      exact accounted.count (by rw [locked lock]; decide)
    · rw [unlocked] at h
      cases h
    · exact attempts ▸ accounted.past n hn
  | requeue =>
    have none_open := unwritten_requeued marks
    refine ⟨?_, ?_, ?_, ?_, accounted.typed⟩
    · intro _
      rw [List.singleton_append, none_open]
      rfl
    · rw [List.singleton_append, none_open]
      exact List.nodup_nil
    · intro h
      cases h
    · intro n hn
      exact accounted.past n (by simpa using hn)

end Row

/-- Every row is in line with its history, and only rows have one. -/
structure Kept (s : Platform Id R W) (history : Id → List Mark) : Prop where
  rows : ∀ o ∈ s.db.outbox, Accounted o (history o.id)
  known : ∀ id, history id ≠ [] → id ∈ s.db.outbox.map OutboxRow.id

private theorem known_of_marked {s t : Platform Id R W} {a : Op Id R W}
    (sound : Sound s) (h : next opts s a = some t) {id : Id} (marked : marksOf s id a ≠ []) :
    id ∈ s.db.outbox.map OutboxRow.id := by
  have of_task : ∀ {task : Task Id R}, task ∈ s.tasks → task.row.id = id →
      id ∈ s.db.outbox.map OutboxRow.id := fun ht same => by
    obtain ⟨o, ho, key, _⟩ := sound.leased.claimed _ ht
    exact List.mem_map.mpr ⟨o, ho, key.trans same⟩
  cases next_step h with
  | tick _ | createEvent _ | process _ _ | routeError _ _ | parkOutbox _ _ | abandon _ _
  | replay _ => exact absurd rfl marked
  | deliver byWorker _ => exact absurd (marksOf_of_byWorker byWorker) marked
  | @claimOutbox r limit lease skip received _ =>
    cases hq : (ClaimOutbox r limit lease s.clock skip s.db).1.find? (·.id = id) with
    | none => simp [marksOf, hq] at marked
    | some q =>
      have same := List.find?_some hq
      rw [decide_eq_true_iff] at same
      obtain ⟨_, o, ho, _, rfl⟩ :=
        of_mem_claimOutbox sound.keyed.outbox (List.mem_of_find?_eq_some hq)
      exact List.mem_map.mpr ⟨o, ho, same⟩
  | route held _ =>
    simp only [marksOf] at marked
    split at marked
    · rename_i mine
      exact of_task held mine.1
    · exact absurd rfl marked
  | releaseOutbox held _ =>
    simp only [marksOf] at marked
    split at marked
    · rename_i mine
      exact of_task held mine.1
    · exact absurd rfl marked
  | requeue =>
    simp only [marksOf] at marked
    split at marked
    · rename_i parked
      obtain ⟨o, ho, same, _⟩ := parked
      exact List.mem_map.mpr ⟨o, ho, same⟩
    · exact absurd rfl marked

private theorem kept_step {s t : Platform Id R W} {a : Op Id R W}
    {history : Id → List Mark} (sound : Sound s) (kept : Kept s history)
    (h : next opts s a = some t) : Kept t (remember s a history) := by
  have step := next_tables h
  have keyed' := keyed_step sound.keyed step
  have grown : ∀ o ∈ s.db.outbox, ∀ q ∈ t.db.outbox, q.id = o.id →
      Accounted q (remember s a history q.id) := fun o ho q hq same => by
    obtain ⟨q', hq', noted⟩ := row_noted sound h ho
    obtain rfl := keyed'.row_eq hq' hq (noted.id.trans same.symm)
    rw [same]
    exact accounted_noted (kept.rows o ho) (sound.leased.locked o ho).mp noted
  constructor
  · intro q hq
    rcases outbox_moves sound.keyed.outbox step with ⟨f, moved, moves⟩ |
      ⟨ev, outboxID, rfl, inserted⟩
    · obtain ⟨o, ho, rfl⟩ := mem_updateWhere.mp (moved ▸ hq)
      apply grown o ho _ hq
      cases hf : f o with
      | none => rfl
      | some p => exact (moves o ho p hf).guard.1
    · unfold insertEvent at inserted
      split at inserted
      · cases inserted
      rename_i fresh
      rw [not_or] at fresh
      have outbox := congrArg Tables.outbox (Option.some.inj inserted)
      rw [← outbox] at hq
      rcases List.mem_append.mp hq with old | new
      · exact kept.rows q old
      · obtain rfl := List.mem_singleton.mp new
        have unmarked : history outboxID = [] := by
          by_contra marked
          exact fresh.2 (kept.known outboxID marked)
        rw [remember, unmarked]
        exact ⟨fun _ => rfl, List.nodup_nil, fun h => (by cases h), by simp [marksOf], rfl⟩
  · intro id marked
    have old : id ∈ s.db.outbox.map OutboxRow.id := by
      by_cases before : history id = []
      · refine known_of_marked sound h fun none_now => marked ?_
        rw [remember, none_now, before]
        rfl
      · exact kept.known id before
    obtain ⟨o, ho, rfl⟩ := List.mem_map.mp old
    obtain ⟨q, hq, noted⟩ := row_noted sound h ho
    exact List.mem_map.mpr ⟨q, hq, noted.id⟩

def remembered (opts : R → Options) :
    System (Platform Id R W × (Id → List Mark)) (Op Id R W) :=
  (pipeline opts).observe remember fun _ => []

private theorem kept_of_reachable {history : Id → List Mark}
    (reach : Reachable (remembered opts) (s, history)) : Sound s ∧ Kept s history := by
  refine reach.invariant (I := fun p => Sound p.1 ∧ Kept p.1 p.2) ?_ ?_
  · rintro ⟨s, history⟩ ⟨start, rfl⟩
    refine ⟨sound_empty start, fun o ho => ?_, fun id h => absurd rfl h⟩
    rw [start.1] at ho
    cases ho
  · rintro ⟨s, history⟩ a ⟨t, _⟩ ⟨sound, kept⟩ ⟨edge, rfl⟩
    exact ⟨sound_step sound edge, kept_step sound kept edge⟩

private theorem parks {t : Platform Id R W} {r : R} {q : OutboxRow Id R} {now : ℤ}
    {reason : ParkReason} (ht : ⟨r, q, .claimed⟩ ∈ t.tasks) (hq : q ∈ t.db.outbox)
    (lock : q.lockedBy = some r) (decided : process (opts r) q now = some reason) :
    ∃ u v, next opts t (.process ⟨r, q, .claimed⟩ now) = some u ∧
      next opts u (.parkOutbox ⟨r, q, .parking reason⟩) = some v ∧
      ∃ p ∈ v.db.outbox, p.id = q.id ∧ p.status = .failed := by
  refine ⟨t.goOn ⟨r, q, .claimed⟩ (.parking reason) t.db, _, ?_, if_pos ⟨List.mem_cons_self, rfl⟩,
    ?_⟩
  · simp [next, ht, decided]
  · have hit : 0 < rowsAffected (parkOutboxSQL q.id r t.clock) t.db.outbox :=
      rowsAffected_pos.mpr ⟨q, hq, by simp [parkOutboxSQL, lock]⟩
    refine ⟨{ q with
      status := .failed, processedAt := some (timestamp3 t.clock), lockedBy := none,
      lockedUntil := none }, ?_, rfl, rfl⟩
    show _ ∈ (ParkOutbox r q.id q.eventID t.clock t.db).2.outbox
    unfold ParkOutbox
    dsimp only
    rw [if_neg hit.ne']
    refine mem_updateWhere.mpr ⟨q, hq, ?_⟩
    rw [parkOutboxSQL, if_pos ⟨rfl, lock⟩, Option.getD_some]

/-- Every reachable state has a history, and in every history: the counter of an unprocessed
row is the number of claims that nothing was written under; no refund is clamped; a claim
whose predecessors were all answered is not taken for poison; and where none was answered, the
first claim that goes over the bound is, and parks the row. -/
theorem poison_accounting (opts : R → Options) :
    (∀ s : Platform Id R W, Reachable (pipeline opts) s →
      ∃ history, Reachable (remembered opts) (s, history)) ∧
    ∀ (s : Platform Id R W) (history : Id → List Mark),
      Reachable (remembered opts) (s, history) →
      (∀ o ∈ s.db.outbox, o.status ≠ .processed →
        o.unaccountedAttempts = (unwritten (history o.id)).length) ∧
      (∀ o ∈ s.db.outbox, ∀ id r cursor wait now q,
        advanceRoutingSQL id r cursor now o = some q ∨ releaseOutboxSQL id r wait now o = some q →
          q.unaccountedAttempts = o.unaccountedAttempts - 1) ∧
      ∀ r limit lease skip, ∀ q ∈ (ClaimOutbox r limit lease s.clock skip s.db).1, ∀ now,
        ((∀ n ∈ claimsOf (sinceRequeue (history q.id)), .written n ∈ history q.id) →
          process (opts r) q now ≠ some .attemptsExhausted) ∧
        ((∀ n ∈ claimsOf (sinceRequeue (history q.id)), .written n ∉ history q.id) →
          (process (opts r) q now = some .attemptsExhausted ↔ (New (opts r)).maxOutboxAttempts <
            (claimsOf (sinceRequeue (history q.id))).length + 1)) ∧
        ∀ t, next opts s (.claimOutbox r limit lease skip true) = some t →
          process (opts r) q now = some .attemptsExhausted →
          ∃ u v, next opts t (.process ⟨r, q, .claimed⟩ now) = some u ∧
            next opts u (.parkOutbox ⟨r, q, .parking .attemptsExhausted⟩) = some v ∧
            ∃ p ∈ v.db.outbox, p.id = q.id ∧ p.status = .failed := by
  refine ⟨fun s reach => reach.exists_observe _ _, ?_⟩
  intro s history reach
  obtain ⟨sound, kept⟩ := kept_of_reachable reach
  refine ⟨fun o ho => (kept.rows o ho).count, fun o ho id r cursor wait now q written => ?_,
    fun r limit lease skip q hq now => ?_⟩
  · have charged := (kept.rows o ho).one_le (sound.leased.locked o ho).mp
    rcases written with written | written
    · unfold advanceRoutingSQL at written
      split at written <;> cases written
      rename_i mine
      have := charged (by rw [mine.2]; rfl)
      exact max_eq_left (by omega)
    · unfold releaseOutboxSQL at written
      split at written <;> cases written
      rename_i mine
      have := charged (by rw [mine.2]; rfl)
      exact max_eq_left (by omega)
  · obtain ⟨inside, o, ho, ready, rfl⟩ := of_mem_claimOutbox sound.keyed.outbox hq
    have row := kept.rows o ho
    have unfinished : o.status ≠ .processed := fun done => by simp [outboxReady, done] at ready
    have counted : (claimOutboxRow r lease s.clock o).unaccountedAttempts =
        (unwritten (history o.id)).length + 1 := congrArg (· + 1) (row.count unfinished)
    have decided : process (opts r) (claimOutboxRow r lease s.clock o) now =
        some .attemptsExhausted ↔ (New (opts r)).maxOutboxAttempts <
          (claimOutboxRow r lease s.clock o).unaccountedAttempts := process_exhausted_iff row.typed
    rw [counted] at decided
    refine ⟨?_, ?_, ?_⟩
    · intro answered
      have none_open : unwritten (history o.id) = [] := unwritten_eq_nil answered
      have := one_le_maxOutboxAttempts (opts r)
      rw [none_open] at decided
      rw [Ne, decided]
      simpa using this
    · intro silent
      have all_open : unwritten (history o.id) = claimsOf (sinceRequeue (history o.id)) :=
        unwritten_eq_claims silent
      rw [decided, all_open]
      rfl
    · intro t edge exhausted
      refine parks ?_ ?_ rfl exhausted
      · simp only [next] at edge
        split at edge <;> cases edge
        exact List.mem_append_left _ (List.mem_map_of_mem hq)
      · simp only [next] at edge
        split at edge <;> cases edge
        exact inside

/-- With a bound of one, the second claim of a row whose first claim vanished parks it. -/
theorem second_silent_claim_is_poison :
    ∃ (s : Platform ℕ ℕ ℕ) (history : ℕ → List Mark),
      Reachable (remembered fun _ => ⟨1, 0⟩) (s, history) ∧ history 1 = [.claimed 1] ∧
      ∃ q ∈ (ClaimOutbox 8 10 minute s.clock (fun _ => false) s.db).1, q.id = 1 ∧
        process ⟨1, 0⟩ q 0 = some .attemptsExhausted := by
  obtain ⟨s₁, s₂, s₃, created, claimed, waited, marks, q, hq, id⟩ :
      ∃ s₁ s₂ s₃ : Platform ℕ ℕ ℕ,
        next (fun _ => ⟨1, 0⟩) emptyPlatform (.createEvent ⟨1, 1, 1, "order.paid", 0⟩ 1) = some s₁ ∧
        next (fun _ => ⟨1, 0⟩) s₁ (.claimOutbox 7 10 minute (fun _ => false) false) = some s₂ ∧
        next (fun _ => ⟨1, 0⟩) s₂ (.tick (2 * minute)) = some s₃ ∧
        remember s₂ (.tick (2 * minute))
          (remember s₁ (.claimOutbox 7 10 minute (fun _ => false) false)
          (remember emptyPlatform (.createEvent ⟨1, 1, 1, "order.paid", 0⟩ 1) fun _ => [])) 1 =
            [.claimed 1] ∧
        ∃ q ∈ (ClaimOutbox 8 10 minute s₃.clock (fun _ => false) s₃.db).1, q.id = 1 :=
    ⟨_, _, _, rfl, rfl, rfl, rfl, by decide⟩
  have start : Reachable (remembered fun _ => ⟨1, 0⟩) (emptyPlatform, fun _ => []) :=
    .start ⟨empty_emptyPlatform, rfl⟩
  obtain ⟨history, reach, marks⟩ : ∃ history, Reachable (remembered fun _ => ⟨1, 0⟩) (s₃, history) ∧
      history 1 = [.claimed 1] :=
    ⟨_, ((start.step (t := (s₁, _)) ⟨created, rfl⟩).step (t := (s₂, _)) ⟨claimed, rfl⟩).step
      (t := (s₃, _)) ⟨waited, rfl⟩, marks⟩
  refine ⟨s₃, history, reach, marks, q, hq, id, ?_⟩
  refine (((poison_accounting fun _ => ⟨1, 0⟩).2 s₃ history reach).2.2 8 10 minute _ q hq 0).2.1
    ?_ |>.mpr ?_
  · rw [id, marks]
    decide
  · rw [id, marks]
    decide

end Hookubit.Pipeline.PoisonAccounting
