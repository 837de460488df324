/- sources: deliveries/deliveries.service.ts (list, filterWhere, dateRange),
     deliveries/delivery-limits.ts, deliveries/dto/list-deliveries.query.dto.ts
   digest: The delivery list, its filters, and what a client that pages through it sees. -/

import Hookubit.Authz.ProjectReads

/-!
Every request of a client is a statement of its own, and PostgreSQL may put rows that
`ORDER BY` does not tell apart in another order each time. The payload previews, which are
attached to the rows of a page afterwards, are left out here.
-/

set_option autoImplicit false
set_option relaxedAutoImplicit false

namespace Hookubit.Deliveries.DeliveryList

open Authz.ProjectReads
open Authz.ScopedRepository (pageSize pageSize_pos offset invalidRequest)
open Common.Errors Data.OffsetPages Postgres.Clock Queue.Deliveries Router.Store Router.Planning
open Worker.StateMachine

inductive DeliveryOrigin
  | original | replay
  deriving DecidableEq

structure ListDeliveriesQuery (Id : Type) where
  status : Option State
  failingNow : Option Bool
  endpointId : Option Id
  eventId : Option Id
  eventType : Option String
  createdAfter : Option ℤ
  createdBefore : Option ℤ
  origin : Option DeliveryOrigin
  limit : Option ℕ
  offset : Option ℕ
  deriving DecidableEq

def FAILING_NOW_STATUSES : List State := [.retrying, .failed, .exhausted]

structure DateTimeFilter where
  gte : Option ℤ
  lt : Option ℤ
  deriving DecidableEq

def DateTimeFilter.admits (f : DateTimeFilter) (t : ℤ) : Bool :=
  f.gte.all (· ≤ t) && f.lt.all (t < ·)

/-- The lower bound inclusive, the upper one exclusive. -/
def dateRange (after before : Option ℤ) : Except AppError (Option DateTimeFilter) :=
  match after, before with
  | none, none => .ok none
  | some a, some b =>
      if b ≤ a then
        .error (invalidRequest ("'created_after' must be strictly before 'created_before'; as " ++
          "given, the range selects nothing."))
      else .ok (some ⟨some a, some b⟩)
  | after, before => .ok (some ⟨after, before⟩)

/-- The `where` object. A single status is a list of one; `replayOfDeliveryId` says whether the
column has to be null. -/
structure DeliveryWhere (Id : Type) where
  status : Option (List State)
  endpointId : Option Id
  eventId : Option Id
  eventType : Option String
  createdAt : Option DateTimeFilter
  replayOfDeliveryId : Option Bool
  deriving DecidableEq

def filterWhere {Id : Type} (query : ListDeliveriesQuery Id) :
    Except AppError (DeliveryWhere Id) :=
  if query.failingNow = some true ∧ query.status.isSome then
    .error (invalidRequest ("'status' and 'failing_now' contradict each other. " ++
      "`failing_now=true` is exactly `status IN (retrying, failed, exhausted)`; pass one of them."))
  else do
    let createdAt ← dateRange query.createdAfter query.createdBefore
    .ok {
      status :=
        match query.status with
        | some s => some [s]
        | none => if query.failingNow = some true then some FAILING_NOW_STATUSES else none
      endpointId := query.endpointId
      eventId := query.eventId
      eventType := query.eventType
      createdAt := createdAt
      replayOfDeliveryId := query.origin.map (· = .original) }

variable {Id W : Type} [LinearOrder Id]

/-- Whether a row satisfies the clause; the event type is a join. -/
def DeliveryWhere.admits (clause : DeliveryWhere Id) (db : Records Id W) (d : Delivery Id W) :
    Bool :=
  clause.status.all (·.contains d.status) && clause.endpointId.all (· = d.endpointId) &&
    clause.eventId.all (· = d.eventId) &&
    clause.eventType.all (fun type =>
      db.events.any fun e => e.id = d.eventId && e.eventType = type) &&
    clause.createdAt.all (·.admits d.createdAt) &&
    clause.replayOfDeliveryId.all (· = d.replayOfDeliveryId.isNone)

section List

variable (ctx : ProjectContext Id) (db : Records Id W) (query : ListDeliveriesQuery Id)

def matching (clause : DeliveryWhere Id) : List (Delivery Id W) :=
  deliveriesWhere ctx db (clause.admits db)

/-- One page. `orderBy` is the order that the database picks for this statement. -/
def list (orderBy : List (Delivery Id W) → List (Delivery Id W)) :
    Except AppError (Page (Delivery Id W)) := do
  let clause ← filterWhere query
  .ok (findPage (orderBy (matching ctx db clause)) query.limit query.offset)

end List

omit [LinearOrder Id] in
/-- `orderBy: { createdAt: 'desc' }`. -/
abbrev newestFirst : Delivery Id W → Delivery Id W → Prop := descending Delivery.createdAt

/-- A client that starts at offset 0 and follows `next_offset` while `has_more` is set is given
every matching delivery exactly once, whatever order each statement runs in. -/
def VisitsEachOnce (ctx : ProjectContext Id) (db : Records Id W) (query : ListDeliveriesQuery Id)
    (clause : DeliveryWhere Id) : Prop :=
  ∀ orderBy : ℕ → List (Delivery Id W) → List (Delivery Id W),
    (∀ request rows, Answer newestFirst rows (orderBy request rows)) →
      ∃ pages : ℕ → ℕ → Page (Delivery Id W),
        (∀ request skip,
          list ctx db { query with offset := some skip } (orderBy request) =
            .ok (pages request skip)) ∧
        ∃ fuel seen, follow pages fuel 0 0 = some seen ∧ seen.Perm (matching ctx db clause)

section Paging

variable {ctx : ProjectContext Id} {db : Records Id W} {query : ListDeliveriesQuery Id}
  {clause : DeliveryWhere Id}

theorem list_eq (accepted : filterWhere query = .ok clause) (skip : ℕ)
    (orderBy : List (Delivery Id W) → List (Delivery Id W)) :
    list ctx db { query with offset := some skip } orderBy =
      .ok (cut (orderBy (matching ctx db clause)) (pageSize (ofQuery query.limit)) skip) := by
  have same : filterWhere { query with offset := some skip } = .ok clause := accepted
  simp only [list, same, findPage, offset_ofQuery]
  rfl

theorem matching_nodup : (matching ctx db clause).Nodup :=
  (List.Nodup.of_map _ db.deliveryKey).filter _

theorem visitsEachOnce_iff_not_cutsTie (accepted : filterWhere query = .ok clause) :
    VisitsEachOnce ctx db query clause ↔
      ¬ CutsTie newestFirst (pageSize (ofQuery query.limit)) (matching ctx db clause) := by
  rw [← follow_perm_iff (pageSize_pos _) matching_nodup]
  constructor
  · intro visits answers allowed
    choose orderBy ordered same using fun request => (allowed request).exists_orderBy
    obtain ⟨pages, listed, fuel, seen, followed, visited⟩ := visits orderBy ordered
    have read : pages = fetched answers (pageSize (ofQuery query.limit)) := by
      funext request skip
      have := (listed request skip).symm.trans (list_eq accepted skip (orderBy request))
      rw [Except.ok.inj this, same]
    exact ⟨fuel, seen, read ▸ followed, visited⟩
  · intro complete orderBy ordered
    refine ⟨fetched (fun request => orderBy request (matching ctx db clause)) _,
      fun request skip => list_eq accepted skip (orderBy request), ?_⟩
    exact complete _ fun request => ordered request _

omit [LinearOrder Id] in
theorem cutsTie_of_same_instant {rows : List (Delivery Id W)} {size : ℕ} {t : ℤ} (pos : 0 < size)
    (same : ∀ d ∈ rows, d.createdAt = t) (many : size < rows.length) :
    CutsTie newestFirst size rows := by
  obtain ⟨d, hd⟩ := List.exists_mem_of_length_pos (pos.trans many)
  have none_before : before newestFirst rows d = 0 := List.countP_eq_zero.mpr fun b hb => by
    simp [descending, same b hb, same d hd]
  have all_upTo : upTo newestFirst rows d = rows.length := List.countP_eq_length.mpr fun b hb => by
    simp [descending, same b hb, same d hd]
  refine ⟨d, hd, 1, ?_, ?_⟩
  · rw [none_before, Nat.one_mul]
    exact pos
  · rw [all_upTo, Nat.one_mul]
    exact many

theorem createdAt_of_insert {ev : Event Id} {now : ℤ} {pairs : List (Target Id × Id)}
    {deliveries : List (Delivery Id W)} (before : ∀ d ∈ deliveries, d.createdAt = timestamp3 now) :
    ∀ d ∈ insertDeliveriesSQL ev now pairs deliveries, d.createdAt = timestamp3 now := by
  induction pairs generalizing deliveries with
  | nil => exact before
  | cons pair pairs ih =>
    simp only [insertDeliveriesSQL]
    split
    · exact ih before
    · apply ih
      intro d hd
      obtain old | new := List.mem_append.mp hd
      · exact before d old
      · rw [List.mem_singleton.mp new]
        rfl

theorem not_visitsEachOnce_of_insert {ev : Event Id} {now : ℤ} {pairs : List (Target Id × Id)}
    (routed : db.deliveries = insertDeliveriesSQL ev now pairs [])
    (accepted : filterWhere query = .ok clause)
    (many : pageSize (ofQuery query.limit) < (matching ctx db clause).length) :
    ¬ VisitsEachOnce ctx db query clause := by
  rw [visitsEachOnce_iff_not_cutsTie accepted, not_not]
  have same : ∀ d ∈ matching ctx db clause, d.createdAt = timestamp3 now := by
    intro d hd
    have stored : d ∈ insertDeliveriesSQL ev now pairs [] :=
      routed ▸ ((mem_deliveriesWhere ctx db).mp hd).1
    exact createdAt_of_insert (List.forall_mem_nil _) d stored
  exact cutsTie_of_same_instant (pageSize_pos _) same many

/-- The client is given every matching delivery exactly once just if no multiple of the page size
lies strictly between the number of matching deliveries created after some matching delivery and
the number created no earlier than it. -/
theorem deliveries_listed_once_iff (accepted : filterWhere query = .ok clause) :
    VisitsEachOnce ctx db query clause ↔
      ∀ d ∈ matching ctx db clause, ∀ k,
        ¬ ((matching ctx db clause).countP (fun b => d.createdAt < b.createdAt) <
              k * pageSize (ofQuery query.limit) ∧
            k * pageSize (ofQuery query.limit) <
              (matching ctx db clause).countP (fun b => d.createdAt ≤ b.createdAt)) := by
  have newer (d : Delivery Id W) : before newestFirst (matching ctx db clause) d =
      (matching ctx db clause).countP fun b => d.createdAt < b.createdAt := by
    simp [before, descending]
  have noOlder (d : Delivery Id W) : upTo newestFirst (matching ctx db clause) d =
      (matching ctx db clause).countP fun b => d.createdAt ≤ b.createdAt := rfl
  rw [visitsEachOnce_iff_not_cutsTie accepted]
  simp only [CutsTie, newer, noOlder, not_exists, not_and]

end Paging

/-- No filter, and pages of one row. -/
def oneByOne : ListDeliveriesQuery ℕ :=
  ⟨none, none, none, none, none, none, none, none, some 1, none⟩

def noFilter : DeliveryWhere ℕ := ⟨none, none, none, none, none, none⟩

def order : Event ℕ := ⟨1, 1, 1, "order.created", 0⟩

def recordsOf (deliveries : List (Delivery ℕ ℕ)) (key : (deliveries.map Delivery.id).Nodup) :
    Records ℕ ℕ where
  events := [⟨order, .processed, none⟩]
  endpoints := [⟨1, 1, "a", "https://a.test", .active, true, 0⟩,
    ⟨2, 1, "b", "https://b.test", .active, true, 0⟩]
  endpointHealth := []
  deliveries := deliveries
  eventKey := List.nodup_singleton _
  endpointKey := of_decide_eq_true rfl
  healthKey := List.nodup_nil
  deliveryKey := key

/-- Two deliveries of one event, the second routed a millisecond later. -/
def staggered : Records ℕ ℕ :=
  recordsOf (insertDeliveriesSQL order 1000000 [(⟨2, 2, 5⟩, 2)]
    (insertDeliveriesSQL order 0 [(⟨1, 1, 5⟩, 1)] [])) (of_decide_eq_true rfl)

def broadcast : Records ℕ ℕ :=
  recordsOf (insertDeliveriesSQL order 0 [(⟨1, 1, 5⟩, 1), (⟨2, 2, 5⟩, 2)] [])
    (of_decide_eq_true rfl)

theorem staggered_listed_once :
    filterWhere oneByOne = .ok noFilter ∧ VisitsEachOnce ⟨1, 1⟩ staggered oneByOne noFilter := by
  refine ⟨rfl, (deliveries_listed_once_iff rfl).mpr ?_⟩
  have size : pageSize (ofQuery oneByOne.limit) = 1 := by
    rw [show oneByOne.limit = some 1 from rfl, pageSize_some]
    rfl
  have gaps : ∀ d ∈ matching ⟨1, 1⟩ staggered noFilter,
      (matching ⟨1, 1⟩ staggered noFilter).countP (fun b => d.createdAt ≤ b.createdAt) =
        (matching ⟨1, 1⟩ staggered noFilter).countP (fun b => d.createdAt < b.createdAt) + 1 := by
    decide
  intro d hd k
  rw [size, gaps d hd]
  omega

/-- Two deliveries of one event, created at one instant, paged one by one. -/
theorem broadcast_not_listed_once :
    broadcast.deliveries = insertDeliveriesSQL order 0 [(⟨1, 1, 5⟩, 1), (⟨2, 2, 5⟩, 2)] [] ∧
      filterWhere oneByOne = .ok noFilter ∧
      ¬ VisitsEachOnce ⟨1, 1⟩ broadcast oneByOne noFilter := by
  refine ⟨rfl, rfl, not_visitsEachOnce_of_insert rfl rfl ?_⟩
  rw [show oneByOne.limit = some 1 from rfl, pageSize_some]
  decide

end Hookubit.Deliveries.DeliveryList
