/- sources: router/store.go, ingest/store.go (insertEventSQL, insertOutboxSQL),
     outbox.service.ts returnToQueue
   digest: The events, outbox and deliveries tables under the router's transactions. -/

import Hookubit.Data.KeysetPage
import Hookubit.Router.Planning

/-!
Ids are an arbitrary linear order with a least element, which stands for the empty string
and for a null cursor. Router and worker ids are arbitrary types. A transaction is a function
from tables to tables that returns its argument where the code rolls back. The columns that
no statement reads back (`last_error`, `trace_context`, `ordering_key`, payloads) are left out.
-/

set_option autoImplicit false
set_option relaxedAutoImplicit false

namespace Hookubit.Router.Store

open Data.KeysetPage Data.Rows Postgres.Clock Queue.Deliveries Router.Planning
open Worker.Store (EndpointStatus)

inductive EventStatus
  | received | processing | processed | failed
  deriving DecidableEq

inductive OutboxStatus
  | pending | processing | processed | failed
  deriving DecidableEq

structure EventRow (Id : Type) extends Event Id where
  status : EventStatus
  processedAt : Option ℤ
  deriving DecidableEq

/-- One `event_outbox` row, which is also what a claim hands to the router. -/
structure OutboxRow (Id R : Type) where
  id : Id
  eventID : Id
  type : String
  status : OutboxStatus
  attempts : ℤ
  unaccountedAttempts : ℤ
  availableAt : ℤ
  routingCursor : Id
  failingSince : Option ℤ
  lockedBy : Option R
  lockedUntil : Option ℤ
  processedAt : Option ℤ
  createdAt : ℤ
  deriving DecidableEq

structure SubscriptionRow (Id : Type) where
  id : Id
  projectID : Id
  endpointID : Id
  eventTypes : List String
  enabled : Bool
  createdAt : ℤ
  deriving DecidableEq

structure EndpointRow (Id : Type) where
  id : Id
  projectID : Id
  status : EndpointStatus
  enabled : Bool
  retryPolicyID : Option Id
  deriving DecidableEq

structure ProjectRow (Id : Type) where
  id : Id
  organizationID : Id
  status : TenantStatus
  deriving DecidableEq

structure OrganizationRow (Id : Type) where
  id : Id
  status : TenantStatus
  deriving DecidableEq

structure RetryPolicyRow (Id : Type) where
  id : Id
  projectID : Id
  maxAttempts : ℤ
  isDefault : Bool
  createdAt : ℤ
  deriving DecidableEq

/-- The configuration tables that a routing transaction joins. Ids are minted with a type tag
in front (`newId`), so none is empty. -/
structure Directory (Id : Type) [Bot Id] where
  subscriptions : List (SubscriptionRow Id)
  endpoints : List (EndpointRow Id)
  projects : List (ProjectRow Id)
  organizations : List (OrganizationRow Id)
  retryPolicies : List (RetryPolicyRow Id)
  primaryKey : (subscriptions.map SubscriptionRow.id).Nodup
  minted : ∀ s ∈ subscriptions, s.id ≠ ⊥

structure Tables (Id R W : Type) where
  events : List (EventRow Id)
  outbox : List (OutboxRow Id R)
  deliveries : List (Delivery Id W)

variable {Id R W : Type} [LinearOrder Id] [OrderBot Id] [DecidableEq R] {now : ℤ} {limit : ℕ}
  {o : OutboxRow Id R} {db : Tables Id R W}

/-- The joins of `loadCandidatesSQL` for one subscription; an inner join drops it. -/
def Directory.candidate (dir : Directory Id) (s : SubscriptionRow Id) : Option (Candidate Id) :=
  (dir.endpoints.find? (·.id = s.endpointID)).bind fun ep =>
  (dir.projects.find? (·.id = ep.projectID)).bind fun p =>
  (dir.organizations.find? (·.id = p.organizationID)).map fun o =>
    let rp := ep.retryPolicyID.bind fun id => dir.retryPolicies.find? (·.id = id)
    let dp := (pick (fun a b : RetryPolicyRow Id =>
        a.createdAt < b.createdAt ∨ a.createdAt = b.createdAt ∧ a.id ≤ b.id)
      (fun r => r.projectID = p.id && r.isDefault) 1 dir.retryPolicies).head?
    { subscriptionID := s.id
      endpointID := s.endpointID
      eventTypes := s.eventTypes
      enabled := s.enabled
      endpointProjectID := ep.projectID
      endpointOrganizationID := p.organizationID
      endpointStatus := ep.status
      endpointEnabled := ep.enabled
      projectStatus := p.status
      organizationStatus := o.status
      endpointMaxAttempts := (rp.map RetryPolicyRow.maxAttempts).getD 0
      projectDefaultMaxAttempts := (dp.map RetryPolicyRow.maxAttempts).getD 0 }

/-- All subscriptions of a project that existed when an event was published, in id order. -/
def Directory.candidates (dir : Directory Id) (projectID : Id) (publishedAt : ℤ) :
    List (Candidate Id) :=
  ordered Candidate.subscriptionID
    ((dir.subscriptions.filter fun s => s.projectID = projectID &&
      s.createdAt ≤ publishedAt).filterMap
      dir.candidate)

theorem Directory.candidate_subscriptionID {dir : Directory Id} {s : SubscriptionRow Id}
    {c : Candidate Id} (joined : dir.candidate s = some c) : c.subscriptionID = s.id := by
  obtain ⟨ep, _, joined⟩ := Option.bind_eq_some_iff.mp joined
  obtain ⟨p, _, joined⟩ := Option.bind_eq_some_iff.mp joined
  obtain ⟨o, _, rfl⟩ := Option.map_eq_some_iff.mp joined
  rfl

theorem Directory.candidates_strict (dir : Directory Id) (projectID : Id) (publishedAt : ℤ) :
    (dir.candidates projectID publishedAt).Pairwise fun a b =>
      a.subscriptionID < b.subscriptionID := by
  refine ordered_strict (List.pairwise_map.mpr (List.Pairwise.filterMap _ ?_
    (((List.pairwise_map.mp dir.primaryKey)).sublist List.filter_sublist)))
  intro a b apart c hc d hd
  rw [Directory.candidate_subscriptionID hc, Directory.candidate_subscriptionID hd]
  exact apart

theorem Directory.candidates_nodup (dir : Directory Id) (projectID : Id) (publishedAt : ℤ) :
    ((dir.candidates projectID publishedAt).map Candidate.subscriptionID).Nodup :=
  List.pairwise_map.mpr ((dir.candidates_strict projectID publishedAt).imp fun h => h.ne)

theorem Directory.upTo_bot (dir : Directory Id) (projectID : Id) (publishedAt : ℤ) :
    upTo Candidate.subscriptionID (dir.candidates projectID publishedAt) ⊥ = [] := by
  apply List.filter_eq_nil_iff.mpr
  intro c hc
  rw [Directory.candidates, ordered, List.mem_insertionSort] at hc
  obtain ⟨s, hs, joined⟩ := List.mem_filterMap.mp hc
  rw [Directory.candidate_subscriptionID joined]
  simpa using dir.minted s (List.mem_filter.mp hs).1

/-- One page of them behind the cursor. -/
def loadCandidatesSQL (dir : Directory Id) (projectID cursor : Id) (publishedAt : ℤ) (limit : ℕ) :
    List (Candidate Id) :=
  (beyond Candidate.subscriptionID (dir.candidates projectID publishedAt) cursor).take limit

/-- `loadCandidates` reads one row more than the batch, to learn whether another page exists. -/
def loadCandidates (dir : Directory Id) (projectID cursor : Id) (publishedAt : ℤ) (batch : ℕ) :
    List (Candidate Id) × Bool :=
  let rows := loadCandidatesSQL dir projectID cursor publishedAt (batch + 1)
  (rows.take batch, batch < rows.length)

theorem loadCandidates_fst (dir : Directory Id) (projectID cursor : Id) (publishedAt : ℤ)
    (batch : ℕ) : (loadCandidates dir projectID cursor publishedAt batch).1 =
      (beyond Candidate.subscriptionID
        (dir.candidates projectID publishedAt) cursor).take batch := by
  simp [loadCandidates, loadCandidatesSQL, List.take_take]

theorem loadCandidates_snd (dir : Directory Id) (projectID cursor : Id) (publishedAt : ℤ)
    (batch : ℕ) : (loadCandidates dir projectID cursor publishedAt batch).2 = true ↔
      batch < (beyond Candidate.subscriptionID
        (dir.candidates projectID publishedAt) cursor).length := by
  simp [loadCandidates, loadCandidatesSQL]

section Statements

omit [OrderBot Id]

def outboxOrder (a b : OutboxRow Id R) : Prop :=
  a.availableAt < b.availableAt ∨ a.availableAt = b.availableAt ∧
    (a.createdAt < b.createdAt ∨ a.createdAt = b.createdAt ∧ a.id ≤ b.id)

instance : DecidableRel (@outboxOrder Id R _) := fun a b => by
  unfold outboxOrder
  infer_instance

/-- `failed` is not in the set: it is the parking bay. -/
def outboxReady (now : ℤ) (o : OutboxRow Id R) : Bool :=
  (o.status = .pending || o.status = .processing) && o.availableAt ≤ now &&
    lapsed o.lockedUntil now

/-- The `SET` clause of `claimOutboxSQL`: both counters move in the committed claim. -/
def claimOutboxRow (routerID : R) (lease now : ℤ) (o : OutboxRow Id R) : OutboxRow Id R :=
  { o with
    status := .processing
    attempts := o.attempts + 1
    unaccountedAttempts := o.unaccountedAttempts + 1
    lockedBy := some routerID
    lockedUntil := some (timestamp3 (now + intervalOf lease)) }

def markEventsProcessingSQL (ids : List Id) (e : EventRow Id) : Option (EventRow Id) :=
  if e.id ∈ ids ∧ e.status = .received then some { e with status := .processing } else none

def markEventProcessedSQL (id : Id) (now : ℤ) (e : EventRow Id) : Option (EventRow Id) :=
  if e.id = id ∧ e.status ≠ .processed then
    some { e with status := .processed, processedAt := some (timestamp3 now) }
  else none

omit [DecidableEq R] in
theorem getD_markEventProcessedSQL (id : Id) (now : ℤ) (e : EventRow Id) :
    ((markEventProcessedSQL id now e).getD e).toEvent = e.toEvent ∧
      (((markEventProcessedSQL id now e).getD e).status = .processed ↔
        e.id = id ∨ e.status = .processed) := by
  unfold markEventProcessedSQL
  by_cases hit : e.id = id ∧ e.status ≠ .processed
  · simp [hit]
  · rw [if_neg hit, Option.getD_none]
    grind

def markOutboxProcessedSQL (id : Id) (routerID : R) (now : ℤ) (o : OutboxRow Id R) :
    Option (OutboxRow Id R) :=
  if o.id = id ∧ o.lockedBy = some routerID then
    some { o with
      status := .processed
      processedAt := some (timestamp3 now)
      lockedBy := none
      lockedUntil := none
      failingSince := none
      unaccountedAttempts := 0 }
  else none

theorem getD_markOutboxProcessedSQL (id : Id) (routerID : R) (now : ℤ) (o : OutboxRow Id R) :
    ((markOutboxProcessedSQL id routerID now o).getD o).eventID = o.eventID ∧
      (((markOutboxProcessedSQL id routerID now o).getD o).status = .processed ↔
        (o.id = id ∧ o.lockedBy = some routerID) ∨ o.status = .processed) := by
  unfold markOutboxProcessedSQL
  by_cases held : o.id = id ∧ o.lockedBy = some routerID
  · simp [held]
  · simp [held]

/-- Progress is committed, one claim is refunded and the row is ready at once. -/
def advanceRoutingSQL (id : Id) (routerID : R) (cursor : Id) (now : ℤ) (o : OutboxRow Id R) :
    Option (OutboxRow Id R) :=
  if o.id = id ∧ o.lockedBy = some routerID then
    some { o with
      status := .pending
      availableAt := dateTruncMilliseconds now
      routingCursor := cursor
      lockedBy := none
      lockedUntil := none
      failingSince := none
      unaccountedAttempts := max (o.unaccountedAttempts - 1) 0 }
  else none

def releaseOutboxSQL (id : Id) (routerID : R) (retryAfter now : ℤ) (o : OutboxRow Id R) :
    Option (OutboxRow Id R) :=
  if o.id = id ∧ o.lockedBy = some routerID then
    some { o with
      status := .pending
      availableAt := dateTruncMilliseconds (now + intervalOf retryAfter)
      lockedBy := none
      lockedUntil := none
      failingSince := some (o.failingSince.getD (timestamp3 now))
      unaccountedAttempts := max (o.unaccountedAttempts - 1) 0 }
  else none

def parkOutboxSQL (id : Id) (routerID : R) (now : ℤ) (o : OutboxRow Id R) :
    Option (OutboxRow Id R) :=
  if o.id = id ∧ o.lockedBy = some routerID then
    some { o with
      status := .failed
      processedAt := some (timestamp3 now)
      lockedBy := none
      lockedUntil := none }
  else none

def failEventSQL (id : Id) (now : ℤ) (e : EventRow Id) : Option (EventRow Id) :=
  if e.id = id ∧ e.status ≠ .processed then
    some { e with status := .failed, processedAt := some (timestamp3 now) }
  else none

/-- An original delivery of the event to the endpoint: what the partial unique index covers. -/
def isOriginal (eventID endpointID : Id) (d : Delivery Id W) : Bool :=
  d.eventId = eventID && d.endpointId = endpointID && d.replayOfDeliveryId.isNone

/-- `insertDeliveriesSQL`: row by row, `ON CONFLICT … DO NOTHING`. -/
def insertDeliveriesSQL (ev : Event Id) (now : ℤ) :
    List (Target Id × Id) → List (Delivery Id W) → List (Delivery Id W)
  | [], deliveries => deliveries
  | (t, id) :: rest, deliveries =>
    if deliveries.any (isOriginal ev.id t.endpointID) then
      insertDeliveriesSQL ev now rest deliveries
    else
      insertDeliveriesSQL ev now rest (deliveries ++
        [.inserted id ev.id t.endpointID t.subscriptionID ev.organizationID ev.projectID
          t.maxAttempts now])

end Statements

section Claims

omit [OrderBot Id] [DecidableEq R]

/-- `ClaimOutbox`. `skip` says which rows another transaction has locked at that moment. -/
def ClaimOutbox (routerID : R) (limit : ℕ) (lease now : ℤ) (skip : Id → Bool)
    (db : Tables Id R W) : List (OutboxRow Id R) × Tables Id R W :=
  let ids := (pick outboxOrder (fun o => outboxReady now o && !skip o.id) limit db.outbox).map
    OutboxRow.id
  let outbox := updateWhere
    (fun o => if o.id ∈ ids then some (claimOutboxRow routerID lease now o) else none) db.outbox
  let claimed := outbox.filter fun o => o.id ∈ ids
  (claimed, { db with
    outbox := outbox
    events := updateWhere (markEventsProcessingSQL (claimed.map OutboxRow.eventID)) db.events })

theorem ready_of_picked {skip : Id → Bool} {outbox : List (OutboxRow Id R)}
    (key : (outbox.map OutboxRow.id).Nodup) (ho : o ∈ outbox)
    (picked : o.id ∈ (pick outboxOrder
      (fun o => outboxReady now o && !skip o.id) limit outbox).map OutboxRow.id) :
    outboxReady now o = true := by
  obtain ⟨p, hp, same⟩ := List.mem_map.mp picked
  obtain ⟨inside, ready⟩ := of_mem_pick hp
  obtain rfl := List.inj_on_of_nodup_map key inside ho same
  rw [Bool.and_eq_true] at ready
  exact ready.1

theorem of_mem_claimOutbox {routerID : R} {lease : ℤ} {skip : Id → Bool}
    (key : (db.outbox.map OutboxRow.id).Nodup) {q : OutboxRow Id R}
    (hq : q ∈ (ClaimOutbox routerID limit lease now skip db).1) :
    q ∈ (ClaimOutbox routerID limit lease now skip db).2.outbox ∧
      ∃ o ∈ db.outbox, outboxReady now o = true ∧ q = claimOutboxRow routerID lease now o := by
  obtain ⟨inside, picked⟩ := List.mem_filter.mp hq
  refine ⟨inside, ?_⟩
  obtain ⟨o, ho, moved⟩ := mem_updateWhere.mp inside
  rw [decide_eq_true_iff] at picked
  split at moved
  · rename_i chosen
    exact ⟨o, ho, ready_of_picked key ho chosen, moved.symm⟩
  · rename_i passed
    obtain rfl : o = q := moved
    exact absurd picked passed

theorem claimOutbox_cases (routerID : R) (limit : ℕ) (lease now : ℤ) (skip : Id → Bool)
    (ho : o ∈ db.outbox) :
    claimOutboxRow routerID lease now o ∈ (ClaimOutbox routerID limit lease now skip db).1 ∨
      o ∈ (ClaimOutbox routerID limit lease now skip db).2.outbox ∧
        ∀ q ∈ (ClaimOutbox routerID limit lease now skip db).1, q.id ≠ o.id := by
  by_cases picked : o.id ∈ (pick outboxOrder (fun o => outboxReady now o && !skip o.id) limit
      db.outbox).map OutboxRow.id
  · refine .inl (List.mem_filter.mpr ⟨mem_updateWhere.mpr ⟨o, ho, ?_⟩, ?_⟩)
    · rw [if_pos picked, Option.getD_some]
    · simpa [claimOutboxRow] using picked
  · refine .inr ⟨mem_updateWhere.mpr ⟨o, ho, ?_⟩, fun q hq same => picked ?_⟩
    · rw [if_neg picked, Option.getD_none]
    · rw [← same]
      simpa using (List.mem_filter.mp hq).2

theorem mem_claimOutbox {routerID : R} {lease : ℤ} (wide : db.outbox.length ≤ limit)
    (ho : o ∈ db.outbox) (ready : outboxReady now o = true) : claimOutboxRow routerID lease now o ∈
      (ClaimOutbox routerID limit lease now (fun _ => false) db).1 := by
  have picked : o.id ∈ (pick outboxOrder (fun o => outboxReady now o && !false) limit
      db.outbox).map OutboxRow.id :=
    List.mem_map_of_mem (mem_pick wide ho (by simpa using ready))
  refine List.mem_filter.mpr
    ⟨mem_updateWhere.mpr ⟨o, ho, ?_⟩, by simpa [claimOutboxRow] using picked⟩
  simp only [if_pos picked, Option.getD_some]

end Claims

/-- How a routing transaction ended. `failed` is an error before the commit. -/
inductive Outcome
  | routed | routingContinued | noSubscriptions | eventMissing | leaseLost | failed
  deriving DecidableEq

def Outcome.committed : Outcome → Bool
  | .routed | .routingContinued | .noSubscriptions => true
  | _ => false

def DefaultRoutingBatch : ℤ := 2000

def resolveBatch (routingBatch : ℤ) : ℤ :=
  if routingBatch ≤ 0 then DefaultRoutingBatch else routingBatch

/-- The primary key accepts the minted ids. -/
def mintable (minted : List Id) (targets : List (Target Id)) (deliveries : List (Delivery Id W)) :
    Bool :=
  minted.length = targets.length && minted.Nodup &&
    minted.all fun id => id ∉ deliveries.map Delivery.id

/-- `Route`: one batch of an event's routing in one transaction. -/
def Route (dir : Directory Id) (routerID : R) (row : OutboxRow Id R) (routingBatch : ℤ)
    (minted : List Id) (now : ℤ) (db : Tables Id R W) : Outcome × Tables Id R W :=
  match db.events.find? (·.id = row.eventID) with
  | none => (.eventMissing, db)
  | some ev =>
    let batch := resolveBatch routingBatch
    let page := loadCandidates dir ev.projectID row.routingCursor ev.createdAt batch.toNat
    let plan := BuildPlan ev.toEvent page.1 batch
    if 0 < plan.truncated ∨ mintable minted plan.targets db.deliveries = false then (.failed, db)
    else
      let deliveries := insertDeliveriesSQL ev.toEvent now (plan.targets.zip minted) db.deliveries
      match page.2, page.1.getLast? with
      | true, some last =>
        let advance := advanceRoutingSQL row.id routerID last.subscriptionID now
        if rowsAffected advance db.outbox = 0 then (.leaseLost, db)
        else (.routingContinued,
          { db with outbox := updateWhere advance db.outbox, deliveries := deliveries })
      | true, none => (.failed, db)
      | false, _ =>
        let retire := markOutboxProcessedSQL row.id routerID now
        if rowsAffected retire db.outbox = 0 then (.leaseLost, db)
        else
          (if plan.targets = [] ∧ row.routingCursor = ⊥ then .noSubscriptions else .routed,
            { events := updateWhere (markEventProcessedSQL ev.id now) db.events
              outbox := updateWhere retire db.outbox
              deliveries := deliveries })

/-- What `Route` may do to the tables: nothing, a batch with its cursor, or the last batch
with the end of the event and of the outbox row. -/
inductive Routed (dir : Directory Id) (routerID : R) (row : OutboxRow Id R) (batch : ℤ)
    (minted : List Id) (now : ℤ) (db : Tables Id R W) : Outcome → Tables Id R W → Prop
  | rolledBack {outcome : Outcome} : outcome.committed = false →
      Routed dir routerID row batch minted now db outcome db
  | continued {ev : EventRow Id} {page : List (Candidate Id)} {last : Candidate Id} :
      db.events.find? (·.id = row.eventID) = some ev →
      page = (beyond Candidate.subscriptionID (dir.candidates ev.projectID ev.createdAt)
        row.routingCursor).take (resolveBatch batch).toNat →
      page.getLast? = some last →
      mintable minted (BuildPlan ev.toEvent page 0).targets db.deliveries = true →
      0 < rowsAffected (advanceRoutingSQL row.id routerID last.subscriptionID now) db.outbox →
      Routed dir routerID row batch minted now db .routingContinued
        { db with
          outbox := updateWhere
            (advanceRoutingSQL row.id routerID last.subscriptionID now) db.outbox
          deliveries := insertDeliveriesSQL ev.toEvent now
            ((BuildPlan ev.toEvent page 0).targets.zip minted) db.deliveries }
  | finished {outcome : Outcome} {ev : EventRow Id} {page : List (Candidate Id)} :
      outcome = .routed ∨ outcome = .noSubscriptions →
      db.events.find? (·.id = row.eventID) = some ev →
      page = beyond Candidate.subscriptionID (dir.candidates ev.projectID ev.createdAt)
        row.routingCursor →
      mintable minted (BuildPlan ev.toEvent page 0).targets db.deliveries = true →
      0 < rowsAffected (markOutboxProcessedSQL row.id routerID now) db.outbox →
      Routed dir routerID row batch minted now db outcome
        { events := updateWhere (markEventProcessedSQL ev.id now) db.events
          outbox := updateWhere (markOutboxProcessedSQL row.id routerID now) db.outbox
          deliveries := insertDeliveriesSQL ev.toEvent now
            ((BuildPlan ev.toEvent page 0).targets.zip minted) db.deliveries }

theorem route_routed (dir : Directory Id) (routerID : R) (row : OutboxRow Id R) (batch : ℤ)
    (minted : List Id) (now : ℤ) (db : Tables Id R W) :
    Routed dir routerID row batch minted now db (Route dir routerID row batch minted now db).1
      (Route dir routerID row batch minted now db).2 := by
  unfold Route
  cases found : db.events.find? (·.id = row.eventID) with
  | none => exact .rolledBack rfl
  | some ev =>
    dsimp only
    by_cases clean : 0 < (BuildPlan ev.toEvent (loadCandidates dir ev.projectID row.routingCursor
        ev.createdAt (resolveBatch batch).toNat).1 (resolveBatch batch)).truncated ∨
      mintable minted (BuildPlan ev.toEvent (loadCandidates dir ev.projectID row.routingCursor
        ev.createdAt (resolveBatch batch).toNat).1 (resolveBatch batch)).targets db.deliveries =
          false
    · rw [if_pos clean]
      exact .rolledBack rfl
    rw [if_neg clean]
    rw [not_or, not_lt, Nat.le_zero, Bool.not_eq_false] at clean
    obtain ⟨whole, fresh⟩ := clean
    rw [buildPlan_uncapped whole] at fresh ⊢
    have page := loadCandidates_fst dir ev.projectID row.routingCursor ev.createdAt
      (resolveBatch batch).toNat
    split
    · rename_i last more ends
      split
      · exact .rolledBack rfl
      · rename_i held
        exact .continued found page ends fresh (Nat.pos_of_ne_zero held)
    · exact .rolledBack rfl
    · rename_i last_page
      split
      · exact .rolledBack rfl
      · rename_i held
        refine .finished ?_ found ?_ fresh (Nat.pos_of_ne_zero held)
        · split
          · exact .inr rfl
          · exact .inl rfl
        · rw [page, List.take_of_length_le]
          rw [← Bool.not_eq_true, loadCandidates_snd, not_lt] at last_page
          exact last_page

/-- `ParkOutbox`; the flag says whether the lease was still held. -/
def ParkOutbox (routerID : R) (outboxID eventID : Id) (now : ℤ) (db : Tables Id R W) :
    Bool × Tables Id R W :=
  let park := parkOutboxSQL outboxID routerID now
  if rowsAffected park db.outbox = 0 then (false, db)
  else (true,
    { db with
      outbox := updateWhere park db.outbox
      events := if eventID =
        ⊥ then db.events else updateWhere (failEventSQL eventID now) db.events })

omit [OrderBot Id] in
def ReleaseOutbox (routerID : R) (outboxID : Id) (retryAfter now : ℤ) (db : Tables Id R W) :
    Bool × Tables Id R W :=
  let retryAfter := if retryAfter < 0 then 0 else retryAfter
  let release := releaseOutboxSQL outboxID routerID retryAfter now
  if rowsAffected release db.outbox = 0 then (false, db)
  else (true, { db with outbox := updateWhere release db.outbox })

omit [OrderBot Id] in
theorem releaseOutbox_eq (routerID : R) (outboxID : Id) (retryAfter now : ℤ) (db : Tables Id R W) :
    let release := releaseOutboxSQL outboxID routerID (if retryAfter < 0 then 0 else retryAfter) now
    ReleaseOutbox routerID outboxID retryAfter now db =
      (decide (0 < rowsAffected release db.outbox),
        { db with outbox := updateWhere release db.outbox }) := by
  intro release
  unfold ReleaseOutbox
  dsimp only
  by_cases lost : rowsAffected release db.outbox = 0
  · rw [if_pos lost, updateWhere_of_rowsAffected_eq_zero lost, lost]
    rfl
  · rw [if_neg lost, decide_eq_true (Nat.pos_of_ne_zero lost)]

omit [LinearOrder Id] [OrderBot Id] [DecidableEq R] in
/-- The two budgets are reset; `attempts` and the cursor stay. -/
def requeuedRow (apiNow : ℤ) (o : OutboxRow Id R) : OutboxRow Id R :=
  { o with
    status := .pending
    availableAt := timestamp3 apiNow
    processedAt := none
    lockedBy := none
    lockedUntil := none
    unaccountedAttempts := 0
    failingSince := none }

omit [OrderBot Id] [DecidableEq R] in
/-- `returnToQueue` on the rows of `ids` that are parked. -/
def returnToQueue (ids : List Id) (apiNow : ℤ) (db : Tables Id R W) : Tables Id R W :=
  let parked := db.outbox.filter fun o => o.id ∈ ids && o.status = .failed
  { db with
    outbox := updateWhere (fun o =>
      if o.id ∈ ids ∧ o.status = .failed then some (requeuedRow apiNow o) else none) db.outbox
    events := updateWhere (fun e =>
      if e.id ∈ parked.map OutboxRow.eventID ∧ e.status = .failed then
        some { e with status := .received }
      else none) db.events }

/-- The two inserts of `CreateEvent`, `none` where a primary key is taken. -/
def insertEvent (ev : Event Id) (outboxID : Id) (now : ℤ) (db : Tables Id R W) :
    Option (Tables Id R W) :=
  if ev.id ∈ db.events.map (·.id) ∨ outboxID ∈ db.outbox.map OutboxRow.id then none
  else some { db with
    events := db.events ++ [⟨{ ev with createdAt := timestamp3 now }, .received, none⟩]
    outbox := db.outbox ++ [{
      id := outboxID
      eventID := ev.id
      type := "event.created"
      status := .pending
      attempts := 0
      unaccountedAttempts := 0
      availableAt := timestamp3 now
      routingCursor := ⊥
      failingSince := none
      lockedBy := none
      lockedUntil := none
      processedAt := none
      createdAt := timestamp3 now }] }

end Hookubit.Router.Store
