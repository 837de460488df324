/- sources: ingest/store.go, router/router.go, router/store.go, queue/postgres.go,
     worker/store.go, outbox.service.ts, delivery-replay.service.ts
   digest: Ingest, routers, workers and operators over the shared tables, one transaction a step. -/

import Hookubit.Router.Process
import Hookubit.Worker.AttemptLedger

/-!
A router claims a batch and waits for the goroutine of every row before it claims again, so
it never holds two leases on one row. A goroutine walks through `process`: it parks the row,
or routes it and then, if that failed, releases it; it may die between any two statements. A
transaction that fails and rolls back is either no step or, where the router goes on from it,
the step `routeError`. What a worker writes is any transition that its goroutines can hand to
the store.
-/

set_option autoImplicit false
set_option relaxedAutoImplicit false

namespace Hookubit.Pipeline.Machine

open Automata.LabelledSystem Data.Rows Postgres.Clock Queue.Deliveries Router.Planning Router.Store
open Router.Process Worker.Store
open Worker.AttemptLedger (Write)

inductive Phase
  | claimed | routing | parking (reason : ParkReason) | releasing
  deriving DecidableEq

def Phase.isParking : Phase → Bool
  | .parking _ => true
  | _ => false

/-- The goroutine of one claimed row; `row` is the row as the claim returned it. -/
structure Task (Id R : Type) where
  router : R
  row : OutboxRow Id R
  phase : Phase
  deriving DecidableEq

structure Platform (Id R W : Type) where
  clock : ℤ
  db : Tables Id R W
  tasks : List (Task Id R)

inductive Op (Id R W : Type) [Bot Id]
  | tick (now : ℤ)
  | createEvent (ev : Event Id) (outboxID : Id)
  | claimOutbox (r : R) (limit : ℕ) (lease : ℤ) (skip : Id → Bool) (received : Bool)
  | process (task : Task Id R) (now : ℤ)
  | route (task : Task Id R) (dir : Directory Id) (batch : ℤ) (minted : List Id) (replied : Bool)
  | routeError (task : Task Id R)
  | releaseOutbox (task : Task Id R) (retryAfter : ℤ)
  | parkOutbox (task : Task Id R)
  | abandon (task : Task Id R)
  | requeue (ids : List Id) (apiNow : ℤ)
  | claim (w : W) (limit : ℕ) (lease : ℤ) (skip : Id → Bool)
  | renew (w : W) (ids : List Id) (lease : ℤ)
  | release (w : W) (id : Id)
  | reclaimExpired
  | write (w : W) (id : Id) (x : Write) (job : Option Job)
  | replay (original id : Id) (subscriptionId : Option Id) (apiNow : ℤ)

/-- The workers' statements, which touch the deliveries only. -/
def Op.byWorker {Id R W : Type} [Bot Id] : Op Id R W → Bool
  | .claim .. | .renew .. | .release .. | .reclaimExpired | .write .. => true
  | _ => false

variable {Id R W : Type} [LinearOrder Id] [OrderBot Id] [DecidableEq R] [DecidableEq W]

omit [OrderBot Id] [DecidableEq W] in
def Platform.finish (s : Platform Id R W) (task : Task Id R) (db : Tables Id R W) :
    Platform Id R W :=
  { s with db := db, tasks := s.tasks.filter (· ≠ task) }

omit [OrderBot Id] [DecidableEq W] in
def Platform.goOn (s : Platform Id R W) (task : Task Id R) (phase : Phase) (db : Tables Id R W) :
    Platform Id R W :=
  { s with db := db, tasks := { task with phase := phase } :: s.tasks.filter (· ≠ task) }

omit [OrderBot Id] [DecidableEq R] [DecidableEq W] in
/-- A statement on the deliveries table only. -/
def Platform.deliver (s : Platform Id R W) (deliveries : List (Delivery Id W)) :
    Platform Id R W :=
  { s with db := { s.db with deliveries := deliveries } }

/-- `insertReplay`: a fresh lifecycle that points at the original. -/
def insertReplay (original : Delivery Id W) (id : Id) (subscriptionId : Option Id) (apiNow : ℤ) :
    Delivery Id W :=
  { original with
    id := id
    subscriptionId := subscriptionId
    status := .pending
    attemptCount := 0
    nextAttemptAt := timestamp3 apiNow
    lastAttemptAt := none
    completedAt := none
    lastError := none
    lockedBy := none
    lockedUntil := none
    replayOfDeliveryId := some original.id
    createdAt := timestamp3 apiNow }

def next (opts : R → Options) (s : Platform Id R W) : Op Id R W → Option (Platform Id R W)
  | .tick now => if s.clock ≤ now then some { s with clock := now } else none
  | .createEvent ev outboxID => (insertEvent ev outboxID s.clock s.db).map ({ s with db := · })
  | .claimOutbox r limit lease skip received =>
      if ∃ task ∈ s.tasks, task.router = r then none
      else
        let claim := ClaimOutbox r limit lease s.clock skip s.db
        some { s with
          db := claim.2
          tasks := if received then claim.1.map (⟨r, ·, .claimed⟩) ++ s.tasks else s.tasks }
  | .process task now =>
      if task ∈ s.tasks ∧ task.phase = .claimed then
        match process (opts task.router) task.row now with
        | some reason => some (s.goOn task (.parking reason) s.db)
        | none => some (s.goOn task .routing s.db)
      else none
  | .route task dir batch minted replied =>
      if task ∈ s.tasks ∧ task.phase = .routing then
        let result := Route dir task.router task.row batch minted s.clock s.db
        -- A commit whose reply is lost looks to the router like a failure.
        if replied then
          match result.1 with
          | .eventMissing => some (s.goOn task (.parking .eventMissing) result.2)
          | .failed => some (s.goOn task .releasing result.2)
          | _ => some (s.finish task result.2)
        else some (s.goOn task .releasing result.2)
      else none
  | .routeError task =>
      if task ∈ s.tasks ∧ task.phase = .routing then some (s.goOn task .releasing s.db) else none
  | .releaseOutbox task retryAfter =>
      if task ∈ s.tasks ∧ task.phase = .releasing then
        some (s.finish task (ReleaseOutbox task.router task.row.id retryAfter s.clock s.db).2)
      else none
  | .parkOutbox task =>
      if task ∈ s.tasks ∧ task.phase.isParking = true then
        some (s.finish task (ParkOutbox task.router task.row.id task.row.eventID s.clock s.db).2)
      else none
  | .abandon task => if task ∈ s.tasks then some (s.finish task s.db) else none
  | .requeue ids apiNow => some { s with db := returnToQueue ids apiNow s.db }
  | .claim w limit lease skip => some
      (s.deliver (Claim w limit lease s.clock skip s.db.deliveries).2)
  | .renew w ids lease => some (s.deliver (updateWhere (fun d =>
      if d.id ∈ ids then renewSQL w lease s.clock d else none) s.db.deliveries))
  | .release w id => some (s.deliver (updateWhere (fun d =>
      if d.id = id then releaseSQL w d else none) s.db.deliveries))
  | .reclaimExpired => some (s.deliver (updateWhere (reclaimSQL s.clock) s.db.deliveries))
  | .write w id x job => (x.plan w job).map fun p => s.deliver (updateWhere (fun d =>
      if d.id = id then advanceExec w p.2 s.clock d else none) s.db.deliveries)
  | .replay original id subscriptionId apiNow =>
      if id ∈ s.db.deliveries.map Delivery.id then none
      else (s.db.deliveries.find? (·.id = original)).map fun d =>
        s.deliver (s.db.deliveries ++ [insertReplay d id subscriptionId apiNow])

/-- Every run starts from empty tables. -/
def Empty (s : Platform Id R W) : Prop := s.db = ⟨[], [], []⟩ ∧ s.tasks = []

def pipeline (opts : R → Options) : System (Platform Id R W) (Op Id R W) :=
  .ofStep Empty (next opts)

/-- Three subscriptions of one project, two of them to the same endpoint. -/
def twoEndpoints : Directory ℕ where
  subscriptions :=
    [⟨3, 1, 10, ["*"], true, 0⟩, ⟨1, 1, 10, ["*"], true, 0⟩, ⟨2, 1, 20, ["*"], true, 0⟩]
  endpoints := [⟨10, 1, .active, true, none⟩, ⟨20, 1, .active, true, none⟩]
  projects := [⟨1, 1, .active⟩]
  organizations := [⟨1, .active⟩]
  retryPolicies := []
  primaryKey := by decide
  minted := by decide

def emptyPlatform : Platform ℕ ℕ ℕ := ⟨0, ⟨[], [], []⟩, []⟩

theorem empty_emptyPlatform : Empty emptyPlatform := ⟨rfl, rfl⟩

def defaultOptions (_ : ℕ) : Options := ⟨0, 0⟩

/-- The outbox row of event 1 as router `r` claims it for the `n`th time with that cursor. -/
def claimedRow (r : ℕ) (n : ℤ) (cursor : ℕ) : OutboxRow ℕ ℕ :=
  claimOutboxRow r minute 0
    { id := 1, eventID := 1, type := "event.created", status := .pending, attempts := n - 1,
      unaccountedAttempts := 0, availableAt := 0, routingCursor := cursor, failingSince := none,
      lockedBy := none, lockedUntil := none, processedAt := none, createdAt := 0 }

/-- Event 1 is accepted; router 7 claims it and routes a batch of two subscriptions. -/
def firstBatch : List (Op ℕ ℕ ℕ) :=
  [.createEvent ⟨1, 1, 1, "order.paid", 0⟩ 1,
    .claimOutbox 7 10 minute (fun _ => false) true,
    .process ⟨7, claimedRow 7 1 0, .claimed⟩ 0,
    .route ⟨7, claimedRow 7 1 0, .routing⟩ twoEndpoints 2 [101, 102] true]

/-- Router 8 takes the row up where router 7 left it and finishes it. -/
def secondBatch : List (Op ℕ ℕ ℕ) :=
  [.claimOutbox 8 10 minute (fun _ => false) true,
    .process ⟨8, claimedRow 8 2 2, .claimed⟩ 0,
    .route ⟨8, claimedRow 8 2 2, .routing⟩ twoEndpoints 2 [103] true]

example : (execute (next defaultOptions) emptyPlatform (firstBatch ++ secondBatch)).map
    (fun s => s.db.deliveries.map fun d => (d.id, d.endpointId)) = some [(101, 10), (102, 20)] :=
      rfl

end Hookubit.Pipeline.Machine
