/- sources: queue/postgres.go (readyPredicate, claimFIFOSQL, renewSQL, releaseSQL, reclaimSQL)
   digest: One deliveries row under the lease statements of the queue. -/

import Hookubit.Data.Rows
import Hookubit.Worker.StateMachine

/-!
Each statement is given by what it does to one row, `none` where its `WHERE` clause does not
match; `Claim` is the one that also orders and limits the table. Ids of rows and of workers
are arbitrary types. The columns `ordering_key`, `trace_context` and `updated_at`, which no
statement here reads, are left out.
-/

set_option autoImplicit false
set_option relaxedAutoImplicit false

namespace Hookubit.Queue.Deliveries

open Data.Rows Postgres.Clock Worker.StateMachine

structure Delivery (Id W : Type) where
  id : Id
  eventId : Id
  endpointId : Id
  subscriptionId : Option Id
  organizationId : Id
  projectId : Id
  status : State
  attemptCount : ℤ
  maxAttempts : ℤ
  nextAttemptAt : ℤ
  lastAttemptAt : Option ℤ
  completedAt : Option ℤ
  lastError : Option Reason
  lockedBy : Option W
  lockedUntil : Option ℤ
  replayOfDeliveryId : Option Id
  createdAt : ℤ
  deriving DecidableEq

variable {Id W : Type}

/-- The row that `insertDeliveriesSQL` writes for one target of a routing plan. -/
def Delivery.inserted (id eventId endpointId subscriptionId organizationId projectId : Id)
    (maxAttempts now : ℤ) : Delivery Id W where
  id := id
  eventId := eventId
  endpointId := endpointId
  subscriptionId := some subscriptionId
  organizationId := organizationId
  projectId := projectId
  status := .pending
  attemptCount := 0
  maxAttempts := maxAttempts
  nextAttemptAt := timestamp3 now
  lastAttemptAt := none
  completedAt := none
  lastError := none
  lockedBy := none
  lockedUntil := none
  replayOfDeliveryId := none
  createdAt := timestamp3 now

/-- The ready set. A leased row is `processing`, so its expiry alone makes it ready again. -/
def claimStatuses : State → Bool
  | .pending | .scheduled | .queued | .retrying | .processing => true
  | _ => false

theorem claimStatuses_eq (x : State) : claimStatuses x = !x.Terminal := by
  cases x <;> rfl

/-- `locked_until IS NULL OR locked_until < now()`. -/
def lapsed (lockedUntil : Option ℤ) (now : ℤ) : Bool :=
  match lockedUntil with
  | none => true
  | some t => t < now

def readyPredicate (now : ℤ) (d : Delivery Id W) : Bool :=
  claimStatuses d.status && d.nextAttemptAt ≤ now && lapsed d.lockedUntil now

/-- The `SET` clause of `claimFIFOSQL`. -/
def claimRow (workerID : W) (lease now : ℤ) (d : Delivery Id W) : Delivery Id W :=
  { d with
    status := .processing
    lockedBy := some workerID
    lockedUntil := some (timestamp3 (now + intervalOf lease)) }

/-- `claimFIFOSQL` on a row that it picks. -/
def claimFIFOSQL (workerID : W) (lease now : ℤ) (d : Delivery Id W) : Option (Delivery Id W) :=
  if readyPredicate now d then some (claimRow workerID lease now d) else none

variable [DecidableEq W]

def renewSQL (workerID : W) (lease now : ℤ) (d : Delivery Id W) : Option (Delivery Id W) :=
  if d.lockedBy = some workerID ∧ d.status = .processing then
    some { d with lockedUntil := some (timestamp3 (now + intervalOf lease)) }
  else none

/-- Give the row back to the ready set. -/
def unlockRow (d : Delivery Id W) : Delivery Id W :=
  { d with status := .pending, lockedBy := none, lockedUntil := none }

def releaseSQL (workerID : W) (d : Delivery Id W) : Option (Delivery Id W) :=
  if d.lockedBy = some workerID then some (unlockRow d) else none

omit [DecidableEq W] in
def reclaimSQL (now : ℤ) (d : Delivery Id W) : Option (Delivery Id W) :=
  if d.status = .processing ∧ ∃ t ∈ d.lockedUntil, t < now then some (unlockRow d) else none

section Table

variable [LinearOrder Id]

omit [DecidableEq W] in
def readyOrder (a b : Delivery Id W) : Prop :=
  a.nextAttemptAt < b.nextAttemptAt ∨ a.nextAttemptAt = b.nextAttemptAt ∧
    (a.createdAt < b.createdAt ∨ a.createdAt = b.createdAt ∧ a.id ≤ b.id)

instance : DecidableRel (@readyOrder Id W _) := fun a b => by
  unfold readyOrder
  infer_instance

omit [DecidableEq W] in
/-- `Claim` under the fifo strategy: the leases it returns and the table afterwards. `skip`
says which rows another transaction has locked at that moment. -/
def Claim (workerID : W) (limit : ℕ) (lease now : ℤ) (skip : Id → Bool)
    (deliveries : List (Delivery Id W)) : List (Delivery Id W) × List (Delivery Id W) :=
  let ids := (pick readyOrder (fun d => readyPredicate now d && !skip d.id) limit deliveries).map
    Delivery.id
  let table := updateWhere
    (fun d => if d.id ∈ ids then some (claimRow workerID lease now d) else none) deliveries
  (table.filter fun d => d.id ∈ ids, table)

omit [DecidableEq W] in
theorem mem_claim {workerID : W} {limit : ℕ} {lease now : ℤ} {deliveries : List (Delivery Id W)}
    (wide : deliveries.length ≤ limit) {d : Delivery Id W} (hd : d ∈ deliveries)
    (ready : readyPredicate now d = true) :
    claimRow workerID lease now d ∈
      (Claim workerID limit lease now (fun _ => false) deliveries).1 := by
  have picked : d.id ∈ (pick readyOrder (fun d => readyPredicate now d && !false) limit
      deliveries).map Delivery.id :=
    List.mem_map_of_mem (mem_pick wide hd (by simpa using ready))
  refine List.mem_filter.mpr ⟨mem_updateWhere.mpr ⟨d, hd, ?_⟩, by simpa [claimRow] using picked⟩
  simp only [if_pos picked, Option.getD_some]

end Table

end Hookubit.Queue.Deliveries
