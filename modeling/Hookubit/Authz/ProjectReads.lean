/- sources: authz/tenant-scope.ts (findPage, findMany, groupBy), prisma/schema.prisma
   digest: The bounded reads of a project's repositories over typed rows. -/

import Hookubit.Authz.ScopedRepository
import Hookubit.Data.Binary64
import Hookubit.Data.GroupCounts
import Hookubit.Data.OffsetPages
import Hookubit.Router.Store

/-!
The reads of `ScopedRepository`, over rows of known types. The rows or groups that the database
finds, in the order it puts them, are an argument; the bounds and the refusals are the
repository's own. Ids are an arbitrary linear order. The routes in question are nested under a
project, so their context names one.
-/

set_option autoImplicit false
set_option relaxedAutoImplicit false

namespace Hookubit.Authz.ProjectReads

open Authz.TenantResolver Common.Errors
open Authz.ScopedRepository hiding findPage findMany groupBy
open Authz.TenantScope hiding RequestContext
open Data.Binary64 Data.GroupCounts Data.OffsetPages
open Queue.Deliveries Router.Store Worker.StateMachine
open Worker.Store (EndpointStatus)

def ofQuery : Option ℕ → JsNumber
  | none => .undefined
  | some n => .finite n

theorem pageSize_none : pageSize (ofQuery none) = DEFAULT_PAGE_SIZE := rfl

theorem pageSize_some (n : ℕ) : pageSize (ofQuery (some n)) = min (max 1 n) MAX_PAGE_SIZE := by
  simp [ofQuery, pageSize]

theorem offset_ofQuery (skip : Option ℕ) : offset (ofQuery skip) = skip.getD 0 := by
  cases skip <;> simp [ofQuery, offset]

section Reads

variable {α : Type}

def findPage (answer : List α) (take skip : Option ℕ) : Page α :=
  cut answer (pageSize (ofQuery take)) (offset (ofQuery skip))

def findMany (resourceName : String) (answer : List α) (take skip : Option ℕ) :
    Except AppError (List α) :=
  let page := findPage answer take skip
  match take with
  | none =>
      if page.hasMore then .error (partialArray resourceName) else .ok page.rows
  | some _ => .ok page.rows

def groupBy (resourceName : String) (answer : List α) (take skip : Option ℕ) :
    Except AppError (List α) :=
  let limited (limit : ℕ) := (answer.drop (offset (ofQuery skip))).take (limit + 1)
  match take with
  | none =>
      let groups := limited MAX_PAGE_SIZE
      if groups.length ≤ MAX_PAGE_SIZE then .ok groups
      else .error (partialRollup resourceName)
  | some take =>
      .ok ((limited (pageSize (ofQuery (some take)))).take (pageSize (ofQuery (some take))))

theorem groupBy_some (resourceName : String) (answer : List α) (take : ℕ) (skip : Option ℕ) :
    groupBy resourceName answer (some take) skip =
      .ok ((answer.drop (skip.getD 0)).take (min (max 1 take) MAX_PAGE_SIZE)) := by
  simp [groupBy, pageSize_some, offset_ofQuery, List.take_take]

theorem drain_groupBy {β : Type} (resourceName : String) (answer : List α) (step : β → α → β)
    {fuel : ℕ} (enough : answer.length < fuel) (acc : β) :
    drain (fun skip => groupBy resourceName answer (some MAX_PAGE_SIZE) (some skip)) MAX_PAGE_SIZE
      step fuel 0 acc = .ok (some (answer.foldl step acc)) := by
  have page (skip : ℕ) : groupBy resourceName answer (some MAX_PAGE_SIZE) (some skip) =
      .ok ((answer.drop skip).take MAX_PAGE_SIZE) := groupBy_some _ _ _ _
  refine drain_eq step page (Nat.zero_le _) ?_ acc
  unfold MAX_PAGE_SIZE
  omega

theorem findMany_none (resourceName : String) (answer : List α) :
    findMany resourceName answer none none =
      if DEFAULT_PAGE_SIZE < answer.length then .error (partialArray resourceName)
      else .ok answer := by
  simp only [findMany, findPage, pageSize_none, offset_ofQuery, Option.getD_none, cut_hasMore,
    cut_rows, Nat.zero_add, List.drop_zero, decide_eq_true_eq]
  split
  · rfl
  · rename_i few
    rw [List.take_of_length_le (not_lt.mp few)]

/-! These are the repository's reads, with the database's answer put in. -/

section Repository

variable (P : Prisma) (ctx : TenantScope.RequestContext) (db : Db) (t : Table)

theorem findPage_eq (clause orderBy : Js) (take skip : Option ℕ) :
    ScopedRepository.findPage P ctx db t clause orderBy (ofQuery take) (ofQuery skip) =
      let page := findPage (select P db t (within P ctx t clause) orderBy) take skip
      (page.rows, page.hasMore, page.nextSkip) := rfl

theorem findMany_eq (clause orderBy : Js) (take skip : Option ℕ) :
    ScopedRepository.findMany P ctx db t clause orderBy (ofQuery take) (ofQuery skip) =
      findMany t.resourceName (select P db t (within P ctx t clause) orderBy) take skip := by
  cases take <;> rfl

theorem groupBy_eq (clause args : Js) (take skip : Option ℕ) :
    ScopedRepository.groupBy P ctx db t clause args (ofQuery take) (ofQuery skip) =
      groupBy t.resourceName
        (P.group args ((db.rows t).filter (within P ctx t clause db))) take skip := by
  cases take <;> rfl

end Repository

end Reads

structure Endpoint (Id : Type) where
  id : Id
  projectId : Id
  name : String
  url : String
  status : EndpointStatus
  enabled : Bool
  createdAt : ℤ
  deriving DecidableEq

structure Health (Id : Type) where
  endpointId : Id
  consecutiveFailures : ℕ
  openedAt : Option ℤ
  deriving DecidableEq

/-- The tables that the list and analytics routes read, with their primary keys. -/
structure Records (Id W : Type) where
  events : List (EventRow Id)
  endpoints : List (Endpoint Id)
  endpointHealth : List (Health Id)
  deliveries : List (Delivery Id W)
  eventKey : (events.map (·.id)).Nodup
  endpointKey : (endpoints.map Endpoint.id).Nodup
  healthKey : (endpointHealth.map Health.endpointId).Nodup
  deliveryKey : (deliveries.map Delivery.id).Nodup

theorem nodup_map_range {α β : Type} {key : α → β} {f : ℕ → α} {name : ℕ → β}
    (numbered : key ∘ f = name) (distinct : name.Injective) (n : ℕ) :
    (((List.range n).map f).map key).Nodup := by
  rw [List.map_map, numbered]
  exact List.nodup_range.map distinct

structure ProjectContext (Id : Type) where
  organizationId : Id
  projectId : Id

variable {Id W : Type} [LinearOrder Id]

section Tenant

variable (ctx : ProjectContext Id) (db : Records Id W)

def ownEndpoint (e : Endpoint Id) : Bool := e.projectId = ctx.projectId

/-- The join on `endpointId`. -/
def viaEndpoint (endpointId : Id) : Bool :=
  db.endpoints.any fun e => e.id = endpointId && ownEndpoint ctx e

def ownHealth (h : Health Id) : Bool := viaEndpoint ctx db h.endpointId

def ownDelivery (d : Delivery Id W) : Bool :=
  viaEndpoint ctx db d.endpointId && d.organizationId = ctx.organizationId &&
    d.projectId = ctx.projectId

def deliveriesWhere (p : Delivery Id W → Bool) : List (Delivery Id W) :=
  db.deliveries.filter fun d => ownDelivery ctx db d && p d

theorem mem_deliveriesWhere {p : Delivery Id W → Bool} {d : Delivery Id W} :
    d ∈ deliveriesWhere ctx db p ↔
      d ∈ db.deliveries ∧ ownDelivery ctx db d = true ∧ p d = true := by
  simp [deliveriesWhere]

theorem deliveriesWhere_and (p q : Delivery Id W → Bool) :
    (deliveriesWhere ctx db fun d => p d && q d) = (deliveriesWhere ctx db p).filter q := by
  rw [deliveriesWhere, deliveriesWhere, List.filter_filter]
  exact List.filter_congr fun d _ => by rw [← Bool.and_assoc, Bool.and_comm]

theorem length_deliveriesWhere_le (p : Delivery Id W → Bool) :
    (deliveriesWhere ctx db p).length ≤ db.deliveries.length := List.length_filter_le _ _

theorem countP_deliveriesWhere {p q p' q' : Delivery Id W → Bool}
    (same : ∀ d, (p d && q d) = (p' d && q' d)) :
    (deliveriesWhere ctx db p).countP q = (deliveriesWhere ctx db p').countP q' := by
  simp only [deliveriesWhere, List.countP_filter]
  refine List.countP_congr fun d _ => ?_
  have := same d
  grind

end Tenant

/-- The "DeliveryStatus" enum in its declared order, which is its order in the database. -/
def State.position : State → ℕ
  | .pending => 0
  | .scheduled => 1
  | .queued => 2
  | .processing => 3
  | .succeeded => 4
  | .failed => 5
  | .retrying => 6
  | .exhausted => 7
  | .cancelled => 8

/-- The columns of a grouping by an id and the status, ascending. -/
def byColumns (a b : Id × State) : Prop :=
  a.1 < b.1 ∨ a.1 = b.1 ∧ State.position a.2 ≤ State.position b.2

instance : DecidableRel (@byColumns Id _) := fun a b =>
  inferInstanceAs (Decidable (a.1 < b.1 ∨ a.1 = b.1 ∧ State.position a.2 ≤ State.position b.2))

/-- `round`: four decimal places, as every rate is given. The argument is a float already. -/
def roundRate (value : ℚ) : ℚ := round64 (⌊round64 (value * 10000) + 1 / 2⌋ / 10000)

def ALL_STATUSES : List State :=
  [.pending, .scheduled, .queued, .processing, .succeeded, .failed, .retrying, .exhausted,
    .cancelled]

/-- Neither settled nor failed. The three services that need the list have a copy each. -/
def IN_FLIGHT : List State := [.pending, .scheduled, .queued, .processing, .retrying]

def FAILING : List State := [.failed, .exhausted]

theorem contains_inFlight (s : State) : IN_FLIGHT.contains s = !s.Terminal := by
  cases s <;> decide

section Statuses

variable (rows : List (Delivery Id W))

omit [LinearOrder Id] in
theorem sum_statuses {statuses : List State} (distinct : statuses.Nodup) :
    (statuses.map fun s => rows.countP fun d => d.status = s).sum =
      rows.countP fun d => d.status ∈ statuses :=
  sum_countP_key Delivery.status rows distinct

omit [LinearOrder Id] in
theorem sum_all_statuses :
    (ALL_STATUSES.map fun s => rows.countP fun d => d.status = s).sum = rows.length := by
  have all (s : State) : s ∈ ALL_STATUSES := by cases s <;> decide
  refine (sum_statuses rows (by decide)).trans (List.countP_eq_length.mpr fun d _ => ?_)
  simpa using all d.status

end Statuses

end Hookubit.Authz.ProjectReads
