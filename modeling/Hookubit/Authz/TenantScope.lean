/- sources: authz/tenant-scope.ts, authz/tenant-scope.factory.ts, prisma/schema.prisma
   digest: The tenant-owned tables, how each is tied to a tenant, and the predicate that says so. -/

import Hookubit.Authz.Permissions
import Hookubit.Data.Relational

/-!
Of the schema only what tenancy rests on is kept: the primary keys, and the tenant columns and
foreign keys that are NOT NULL. Relation filters are joins on the column that carries them.
-/

set_option autoImplicit false
set_option relaxedAutoImplicit false

namespace Hookubit.Authz.TenantScope

open Authz.Permissions Common.Errors Data.Relational

inductive TenantScopeKind
  | organization | organizationSelf | project | projectAndOrganization
  | viaEndpoint | viaEvent | delivery | viaDelivery
  deriving DecidableEq

inductive Table
  | organization | projects | members | auditLogs | usageRecords | billingSubscriptions
  | endpoints | apiKeys | subscriptions | retryPolicies | rateLimitPolicies
  | notificationDestinations | idempotencyKeys | events | eventOutbox | deliveries
  | endpointSecrets | endpointHealth | deliveryAttempts
  deriving DecidableEq

namespace Table

def kind : Table → TenantScopeKind
  | organization => .organizationSelf
  | projects | members | auditLogs | usageRecords | billingSubscriptions => .organization
  | endpoints | apiKeys | subscriptions | retryPolicies | rateLimitPolicies
  | notificationDestinations | idempotencyKeys => .project
  | events => .projectAndOrganization
  | eventOutbox => .viaEvent
  | deliveries => .delivery
  | endpointSecrets | endpointHealth => .viaEndpoint
  | deliveryAttempts => .viaDelivery

def resourceName : Table → String
  | organization => "Organization"
  | projects => "Project"
  | members => "Member"
  | auditLogs => "Audit log entry"
  | usageRecords => "Usage record"
  | billingSubscriptions => "Billing subscription"
  | endpoints => "Endpoint"
  | apiKeys => "API key"
  | subscriptions => "Subscription"
  | retryPolicies => "Retry policy"
  | rateLimitPolicies => "Rate limit policy"
  | notificationDestinations => "Notification destination"
  | idempotencyKeys => "Idempotency key"
  | events => "Event"
  | eventOutbox => "Outbox entry"
  | deliveries => "Delivery"
  | endpointSecrets => "Endpoint secret"
  | endpointHealth => "Endpoint health"
  | deliveryAttempts => "Delivery attempt"

/-- `endpoint_health` is keyed by its endpoint. -/
def idField : Table → String
  | endpointHealth => "endpointId"
  | _ => "id"

/-- The declared foreign keys, with the repository that owns the row they name. -/
def foreignKeys : Table → List (String × Table)
  | endpoints => [("retryPolicyId", retryPolicies)]
  | subscriptions | endpointSecrets | endpointHealth => [("endpointId", endpoints)]
  | idempotencyKeys | eventOutbox => [("eventId", events)]
  | deliveries =>
      [("eventId", events), ("endpointId", endpoints), ("subscriptionId", subscriptions),
        ("replayOfDeliveryId", deliveries)]
  | deliveryAttempts => [("deliveryId", deliveries)]
  | _ => []

def required : Table → List String
  | organization => ["id"]
  | projects | auditLogs | usageRecords => ["id", "organizationId"]
  | members => ["id", "organizationId", "userId"]
  | billingSubscriptions => ["id", "organizationId", "planId"]
  | endpoints | apiKeys | retryPolicies | rateLimitPolicies | notificationDestinations
  | idempotencyKeys => ["id", "projectId"]
  | subscriptions => ["id", "projectId", "endpointId"]
  | events => ["id", "organizationId", "projectId"]
  | eventOutbox => ["id", "eventId"]
  | deliveries => ["id", "eventId", "endpointId", "organizationId", "projectId"]
  | endpointSecrets => ["id", "endpointId"]
  | endpointHealth => ["endpointId"]
  | deliveryAttempts => ["id", "deliveryId"]

end Table

def schema : Schema Table := ⟨Table.idField, Table.required⟩

abbrev Db := Database schema

/-- The part of `RequestContext` that queries are scoped by. -/
structure RequestContext where
  userId : String
  organizationId : String
  membershipId : String
  role : MemberRole
  projectId : Option String
  named : ∀ p ∈ projectId, p ≠ ""

def column (name value : String) (r : Row) : Bool := r name == some value

section Predicate

variable (ctx : RequestContext) (db : Db)

def projectPredicate : Row → Bool :=
  match ctx.projectId with
  | some p => column "projectId" p
  | none => db.joins "projectId" .projects (column "organizationId" ctx.organizationId)

def columnsPredicate (r : Row) : Bool :=
  match ctx.projectId with
  | some p => column "organizationId" ctx.organizationId r && column "projectId" p r
  | none => column "organizationId" ctx.organizationId r

/-- A delivery's chain leads; its copied columns are one conjunct more. -/
def deliveryPredicate (r : Row) : Bool :=
  match ctx.projectId with
  | some p =>
      db.joins "endpointId" .endpoints (column "projectId" p) r &&
        column "organizationId" ctx.organizationId r && column "projectId" p r
  | none =>
      db.joins "endpointId" .endpoints
        (db.joins "projectId" .projects (column "organizationId" ctx.organizationId)) r &&
        column "organizationId" ctx.organizationId r

def tenantPredicate : TenantScopeKind → Row → Bool
  | .organization => column "organizationId" ctx.organizationId
  | .organizationSelf => column "id" ctx.organizationId
  | .project => projectPredicate ctx db
  | .projectAndOrganization => columnsPredicate ctx
  | .viaEndpoint =>
      match ctx.projectId with
      | some p => db.joins "endpointId" .endpoints (column "projectId" p)
      | none =>
          db.joins "endpointId" .endpoints
            (db.joins "projectId" .projects (column "organizationId" ctx.organizationId))
  | .viaEvent =>
      match ctx.projectId with
      | some p =>
          db.joins "eventId" .events fun r =>
            column "organizationId" ctx.organizationId r && column "projectId" p r
      | none => db.joins "eventId" .events (column "organizationId" ctx.organizationId)
  | .delivery => deliveryPredicate ctx db
  | .viaDelivery => db.joins "deliveryId" .deliveries (deliveryPredicate ctx db)

theorem viaEndpoint_eq : tenantPredicate ctx db .viaEndpoint =
    db.joins "endpointId" .endpoints (tenantPredicate ctx db .project) := by
  cases h : ctx.projectId <;> simp only [tenantPredicate, projectPredicate, h]

theorem viaEvent_eq : tenantPredicate ctx db .viaEvent =
    db.joins "eventId" .events (tenantPredicate ctx db .projectAndOrganization) := by
  have columns : columnsPredicate ctx = fun r => columnsPredicate ctx r := rfl
  cases h : ctx.projectId <;>
    simp only [tenantPredicate, columns, columnsPredicate, h]

theorem delivery_eq (r : Row) : tenantPredicate ctx db .delivery r =
    (db.joins "endpointId" .endpoints (tenantPredicate ctx db .project) r &&
      tenantPredicate ctx db .projectAndOrganization r) := by
  cases h : ctx.projectId <;>
    simp only [tenantPredicate, deliveryPredicate, projectPredicate, columnsPredicate, h,
      Bool.and_assoc]

theorem viaDelivery_eq : tenantPredicate ctx db .viaDelivery =
    db.joins "deliveryId" .deliveries (tenantPredicate ctx db .delivery) := rfl

end Predicate

/-- The tables that the predicate of a kind looks into. -/
def TenantScopeKind.reads : TenantScopeKind → List Table
  | .organization | .organizationSelf | .projectAndOrganization => []
  | .project => [.projects]
  | .viaEndpoint | .delivery => [.endpoints, .projects]
  | .viaEvent => [.events]
  | .viaDelivery => [.deliveries, .endpoints, .projects]

theorem projectPredicate_congr {ctx : RequestContext} {db db' : Db}
    (same : db'.rows .projects = db.rows .projects) :
    projectPredicate ctx db' = projectPredicate ctx db := by
  unfold projectPredicate
  split
  · rfl
  · exact Database.joins_congr same rfl

theorem deliveryPredicate_congr {ctx : RequestContext} {db db' : Db}
    (endpoints : db'.rows .endpoints = db.rows .endpoints)
    (projects : db'.rows .projects = db.rows .projects) :
    deliveryPredicate ctx db' = deliveryPredicate ctx db := by
  have chain : db'.joins "endpointId" .endpoints (tenantPredicate ctx db' .project) =
      db.joins "endpointId" .endpoints (tenantPredicate ctx db .project) :=
    Database.joins_congr endpoints (projectPredicate_congr projects)
  funext r
  change tenantPredicate ctx db' .delivery r = tenantPredicate ctx db .delivery r
  rw [delivery_eq, delivery_eq, chain]
  rfl

theorem tenantPredicate_congr {ctx : RequestContext} {db db' : Db} (kind : TenantScopeKind)
    (same : ∀ u ∈ kind.reads, db'.rows u = db.rows u) :
    tenantPredicate ctx db' kind = tenantPredicate ctx db kind := by
  cases kind with
  | organization | organizationSelf | projectAndOrganization => rfl
  | project => exact projectPredicate_congr (same _ (by decide))
  | viaEndpoint =>
    rw [viaEndpoint_eq, viaEndpoint_eq]
    exact Database.joins_congr (same _ (by decide)) (projectPredicate_congr (same _ (by decide)))
  | viaEvent =>
    rw [viaEvent_eq, viaEvent_eq]
    exact Database.joins_congr (same _ (by decide)) rfl
  | delivery => exact deliveryPredicate_congr (same _ (by decide)) (same _ (by decide))
  | viaDelivery =>
    exact Database.joins_congr (same _ (by decide))
      (deliveryPredicate_congr (same _ (by decide)) (same _ (by decide)))

/-- No table's predicate looks into the table itself, nor does that of a table it names. -/
theorem not_reads_self (t : Table) : t ∉ t.kind.reads := by
  cases t <;> decide

theorem not_reads_named {t : Table} : ∀ k ∈ t.foreignKeys, t ∉ k.2.kind.reads := by
  cases t <;> decide

end Hookubit.Authz.TenantScope
