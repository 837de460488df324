/- sources: authz/tenant-resolver.service.ts, authz/tenant-context.ts
   digest: How a request's tenant is worked out from the database, or the request refused. -/

import Hookubit.Authz.TenantScope

/-!
The names, statuses and permissions that `buildContext` adds for display and for the role checks
scope no query and are left out.
-/

set_option autoImplicit false
set_option relaxedAutoImplicit false

namespace Hookubit.Authz.TenantResolver

open Authz.Permissions Authz.TenantScope Common.Errors Data.Relational

inductive TenantAnchorKind
  | organization | project | endpoint | subscription | apiKey | event | delivery
  deriving DecidableEq

/-- Where the tenant of a route is looked for. -/
inductive TenantSpec
  | params
  | anchor (kind : TenantAnchorKind) (param : String)
  deriving DecidableEq

def ORGANIZATION_PARAMS : List String := ["orgId", "organizationId"]

def PROJECT_PARAMS : List String := ["projectId"]

abbrev Params := String → Option String

def firstParam (params : Params) : List String → Option String
  | [] => none
  | name :: names =>
      match params name with
      | some value => if value = "" then firstParam params names else some value
      | none => firstParam params names

def internalError (message : String) : AppError := { code := .internalError, message }

def requiredParam (params : Params) (name : String) : Except AppError String :=
  match firstParam params [name] with
  | some value => .ok value
  | none =>
      .error (internalError ("@ResolveTenantFrom names route parameter \":" ++ name ++
        "\", which this route does not declare."))

/-- `crossTenant`: outside the tenant and absent are one answer. -/
def crossTenant : AppError := resourceNotFound

structure TenantCoordinates where
  organizationId : String
  projectId : Option String
  deriving DecidableEq

def findUnique (db : Db) (t : Table) (id : Option String) : Except AppError Row :=
  match id.bind fun id => (db.rows t).find? fun r => r t.idField == some id with
  | some r => .ok r
  | none => .error crossTenant

def valueOf (v : Option String) : Except AppError String :=
  match v with
  | some s => .ok s
  | none => .error crossTenant

def coordinatesOfProject (db : Db) (r : Row) : Except AppError TenantCoordinates := do
  let project ← findUnique db .projects (r "projectId")
  let organizationId ← valueOf (project "organizationId")
  let projectId ← valueOf (r "projectId")
  .ok ⟨organizationId, some projectId⟩

def assertDenormalisedAgreement (denormalised authoritative : Option String) :
    Except AppError Unit :=
  if denormalised = authoritative then .ok () else .error crossTenant

/-- `coordinatesFromAnchor` walks the ownership chain; every branch but the first ends at an
organization that came out of a row. -/
def coordinatesFromAnchor (db : Db) (id : String) :
    TenantAnchorKind → Except AppError TenantCoordinates
  | .organization => .ok ⟨id, none⟩
  | .project => do
      let project ← findUnique db .projects (some id)
      let organizationId ← valueOf (project "organizationId")
      let projectId ← valueOf (project "id")
      .ok ⟨organizationId, some projectId⟩
  | .endpoint => do coordinatesOfProject db (← findUnique db .endpoints (some id))
  | .subscription => do coordinatesOfProject db (← findUnique db .subscriptions (some id))
  | .apiKey => do coordinatesOfProject db (← findUnique db .apiKeys (some id))
  | .event => do
      let event ← findUnique db .events (some id)
      let coordinates ← coordinatesOfProject db event
      assertDenormalisedAgreement (event "organizationId") (some coordinates.organizationId)
      .ok coordinates
  | .delivery => do
      let delivery ← findUnique db .deliveries (some id)
      let endpoint ← findUnique db .endpoints (delivery "endpointId")
      let coordinates ← coordinatesOfProject db endpoint
      assertDenormalisedAgreement (delivery "organizationId") (some coordinates.organizationId)
      assertDenormalisedAgreement (delivery "projectId") coordinates.projectId
      .ok coordinates

def coordinatesFromParams (db : Db) (organizationId projectId : Option String) :
    Except AppError TenantCoordinates :=
  match organizationId, projectId with
  | some organizationId, projectId => .ok ⟨organizationId, projectId⟩
  | none, some projectId => coordinatesFromAnchor db projectId .project
  | none, none =>
      .error (internalError ("This route is guarded by TenantGuard but names no tenant. Add " ++
        ":orgId or :projectId to the path, or declare @ResolveTenantFrom(...)."))

/-- The membership's role column, an enumeration in the database. -/
def roleOf (membership : Row) : Except AppError MemberRole :=
  match (membership "role").bind MemberRole.ofText with
  | some role => .ok role
  | none => .error crossTenant

def findMembership (db : Db) (organizationId userId : String) : Option Row :=
  (db.rows .members).find? fun r =>
    r "organizationId" == some organizationId && r "userId" == some userId

def loadOrganization (db : Db) (id : String) : Except AppError Unit := do
  let organization ← findUnique db .organization (some id)
  if organization "status" = some "deleted" then .error crossTenant else .ok ()

/-- `loadProject`, with the check that the whole boundary rests on. -/
def loadProject (db : Db) (id organizationId : String) : Except AppError Unit := do
  let project ← findUnique db .projects (some id)
  if project "organizationId" ≠ some organizationId then .error crossTenant
  else if project "status" = some "deleted" then .error crossTenant
  else .ok ()

/-- A claim of the path that disagrees with the coordinates is refused. -/
def assertClaim (claimed found : Option String) : Except AppError Unit :=
  if claimed ≠ none ∧ claimed ≠ found then .error crossTenant else .ok ()

def coordinatesOf (db : Db) (params : Params) : TenantSpec → Except AppError TenantCoordinates
  | .anchor kind param => do coordinatesFromAnchor db (← requiredParam params param) kind
  | .params =>
      coordinatesFromParams db (firstParam params ORGANIZATION_PARAMS)
        (firstParam params PROJECT_PARAMS)

def resolvedProject (db : Db) (organizationId : String) (projectId : Option String) :
    Except AppError { p : Option String // ∀ id ∈ p, id ≠ "" } :=
  match projectId with
  | none => .ok ⟨none, by simp⟩
  | some id =>
      if h : id = "" then .ok ⟨none, by simp⟩
      else do
        loadProject db id organizationId
        .ok ⟨some id, by simpa using h⟩

/-- `resolve`: find the tenant, prove the membership, then the project. -/
def resolve (db : Db) (userId : String) (params : Params) (spec : TenantSpec) :
    Except AppError RequestContext := do
  let coordinates ← coordinatesOf db params spec
  assertClaim (firstParam params ORGANIZATION_PARAMS) (some coordinates.organizationId)
  assertClaim (firstParam params PROJECT_PARAMS) coordinates.projectId
  match findMembership db coordinates.organizationId userId with
  | none => .error crossTenant
  | some membership =>
      let membershipId ← valueOf (membership "id")
      let role ← roleOf membership
      loadOrganization db coordinates.organizationId
      let project ← resolvedProject db coordinates.organizationId coordinates.projectId
      .ok ⟨userId, coordinates.organizationId, membershipId, role, project.1, project.2⟩

/-- The user of the context is a member of its organization, which the project, if any, is a
live project of. -/
def Entitled (db : Db) (ctx : RequestContext) : Prop :=
  (∃ m ∈ db.rows .members, m "organizationId" = some ctx.organizationId ∧
      m "userId" = some ctx.userId ∧ m "id" = some ctx.membershipId) ∧
    ∀ p ∈ ctx.projectId, ∃ r ∈ db.rows .projects, r "id" = some p ∧
      r "organizationId" = some ctx.organizationId ∧ r "status" ≠ some "deleted"

theorem findUnique_ok {db : Db} {t : Table} {id : String} {r : Row}
    (h : findUnique db t (some id) = .ok r) : r ∈ db.rows t ∧ r t.idField = some id := by
  unfold findUnique at h
  rw [Option.bind_some] at h
  split at h
  · rename_i q hq
    obtain ⟨⟩ := h
    exact ⟨List.mem_of_find?_eq_some hq, by simpa using List.find?_some hq⟩
  · cases h

theorem loadProject_ok {db : Db} {id organizationId : String}
    (h : loadProject db id organizationId = .ok ()) :
    ∃ r ∈ db.rows .projects, r "id" = some id ∧ r "organizationId" = some organizationId ∧
      r "status" ≠ some "deleted" := by
  obtain ⟨r, hr, h⟩ := bind_eq_ok.mp h
  obtain ⟨mem, key⟩ := findUnique_ok hr
  split_ifs at h with organization status
  exact ⟨r, mem, key, not_not.mp organization, status⟩

theorem resolvedProject_ok {db : Db} {organizationId : String} {projectId : Option String}
    {p : { p : Option String // ∀ id ∈ p, id ≠ "" }}
    (h : resolvedProject db organizationId projectId = .ok p) :
    ∀ id ∈ p.1, loadProject db id organizationId = .ok () := by
  unfold resolvedProject at h
  split at h
  · obtain ⟨⟩ := h
    simp
  · split at h
    · obtain ⟨⟩ := h
      simp
    · obtain ⟨_, loaded, ⟨⟩⟩ := bind_eq_ok.mp h
      simpa using loaded

/-- Every context that is handed out is one its user is entitled to. -/
theorem resolve_entitled {db : Db} {userId : String} {params : Params} {spec : TenantSpec}
    {ctx : RequestContext} (h : resolve db userId params spec = .ok ctx) :
    ctx.userId = userId ∧ Entitled db ctx := by
  obtain ⟨c, _, h⟩ := bind_eq_ok.mp h
  obtain ⟨_, _, h⟩ := bind_eq_ok.mp h
  obtain ⟨_, _, h⟩ := bind_eq_ok.mp h
  split at h
  · cases h
  · rename_i m found
    obtain ⟨id, hid, h⟩ := bind_eq_ok.mp h
    obtain ⟨role, _, h⟩ := bind_eq_ok.mp h
    obtain ⟨_, _, h⟩ := bind_eq_ok.mp h
    obtain ⟨p, hp, ⟨⟩⟩ := bind_eq_ok.mp h
    have key : m "id" = some id := by
      unfold valueOf at hid
      split at hid
      · rename_i s hs
        obtain ⟨⟩ := hid
        exact hs
      · cases hid
    have pair := List.find?_some found
    rw [Bool.and_eq_true, beq_iff_eq, beq_iff_eq] at pair
    exact ⟨rfl, ⟨m, List.mem_of_find?_eq_some found, pair.1, pair.2, key⟩,
      fun id hid => loadProject_ok (resolvedProject_ok hp id hid)⟩

end Hookubit.Authz.TenantResolver
