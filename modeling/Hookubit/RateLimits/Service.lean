/- sources: rate-limits/rate-limits.service.ts (create, update, remove), rate-limits/rate-limit-rules.ts,
     rate-limits/rate-limit-limits.ts, rate-limits/rate-limit-resource.ts, rate-limits/dto,
     prisma/migrations/20260906010000_review_fixes (the NULLS NOT DISTINCT index)
   digest: The rate-limit policies of all projects and the transactions that one project runs on
     them. -/

import Hookubit.Common.Errors
import Hookubit.Data.Rows
import Hookubit.Payloadstore.Keys

/-!
Each call is one serializable transaction, so it is one function from tables to tables. Numbers
of a request are whole, as its validation demands; a field may still be null. The timestamps and
the audit entries of a policy are written and never read here.
-/

set_option autoImplicit false
set_option relaxedAutoImplicit false

namespace Hookubit.RateLimits.Service

open Common.Errors Data.Rows
open Payloadstore.Keys (Text)

inductive RateLimitScope
  | organization | project | endpoint | ingest
  deriving DecidableEq

def RateLimitScope.name : RateLimitScope → String
  | organization => "organization"
  | project => "project"
  | endpoint => "endpoint"
  | ingest => "ingest"

/-- How a rate-limit call fails. -/
inductive RateLimitError
  | app (error : AppError)
  /-- `invalid_request` with the field in its details. -/
  | invalid (field message : String)
  /-- `conflict` with the identity and the row in the way in its details. -/
  | conflict (message : String) (scope : RateLimitScope) (resourceId existing : Option Text)
  deriving DecidableEq

structure RateLimitSettings where
  limit : ℤ
  windowSeconds : ℤ
  burst : Option ℤ
  deriving DecidableEq

structure Bounds where
  min : ℤ
  max : ℤ

def limitBounds : Bounds := ⟨1, 10000000⟩

def windowSecondsBounds : Bounds := ⟨1, 86400⟩

def burstBounds : Bounds := ⟨1, 10000000⟩

def DEFAULT_WINDOW_SECONDS : ℤ := 1

def outOfRange (wire : String) (bounds : Bounds) (value : ℤ) : RateLimitError :=
  let low := bounds.min
  let high := bounds.max
  .invalid wire s!"{wire} must be between {low} and {high}; got {value}."

/-- One turn of the loop over the two fields that must be there. -/
def assertField (wire : String) (bounds : Bounds) : Option ℤ → Except RateLimitError ℤ
  | none => .error (.invalid wire s!"{wire} must be a whole number.")
  | some value =>
      if value < bounds.min ∨ bounds.max < value then .error (outOfRange wire bounds value)
      else .ok value

def assertBurst (limit : ℤ) : Option ℤ → Except RateLimitError Unit
  | none => .ok ()
  | some burst =>
      if burst < burstBounds.min ∨ burstBounds.max < burst then
        .error (outOfRange "burst" burstBounds burst)
      else if burst < limit then
        .error (.invalid "burst"
          (s!"burst ({burst}) must be at least limit ({limit}): the bucket would never hold one " ++
            "window’s worth of tokens, so the configured limit could never actually be reached."))
      else .ok ()

def assertRateLimitSettings (limit windowSeconds burst : Option ℤ) :
    Except RateLimitError RateLimitSettings := do
  let limit ← assertField "limit" limitBounds limit
  let windowSeconds ← assertField "window_seconds" windowSecondsBounds windowSeconds
  assertBurst limit burst
  .ok { limit, windowSeconds, burst }

structure RateLimitPolicy extends RateLimitSettings where
  id : Text
  projectId : Text
  scope : RateLimitScope
  resourceId : Option Text
  deriving DecidableEq

/-- The columns of the unique index. -/
def RateLimitPolicy.identity (p : RateLimitPolicy) : Text × RateLimitScope × Option Text :=
  (p.projectId, p.scope, p.resourceId)

structure PolicyTable where
  rows : List RateLimitPolicy
  keyed : (rows.map RateLimitPolicy.id).Nodup

/-- The unique index. Nulls are not distinct, so a null resource counts as a value. -/
def UniqueIdentities (rows : List RateLimitPolicy) : Prop :=
  (rows.map RateLimitPolicy.identity).Nodup

instance decidableUniqueIdentities (rows : List RateLimitPolicy) :
    Decidable (UniqueIdentities rows) :=
  inferInstanceAs (Decidable (List.Nodup _))

/-- What `resource_id` names at a scope. -/
def resourceKindFor : RateLimitScope → String
  | .endpoint => "endpoint"
  | .ingest => "API key"
  | .project => "project"
  | .organization => "organization"

def covers (scope : RateLimitScope) : Option Text → String
  | none => "every " ++ resourceKindFor scope ++ " in this project"
  | some resourceId => resourceKindFor scope ++ " " ++ String.ofList resourceId

def conflictFor (scope : RateLimitScope) (resourceId existing : Option Text) : RateLimitError :=
  .conflict ("A " ++ scope.name ++ "-scoped rate limit covering " ++ covers scope resourceId ++
      " already exists in this project. One ceiling per resource: update the existing policy " ++
      "instead of adding a second one, or the data plane would have two answers to one question.")
    scope resourceId existing

namespace PolicyTable

/-- `mapConflict`: a statement that breaks the index is a conflict. -/
def checkIndex (scope : RateLimitScope) (resourceId : Option Text) (t : PolicyTable) :
    Except RateLimitError PolicyTable :=
  if UniqueIdentities t.rows then .ok t else .error (conflictFor scope resourceId none)

theorem checkIndex_ok {scope : RateLimitScope} {resourceId : Option Text} {t t' : PolicyTable}
    (h : checkIndex scope resourceId t = .ok t') : t' = t ∧ UniqueIdentities t.rows := by
  unfold checkIndex at h
  split at h
  · cases h
    exact ⟨rfl, ‹_›⟩
  · cases h

def require (t : PolicyTable) (projectId id : Text) : Except RateLimitError RateLimitPolicy :=
  match t.rows.find? fun p => decide (p.projectId = projectId ∧ p.id = id) with
  | none => .error (.app resourceNotFound)
  | some p => .ok p

def count (t : PolicyTable) (projectId : Text) : ℕ :=
  t.rows.countP fun p => decide (p.projectId = projectId)

def insert (t : PolicyTable) (p : RateLimitPolicy) : Except RateLimitError PolicyTable :=
  if fresh : p.id ∉ t.rows.map RateLimitPolicy.id then
    checkIndex p.scope p.resourceId ⟨p :: t.rows, List.nodup_cons.mpr ⟨fresh, t.keyed⟩⟩
  else .error (.app unexpected)

/-- `updateById` with every column that a patch can change. -/
def rewrite (t : PolicyTable) (projectId id : Text) (settings : RateLimitSettings)
    (scope : RateLimitScope) (resourceId : Option Text) : PolicyTable where
  rows := updateWhere
    (fun p => if p.projectId = projectId ∧ p.id = id then
      some { settings with id := p.id, projectId := p.projectId, scope, resourceId } else none)
    t.rows
  keyed := by
    rw [map_updateWhere]
    · exact t.keyed
    · intro p _ q hq
      obtain ⟨_, ⟨⟩⟩ := Option.ite_none_right_eq_some.mp hq
      rfl

def delete (t : PolicyTable) (projectId id : Text) : PolicyTable where
  rows := t.rows.filter fun p => decide (¬(p.projectId = projectId ∧ p.id = id))
  keyed := t.keyed.sublist (List.filter_sublist.map _)

end PolicyTable

section Resources

variable (organizationOf : Text → Option Text)

/-- A request that resolved to a project of the organization. -/
structure Context where
  organizationId : Text
  projectId : Text
  owned : organizationOf projectId = some organizationId

/-- The project that each endpoint and each API key belongs to while a call runs. -/
structure Directory where
  endpoints : Text → Option Text
  apiKeys : Text → Option Text

variable {organizationOf}

def siblingProject : RateLimitError :=
  .invalid "resource_id"
    ("resource_id at project scope must be null or this project’s own id; a policy row stored " ++
      "in one project and pointing at another is never read by anything.")

def found (c : Prop) [Decidable c] : Except RateLimitError Unit :=
  if c then .ok () else .error (.app resourceNotFound)

/-- A null names every resource of the scope; a name is looked up where the scope says. -/
def resolveRateLimitResource (ctx : Context organizationOf) (dir : Directory)
    (scope : RateLimitScope) : Option Text → Except RateLimitError (Option Text)
  | none => .ok none
  | some resourceId => do
      match scope with
      | .endpoint => found (dir.endpoints resourceId = some ctx.projectId)
      | .ingest => found (dir.apiKeys resourceId = some ctx.projectId)
      | .project =>
          found (organizationOf resourceId = some ctx.organizationId)
          if resourceId = ctx.projectId then .ok () else .error siblingProject
      | .organization => found (resourceId = ctx.organizationId)
      .ok (some resourceId)

end Resources

section Calls

structure CreateRateLimitDto where
  scope : RateLimitScope
  resourceId : Option Text := none
  limit : ℤ
  windowSeconds : Option ℤ := none
  burst : Option ℤ := none

/-- A field that is left out is `none`, and one that is null is `some none`. -/
structure UpdateRateLimitDto where
  scope : Option (Option RateLimitScope) := none
  resourceId : Option (Option Text) := none
  limit : Option (Option ℤ) := none
  windowSeconds : Option (Option ℤ) := none
  burst : Option (Option ℤ) := none

def MAX_RATE_LIMIT_POLICIES_PER_PROJECT : ℕ := 300

def headroomExceeded (existing : ℕ) : AppError where
  code := .limitExceeded
  message := s!"This project already has {MAX_RATE_LIMIT_POLICIES_PER_PROJECT} rate-limit " ++
    "policies, which is the maximum. Delete one you no longer enforce."
  details := some ⟨MAX_RATE_LIMIT_POLICIES_PER_PROJECT, existing, "rate_limit_policies"⟩

def requireHeadroom (existing : ℕ) : Except RateLimitError Unit :=
  if existing < MAX_RATE_LIMIT_POLICIES_PER_PROJECT then .ok ()
  else .error (.app (headroomExceeded existing))

/-- The readable half of uniqueness, which sees the rows of this project only. -/
def requireUnique (t : PolicyTable) (projectId : Text) (scope : RateLimitScope)
    (resourceId exclude : Option Text) : Except RateLimitError Unit :=
  match t.rows.find? fun p =>
    decide (p.identity = (projectId, scope, resourceId) ∧ some p.id ≠ exclude) with
  | none => .ok ()
  | some existing => .error (conflictFor scope resourceId (some existing.id))

variable {organizationOf : Text → Option Text}

def create (ctx : Context organizationOf) (dir : Directory) (id : Text) (dto : CreateRateLimitDto)
    (t : PolicyTable) : Except RateLimitError PolicyTable := do
  let settings ← assertRateLimitSettings (some dto.limit)
    (some (dto.windowSeconds.getD DEFAULT_WINDOW_SECONDS)) dto.burst
  requireHeadroom (t.count ctx.projectId)
  let resourceId ← resolveRateLimitResource ctx dir dto.scope dto.resourceId
  requireUnique t ctx.projectId dto.scope resourceId none
  t.insert { settings with id, projectId := ctx.projectId, scope := dto.scope, resourceId }

def restateResource (current next : RateLimitScope) : RateLimitError :=
  .invalid "resource_id"
    ("Changing `scope` while this policy has a `resource_id` requires stating the new " ++
      "resource_id too (or null): the existing one names a " ++ resourceKindFor current ++
      ", which is not what " ++ next.name ++ " scope refers to.")

/-- The identity of a row under a patch. A null scope is no scope, yet counts as a change. -/
def identityFor (ctx : Context organizationOf) (dir : Directory) (current : RateLimitPolicy)
    (dto : UpdateRateLimitDto) : Except RateLimitError (RateLimitScope × Option Text) := do
  let nextScope := (dto.scope.getD none).getD current.scope
  let scopeChanged := dto.scope.any fun s => decide (s ≠ some current.scope)
  if scopeChanged && dto.resourceId.isNone && current.resourceId.isSome then
    .error (restateResource current.scope nextScope)
  else do
    let resourceId ← resolveRateLimitResource ctx dir nextScope
      (dto.resourceId.getD current.resourceId)
    .ok (nextScope, resourceId)

def update (ctx : Context organizationOf) (dir : Directory) (id : Text) (dto : UpdateRateLimitDto)
    (t : PolicyTable) : Except RateLimitError PolicyTable := do
  let current ← t.require ctx.projectId id
  let settings ← assertRateLimitSettings (dto.limit.getD (some current.limit))
    (dto.windowSeconds.getD (some current.windowSeconds)) (dto.burst.getD current.burst)
  let identity ← identityFor ctx dir current dto
  if identity ≠ (current.scope, current.resourceId) then
    requireUnique t ctx.projectId identity.1 identity.2 (some id)
  (t.rewrite ctx.projectId id settings identity.1 identity.2).checkIndex identity.1 identity.2

def remove (ctx : Context organizationOf) (id : Text) (t : PolicyTable) :
    Except RateLimitError PolicyTable := do
  let _ ← t.require ctx.projectId id
  .ok (t.delete ctx.projectId id)

end Calls

end Hookubit.RateLimits.Service
