/- sources: endpoints/endpoints.service.ts (writableColumns and the payloads of its writes),
     authz/tenant-scope.ts updateById, prisma/schema.prisma Endpoint
   digest: One endpoint row and the statements that EndpointsService sends to it. -/

import Hookubit.Common.Errors
import Hookubit.Payloadstore.Keys

set_option autoImplicit false
set_option relaxedAutoImplicit false

namespace Hookubit.Endpoints.Store

open Common.Errors
open Payloadstore.Keys (Text)

inductive EndpointStatus
  | active | paused | disabled | deleted
  deriving DecidableEq

/-- The columns that a request body reaches. -/
structure Columns where
  name : Text
  url : Text
  description : Option Text
  timeoutMs : ℕ
  maxConcurrency : ℕ
  rateLimit : Option ℕ
  rateLimitWindowSeconds : ℕ
  retryPolicyId : Option Text
  customHeaders : Option (List (Text × Text))
  deriving DecidableEq

/-- The `endpoints` row. Its tenant column and its two timestamps are read by no rule here. -/
structure Endpoint extends Columns where
  status : EndpointStatus
  enabled : Bool
  disabledReason : Option Text
  disabledAt : Option ℤ
  deriving DecidableEq

/-- `UpdateEndpointDto` as `update` sees it: `none` is a field the body left out. -/
structure ColumnsUpdate where
  name : Option Text := none
  url : Option Text := none
  description : Option (Option Text) := none
  timeoutMs : Option ℕ := none
  maxConcurrency : Option ℕ := none
  rateLimit : Option (Option ℕ) := none
  rateLimitWindowSeconds : Option ℕ := none
  retryPolicyId : Option (Option Text) := none
  customHeaders : Option (Option (List (Text × Text))) := none
  deriving DecidableEq

structure EndpointUpdate extends ColumnsUpdate where
  status : Option EndpointStatus := none
  enabled : Option Bool := none
  disabledReason : Option (Option Text) := none
  disabledAt : Option (Option ℤ) := none
  deriving DecidableEq

def EndpointUpdate.apply (data : EndpointUpdate) (e : Endpoint) : Endpoint where
  name := data.name.getD e.name
  url := data.url.getD e.url
  description := data.description.getD e.description
  timeoutMs := data.timeoutMs.getD e.timeoutMs
  maxConcurrency := data.maxConcurrency.getD e.maxConcurrency
  rateLimit := data.rateLimit.getD e.rateLimit
  rateLimitWindowSeconds := data.rateLimitWindowSeconds.getD e.rateLimitWindowSeconds
  retryPolicyId := data.retryPolicyId.getD e.retryPolicyId
  customHeaders := data.customHeaders.getD e.customHeaders
  status := data.status.getD e.status
  enabled := data.enabled.getD e.enabled
  disabledReason := data.disabledReason.getD e.disabledReason
  disabledAt := data.disabledAt.getD e.disabledAt

/-- `updateById`: the id and the tenant pick the row, nothing about its content does. -/
def updateById (row : Option Endpoint) (data : EndpointUpdate) : Except AppError Endpoint :=
  match row with
  | none => .error resourceNotFound
  | some e => .ok (data.apply e)

def createData (columns : Columns) : Endpoint :=
  { columns with status := .paused, enabled := false, disabledReason := none, disabledAt := none }

/-- What `create` writes once the secret exists and the caller may hold it. -/
def activateData : EndpointUpdate := { status := some .active, enabled := some true }

/-- The one payload of `remove` and of the cleanup in `create`. -/
def removeData : EndpointUpdate := { status := some .deleted, enabled := some false }

def enableData : EndpointUpdate :=
  { enabled := some true, status := some .active, disabledReason := some none,
    disabledAt := some none }

def disableData : EndpointUpdate := { enabled := some false, status := some .paused }

def updateData (dto : ColumnsUpdate) : EndpointUpdate := { dto with }

def deletedConflict : AppError where
  code := .conflict
  message := "This endpoint has been deleted. Deleted endpoints are kept so the delivery ledger " ++
    "stays readable, but they cannot be modified."

def noSecretConflict : AppError where
  code := .conflict
  message := "This endpoint has no active signing secret, so its deliveries could not be " ++
    "signed. Rotate a secret first, then enable it."

def MAX_ENDPOINTS_PER_PROJECT : ℕ := 500

def headroomExceeded (live : ℕ) : AppError where
  code := .limitExceeded
  message := s!"This project already has {MAX_ENDPOINTS_PER_PROJECT} endpoints, which is the " ++
    "maximum. " ++
    "Delete one you no longer deliver to, or talk to us about a higher limit."
  details := some ⟨MAX_ENDPOINTS_PER_PROJECT, live, "endpoints"⟩

def requireNotDeleted (row : Option Endpoint) : Except AppError Endpoint :=
  match row with
  | none => .error resourceNotFound
  | some e => if e.status = .deleted then .error deletedConflict else .ok e

theorem requireNotDeleted_ok {row : Option Endpoint} {e : Endpoint}
    (h : requireNotDeleted row = .ok e) : row = some e ∧ e.status ≠ .deleted := by
  cases row with
  | none => cases h
  | some f =>
    simp only [requireNotDeleted] at h
    split at h
    · cases h
    · rename_i live
      cases h
      exact ⟨rfl, live⟩

end Hookubit.Endpoints.Store
