/- sources: endpoints/endpoints.service.ts (create, update, enable, disable, remove),
     endpoint-secrets/endpoint-secrets.service.ts (rotate, revoke, mintInitial, hasLiveSecret)
   digest: A project's endpoints and their secrets under every serial order of calls. -/

import Hookubit.Automata.LabelledSystem
import Hookubit.EndpointSecrets.Service
import Mathlib.Data.List.AList

/-!
Calls come one after the other and time passes between them. A call that is refused changes
nothing and is no step, except for `create`, whose endpoint outlives a failure to mint. The tables
are those of one project: the scope of a call shows it no other rows. Whether a retry policy exists
is an answer of another table and comes with the call, as does a failure that the tables do
not cause.
-/

set_option autoImplicit false
set_option relaxedAutoImplicit false

namespace Hookubit.EndpointSecrets.Machine

open Automata.LabelledSystem Common.Errors Endpoints.Store EndpointSecrets.Service

/-- How `mintInitial` ends inside `create`. A failed cleanup is logged and swallowed. -/
inductive Minting
  | minted
  | failed (cleaned : Bool)
  deriving DecidableEq

structure State (Id : Type) where
  clock : ℤ
  endpoints : AList fun _ : Id => Endpoint
  secrets : SecretTable Id

inductive Op (Id : Type)
  | tick (now : ℤ)
  | create (endpointId secretId : Id) (mayReceiveSecret : Bool) (columns : Columns)
      (policyFound : Bool) (minting : Minting)
  | update (endpointId : Id) (dto : ColumnsUpdate) (policyFound : Bool)
  | enable (endpointId : Id)
  | disable (endpointId : Id)
  | remove (endpointId : Id)
  | rotate (endpointId secretId : Id) (overlap : Option ℤ)
  | revoke (endpointId secretId : Id)
  deriving DecidableEq

/-- A null or missing policy id is not looked up. -/
def requireRetryPolicy (retryPolicyId : Option (Payloadstore.Keys.Text)) (found : Bool) :
    Except AppError Unit :=
  if retryPolicyId.isNone || found then .ok () else .error resourceNotFound

def requireHeadroom (live : ℕ) : Except AppError Unit :=
  if live < MAX_ENDPOINTS_PER_PROJECT then .ok () else .error (headroomExceeded live)

def update (dto : ColumnsUpdate) (policyFound : Bool) (row : Option Endpoint) :
    Except AppError Endpoint := do
  let current ← requireNotDeleted row
  requireRetryPolicy dto.retryPolicyId.join policyFound
  if dto = {} then .ok current else updateById row (updateData dto)

/-- The health row that `enable` also nudges is not part of this state. -/
def enable (live : Bool) (row : Option Endpoint) : Except AppError Endpoint := do
  let _ ← requireNotDeleted row
  if live then updateById row enableData else .error noSecretConflict

def disable (row : Option Endpoint) : Except AppError Endpoint := do
  let _ ← requireNotDeleted row
  updateById row disableData

def remove (row : Option Endpoint) : Except AppError Endpoint := do
  let current ← requireEndpoint row
  if current.status = .deleted then .ok current else updateById row removeData

variable {Id : Type} [DecidableEq Id]

/-- The endpoints that count towards the ceiling. -/
def State.liveEndpoints (s : State Id) : ℕ :=
  s.endpoints.entries.countP fun e => decide (e.2.status ≠ .deleted)

def State.withEndpoint (s : State Id) (id : Id) (e : Endpoint) : State Id :=
  { s with endpoints := s.endpoints.insert id e }

/-- The endpoint that `create` leaves behind a failure to mint. -/
def unminted (columns : Columns) (cleaned : Bool) : Endpoint :=
  if cleaned then removeData.apply (createData columns) else createData columns

def minted (columns : Columns) (mayReceiveSecret : Bool) : Endpoint :=
  if mayReceiveSecret then activateData.apply (createData columns) else createData columns

def State.mint (s : State Id) (endpointId secretId : Id) (mayReceiveSecret : Bool)
    (columns : Columns) : Minting → Except AppError (State Id)
  | .failed cleaned => .ok (s.withEndpoint endpointId (unminted columns cleaned))
  | .minted => do
      let created ← s.secrets.insertSecret endpointId [] s.clock secretId
      .ok { s.withEndpoint endpointId (minted columns mayReceiveSecret) with secrets := created.2 }

/-- The INSERT is refused when the id is taken. -/
def State.create (s : State Id) (endpointId secretId : Id) (mayReceiveSecret : Bool)
    (columns : Columns) (policyFound : Bool) (minting : Minting) : Except AppError (State Id) := do
  requireRetryPolicy columns.retryPolicyId policyFound
  requireHeadroom s.liveEndpoints
  if s.endpoints.lookup endpointId = none then
    s.mint endpointId secretId mayReceiveSecret columns minting
  else .error unexpected

/-- The step of a call that answers with the endpoint's new row. -/
def State.write (s : State Id) (id : Id) (answer : Except AppError Endpoint) : Option (State Id) :=
  answer.toOption.map (s.withEndpoint id)

def next (s : State Id) : Op Id → Option (State Id)
  | .tick now => if s.clock ≤ now then some { s with clock := now } else none
  | .create endpointId secretId mayReceiveSecret columns policyFound minting =>
      (s.create endpointId secretId mayReceiveSecret columns policyFound minting).toOption
  | .update id dto policyFound => s.write id (update dto policyFound (s.endpoints.lookup id))
  | .enable id => s.write id (enable (s.secrets.hasLiveSecret id s.clock) (s.endpoints.lookup id))
  | .disable id => s.write id (disable (s.endpoints.lookup id))
  | .remove id => s.write id (remove (s.endpoints.lookup id))
  | .rotate id secretId overlap =>
      if OverlapAccepted overlap then
        (rotate id (s.endpoints.lookup id) overlap s.clock secretId s.secrets).toOption.map fun r =>
          { s with secrets := r.2 }
      else none
  | .revoke id secretId =>
      (revoke id (s.endpoints.lookup id) secretId s.clock s.secrets).toOption.map fun r =>
        { s with secrets := r.2 }

/-- A project without endpoints, at any time of the day. -/
def State.Fresh (s : State Id) : Prop := s.endpoints = ∅ ∧ s.secrets = .empty

def signing : System (State Id) (Op Id) := .ofStep State.Fresh next

/-- Everything that one call can do. -/
inductive Step (s : State Id) : Op Id → State Id → Prop
  | tick {now : ℤ} (forward : s.clock ≤ now) : Step s (.tick now) { s with clock := now }
  | unminted {id secretId : Id} {mayReceiveSecret : Bool} {columns : Columns}
      {policyFound cleaned : Bool}
      (free : s.endpoints.lookup id = none) :
      Step s (.create id secretId mayReceiveSecret columns policyFound (.failed cleaned))
        (s.withEndpoint id (unminted columns cleaned))
  | minted {id secretId : Id} {mayReceiveSecret : Bool} {columns : Columns} {policyFound : Bool}
      {created : EndpointSecret Id} {table : SecretTable Id} (free : s.endpoints.lookup id = none)
      (inserted : s.secrets.insertSecret id [] s.clock secretId = .ok (created, table)) :
      Step s (.create id secretId mayReceiveSecret columns policyFound .minted)
        { s.withEndpoint id (minted columns mayReceiveSecret) with secrets := table }
  | update {id : Id} {dto : ColumnsUpdate} {policyFound : Bool} {e : Endpoint}
      (found : s.endpoints.lookup id = some e) :
      Step s (.update id dto policyFound) (s.withEndpoint id ((updateData dto).apply e))
  | enable {id : Id} {e : Endpoint} (found : s.endpoints.lookup id = some e)
      (live : s.secrets.hasLiveSecret id s.clock = true) :
      Step s (.enable id) (s.withEndpoint id (enableData.apply e))
  | disable {id : Id} {e : Endpoint} (found : s.endpoints.lookup id = some e) :
      Step s (.disable id) (s.withEndpoint id (disableData.apply e))
  | removed {id : Id} {e : Endpoint} (found : s.endpoints.lookup id = some e)
      (gone : e.status = .deleted) : Step s (.remove id) (s.withEndpoint id e)
  | remove {id : Id} {e : Endpoint} (found : s.endpoints.lookup id = some e) :
      Step s (.remove id) (s.withEndpoint id (removeData.apply e))
  | rotate {id secretId : Id} {overlap : Option ℤ} {answer : EndpointSecret Id × StillSigning}
      {table : SecretTable Id}
      (rotated : rotate id (s.endpoints.lookup id) overlap s.clock secretId s.secrets =
        .ok (answer, table)) :
      Step s (.rotate id secretId overlap) { s with secrets := table }
  | revoke {id secretId : Id} {answer : EndpointSecret Id} {table : SecretTable Id}
      (revoked : revoke id (s.endpoints.lookup id) secretId s.clock s.secrets =
        .ok (answer, table)) :
      Step s (.revoke id secretId) { s with secrets := table }

omit [DecidableEq Id] in
theorem updateById_ok {row : Option Endpoint} {data : EndpointUpdate} {e : Endpoint}
    (h : updateById row data = .ok e) : ∃ old, row = some old ∧ e = data.apply old := by
  cases row with
  | none => cases h
  | some old =>
    obtain ⟨⟩ := h
    exact ⟨old, rfl, rfl⟩

theorem write_some {s t : State Id} {id : Id} {answer : Except AppError Endpoint}
    (h : s.write id answer = some t) : ∃ e, answer = .ok e ∧ t = s.withEndpoint id e := by
  obtain ⟨e, answered, rfl⟩ := Option.map_eq_some_iff.mp h
  exact ⟨e, toOption_eq_some.mp answered, rfl⟩

theorem create_step {s t : State Id} {id secretId : Id} {mayReceiveSecret : Bool}
    {columns : Columns}
    {policyFound : Bool} {minting : Minting}
    (h : s.create id secretId mayReceiveSecret columns policyFound minting = .ok t) :
    Step s (.create id secretId mayReceiveSecret columns policyFound minting) t := by
  obtain ⟨_, _, h⟩ := bind_eq_ok.mp h
  obtain ⟨_, _, h⟩ := bind_eq_ok.mp h
  split at h
  · rename_i free
    cases minting with
    | failed cleaned =>
      obtain ⟨⟩ := h
      exact .unminted free
    | minted =>
      obtain ⟨⟨created, table⟩, inserted, ⟨⟩⟩ := bind_eq_ok.mp h
      exact .minted free inserted
  · cases h

theorem next_step {s t : State Id} {a : Op Id} (h : next s a = some t) : Step s a t := by
  cases a with
  | tick now =>
    obtain ⟨forward, ⟨⟩⟩ := Option.ite_none_right_eq_some.mp h
    exact .tick forward
  | create id secretId mayReceiveSecret columns policyFound minting =>
    exact create_step (toOption_eq_some.mp h)
  | update id dto policyFound =>
    obtain ⟨e, answered, rfl⟩ := write_some h
    obtain ⟨current, found, rest⟩ := bind_eq_ok.mp answered
    obtain ⟨_, _, written⟩ := bind_eq_ok.mp rest
    split at written
    · rename_i blank
      obtain ⟨⟩ := written
      exact blank ▸ .update (requireNotDeleted_ok found).1
    · obtain ⟨old, found, rfl⟩ := updateById_ok written
      exact .update found
  | enable id =>
    obtain ⟨e, answered, rfl⟩ := write_some h
    obtain ⟨_, _, written⟩ := bind_eq_ok.mp answered
    split at written
    · rename_i live
      obtain ⟨old, found, rfl⟩ := updateById_ok written
      exact .enable found live
    · cases written
  | disable id =>
    obtain ⟨e, answered, rfl⟩ := write_some h
    obtain ⟨_, _, written⟩ := bind_eq_ok.mp answered
    obtain ⟨old, found, rfl⟩ := updateById_ok written
    exact .disable found
  | remove id =>
    obtain ⟨e, answered, rfl⟩ := write_some h
    obtain ⟨current, required, written⟩ := bind_eq_ok.mp answered
    split at written
    · rename_i gone
      obtain ⟨⟩ := written
      exact .removed (requireEndpoint_ok required) gone
    · obtain ⟨old, found, rfl⟩ := updateById_ok written
      exact .remove found
  | rotate id secretId overlap =>
    obtain ⟨_, h⟩ := Option.ite_none_right_eq_some.mp h
    obtain ⟨⟨answer, table⟩, rotated, rfl⟩ := Option.map_eq_some_iff.mp h
    exact .rotate (toOption_eq_some.mp rotated)
  | revoke id secretId =>
    obtain ⟨⟨answer, table⟩, revoked, rfl⟩ := Option.map_eq_some_iff.mp h
    exact .revoke (toOption_eq_some.mp revoked)

end Hookubit.EndpointSecrets.Machine
