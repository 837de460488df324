/- sources: maintenance/auto-disable-policy.ts, maintenance/endpoint-auto-disable.service.ts
     (candidates, disable)
   digest: When the sweep takes an endpoint, and the conditional update that switches it off. -/

import Hookubit.Endpoints.Store
import Hookubit.Worker.Breaker

set_option autoImplicit false
set_option relaxedAutoImplicit false

namespace Hookubit.Maintenance.AutoDisable

open Endpoints.Store
open Payloadstore.Keys (Text)
open Postgres.Clock Worker.Breaker

def getTime (t : ℤ) : ℤ := t / millisecond

/-- The facts that one decision is made from; the last success is kept as it is printed. -/
structure BreakerSnapshot where
  openedAt : Option ℤ
  consecutiveFailures : ℤ
  lastSuccessAt : Option Text
  deriving DecidableEq

def hasBeenOpenLongEnough (snapshot : BreakerSnapshot) (now afterHours : ℤ) : Bool :=
  match snapshot.openedAt with
  | none => false
  | some openedAt => afterHours * 3600000 ≤ getTime now - getTime openedAt

/-- Whole days and hours. -/
def humaniseDuration (ms : ℤ) : String :=
  let hours := ms / 3600000
  let days := hours / 24
  if 1 ≤ days then
    let remainder := hours - days * 24
    if remainder = 0 then s!"{days}d" else s!"{days}d {remainder}h"
  else s!"{hours}h"

def autoDisableReason (snapshot : BreakerSnapshot) (now : ℤ) : Text :=
  let openFor := match snapshot.openedAt with
    | some openedAt => humaniseDuration (getTime now - getTime openedAt)
    | none => "an unknown period"
  let lastSuccess := (snapshot.lastSuccessAt.map String.ofList).getD "never"
  let failures := snapshot.consecutiveFailures
  (s!"auto-disabled: the circuit breaker had been open for {openFor} " ++
    s!"({failures} consecutive failures, last successful delivery: {lastSuccess}). " ++
    "New events are no longer queued for this endpoint. " ++
    "Re-enable it once the endpoint is answering.").toList

/-- The predicate of the candidate query on one health row joined to its endpoint. -/
def isCandidate (row : Option Endpoint) (health : Option Health) (now afterHours : ℤ) : Prop :=
  ∃ e ∈ row, ∃ h ∈ health, h.state = .opened ∧
    (∃ openedAt ∈ h.openedAt, getTime openedAt ≤ getTime now - afterHours * 3600000) ∧
    e.status = .active ∧ e.enabled = true

instance (row : Option Endpoint) (health : Option Health) (now afterHours : ℤ) :
    Decidable (isCandidate row health now afterHours) :=
  inferInstanceAs (Decidable (∃ e ∈ row, ∃ h ∈ health, h.state = .opened ∧
    (∃ openedAt ∈ h.openedAt, getTime openedAt ≤ getTime now - afterHours * 3600000) ∧
    e.status = .active ∧ e.enabled = true))

/-- The conditional update: an endpoint that is no longer active and enabled is left alone. -/
def disable (row : Option Endpoint) (snapshot : BreakerSnapshot) (now : ℤ) : Option Endpoint :=
  row.map fun e =>
    if e.status = .active ∧ e.enabled = true then
      { e with
        status := .disabled
        enabled := false
        disabledReason := some (autoDisableReason snapshot now)
        disabledAt := some now }
    else e

end Hookubit.Maintenance.AutoDisable
