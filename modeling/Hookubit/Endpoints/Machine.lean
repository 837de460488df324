/- sources: endpoints/endpoints.service.ts (create, update, enable, disable, remove),
     maintenance/endpoint-auto-disable.service.ts sweep, worker/store.go (endpoint_health statements)
   digest: One endpoint and its health row under every order of single statements. -/

import Hookubit.Automata.LabelledSystem
import Hookubit.Maintenance.AutoDisable

/-!
A service call is a sequence of statements with no transaction around them, so the state keeps
for each call the statement it issues next. The sweep is one transaction under an advisory lock,
at the default isolation level: it reads its candidates in one statement and disables in another,
and what it writes is seen when it commits. Workers claim probes, make attempts and record
outcomes whenever they like; an attempt may have been admitted at any earlier moment.
-/

set_option autoImplicit false
set_option relaxedAutoImplicit false

namespace Hookubit.Endpoints.Machine

open Automata.LabelledSystem Common.Errors Endpoints.Store Maintenance.AutoDisable
open Payloadstore.Keys (Text)
open Worker.Breaker

/-- A call to `EndpointsService`. `mayReceiveSecret` is the caller's permission to hold secrets. -/
inductive Request
  | create (mayReceiveSecret : Bool) (columns : Columns)
  | update (dto : ColumnsUpdate)
  | enable
  | disable
  | remove
  deriving DecidableEq

/-- The statement that a call issues next, or the answer it gave. -/
inductive Phase
  | createPolicy (mayReceiveSecret : Bool) (columns : Columns)
  | createHeadroom (mayReceiveSecret : Bool) (columns : Columns)
  | createInsert (mayReceiveSecret : Bool) (columns : Columns)
  | createMint (mayReceiveSecret : Bool)
  | createCleanup (err : AppError)
  | createActivate
  | updateRequire (dto : ColumnsUpdate)
  | updatePolicy (dto : ColumnsUpdate)
  | updateSecret (dto : ColumnsUpdate)
  | updateWrite (dto : ColumnsUpdate)
  | enableRequire
  | enableSecret
  | enableWrite
  | enableArm
  | disableRequire
  | disableWrite
  | removeRequire
  | removeWrite
  | answered (error : Option AppError)
  deriving DecidableEq

/-- A null or missing policy id is not looked up. -/
def Request.begin : Request → Phase
  | .create mayReceiveSecret columns =>
      if columns.retryPolicyId.isNone then .createHeadroom mayReceiveSecret columns
      else .createPolicy mayReceiveSecret columns
  | .update dto => .updateRequire dto
  | .enable => .enableRequire
  | .disable => .disableRequire
  | .remove => .removeRequire

/-- `require`, and what each call makes of the row it reads. -/
def Phase.require (row : Option Endpoint) : Phase → Option Phase
  | .updateRequire dto => some <| match requireNotDeleted row with
      | .error err => .answered (some err)
      | .ok _ => if dto.retryPolicyId.join.isNone then .updateSecret dto else .updatePolicy dto
  | .enableRequire => some <| match requireNotDeleted row with
      | .error err => .answered (some err)
      | .ok _ => .enableSecret
  | .disableRequire => some <| match requireNotDeleted row with
      | .error err => .answered (some err)
      | .ok _ => .disableWrite
  | .removeRequire => some <| match row with
      | none => .answered (some resourceNotFound)
      | some e => if e.status = .deleted then .answered none else .removeWrite
  | _ => none

def Phase.requireRetryPolicy (found : Bool) : Phase → Option Phase
  | .createPolicy mayReceiveSecret columns => some <|
      if found then .createHeadroom mayReceiveSecret columns else .answered (some resourceNotFound)
  | .updatePolicy dto => some <|
      if found then .updateSecret dto else .answered (some resourceNotFound)
  | _ => none

def Phase.requireHeadroom (live : ℕ) : Phase → Option Phase
  | .createHeadroom mayReceiveSecret columns => some <|
      if live < MAX_ENDPOINTS_PER_PROJECT then .createInsert mayReceiveSecret columns
      else .answered (some (headroomExceeded live))
  | _ => none

/-- The answer is the secrets table's, which is not part of this state. -/
def Phase.hasLiveSecret (live : Bool) : Phase → Option Phase
  | .updateSecret dto => some <| if dto = {} then .answered none else .updateWrite dto
  | .enableSecret => some <| if live then .enableWrite else .answered (some noSecretConflict)
  | _ => none

/-- `mintInitial` inside `create`; an error sends the call to its cleanup. -/
def Phase.mintInitial (failure : Option AppError) : Phase → Option Phase
  | .createMint mayReceiveSecret => some <| match failure with
      | some err => .createCleanup err
      | none => if mayReceiveSecret then .createActivate else .answered none
  | _ => none

/-- The payload of the `updateById` that a call has come to. -/
def Phase.payload : Phase → Option EndpointUpdate
  | .createCleanup _ => some removeData
  | .createActivate => some activateData
  | .updateWrite dto => some (updateData dto)
  | .enableWrite => some enableData
  | .disableWrite => some disableData
  | .removeWrite => some removeData
  | _ => none

def Phase.afterWrite : Phase → Phase
  | .createCleanup err => .answered (some err)
  | .enableWrite => .enableArm
  | _ => .answered none

/-- A sweep that has read the endpoint as a candidate. -/
structure Pass where
  snapshot : BreakerSnapshot
  now : ℤ
  afterHours : ℤ
  deriving DecidableEq

structure State where
  clock : ℤ
  row : Option Endpoint
  health : Option Health
  calls : ℕ → Option Phase
  /-- The pass that holds the advisory lock, if it has this endpoint on its list. -/
  pass : Option Pass
  /-- Attempts under way. -/
  attempts : List ℕ

inductive Op
  | tick (now : ℤ)
  | call (c : ℕ) (request : Request)
  | require (c : ℕ)
  | requireRetryPolicy (c : ℕ) (found : Bool)
  | requireHeadroom (c : ℕ) (live : ℕ)
  | hasLiveSecret (c : ℕ) (live : Bool)
  | mintInitial (c : ℕ) (failure : Option AppError)
  | insert (c : ℕ)
  | updateById (c : ℕ)
  | armBreakerProbe (c : ℕ) (apiNow : ℤ)
  | fail (c : ℕ)
  | candidates (lastSuccessAt : Option Text) (apiNow afterHours : ℤ)
  | autoDisable
  | rollback
  | claimProbe
  | attempt (k : ℕ)
  | recordOutcome (k : ℕ) (success : Bool) (jitter : ℚ) (appNow : ℤ)

def State.setCall (s : State) (c : ℕ) (p : Phase) : State :=
  { s with calls := Function.update s.calls c (some p) }

/-- One statement of one party. A call's statement may also fail without effect, which ends the
call, as does the death of its process. -/
def next (cfg : BreakerConfig) (s : State) : Op → Option State
  | .tick now => if s.clock ≤ now then some { s with clock := now } else none
  | .call c request => if s.calls c = none then some (s.setCall c request.begin) else none
  | .require c => ((s.calls c).bind (Phase.require s.row)).map (s.setCall c)
  | .requireRetryPolicy c found =>
      ((s.calls c).bind (Phase.requireRetryPolicy found)).map (s.setCall c)
  | .requireHeadroom c live => ((s.calls c).bind (Phase.requireHeadroom live)).map (s.setCall c)
  | .hasLiveSecret c live => ((s.calls c).bind (Phase.hasLiveSecret live)).map (s.setCall c)
  | .mintInitial c failure => ((s.calls c).bind (Phase.mintInitial failure)).map (s.setCall c)
  | .insert c =>
      match s.calls c with
      | some (.createInsert mayReceiveSecret columns) =>
          match s.row with
          | none =>
              some { s.setCall c (.createMint mayReceiveSecret) with
                row := some (createData columns) }
          | some _ => some (s.setCall c (.answered (some unexpected)))
      | _ => none
  | .updateById c =>
      (s.calls c).bind fun p => p.payload.map fun data =>
        match updateById s.row data with
        | .error err => s.setCall c (.answered (some err))
        | .ok e => { s.setCall c p.afterWrite with row := some e }
  | .armBreakerProbe c apiNow =>
      if s.calls c = some .enableArm then
        some { s.setCall c (.answered none) with health := armBreakerProbe s.health apiNow }
      else none
  | .fail c => (s.calls c).map fun _ => s.setCall c (.answered (some unexpected))
  | .candidates lastSuccessAt apiNow afterHours =>
      match s.pass, s.health with
      | none, some h =>
          if isCandidate s.row s.health apiNow afterHours then
            some { s with
              pass := some ⟨⟨h.openedAt, h.consecutiveFailures, lastSuccessAt⟩, apiNow,
                afterHours⟩ }
          else some s
      | none, none => some s
      | some _, _ => none
  | .autoDisable => s.pass.map fun p =>
      { s with
        pass := none
        row :=
          if hasBeenOpenLongEnough p.snapshot p.now p.afterHours then disable s.row p.snapshot p.now
          else s.row }
  | .rollback => s.pass.map fun _ => { s with pass := none }
  | .claimProbe => some { s with
      health := (ClaimProbe s.health cfg.withDefaults.halfOpenTTL s.clock).2 }
  | .attempt k => if k ∈ s.attempts then none else some { s with attempts := k :: s.attempts }
  | .recordOutcome k success jitter appNow =>
      if k ∈ s.attempts then
        some { s with
          attempts := s.attempts.erase k
          health := some (RecordOutcome s.health success cfg jitter s.clock appNow) }
      else none

/-- Before `create` there is neither a row nor anything that refers to it. -/
def State.Fresh (s : State) : Prop :=
  s.row = none ∧ s.health = none ∧ (∀ c, s.calls c = none) ∧ s.pass = none ∧ s.attempts = []

def endpoints (cfg : BreakerConfig) : System State Op := .ofStep State.Fresh (next cfg)

inductive Moves (s : State) : Op → ℕ → Phase → Prop
  | call (c : ℕ) (request : Request) :
      s.calls c = none → Moves s (.call c request) c request.begin
  | require {c : ℕ} {p q : Phase} :
      s.calls c = some p → p.require s.row = some q → Moves s (.require c) c q
  | requireRetryPolicy {c : ℕ} {found : Bool} {p q : Phase} :
      s.calls c = some p → p.requireRetryPolicy found = some q →
      Moves s (.requireRetryPolicy c found) c q
  | requireHeadroom {c live : ℕ} {p q : Phase} :
      s.calls c = some p → p.requireHeadroom live = some q → Moves s (.requireHeadroom c live) c q
  | hasLiveSecret {c : ℕ} {live : Bool} {p q : Phase} :
      s.calls c = some p → p.hasLiveSecret live = some q → Moves s (.hasLiveSecret c live) c q
  | mintInitial {c : ℕ} {failure : Option AppError} {p q : Phase} :
      s.calls c = some p → p.mintInitial failure = some q → Moves s (.mintInitial c failure) c q
  | insertRefused (c : ℕ) (e : Endpoint) :
      s.row = some e → Moves s (.insert c) c (.answered (some unexpected))
  | updateRefused (c : ℕ) (err : AppError) :
      s.row = none → Moves s (.updateById c) c (.answered (some err))
  | fail (c : ℕ) : Moves s (.fail c) c (.answered (some unexpected))

/-- Everything that one statement can do. -/
inductive Step (cfg : BreakerConfig) (s : State) : Op → State → Prop
  | tick (now : ℤ) : s.clock ≤ now → Step cfg s (.tick now) { s with clock := now }
  | move {a : Op} {c : ℕ} {q : Phase} : Moves s a c q → Step cfg s a (s.setCall c q)
  | insert {c : ℕ} {mayReceiveSecret : Bool} {columns : Columns} :
      s.calls c = some (.createInsert mayReceiveSecret columns) → s.row = none →
      Step cfg s (.insert c)
        { s.setCall c (.createMint mayReceiveSecret) with row := some (createData columns) }
  | write {c : ℕ} {p : Phase} {data : EndpointUpdate} {e : Endpoint} :
      s.calls c = some p → p.payload = some data → s.row = some e →
      Step cfg s (.updateById c) { s.setCall c p.afterWrite with row := some (data.apply e) }
  | arm {c : ℕ} (apiNow : ℤ) :
      s.calls c = some .enableArm →
      Step cfg s (.armBreakerProbe c apiNow)
        { s.setCall c (.answered none) with health := armBreakerProbe s.health apiNow }
  | take {lastSuccessAt : Option Text} {apiNow afterHours : ℤ} {h : Health} :
      s.pass = none → s.health = some h → isCandidate s.row s.health apiNow afterHours →
      Step cfg s (.candidates lastSuccessAt apiNow afterHours)
        { s with
          pass := some ⟨⟨h.openedAt, h.consecutiveFailures, lastSuccessAt⟩, apiNow, afterHours⟩ }
  | skip {lastSuccessAt : Option Text} {apiNow afterHours : ℤ} :
      ¬ isCandidate s.row s.health apiNow afterHours →
      Step cfg s (.candidates lastSuccessAt apiNow afterHours) s
  | autoDisable {p : Pass} :
      s.pass = some p →
      Step cfg s .autoDisable
        { s with
          pass := none
          row :=
            if hasBeenOpenLongEnough p.snapshot p.now p.afterHours then
              disable s.row p.snapshot p.now
            else s.row }
  | rollback : Step cfg s .rollback { s with pass := none }
  | claimProbe :
      Step cfg s .claimProbe
        { s with health := (ClaimProbe s.health cfg.withDefaults.halfOpenTTL s.clock).2 }
  | attempt (k : ℕ) : Step cfg s (.attempt k) { s with attempts := k :: s.attempts }
  | recordOutcome {k : ℕ} (success : Bool) (jitter : ℚ) (appNow : ℤ) :
      k ∈ s.attempts →
      Step cfg s (.recordOutcome k success jitter appNow)
        { s with
          attempts := s.attempts.erase k
          health := some (RecordOutcome s.health success cfg jitter s.clock appNow) }

private theorem moved_call {s t : State} {c : ℕ} {f : Phase → Option Phase}
    (h : ((s.calls c).bind f).map (s.setCall c) = some t) :
    ∃ p q, s.calls c = some p ∧ f p = some q ∧ t = s.setCall c q := by
  obtain ⟨q, hq, rfl⟩ := Option.map_eq_some_iff.mp h
  obtain ⟨p, hp, hf⟩ := Option.bind_eq_some_iff.mp hq
  exact ⟨p, q, hp, hf, rfl⟩

theorem next_step {cfg : BreakerConfig} {s t : State} {a : Op} (h : next cfg s a = some t) :
    Step cfg s a t := by
  cases a with
  | tick now =>
    obtain ⟨forward, ⟨⟩⟩ := Option.ite_none_right_eq_some.mp h
    exact .tick now forward
  | call c request =>
    obtain ⟨free, ⟨⟩⟩ := Option.ite_none_right_eq_some.mp h
    exact .move (.call c request free)
  | require c =>
    obtain ⟨p, q, hp, hq, rfl⟩ := moved_call h
    exact .move (.require hp hq)
  | requireRetryPolicy c found =>
    obtain ⟨p, q, hp, hq, rfl⟩ := moved_call h
    exact .move (.requireRetryPolicy hp hq)
  | requireHeadroom c live =>
    obtain ⟨p, q, hp, hq, rfl⟩ := moved_call h
    exact .move (.requireHeadroom hp hq)
  | hasLiveSecret c live =>
    obtain ⟨p, q, hp, hq, rfl⟩ := moved_call h
    exact .move (.hasLiveSecret hp hq)
  | mintInitial c failure =>
    obtain ⟨p, q, hp, hq, rfl⟩ := moved_call h
    exact .move (.mintInitial hp hq)
  | insert c =>
    simp only [next] at h
    split at h
    · rename_i mayReceiveSecret columns inserting
      split at h
      · rename_i empty
        cases h
        exact .insert inserting empty
      · rename_i e present
        cases h
        exact .move (.insertRefused c e present)
    · cases h
  | updateById c =>
    obtain ⟨p, hp, h⟩ := Option.bind_eq_some_iff.mp h
    obtain ⟨data, hd, rfl⟩ := Option.map_eq_some_iff.mp h
    cases hr : s.row with
    | none => exact .move (.updateRefused c _ hr)
    | some e => exact .write hp hd hr
  | armBreakerProbe c apiNow =>
    obtain ⟨arming, ⟨⟩⟩ := Option.ite_none_right_eq_some.mp h
    exact .arm apiNow arming
  | fail c =>
    obtain ⟨_, _, rfl⟩ := Option.map_eq_some_iff.mp h
    exact .move (.fail c)
  | candidates lastSuccessAt apiNow afterHours =>
    simp only [next] at h
    split at h
    · rename_i h' idle health
      split at h
      · rename_i candidate
        cases h
        exact .take idle health candidate
      · rename_i other
        cases h
        exact .skip other
    · rename_i idle health
      cases h
      exact .skip (by simp [isCandidate, health])
    · cases h
  | autoDisable =>
    obtain ⟨p, hp, rfl⟩ := Option.map_eq_some_iff.mp h
    exact .autoDisable hp
  | rollback =>
    obtain ⟨_, _, rfl⟩ := Option.map_eq_some_iff.mp h
    exact .rollback
  | claimProbe =>
    cases h
    exact .claimProbe
  | attempt k =>
    obtain ⟨_, ⟨⟩⟩ := Option.ite_none_left_eq_some.mp h
    exact .attempt k
  | recordOutcome k success jitter appNow =>
    obtain ⟨running, ⟨⟩⟩ := Option.ite_none_right_eq_some.mp h
    exact .recordOutcome success jitter appNow running

theorem next_updateById (cfg : BreakerConfig) {s : State} {c : ℕ} {p : Phase}
    {data : EndpointUpdate} {e : Endpoint} (hp : s.calls c = some p)
    (hd : p.payload = some data) (hr : s.row = some e) :
    next cfg s (.updateById c) =
      some { s.setCall c p.afterWrite with row := some (data.apply e) } := by
  simp only [next, hp, hd, hr, updateById, Option.bind_some, Option.map_some]

end Hookubit.Endpoints.Machine
