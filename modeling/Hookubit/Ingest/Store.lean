/- sources: ingest/store.go (FindIdempotency, CreateEvent), ingest/idempotency.go Decide,
     ingest/payload.go (CheckSize, NeedsOffload, PlanPayload), ingest/errors.go
   digest: The idempotency rule, the plan for a payload and the ingest transaction. -/

import Hookubit.Payloadstore.Keys
import Hookubit.Router.Store
import Mathlib.Data.List.Lex
import Mathlib.Data.Char

/-!
The `jsonb` projection of the payload, the headers and the trace context are written and
never read here, and are left out, as is the primary key of an idempotency row, which is
minted afresh by every claim. An empty text stands for a null key or location, as in the
parameters of the transaction.
-/

set_option autoImplicit false
set_option relaxedAutoImplicit false

namespace Hookubit.Ingest.Store

open Data.Rows
open Payloadstore.Keys (Text)
open Postgres.Clock

inductive ErrorCode
  | conflict | idempotencyKeyReused | payloadTooLarge | internalError
  deriving DecidableEq

structure ApiError where
  status : ℕ
  code : ErrorCode
  message : String
  deriving DecidableEq

def errConflict (message : String) : ApiError := ⟨409, .conflict, message⟩

def errIdempotencyKeyReused : ApiError :=
  ⟨409, .idempotencyKeyReused, "This idempotency key was used with a different request body"⟩

def errPayloadTooLarge (message : String) : ApiError := ⟨413, .payloadTooLarge, message⟩

def errInternal : ApiError := ⟨500, .internalError, "An unexpected error occurred"⟩

structure IdempotencyRow where
  projectID : Text
  key : Text
  requestHash : Text
  eventID : Option Text
  expiresAt : ℤ
  createdAt : ℤ
  deriving DecidableEq

structure IdempotencyRecord where
  key : Text
  requestHash : Text
  eventID : Text
  expiresAt : ℤ
  deriving DecidableEq

inductive Decision
  | proceed | replay | conflict | inFlight
  deriving DecidableEq

/-- The whole idempotency rule; `now` is read from the application's clock. -/
def Decide (existing : Option IdempotencyRecord) (requestHash : Text) (now : ℤ) : Decision :=
  match existing with
  | none => .proceed
  | some r =>
      if r.expiresAt ≤ now then .proceed
      else if r.requestHash ≠ requestHash then .conflict
      else if r.eventID = [] then .inFlight
      else .replay

/-- The columns of the unique index. -/
def IdempotencyRow.isFor (projectID key : Text) (r : IdempotencyRow) : Bool :=
  r.projectID = projectID && r.key = key

def IdempotencyRow.record (r : IdempotencyRow) : IdempotencyRecord :=
  ⟨r.key, r.requestHash, r.eventID.getD [], r.expiresAt⟩

def FindIdempotency (projectID key : Text) (rows : List IdempotencyRow) :
    Option IdempotencyRecord :=
  (rows.find? (·.isFor projectID key)).map IdempotencyRow.record

/-- `claimIdempotencySQL`: the slot is taken if it is free or has expired on the database's
clock; `none` where a live row holds it. -/
def claimIdempotencySQL (projectID key requestHash eventID : Text) (expiresAt now : ℤ)
    (rows : List IdempotencyRow) : Option (List IdempotencyRow) :=
  let claimed : IdempotencyRow :=
    ⟨projectID, key, requestHash, some eventID, timestamp3 (encodeTime expiresAt), timestamp3 now⟩
  match rows.find? (·.isFor projectID key) with
  | none => some (rows ++ [claimed])
  | some row =>
      if row.expiresAt ≤ now then
        some (updateWhere (fun r => if r.isFor projectID key then some claimed else none) rows)
      else none

structure PayloadLimits where
  inlineMax : ℤ
  max : ℤ
  deriving DecidableEq

structure PayloadPlan where
  inline : Option (List UInt8)
  location : Text
  size : ℕ
  hash : Text
  deriving DecidableEq

def PayloadLimits.CheckSize (l : PayloadLimits) (size : ℤ) : Option ApiError :=
  if l.max < size then
    some (errPayloadTooLarge
      ("Payload exceeds the maximum event size of " ++ toString l.max ++ " bytes"))
  else none

def PayloadLimits.NeedsOffload (l : PayloadLimits) (size : ℤ) : Bool := l.inlineMax ≤ size

/-- Why a `Put` returned no location. -/
inductive PutError
  | storeUnavailable | other
  deriving DecidableEq

/-- `PlanPayload`; `put` is what the store answers, asked only for a payload to offload. -/
def PlanPayload (hashPayload : List UInt8 → Text) (limits : PayloadLimits) (body : List UInt8)
    (put : Except PutError Text) : Except ApiError PayloadPlan :=
  match limits.CheckSize body.length with
  | some err => .error err
  | none =>
      if limits.NeedsOffload body.length then
        match put with
        | .ok location => .ok ⟨none, location, body.length, hashPayload body⟩
        | .error .storeUnavailable =>
            .error (errPayloadTooLarge ("Payloads of " ++ toString limits.inlineMax ++
              " bytes or more require object storage, which is not configured; " ++
              "the current limit is " ++ toString (limits.inlineMax - 1) ++ " bytes"))
        | .error .other => .error errInternal
      else .ok ⟨some body, [], body.length, hashPayload body⟩

/-- One `events` row as the ingest transaction writes it. -/
structure EventRow where
  id : Text
  organizationID : Text
  projectID : Text
  eventType : Text
  idempotencyKey : Option Text
  payloadRaw : Option (List UInt8)
  payloadLocation : Option Text
  payloadSize : ℕ
  payloadHash : Text
  createdAt : ℤ
  deriving DecidableEq

structure OutboxRow where
  id : Text
  eventID : Text
  availableAt : ℤ
  createdAt : ℤ
  deriving DecidableEq

structure Tables where
  idempotencyKeys : List IdempotencyRow
  events : List EventRow
  outbox : List OutboxRow
  deriving DecidableEq

structure CreateEventParams where
  eventID : Text
  organizationID : Text
  projectID : Text
  eventType : Text
  idempotencyKey : Text
  payload : Option (List UInt8)
  payloadLocation : Text
  payloadSize : ℕ
  payloadHash : Text
  requestHash : Text
  idempotencyExpiresAt : ℤ
  deriving DecidableEq

/-- An empty text is written as null. -/
def nullable (s : Text) : Option Text := if s = [] then none else some s

def CreateEventParams.row (p : CreateEventParams) (now : ℤ) : EventRow :=
  ⟨p.eventID, p.organizationID, p.projectID, p.eventType, nullable p.idempotencyKey, p.payload,
    nullable p.payloadLocation, p.payloadSize, p.payloadHash, timestamp3 now⟩

/-- The first statement of the transaction, skipped for a request without a key. -/
def CreateEventParams.claim (p : CreateEventParams) (now : ℤ) (rows : List IdempotencyRow) :
    Option (List IdempotencyRow) :=
  if p.idempotencyKey = [] then some rows
  else claimIdempotencySQL p.projectID p.idempotencyKey p.requestHash p.eventID
    p.idempotencyExpiresAt now rows

/-- `CreateEvent`, run to its end: whether it created the event, or `none` where a primary
key refused it, and the tables that it leaves. -/
def CreateEvent (p : CreateEventParams) (outboxID : Text) (now : ℤ) (db : Tables) :
    Option Bool × Tables :=
  match p.claim now db.idempotencyKeys with
  | none => (some false, db)
  | some keys =>
      if p.eventID ∈ db.events.map EventRow.id ∨
        outboxID ∈ db.outbox.map OutboxRow.id then (none, db)
      else (some true,
        { idempotencyKeys := keys
          events := db.events ++ [p.row now]
          outbox := db.outbox ++ [⟨outboxID, p.eventID, timestamp3 now, timestamp3 now⟩] })

/-- What the transaction may do: nothing, or the claim with both inserts. -/
inductive Created (p : CreateEventParams) (now : ℤ) (db : Tables) : Option Bool → Tables → Prop
  | unchanged {result : Option Bool} : result ≠ some true → Created p now db result db
  | committed {keys : List IdempotencyRow} {outbox : List OutboxRow} :
      p.claim now db.idempotencyKeys = some keys → p.eventID ∉ db.events.map EventRow.id →
      Created p now db (some true) ⟨keys, db.events ++ [p.row now], outbox⟩

theorem createEvent_created (p : CreateEventParams) (outboxID : Text) (now : ℤ) (db : Tables) :
    Created p now db (CreateEvent p outboxID now db).1 (CreateEvent p outboxID now db).2 := by
  unfold CreateEvent
  split
  · exact .unchanged (by simp)
  · rename_i keys claimed
    split
    · exact .unchanged (by simp)
    · rename_i fresh
      exact .committed claimed fun taken => fresh (.inl taken)

/-- The empty text is the least, as in the database's order. -/
instance : OrderBot Text where
  bot := []
  bot_le s := by
    cases s with
    | nil => exact le_rfl
    | cons c s => exact le_of_lt (List.nil_lt_cons c s)

def EventRow.routed (e : EventRow) : Router.Store.EventRow Text :=
  ⟨⟨e.id, e.organizationID, e.projectID, String.ofList e.eventType, e.createdAt⟩, .received, none⟩

def OutboxRow.routed {R : Type} (o : OutboxRow) : Router.Store.OutboxRow Text R where
  id := o.id
  eventID := o.eventID
  type := "event.created"
  status := .pending
  attempts := 0
  unaccountedAttempts := 0
  availableAt := o.availableAt
  routingCursor := ⊥
  failingSince := none
  lockedBy := none
  lockedUntil := none
  processedAt := none
  createdAt := o.createdAt

/-- The router's columns of the rows that ingest has written. -/
def Tables.routed (R W : Type) (db : Tables) : Router.Store.Tables Text R W :=
  ⟨db.events.map EventRow.routed, db.outbox.map OutboxRow.routed, []⟩

theorem createEvent_insertEvent (R W : Type) {p : CreateEventParams} {outboxID : Text} {now : ℤ}
    {db : Tables} (created : (CreateEvent p outboxID now db).1 = some true) :
    Router.Store.insertEvent
        ⟨p.eventID, p.organizationID, p.projectID, String.ofList p.eventType, 0⟩ outboxID now
        (db.routed R W) = some ((CreateEvent p outboxID now db).2.routed R W) := by
  have events : (db.routed R W).events.map (·.id) = db.events.map EventRow.id := by
    simp [Tables.routed, EventRow.routed, Function.comp_def]
  have outbox : (db.routed R W).outbox.map (·.id) = db.outbox.map OutboxRow.id := by
    simp [Tables.routed, OutboxRow.routed, Function.comp_def]
  unfold CreateEvent at created ⊢
  split at created
  · cases created
  rename_i keys claimed
  split at created
  · cases created
  rename_i fresh
  rw [Router.Store.insertEvent, events, outbox, if_neg fresh]
  simp only [if_neg fresh]
  simp [Tables.routed, EventRow.routed, OutboxRow.routed, CreateEventParams.row]

end Hookubit.Ingest.Store
