/- sources: ingest/handler.go (accept from step 5, checkIdempotency, persist),
     ingest/payload.go DisposeOrphan, payloadstore/reconcile.go, payloadstore/lookup.go
   digest: Publish requests, the bucket and its sweeps over the ingest tables, one answer a step. -/

import Hookubit.Automata.LabelledSystem
import Hookubit.Ingest.Store
import Hookubit.Payloadstore.Reconcile

/-!
A request enters once its credential, its body and the rate limit have been dealt with. Every
call it makes may fail, and it may crash between any two. `CreateEvent` is one transaction;
the handler may be told of an error while that transaction is still on its way, so a request
that gave up can commit later. The clock of the state is the database's; the handlers' clocks
are whatever they are told when they ask.
-/

set_option autoImplicit false
set_option relaxedAutoImplicit false

namespace Hookubit.Ingest.Machine

open Automata.LabelledSystem Ingest.Store Payloadstore.Keys Payloadstore.Reconcile Postgres.Clock

/-- What a handler is built with. The hash is any function of the bytes. -/
structure Setup where
  hashPayload : List UInt8 → Text
  limits : PayloadLimits
  idempotencyTTL : ℤ
  store : Config

/-- Where a request stands. -/
inductive Phase
  | checking
  | deciding (found : Option IdempotencyRecord)
  | planning
  | planned (plan : PayloadPlan)
  | creating (plan : PayloadPlan) (expiresAt : ℤ)
  | gaveUp (plan : PayloadPlan) (expiresAt : ℤ)
  | discarding (plan : PayloadPlan)
  | taken (plan : PayloadPlan)
  | rereading
  | redeciding (found : Option IdempotencyRecord)
  | answered (answer : Except ApiError Text)
  | crashed

structure Request where
  organizationID : Text
  projectID : Text
  eventType : Text
  idempotencyKey : Text
  body : List UInt8
  /-- The id that `persist` minted. -/
  eventID : Option Text
  /-- When it asked the store to put the payload. -/
  uploadedAt : ℤ
  phase : Phase

structure State where
  clock : ℤ
  db : Tables
  objects : List Object
  /-- The event ids that were ever minted, here or before. -/
  used : List Text
  requests : ℕ → Option Request
  passes : ℕ → Option Pass

/-- How the store took a `Put`: it may have kept the object although the caller saw an error. -/
inductive PutOutcome
  | stored | storedUnanswered | refused (error : PutError)
  deriving DecidableEq

def PutOutcome.kept : PutOutcome → Bool
  | .stored | .storedUnanswered => true
  | .refused _ => false

inductive Op
  | tick (now : ℤ)
  | arrive (q : ℕ) (organizationID projectID eventType idempotencyKey : Text) (body : List UInt8)
  | findIdempotency (q : ℕ) (ok : Bool)
  | decide (q : ℕ) (appNow : ℤ)
  | planPayload (q : ℕ) (eventID : Text) (put : PutOutcome) (stamp : Option ℤ)
  | metadataFails (q : ℕ)
  | createEvent (q : ℕ) (appNow : ℤ)
  | commit (q : ℕ) (outboxID : Text) (replied : Bool)
  | createError (q : ℕ)
  | disposeOrphan (q : ℕ) (deleted : Bool)
  | crash (q : ℕ)
  | reconcile (i : ℕ) (opts : ReconcileOptions)
  | listPage (i : ℕ) (ok : Bool)
  | examine (i : ℕ)
  | payloadReferenced (i : ℕ) (ok : Bool)
  | delete (i : ℕ) (deleted acknowledged : Bool)
  | stop (i : ℕ)

def State.setRequest (s : State) (q : ℕ) (r : Request) : State :=
  { s with requests := Function.update s.requests q (some r) }

def State.setPass (s : State) (i : ℕ) (p : Pass) : State :=
  { s with passes := Function.update s.passes i (some p) }

def Request.goTo (r : Request) (phase : Phase) : Request := { r with phase := phase }

/-- `checkIdempotency` once it has its record; `proceed` is what follows an undecided one. -/
def checkIdempotency (found : Option IdempotencyRecord) (requestHash : Text) (appNow : ℤ)
    (proceed : Phase) : Phase :=
  match Decide found requestHash appNow with
  | .replay => .answered (.ok ((found.map IdempotencyRecord.eventID).getD []))
  | .conflict => .answered (.error errIdempotencyKeyReused)
  | .inFlight =>
      .answered (.error (errConflict "A request with this idempotency key is still in progress"))
  | .proceed => proceed

/-- The answer when the row vanished between the failed claim and the second look. -/
def vanished : Phase :=
  .answered (.error (errConflict "Concurrent request with the same idempotency key; retry"))

def Request.params (setup : Setup) (r : Request) (eventID : Text) (plan : PayloadPlan)
    (expiresAt : ℤ) : CreateEventParams where
  eventID := eventID
  organizationID := r.organizationID
  projectID := r.projectID
  eventType := r.eventType
  idempotencyKey := r.idempotencyKey
  payload := plan.inline
  payloadLocation := plan.location
  payloadSize := plan.size
  payloadHash := plan.hash
  requestHash := setup.hashPayload r.body
  idempotencyExpiresAt := expiresAt

/-- `PlanPayload` under a fresh event id: the phase that follows and the bucket. -/
def Request.plan (setup : Setup) (r : Request) (eventID : Text) (put : PutOutcome)
    (stamp : Option ℤ) (objects : List Object) : Phase × List Object :=
  let upload := Put setup.store r.projectID eventID r.body stamp
  let answer : Except PutError Text := match put with
    | .stored => .ok upload.2
    | .storedUnanswered => .error .other
    | .refused error => .error error
  (match PlanPayload setup.hashPayload setup.limits r.body answer with
    | .ok plan => .planned plan
    | .error err => .answered (.error err),
   if setup.limits.CheckSize r.body.length = none ∧
      setup.limits.NeedsOffload r.body.length = true ∧ put.kept = true
   then PutObject upload.1 objects else objects)

/-- What the handler learns from a transaction that ran to its end. -/
def Request.told (r : Request) (eventID : Text) (plan : PayloadPlan) (replied : Bool)
    (result : Option Bool) : Request :=
  r.goTo <| if replied then
      match result with
      | some true => .answered (.ok eventID)
      | some false => .taken plan
      | none => .answered (.error errInternal)
    else .answered (.error errInternal)

/-- `DisposeOrphan`, whose delete may fail. -/
def disposeOrphan (plan : PayloadPlan) (deleted : Bool) (objects : List Object) : List Object :=
  if plan.location = [] ∨ deleted = false then objects else Delete plan.location objects

def payloadReferenced (eventID : Text) (db : Tables) : Bool :=
  db.events.any fun e => e.id = eventID && e.payloadLocation.isSome

def next (setup : Setup) (s : State) : Op → Option State
  | .tick now => if s.clock ≤ now then some { s with clock := now } else none
  | .arrive q organizationID projectID eventType idempotencyKey body =>
      match s.requests q with
      | some _ => none
      | none => some (s.setRequest q
          ⟨organizationID, projectID, eventType, idempotencyKey, body, none, 0,
            if idempotencyKey = [] then .planning else .checking⟩)
  | .findIdempotency q ok =>
      (s.requests q).bind fun r =>
        let found := FindIdempotency r.projectID r.idempotencyKey s.db.idempotencyKeys
        match r.phase with
        | .checking => some (s.setRequest q (r.goTo
            (if ok then .deciding found else .answered (.error errInternal))))
        | .rereading => some (s.setRequest q (r.goTo
            (if ok then .redeciding found else .answered (.error errInternal))))
        | _ => none
  | .decide q appNow =>
      (s.requests q).bind fun r =>
        match r.phase with
        | .deciding found => some (s.setRequest q (r.goTo
            (checkIdempotency found (setup.hashPayload r.body) appNow .planning)))
        | .redeciding found => some (s.setRequest q (r.goTo
            (checkIdempotency found (setup.hashPayload r.body) appNow vanished)))
        | _ => none
  | .planPayload q eventID put stamp =>
      (s.requests q).bind fun r =>
        match r.phase with
        | .planning =>
            if eventID ∈ s.used ∨ Parse eventID Event = none then none
            else
              let result := r.plan setup eventID put stamp s.objects
              let r := { r with eventID := some eventID, uploadedAt := s.clock, phase := result.1 }
              some { s.setRequest q r with objects := result.2, used := eventID :: s.used }
        | _ => none
  | .metadataFails q =>
      (s.requests q).bind fun r =>
        match r.phase with
        | .planned plan => some (s.setRequest q (r.goTo (.discarding plan)))
        | _ => none
  | .createEvent q appNow =>
      (s.requests q).bind fun r =>
        match r.phase with
        | .planned plan =>
            some (s.setRequest q (r.goTo (.creating plan (appNow + setup.idempotencyTTL))))
        | _ => none
  | .commit q outboxID replied =>
      (s.requests q).bind fun r =>
        match r.phase, r.eventID with
        | .creating plan expiresAt, some eventID =>
            let result := CreateEvent (r.params setup eventID plan expiresAt) outboxID s.clock s.db
            some { s.setRequest q (r.told eventID plan replied result.1) with db := result.2 }
        | .gaveUp plan expiresAt, some eventID =>
            let result := CreateEvent (r.params setup eventID plan expiresAt) outboxID s.clock s.db
            some { s.setRequest q (r.told eventID plan false result.1) with db := result.2 }
        | _, _ => none
  | .createError q =>
      (s.requests q).bind fun r =>
        match r.phase with
        | .creating plan expiresAt => some (s.setRequest q (r.goTo (.gaveUp plan expiresAt)))
        | _ => none
  | .disposeOrphan q deleted =>
      (s.requests q).bind fun r =>
        match r.phase with
        | .discarding plan => some { s.setRequest q (r.goTo (.answered (.error errInternal))) with
            objects := disposeOrphan plan deleted s.objects }
        | .taken plan => some { s.setRequest q (r.goTo .rereading) with
            objects := disposeOrphan plan deleted s.objects }
        | _ => none
  | .crash q =>
      (s.requests q).bind fun r =>
        match r.phase with
        | .creating plan expiresAt => some (s.setRequest q (r.goTo (.gaveUp plan expiresAt)))
        | .gaveUp _ _ | .answered _ | .crashed => none
        | _ => some (s.setRequest q (r.goTo .crashed))
  | .reconcile i opts =>
      match s.passes i with
      | some _ => none
      | none => some (s.setPass i (.start opts s.clock))
  | .listPage i ok =>
      (s.passes i).bind fun p =>
        match p.stage with
        | .listing => some (s.setPass i (p.listed (if ok then
            some (ListObjectsV2 setup.store.bucket
              (setup.store.keyPrefix ++ ['/']) p.token s.objects)
            else none)))
        | _ => none
  | .examine i =>
      (s.passes i).bind fun p =>
        match p.stage with
        | .examining => some (s.setPass i (p.examine setup.store))
        | _ => none
  | .payloadReferenced i ok =>
      (s.passes i).bind fun p =>
        match p.stage with
        | .looking o eventID => some (s.setPass i (p.lookedUp o eventID (if ok then
            some (payloadReferenced eventID s.db) else none)))
        | _ => none
  | .delete i deleted acknowledged =>
      (s.passes i).bind fun p =>
        match p.stage with
        | .deleting o _ =>
            if acknowledged = true ∧ deleted = false then none
            else some { s.setPass i (p.deleted acknowledged) with
              objects := if deleted then Delete (Location setup.store.bucket o.key) s.objects
                else s.objects }
        | _ => none
  | .stop i => (s.passes i).map fun p => s.setPass i { p with stage := .returned }

/-- Runs start before the first request and the first sweep, with a bucket in which every key
of an event's shape is of an id that is not minted again. -/
def Start (setup : Setup) (s : State) : Prop :=
  s.db = ⟨[], [], []⟩ ∧ (∀ q, s.requests q = none) ∧ (∀ i, s.passes i = none) ∧
    ∀ o ∈ s.objects, ∀ parsed, ParseKey setup.store.keyPrefix o.key = some parsed →
      parsed.eventID ∈ s.used

def ingest (setup : Setup) : System State Op := .ofStep (Start setup) (next setup)

/-- Two bytes are inline already too many. -/
def smallLimits : Setup where
  hashPayload body := body.map fun b => Char.ofNat b.toNat
  limits := ⟨2, 100⟩
  idempotencyTTL := 24 * hour
  store := ⟨"payloads".toList, DefaultPrefix, by decide, by decide⟩

def quiet : State := ⟨0, ⟨[], [], []⟩, [], [], fun _ => none, fun _ => none⟩

theorem start_quiet : Start smallLimits quiet :=
  ⟨rfl, fun _ => rfl, fun _ => rfl, fun _ none_there => nomatch none_there⟩

def sampleProject : Text := "proj_00000000000000000000000000".toList

/-- An event id of the first millisecond. -/
def sampleEvent (c : Char) : Text := "evt_0000000000000000000000000".toList ++ [c]

/-- Request `q` with that key and body, up to the start of its transaction under event `c`. -/
def upToCommit (q : ℕ) (key : Text) (body : List UInt8) (c : Char) : List Op :=
  [.arrive q [] sampleProject "order.paid".toList key body, .findIdempotency q true, .decide q 0,
    .planPayload q (sampleEvent c) .stored (some 0), .createEvent q 0]

end Hookubit.Ingest.Machine
