/- sources: egress/client.go Do, PermanentError; egress/ssrf.go BlockedTargetError
   digest: One delivery attempt over HTTP: what the client makes of an exchange. -/

import Hookubit.Retry.Backoff
import Hookubit.Worker.Headers

/-!
`Do` is followed from the checks before the request to the end of the response body. The
exchange itself is `net/http`'s: it either fails or comes to an answer whose body is a reader.
Durations, connection limits and the bytes drained after the body decide nothing and are left
out.
-/

set_option autoImplicit false
set_option relaxedAutoImplicit false

namespace Hookubit.Egress.Client

open Data.Utf8 (Bytes)
open Retry.Backoff Worker.Headers

structure Limits where
  maxResponseBytes : ℤ

/-- An error of which the code finds out nothing. -/
def plainError : DeliveryError :=
  ⟨false, false, false, false, false, false, false, false, false, false, false⟩

def blockedTargetError : DeliveryError := { plainError with blockedTarget := true }

/-- `&PermanentError`: it unwraps to its cause, so all that is found in that is still found. -/
def PermanentError (err : DeliveryError) : DeliveryError := { err with permanent := true }

/-- A response body: the bytes that can be read, and how reading them ends, at the end of the
body or with an error. `joined` tells whether the last `Read` reports the ending along with the
bytes or a further one does. -/
structure Body where
  bytes : Bytes
  ending : Option DeliveryError
  joined : Bool

structure Answer where
  statusCode : ℤ
  headers : Header
  body : Body

inductive Exchange
  | answered (answer : Answer)
  | failed (err : DeliveryError)

/-- An attempt's way through the client: the guard's verdict on the URL, the error of building
the request if it cannot be built, and the exchange. -/
structure Attempt where
  refused : Bool
  unbuildable : Option DeliveryError
  exchange : Exchange

/-- The bounded result of one delivery attempt. -/
structure Response where
  statusCode : ℤ
  headers : Header
  body : Bytes
  truncated : Bool

/-- Whether a limited read gets as far as the body's ending. The limit reader stops by itself
once it has given out its bytes. -/
def Body.endsWithin (body : Body) (limit : ℕ) : Bool :=
  body.bytes.length < limit || (0 < limit && body.bytes.length == limit && body.joined)

/-- `io.ReadAll(io.LimitReader(body, limit))`. -/
def readAll (body : Body) (limit : ℕ) : Bytes × Option DeliveryError :=
  (body.bytes.take limit, if body.endsWithin limit then body.ending else none)

def Do (limits : Limits) (attempt : Attempt) : Except DeliveryError Response :=
  if attempt.refused then .error blockedTargetError
  else
    match attempt.unbuildable with
    | some err => .error (PermanentError err)
    | none =>
      match attempt.exchange with
      | .failed err => .error err
      | .answered answer =>
        -- one byte more than the limit tells a full body from a truncated one
        let (respBody, readErr) := readAll answer.body (limits.maxResponseBytes + 1).toNat
        match readErr with
        | some err => .error (PermanentError err)
        | none =>
          let truncated := decide (limits.maxResponseBytes < respBody.length)
          .ok
            { statusCode := answer.statusCode
              headers := answer.headers
              body := if truncated then respBody.take limits.maxResponseBytes.toNat else respBody
              truncated := truncated }

/-- The error with which reading an answer's body fails, if it fails before the limit. -/
def readError (limits : Limits) (answer : Answer) : Option DeliveryError :=
  (readAll answer.body (limits.maxResponseBytes + 1).toNat).2

theorem do_of_readError {limits : Limits} {answer : Answer} {err : DeliveryError}
    (unread : readError limits answer = some err) :
    Do limits ⟨false, none, .answered answer⟩ = .error (PermanentError err) := by
  unfold readError at unread
  simp only [Do, Bool.false_eq_true, if_false, unread]

theorem do_of_read {limits : Limits} {answer : Answer} (read : readError limits answer = none) :
    ∃ response, Do limits ⟨false, none, .answered answer⟩ = .ok response ∧
      response.statusCode = answer.statusCode ∧ response.headers = answer.headers := by
  unfold readError at read
  simp only [Do, Bool.false_eq_true, if_false, read]
  exact ⟨_, rfl, rfl, rfl⟩

end Hookubit.Egress.Client
