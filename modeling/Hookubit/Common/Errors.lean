/- sources: common/errors.ts, authz/tenant-resolver.service.ts CROSS_TENANT_MESSAGE
   digest: The control API's error codes and the errors that several services share. -/

import Mathlib.Data.Nat.Notation

set_option autoImplicit false
set_option relaxedAutoImplicit false

namespace Hookubit.Common.Errors

inductive ErrorCode
  | invalidRequest | unauthenticated | forbidden | emailNotVerified | notFound | conflict
  | limitExceeded | idempotencyKeyReused | payloadTooLarge | rateLimited | internalError
  deriving DecidableEq

/-- `{ limit, current, resource }`, which every `limit_exceeded` carries. -/
structure LimitDetails where
  limit : ℕ
  current : ℕ
  resource : String
  deriving DecidableEq

structure AppError where
  code : ErrorCode
  message : String
  details : Option LimitDetails := none
  deriving DecidableEq

def CROSS_TENANT_MESSAGE : String := "Resource not found."

/-- The one answer for an absent row and for another tenant's. -/
def resourceNotFound : AppError := { code := .notFound, message := CROSS_TENANT_MESSAGE }

/-- What the exception filter makes of any error that is not an `AppError`. -/
def unexpected : AppError := { code := .internalError, message := "An unexpected error occurred" }

theorem bind_eq_ok {ε α β : Type} {x : Except ε α} {f : α → Except ε β} {b : β} :
    x >>= f = .ok b ↔ ∃ a, x = .ok a ∧ f a = .ok b := by
  cases x with
  | error e => simp [bind, Except.bind]
  | ok a => simp [bind, Except.bind]

theorem toOption_eq_some {ε α : Type} {x : Except ε α} {a : α} :
    x.toOption = some a ↔ x = .ok a := by
  cases x with
  | error e => simp [Except.toOption]
  | ok b => simp [Except.toOption]

end Hookubit.Common.Errors
