/- sources: analytics/analytics-window.ts
   digest: The window that an analytics request asks for, with the one before it. -/

import Hookubit.Authz.ScopedRepository
import Hookubit.Postgres.Clock

/-!
The window's length comes validated as a whole number.
-/

set_option autoImplicit false
set_option relaxedAutoImplicit false

namespace Hookubit.Analytics.Window

open Authz.ScopedRepository (invalidRequest)
open Common.Errors Postgres.Clock

def DEFAULT_WINDOW_HOURS : ℤ := 24

def MAX_WINDOW_HOURS : ℤ := 720

def HOUR_MS : ℤ := 3600000

/-- A window and the one of the same length before it; upper bounds are exclusive. -/
structure AnalyticsWindow where
  hours : ℤ
  windowFrom : ℤ
  windowTo : ℤ
  previousFrom : ℤ
  previousTo : ℤ
  deriving DecidableEq

def resolveWindow (hours : Option ℤ) (now : ℤ) : Except AppError AnalyticsWindow :=
  let requested := hours.getD DEFAULT_WINDOW_HOURS
  if requested < 1 then
    .error (invalidRequest "'window_hours' must be a whole number of hours, 1 or greater.")
  else if MAX_WINDOW_HOURS < requested then
    .error (invalidRequest ("'window_hours' may not exceed 720 (30 days); " ++ toString requested ++
      " was requested. The request is refused rather than shortened, so a response is never " ++
      "labelled with a longer period than it actually covers."))
  else
    let length := requested * HOUR_MS * millisecond
    .ok {
      hours := requested
      windowFrom := now - length
      windowTo := now
      previousFrom := now - length - length
      previousTo := now - length }

theorem resolveWindow_of_le {hours : ℤ} (least : 1 ≤ hours) (most : hours ≤ MAX_WINDOW_HOURS)
    (now : ℤ) :
    resolveWindow (some hours) now = .ok ⟨hours, now - hours * HOUR_MS * millisecond, now,
      now - hours * HOUR_MS * millisecond - hours * HOUR_MS * millisecond,
      now - hours * HOUR_MS * millisecond⟩ := by
  have low : ¬ (some hours).getD DEFAULT_WINDOW_HOURS < 1 := Int.not_lt.mpr least
  have high : ¬ MAX_WINDOW_HOURS < (some hours).getD DEFAULT_WINDOW_HOURS := Int.not_lt.mpr most
  exact (if_neg low).trans (if_neg high)

end Hookubit.Analytics.Window
