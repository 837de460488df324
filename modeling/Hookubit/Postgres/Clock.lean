/- sources: worker/store.go intervalOf, queue/postgres.go intervalOf, router/store.go intervalOf
   digest: Instants, timestamp(3) columns, and millisecond intervals as statements see them. -/

import Mathlib.Algebra.Order.Ring.Int
import Mathlib.Tactic.Ring

/-!
Instants and durations are integers counting nanoseconds, for both the application
clocks and the database clock. Go's `time.Duration` has this unit; a reading of `now()`
is a whole number of microseconds, which no definition here relies on.
-/

set_option autoImplicit false
set_option relaxedAutoImplicit false

namespace Hookubit.Postgres.Clock

def millisecond : ℤ := 1000000
def second : ℤ := 1000000000
def minute : ℤ := 60000000000
def hour : ℤ := 3600000000000

/-- Assignment to a `TIMESTAMP(3)` column rounds to the nearest millisecond, half away
from the epoch, so the stored instant may lie ahead of or behind the written one. -/
def timestamp3 (t : ℤ) : ℤ :=
  if 0 ≤ t then (t + 500000) / 1000000 * 1000000
  else -((-t + 500000) / 1000000 * 1000000)

/-- `date_trunc('milliseconds', t)` floors instead of rounding. -/
def dateTruncMilliseconds (t : ℤ) : ℤ := t / 1000000 * 1000000

/-- The interval a statement receives: `d.Milliseconds()` drops the part below one
millisecond, towards zero. -/
def intervalOf (d : ℤ) : ℤ := d.tdiv 1000000 * 1000000

/-- An application instant sent as a parameter keeps whole microseconds only. -/
def encodeTime (t : ℤ) : ℤ := t / 1000 * 1000

theorem timestamp3_lower (t : ℤ) : t - 500000 ≤ timestamp3 t := by
  unfold timestamp3
  split <;> omega

end Hookubit.Postgres.Clock
