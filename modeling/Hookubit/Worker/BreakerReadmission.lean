/- sources: worker/breaker.go NextHealth and Allow, worker/store.go recordFailureSQL
   digest: Which configurations keep a tripped breaker shut under every recorded failure. -/

import Hookubit.Worker.BreakerProtocol

/-!
A half-open success that does not yet close the breaker sets `consecutive_failures` back to
zero. The failed probe after it re-opens the row with a count of one, and from there late
failures of older attempts climb through the degraded threshold before they reach the open
one: the `degraded` branch of `recordFailureSQL` does not ask whether the row is open.
-/

set_option autoImplicit false
set_option relaxedAutoImplicit false

namespace Hookubit.Worker.BreakerReadmission

open Automata.LabelledSystem Postgres.Clock Worker.Breaker Worker.BreakerProtocol

variable {cfg : BreakerConfig} {s : Endpoint} {g : Health}

end Hookubit.Worker.BreakerReadmission
