import Hookubit.Worker.LeaseCurrency
import Hookubit.Worker.LedgerInvariant
import Hookubit.Worker.BreakerProbing
import Hookubit.Worker.BreakerReadmission
import Hookubit.Pipeline.Stranding
import Hookubit.Pipeline.BatchedRouting
import Hookubit.Pipeline.Lineage
import Hookubit.Pipeline.Lifecycle
import Hookubit.Pipeline.PoisonAccounting
import Hookubit.Ingest.Idempotency
import Hookubit.Ingest.Refinement
import Hookubit.Ingest.PayloadSafety
import Hookubit.Endpoints.Finality
import Hookubit.Endpoints.Reenable
import Hookubit.Worker.DeferralBudget
import Hookubit.Worker.AttemptText
import Hookubit.Members.Owners
import Hookubit.Members.Authority
import Hookubit.Auth.PasswordReset
import Hookubit.EndpointSecrets.Signing
import Hookubit.Worker.BreakerRefinement
import Hookubit.Worker.AttemptOutcome
import Hookubit.Signing.Signature
import Hookubit.Maintenance.UsageExactness
import Hookubit.Ratelimit.Admission
import Hookubit.Ingest.SourceLimit
import Hookubit.Ratelimit.Forgetting
import Hookubit.Egress.PublicSpace
import Hookubit.Ingest.ClientSource
import Hookubit.Ingest.Allowlist
import Hookubit.Worker.EndpointLimit
import Hookubit.Worker.CustomHeaders
import Hookubit.Router.PlanAccounts
import Hookubit.WebhookSubscriptions.FilterMeaning
import Hookubit.Payloadstore.SweepCoverage
import Hookubit.Queue.TenantShares
import Hookubit.Crypto.CiphertextBinding
import Hookubit.Retention.Sweeper
import Hookubit.Egress.Dial
import Hookubit.Maintenance.AlertGrouping
import Hookubit.Deliveries.DeliveryList
import Hookubit.Events.EventRollup
import Hookubit.Endpoints.EndpointHealth
import Hookubit.Authz.ForEachPage
import Hookubit.Events.EventPayload
import Hookubit.Worker.GateWatchRun
import Hookubit.Payloadstore.KeyRoundTrip
import Hookubit.Queue.LeaseKeeper
import Hookubit.Analytics.DeliverySeries
import Hookubit.Analytics.FailingEndpoints
import Hookubit.Authz.AuditRedaction
import Hookubit.Common.Throttle
