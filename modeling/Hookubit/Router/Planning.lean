/- sources: router/plan.go, router/match.go
   digest: Which subscriptions an event reaches, and the delivery rows that follow. -/

import Hookubit.Data.FirstByKey
import Hookubit.Worker.Store

set_option autoImplicit false
set_option relaxedAutoImplicit false

namespace Hookubit.Router.Planning

open Data.FirstByKey
open Retry.Backoff (DefaultPolicy)
open Worker.Store (EndpointStatus)

/-- The routing-relevant projection of an `events` row. -/
structure Event (Id : Type) where
  id : Id
  organizationID : Id
  projectID : Id
  eventType : String
  createdAt : ℤ
  deriving DecidableEq

/-- The members that "ProjectStatus" and "OrganizationStatus" share. -/
inductive TenantStatus
  | active | suspended | deleted
  deriving DecidableEq

/-- One subscription joined to everything that decides whether it may receive a delivery. A
missing retry policy reads as zero attempts. -/
structure Candidate (Id : Type) where
  subscriptionID : Id
  endpointID : Id
  eventTypes : List String
  enabled : Bool
  endpointProjectID : Id
  endpointOrganizationID : Id
  endpointStatus : EndpointStatus
  endpointEnabled : Bool
  projectStatus : TenantStatus
  organizationStatus : TenantStatus
  endpointMaxAttempts : ℤ
  projectDefaultMaxAttempts : ℤ
  deriving DecidableEq

/-- One delivery row that must be written. -/
structure Target (Id : Type) where
  subscriptionID : Id
  endpointID : Id
  maxAttempts : ℤ
  deriving DecidableEq

inductive SkipReason
  | tenantMismatch | subscriptionDisabled | organizationNotActive | projectNotActive
  | endpointNotActive | endpointDisabled | eventTypeUnmatched | duplicateEndpoint
  | routingCapExceeded
  deriving DecidableEq

structure Plan (Id : Type) where
  targets : List (Target Id)
  skipped : SkipReason → ℕ
  truncated : ℕ

structure Subscription (Id : Type) where
  id : Id
  endpointID : Id
  eventTypes : List String
  enabled : Bool
  deriving DecidableEq

/-- `strings.CutSuffix` on characters. -/
def cutSuffix (s suffix : List Char) : Option (List Char) :=
  if suffix.isSuffixOf s then some (s.take (s.length - suffix.length)) else none

/-- Whether one pattern of the list is `*`, a matching `stem.*`, or the type itself. -/
def MatchesEventType (patterns : List String) (eventType : String) : Bool :=
  patterns.any fun pattern =>
    if pattern == "*" then true
    else
      match cutSuffix pattern.toList ".*".toList with
      | some stem => (stem ++ ['.']).isPrefixOf eventType.toList
      | none => pattern == eventType

variable {Id : Type} [DecidableEq Id] {ev : Event Id} {candidates : List (Candidate Id)}

omit [DecidableEq Id] in
def Match (subs : List (Subscription Id)) (eventType : String) : List (Subscription Id) :=
  subs.filter fun s => s.enabled && MatchesEventType s.eventTypes eventType

/-- The first reason a candidate cannot receive a delivery. -/
def gate (ev : Event Id) (c : Candidate Id) : Option SkipReason :=
  if c.endpointProjectID ≠ ev.projectID ∨ c.endpointOrganizationID ≠ ev.organizationID then
    some .tenantMismatch
  else if !c.enabled then some .subscriptionDisabled
  else if c.organizationStatus ≠ .active then some .organizationNotActive
  else if c.projectStatus ≠ .active then some .projectNotActive
  else if c.endpointStatus ≠ .active then some .endpointNotActive
  else if !c.endpointEnabled then some .endpointDisabled
  else none

def ResolveMaxAttempts (endpointPolicy projectDefault : ℤ) : ℤ :=
  if 0 < endpointPolicy then endpointPolicy
  else if 0 < projectDefault then projectDefault
  else DefaultPolicy.maxAttempts

theorem one_le_resolveMaxAttempts (endpointPolicy projectDefault : ℤ) :
    1 ≤ ResolveMaxAttempts endpointPolicy projectDefault := by
  simp only [ResolveMaxAttempts, DefaultPolicy]
  split_ifs <;> omega

omit [DecidableEq Id] in
def targetOf (c : Candidate Id) : Target Id where
  subscriptionID := c.subscriptionID
  endpointID := c.endpointID
  maxAttempts := ResolveMaxAttempts c.endpointMaxAttempts c.projectDefaultMaxAttempts

omit [DecidableEq Id] in
/-- The subscription that the match is handed; the gate has established that it is enabled. -/
def subscriptionOf (c : Candidate Id) : Subscription Id :=
  ⟨c.subscriptionID, c.endpointID, c.eventTypes, true⟩

/-- The map from subscription ids, in which a later candidate replaces an earlier one. -/
def byID (eligible : List (Candidate Id)) (id : Id) : Option (Candidate Id) :=
  (eligible.filter fun c => c.subscriptionID = id).getLast?

/-- `BuildPlan`: gate, match, keep the first subscription of each endpoint, cap. -/
def BuildPlan (ev : Event Id) (candidates : List (Candidate Id)) (routingCap : ℤ) : Plan Id :=
  let eligible := candidates.filter fun c => gate ev c = none
  let subscriptions := eligible.map subscriptionOf
  let matched := Match subscriptions ev.eventType
  let kept := firsts Subscription.endpointID [] matched
  let targets := kept.filterMap fun s => (byID eligible s.id).map targetOf
  let capped := 0 < routingCap ∧ routingCap < targets.length
  let truncated := if capped then targets.length - routingCap.toNat else 0
  { targets := if capped then targets.take routingCap.toNat else targets
    truncated := truncated
    skipped := fun reason =>
      (candidates.countP fun c => gate ev c = some reason) +
        match reason with
        | .eventTypeUnmatched => subscriptions.length - matched.length
        | .duplicateEndpoint => matched.length - kept.length
        | .routingCapExceeded => truncated
        | _ => 0 }

/-- A candidate that passes the gate and selects the event's type. -/
def selected (ev : Event Id) (c : Candidate Id) : Bool :=
  gate ev c = none && MatchesEventType c.eventTypes ev.eventType

theorem byID_of_mem {eligible : List (Candidate Id)}
    (nodup : (eligible.map Candidate.subscriptionID).Nodup) {c : Candidate Id}
    (hc : c ∈ eligible) : byID eligible c.subscriptionID = some c := by
  have member : c ∈ eligible.filter fun d => d.subscriptionID = c.subscriptionID :=
    List.mem_filter.mpr ⟨hc, by simp⟩
  cases hd : byID eligible c.subscriptionID with
  | none => exact absurd (List.getLast?_eq_none_iff.mp hd) (List.ne_nil_of_mem member)
  | some d =>
    obtain ⟨inside, same⟩ := List.mem_filter.mp (List.mem_of_getLast? hd)
    exact congrArg some (List.inj_on_of_nodup_map nodup inside hc (by simpa using same))

theorem match_eligible (ev : Event Id) (candidates : List (Candidate Id)) :
    Match ((candidates.filter fun c => gate ev c = none).map subscriptionOf) ev.eventType =
      (candidates.filter (selected ev)).map subscriptionOf := by
  rw [Match, List.filter_map, List.filter_filter]
  congr 1
  apply List.filter_congr
  intro c _
  simp [selected, subscriptionOf, Bool.and_comm]

theorem buildPlan_targets (nodup : (candidates.map Candidate.subscriptionID).Nodup) :
    (BuildPlan ev candidates 0).targets =
      (firsts Candidate.endpointID [] (candidates.filter (selected ev))).map targetOf := by
  have distinct : ((candidates.filter fun c => gate ev c = none).map
      Candidate.subscriptionID).Nodup := nodup.sublist (List.filter_sublist.map _)
  simp only [BuildPlan, lt_irrefl, false_and, if_false, match_eligible, firsts_map,
    List.filterMap_map]
  rw [← List.filterMap_eq_map]
  apply List.filterMap_congr
  intro c hc
  have chosen := (firsts_sublist _ _ _).subset hc
  have passed := List.mem_filter.mp chosen
  have eligible : c ∈ candidates.filter fun c => gate ev c = none := by
    refine List.mem_filter.mpr ⟨passed.1, ?_⟩
    simp only [selected, Bool.and_eq_true] at passed
    exact passed.2.1
  simp only [Function.comp, subscriptionOf, byID_of_mem distinct eligible, Option.map_some]

theorem nodup_buildPlan_endpoints (nodup : (candidates.map Candidate.subscriptionID).Nodup) :
    ((BuildPlan ev candidates 0).targets.map Target.endpointID).Nodup := by
  rw [buildPlan_targets nodup, List.map_map]
  exact (nodup_firsts Candidate.endpointID [] (candidates.filter (selected ev))).1

theorem buildPlan_uncapped {cap : ℤ} (whole : (BuildPlan ev candidates cap).truncated = 0) :
    (BuildPlan ev candidates cap).targets = (BuildPlan ev candidates 0).targets := by
  simp only [BuildPlan, lt_irrefl, false_and, if_false] at whole ⊢
  split at whole
  · rename_i capped
    omega
  · rename_i uncapped
    rw [if_neg uncapped]

/-- Planning page by page: the targets of a longer list are those of its beginning and, of
the rest's own plan, the ones whose endpoint is new. -/
theorem buildPlan_append {l m : List (Candidate Id)}
    (nodup : ((l ++ m).map Candidate.subscriptionID).Nodup) :
    (BuildPlan ev (l ++ m) 0).targets = (BuildPlan ev l 0).targets ++
      (BuildPlan ev m 0).targets.filter fun t =>
        t.endpointID ∉ (BuildPlan ev l 0).targets.map Target.endpointID := by
  have parts := List.nodup_append.mp (List.map_append ▸ nodup)
  have endpoints : ∀ cs : List (Candidate Id),
      (cs.map targetOf).map Target.endpointID = cs.map Candidate.endpointID := fun cs => by
    rw [List.map_map]
    rfl
  rw [buildPlan_targets nodup, buildPlan_targets parts.1, buildPlan_targets parts.2.1,
    List.filter_append, firsts_append, List.map_append, List.filter_map, endpoints,
    List.nil_append]
  congr 2
  exact (filter_firsts Candidate.endpointID [] _ _).symm

end Hookubit.Router.Planning
