/- sources: router/plan.go (BuildPlan, gate)
   digest: Every candidate of a plan is a target or is counted under one reason. -/

import Hookubit.Router.Planning

set_option autoImplicit false
set_option relaxedAutoImplicit false

namespace Hookubit.Router.PlanAccounts

open Data.FirstByKey Router.Planning

def reasons : List SkipReason :=
  [.tenantMismatch, .subscriptionDisabled, .organizationNotActive, .projectNotActive,
    .endpointNotActive, .endpointDisabled, .eventTypeUnmatched, .duplicateEndpoint,
    .routingCapExceeded]

def totalSkipped {Id : Type} (p : Plan Id) : ℕ := (reasons.map p.skipped).sum

theorem sum_reasons (o : Option SkipReason) :
    (reasons.map fun r => if o = some r then 1 else 0).sum + (if o = none then 1 else 0) = 1 := by
  cases o with
  | none => decide
  | some r => cases r <;> decide

theorem sum_countP_reasons {α : Type} (reason : α → Option SkipReason) (l : List α) :
    (reasons.map fun r => l.countP fun a => reason a = some r).sum +
      l.countP (fun a => reason a = none) = l.length := by
  induction l with
  | nil => rfl
  | cons a l ih =>
    have one := sum_reasons (reason a)
    simp only [List.countP_cons, decide_eq_true_eq, List.sum_map_add, List.length_cons]
    omega

section Choice

variable {Id : Type} [DecidableEq Id] {ev : Event Id} {candidates : List (Candidate Id)}

/-- The candidates that become targets if nothing is capped. -/
def chosen (ev : Event Id) (candidates : List (Candidate Id)) : List (Candidate Id) :=
  firsts Candidate.endpointID [] (candidates.filter (selected ev))

def room (ev : Event Id) (candidates : List (Candidate Id)) (cap : ℤ) : ℕ :=
  if 0 < cap then cap.toNat else (chosen ev candidates).length

theorem chosen_sublist : (chosen ev candidates).Sublist (candidates.filter (selected ev)) :=
  firsts_sublist _ _ _

theorem selected_of_mem_chosen {c : Candidate Id} (h : c ∈ chosen ev candidates) :
    gate ev c = none ∧ MatchesEventType c.eventTypes ev.eventType = true := by
  have passed := (List.mem_filter.mp (chosen_sublist.subset h)).2
  simpa [selected] using passed

theorem tenant_of_gate {c : Candidate Id} (h : gate ev c = none) :
    c.endpointProjectID = ev.projectID ∧ c.endpointOrganizationID = ev.organizationID := by
  unfold gate at h
  split at h
  · cases h
  · rename_i same
    simpa [not_or] using same

theorem uncapped_targets (ev : Event Id)
    (distinct : (candidates.map Candidate.subscriptionID).Nodup) :
    (BuildPlan ev candidates 0).targets = (chosen ev candidates).map targetOf :=
  buildPlan_targets distinct

theorem targets_eq (ev : Event Id) (cap : ℤ)
    (distinct : (candidates.map Candidate.subscriptionID).Nodup) :
    (BuildPlan ev candidates cap).targets =
      ((chosen ev candidates).take (room ev candidates cap)).map targetOf := by
  have whole := uncapped_targets ev distinct
  have capped : (BuildPlan ev candidates cap).targets =
      if 0 < cap ∧ cap < (BuildPlan ev candidates 0).targets.length then
        (BuildPlan ev candidates 0).targets.take cap.toNat
      else (BuildPlan ev candidates 0).targets := by
    simp only [BuildPlan, lt_irrefl, false_and, if_false]
  rw [capped, whole, List.length_map, List.map_take, room]
  split
  · rename_i small
    rw [if_pos small.1]
  · rename_i large
    split
    · rw [List.take_of_length_le]
      rw [List.length_map]
      omega
    · rw [List.take_of_length_le (by simp)]

end Choice

section Accounts

variable {Id : Type} [DecidableEq Id] {candidates : List (Candidate Id)}

/-- What the gate passes is selected, or matches nothing; what is selected is chosen, or repeats an
endpoint; what is chosen is a target, or exceeds the cap. -/
theorem totalSkipped_eq (ev : Event Id) (cap : ℤ)
    (distinct : (candidates.map Candidate.subscriptionID).Nodup) :
    totalSkipped (BuildPlan ev candidates cap) =
      (reasons.map fun r => candidates.countP fun c => gate ev c = some r).sum +
        (candidates.countP (fun c => gate ev c = none) - (candidates.filter (selected ev)).length) +
        ((candidates.filter (selected ev)).length - (chosen ev candidates).length) +
        ((chosen ev candidates).length - (BuildPlan ev candidates cap).targets.length) := by
  have whole := congrArg List.length (uncapped_targets ev distinct)
  have capped := congrArg List.length (targets_eq ev cap distinct)
  rw [List.length_map] at whole
  rw [List.length_map, List.length_take, room] at capped
  simp only [BuildPlan, lt_irrefl, false_and, if_false, match_eligible, firsts_map,
    List.length_map] at whole
  rw [capped, totalSkipped]
  simp only [BuildPlan, match_eligible, firsts_map, List.length_map, List.sum_map_add, whole,
    ← List.countP_eq_length_filter]
  have kept : firsts (fun c => (subscriptionOf c).endpointID) [] (candidates.filter (selected ev)) =
      chosen ev candidates := rfl
  rw [kept]
  generalize (reasons.map fun r => candidates.countP fun c => gate ev c = some r).sum = gated
  simp only [reasons, List.map_cons, List.map_nil, List.sum_cons, List.sum_nil]
  split_ifs <;> omega

end Accounts

/-- Every candidate is a target or is counted under one reason. The targets are distinct candidates
of the event's own tenant that match its type, in their order and with their own data, and an
endpoint that no cap leaves out is reached once, through its first such candidate. -/
theorem plan_accounts_for_candidates {Id : Type} [DecidableEq Id] (ev : Event Id)
    (candidates : List (Candidate Id)) (cap : ℤ)
    (distinct : (candidates.map Candidate.subscriptionID).Nodup) :
    (BuildPlan ev candidates cap).targets.length + totalSkipped (BuildPlan ev candidates cap) =
        candidates.length ∧
      ((BuildPlan ev candidates cap).targets.map Target.endpointID).Nodup ∧
      (∃ kept : List (Candidate Id), kept.Sublist candidates ∧
        (BuildPlan ev candidates cap).targets = kept.map targetOf ∧
        ∀ c ∈ kept, gate ev c = none ∧ c.endpointProjectID = ev.projectID ∧
          c.endpointOrganizationID = ev.organizationID ∧
          MatchesEventType c.eventTypes ev.eventType = true) ∧
      (cap = 0 ∨ candidates.length ≤ cap → ∀ c ∈ candidates, gate ev c = none →
        MatchesEventType c.eventTypes ev.eventType = true →
          ∃ first, candidates.find?
            (fun d => selected ev d && decide (d.endpointID = c.endpointID)) =
              some first ∧
            (BuildPlan ev candidates cap).targets.filter (fun t => t.endpointID = c.endpointID) =
              [targetOf first]) := by
  have targets := targets_eq ev cap distinct
  have inside : ((chosen ev candidates).take (room ev candidates cap)).Sublist candidates :=
    (List.take_sublist _ _).trans (chosen_sublist.trans List.filter_sublist)
  have endpoints : ((chosen ev candidates).map Candidate.endpointID).Nodup :=
    (nodup_firsts Candidate.endpointID [] _).1
  refine ⟨?_, ?_, ⟨_, inside, targets, ?_⟩, ?_⟩
  · have skipped := totalSkipped_eq ev cap distinct
    have gated := sum_countP_reasons (gate ev) candidates
    have passed : (candidates.filter (selected ev)).length ≤
        candidates.countP fun c => gate ev c = none := by
      rw [← List.countP_eq_length_filter]
      refine List.countP_mono_left fun c _ picked => ?_
      simp only [selected, Bool.and_eq_true] at picked
      exact picked.1
    have unique : (chosen ev candidates).length ≤ (candidates.filter (selected ev)).length :=
      chosen_sublist.length_le
    have capped := congrArg List.length targets
    rw [List.length_map, List.length_take] at capped
    omega
  · rw [targets, List.map_map]
    exact endpoints.sublist ((List.take_sublist _ _).map _)
  · intro c kept
    obtain ⟨passed, matched⟩ := selected_of_mem_chosen (List.mem_of_mem_take kept)
    obtain ⟨project, organization⟩ := tenant_of_gate passed
    exact ⟨passed, project, organization, matched⟩
  · intro wide c listed passed matched
    have fewer : (chosen ev candidates).length ≤ candidates.length :=
      (chosen_sublist.trans List.filter_sublist).length_le
    have all : (chosen ev candidates).take (room ev candidates cap) = chosen ev candidates := by
      rw [List.take_of_length_le]
      unfold room
      split <;> omega
    have same : ∀ d : Candidate Id, decide ((targetOf d).endpointID = c.endpointID) =
        decide (d.endpointID = c.endpointID) := fun _ => rfl
    rw [targets, all, List.filter_map]
    simp only [Function.comp_def, same]
    rw [chosen, filter_firsts_eq Candidate.endpointID [] _ List.not_mem_nil, List.find?_filter]
    have found : (candidates.find? fun d =>
        selected ev d && decide (d.endpointID = c.endpointID)).isSome = true := by
      rw [List.find?_isSome]
      exact ⟨c, listed, by simp [selected, passed, matched]⟩
    obtain ⟨first, found⟩ := Option.isSome_iff_exists.mp found
    exact ⟨first, found, by simp [found]⟩

/-- A subscription of the event's project to an endpoint of it. -/
def subscriber (subscriptionID endpointID : ℕ) (eventTypes : List String) : Candidate ℕ :=
  ⟨subscriptionID, endpointID, eventTypes, true, 1, 1, .active, true, .active, .active, 0, 0⟩

/-- Of three subscriptions one does not match and one repeats an endpoint. -/
theorem plan_accounts_for_three :
    (BuildPlan ⟨1, 1, 1, "order.paid", 0⟩
        [subscriber 1 7 ["order.*"], subscriber 2 7 ["*"], subscriber 3 8
          ["user.*"]] 0).targets.length +
      totalSkipped (BuildPlan ⟨1, 1, 1, "order.paid", 0⟩
        [subscriber 1 7 ["order.*"], subscriber 2 7 ["*"], subscriber 3 8 ["user.*"]] 0) = 3 :=
  (plan_accounts_for_candidates ⟨1, 1, 1, "order.paid", 0⟩
    [subscriber 1 7 ["order.*"], subscriber 2 7 ["*"], subscriber 3 8 ["user.*"]] 0 (by decide)).1

end Hookubit.Router.PlanAccounts
