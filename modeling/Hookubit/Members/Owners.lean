/- sources: members/members.service.ts, authz/permissions.ts assertOwnerSurvives
   digest: Every organization keeps an owner, whatever its members do to each other. -/

import Hookubit.Members.Machine

set_option autoImplicit false
set_option relaxedAutoImplicit false

namespace Hookubit.Members.Owners

open Authz.Permissions Automata.LabelledSystem Members.Service Members.Machine

variable {Id : Type} {t t' : MemberTable Id} {o id : Id} {ctx : Context Id}

def HasOwner (t : MemberTable Id) (organizationId : Id) : Prop :=
  ∃ m ∈ t.rows, m.organizationId = organizationId ∧ m.role = .owner

def Owned (s : State Id) : Prop := ∀ o ∈ s.organizations, HasOwner s.members o.id

variable [DecidableEq Id]

theorem HasOwner.insert {m : Membership Id} (h : HasOwner t o) (inserted : t.insert m = some t') :
    HasOwner t' o := by
  obtain ⟨q, hq, here, owner⟩ := h
  exact ⟨q, MemberTable.rows_insert inserted ▸ List.mem_cons_of_mem _ hq, here, owner⟩

/-- An owner who is changed or removed is not the only one, by the count in the transaction. -/
theorem HasOwner.elsewhere {target : Membership Id} (h : HasOwner t o)
    (found : t.requireById ctx.organizationId id = .ok target)
    (counted : target.role = .owner → 1 < t.countOwners ctx.organizationId) :
    ∃ m ∈ t.rows, m.organizationId = o ∧ m.role = .owner ∧ m.id ≠ id := by
  obtain ⟨m, hm, here, owner⟩ := h
  obtain ⟨mem, org, key⟩ := MemberTable.requireById_ok found
  by_cases same : m.id = id
  · obtain rfl := MemberTable.eq_of_id hm mem (same.trans key.symm)
    rw [← here, org]
    exact MemberTable.other_owner (counted owner) id
  · exact ⟨m, hm, here, owner, same⟩

theorem HasOwner.changeRole {role : MemberRole} (h : HasOwner t o)
    (changed : changeRole ctx id role t = .ok t') : HasOwner t' o := by
  obtain ⟨target, found, _, _, _, counted, rfl⟩ := changeRole_ok changed
  split_ifs with same
  · exact h
  · by_cases promoted : role = .owner
    · -- a promotion takes no owner away
      obtain ⟨m, hm, here, owner⟩ := h
      refine ⟨MemberTable.withRole id role m, MemberTable.mem_updateRole.mpr ⟨m, hm, rfl⟩, ?_, ?_⟩
      all_goals
        unfold MemberTable.withRole
        split
      exacts [here, here, promoted, owner]
    · obtain ⟨m, hm, here, owner, other⟩ := h.elsewhere found fun owner => counted owner promoted
      exact ⟨m, MemberTable.mem_updateRole_of_ne hm other, here, owner⟩

theorem HasOwner.remove (h : HasOwner t o) (removed : remove ctx id t = .ok t') :
    HasOwner t' o := by
  obtain ⟨target, found, _, _, counted, rfl⟩ := remove_ok removed
  obtain ⟨m, hm, here, owner, other⟩ := h.elsewhere found counted
  exact ⟨m, MemberTable.mem_delete.mpr ⟨hm, other⟩, here, owner⟩

theorem Owned.step {s t : State Id} {a : Op Id} (h : Owned s) (step : Step s a t) : Owned t := by
  cases step with
  | createOrganization inserted =>
    refine List.forall_mem_cons.mpr ⟨?_, fun o ho => (h o ho).insert inserted⟩
    exact ⟨_, MemberTable.rows_insert inserted ▸ List.mem_cons_self, rfl, rfl⟩
  | changeRole _ changed => exact fun o ho => (h o ho).changeRole changed
  | remove _ removed => exact fun o ho => (h o ho).remove removed
  | joined _ _ inserted => exact fun o ho => (h o ho).insert inserted
  | _ => exact h

/-- In every committed state every organization has a membership with the role of owner. -/
theorem organizations_keep_owner {s : State Id} (reach : Reachable memberships s) :
    ∀ o ∈ s.organizations, ∃ m ∈ s.members.rows, m.organizationId = o.id ∧ m.role = .owner := by
  refine reach.invariant (I := Owned) ?_ fun _ _ _ h edge => h.step (next_step edge)
  rintro _ rfl
  exact List.forall_mem_nil _

/-- Two owners whose contexts were resolved while both were owners: the first removal takes one
of them, the second is refused. -/
def crossedRemovals : List (Op ℕ) :=
  [.createOrganization 0 1 11, .accept 0 ⟨0, .owner, 1⟩ 12 2, .advance 0, .advance 0, .advance 0,
    .advance 0, .resolve 0 0 11, .resolve 1 0 12, .remove 0 2]

theorem last_owner_stays :
    ∃ s : State ℕ, Reachable memberships s ∧ (s.requests 1).isSome = true ∧
      next s (.remove 1 1) = none ∧
      ∀ o ∈ s.organizations, ∃ m ∈ s.members.rows, m.organizationId = o.id ∧ m.role = .owner := by
  have run : (execute next initial crossedRemovals).any
      (fun s => (s.requests 1).isSome && (next s (.remove 1 1)).isNone) = true := by
    decide +kernel
  obtain ⟨s, reach, facts⟩ : ∃ s, Reachable memberships s ∧ _ := exists_reachable_of_execute rfl run
  rw [Bool.and_eq_true, Option.isNone_iff_eq_none] at facts
  exact ⟨s, reach, facts.1, facts.2, organizations_keep_owner reach⟩

end Hookubit.Members.Owners
