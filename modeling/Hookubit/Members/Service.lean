/- sources: members/members.service.ts (changeRole, remove, accept),
     organizations/user-scope.ts (createOwnedOrganization, joinOrganization)
   digest: The memberships table with its keys, and what one call reads of it and writes to it. -/

import Hookubit.Authz.Permissions
import Mathlib.Data.List.Nodup

set_option autoImplicit false
set_option relaxedAutoImplicit false

namespace Hookubit.Members.Service

open Authz.Permissions Common.Errors

structure Membership (Id : Type) where
  id : Id
  organizationId : Id
  userId : Id
  role : MemberRole
  deriving DecidableEq

variable {Id : Type}

/-- The table, with its primary key and its `@@unique([organizationId, userId])`. -/
structure MemberTable (Id : Type) where
  rows : List (Membership Id)
  keyed : (rows.map Membership.id).Nodup
  unique : (rows.map fun m => (m.organizationId, m.userId)).Nodup

def MemberTable.empty : MemberTable Id := ⟨[], by simp, by simp⟩

variable [DecidableEq Id]

namespace MemberTable

def findUnique (t : MemberTable Id) (id : Id) : Option (Membership Id) :=
  t.rows.find? fun m => decide (m.id = id)

def findMember (t : MemberTable Id) (organizationId userId : Id) : Option (Membership Id) :=
  t.rows.find? fun m => decide (m.organizationId = organizationId ∧ m.userId = userId)

/-- `requireById` of the scoped repository: another organization's row is not there. -/
def requireById (t : MemberTable Id) (organizationId id : Id) : Except AppError (Membership Id) :=
  match t.rows.find? fun m => decide (m.organizationId = organizationId ∧ m.id = id) with
  | some m => .ok m
  | none => .error resourceNotFound

def isOwner (organizationId : Id) (m : Membership Id) : Bool :=
  decide (m.organizationId = organizationId ∧ m.role = .owner)

def countOwners (t : MemberTable Id) (organizationId : Id) : ℕ :=
  t.rows.countP (isOwner organizationId)

def withRole (id : Id) (role : MemberRole) (m : Membership Id) : Membership Id :=
  if m.id = id then { m with role } else m

def updateRole (t : MemberTable Id) (id : Id) (role : MemberRole) : MemberTable Id where
  rows := t.rows.map (withRole id role)
  keyed := by
    have same : Membership.id ∘ withRole id role = Membership.id := by
      funext m
      simp only [Function.comp_apply, withRole]
      split <;> rfl
    rw [List.map_map, same]
    exact t.keyed
  unique := by
    have same : (fun m : Membership Id => (m.organizationId, m.userId)) ∘ withRole id role =
        fun m => (m.organizationId, m.userId) := by
      funext m
      simp only [Function.comp_apply, withRole]
      split <;> rfl
    rw [List.map_map, same]
    exact t.unique

def delete (t : MemberTable Id) (id : Id) : MemberTable Id where
  rows := t.rows.filter fun m => decide (m.id ≠ id)
  keyed := t.keyed.sublist (List.filter_sublist.map _)
  unique := t.unique.sublist (List.filter_sublist.map _)

/-- An INSERT, refused on either key. -/
def insert (t : MemberTable Id) (m : Membership Id) : Option (MemberTable Id) :=
  if h : m.id ∉ t.rows.map Membership.id ∧
      (m.organizationId, m.userId) ∉ t.rows.map fun q => (q.organizationId, q.userId) then
    some ⟨m :: t.rows, List.nodup_cons.mpr ⟨h.1, t.keyed⟩, List.nodup_cons.mpr ⟨h.2, t.unique⟩⟩
  else none

variable {t : MemberTable Id} {organizationId id : Id} {m : Membership Id}

theorem requireById_ok (h : t.requireById organizationId id = .ok m) :
    m ∈ t.rows ∧ m.organizationId = organizationId ∧ m.id = id := by
  unfold requireById at h
  split at h
  · rename_i q found
    obtain ⟨⟩ := h
    exact ⟨List.mem_of_find?_eq_some found, by simpa using List.find?_some found⟩
  · cases h

theorem findUnique_some (h : t.findUnique id = some m) : m ∈ t.rows ∧ m.id = id :=
  ⟨List.mem_of_find?_eq_some h, by simpa using List.find?_some h⟩

theorem findMember_some {userId : Id} (h : t.findMember organizationId userId = some m) :
    m ∈ t.rows ∧ m.organizationId = organizationId ∧ m.userId = userId :=
  ⟨List.mem_of_find?_eq_some h, by simpa using List.find?_some h⟩

omit [DecidableEq Id] in
theorem eq_of_id {q : Membership Id} (hm : m ∈ t.rows) (hq : q ∈ t.rows) (same : m.id = q.id) :
    m = q :=
  List.inj_on_of_nodup_map t.keyed hm hq same

variable {role : MemberRole}

theorem mem_updateRole :
    m ∈ (t.updateRole id role).rows ↔ ∃ q ∈ t.rows, withRole id role q = m :=
  List.mem_map

theorem mem_updateRole_of_ne (hm : m ∈ t.rows) (other : m.id ≠ id) :
    m ∈ (t.updateRole id role).rows :=
  mem_updateRole.mpr ⟨m, hm, if_neg other⟩

theorem mem_delete : m ∈ (t.delete id).rows ↔ m ∈ t.rows ∧ m.id ≠ id := by
  simp [delete]

theorem rows_insert {t' : MemberTable Id} (h : t.insert m = some t') : t'.rows = m :: t.rows := by
  obtain ⟨_, ⟨⟩⟩ := Option.dite_none_right_eq_some.mp h
  rfl

theorem other_owner (h : 1 < t.countOwners organizationId) (id : Id) :
    ∃ m ∈ t.rows, m.organizationId = organizationId ∧ m.role = .owner ∧ m.id ≠ id := by
  by_contra none_else
  have only : ∀ m ∈ t.rows.filter (isOwner organizationId), m.id = id := by
    intro m hm
    obtain ⟨mem, owner⟩ := List.mem_filter.mp hm
    obtain ⟨here, role⟩ := of_decide_eq_true owner
    by_contra other
    exact none_else ⟨m, mem, here, role, other⟩
  have nodup := t.keyed.sublist ((List.filter_sublist (p := isOwner organizationId)).map _)
  have constant : (t.rows.filter (isOwner organizationId)).map Membership.id =
      List.replicate (t.countOwners organizationId) id := by
    rw [List.eq_replicate_iff, List.length_map, countOwners, List.countP_eq_length_filter]
    exact ⟨rfl, fun c hc => by
      obtain ⟨m, hm, rfl⟩ := List.mem_map.mp hc
      exact only m hm⟩
  rw [constant, List.nodup_replicate] at nodup
  omega

end MemberTable

/-- The part of a resolved context that a membership change uses. -/
structure Context (Id : Type) where
  organizationId : Id
  userId : Id
  membershipId : Id
  role : MemberRole
  deriving DecidableEq

/-- The transaction of `changeRole`. The actor's role is the context's. -/
def changeRole (ctx : Context Id) (memberId : Id) (role : MemberRole) (t : MemberTable Id) :
    Except AppError (MemberTable Id) := do
  let target ← t.requireById ctx.organizationId memberId
  assertRoleChangeAllowed
    ⟨ctx.role, ctx.membershipId, target.id, target.role, t.countOwners ctx.organizationId⟩ role
  if target.role = role then .ok t else .ok (t.updateRole memberId role)

def remove (ctx : Context Id) (memberId : Id) (t : MemberTable Id) :
    Except AppError (MemberTable Id) := do
  let target ← t.requireById ctx.organizationId memberId
  assertMemberRemovalAllowed
    ⟨ctx.role, ctx.membershipId, target.id, target.role, t.countOwners ctx.organizationId⟩
  .ok (t.delete memberId)

variable {role : MemberRole}

theorem changeRole_ok {ctx : Context Id} {memberId : Id} {t t' : MemberTable Id}
    (h : changeRole ctx memberId role t = .ok t') :
    ∃ target, t.requireById ctx.organizationId memberId = .ok target ∧
      ctx.membershipId ≠ memberId ∧ mayAssignRole ctx.role role = true ∧
      mayAssignRole ctx.role target.role = true ∧
      (target.role = .owner → role ≠ .owner → 1 < t.countOwners ctx.organizationId) ∧
      t' = if target.role = role then t else t.updateRole memberId role := by
  obtain ⟨target, found, h⟩ := bind_eq_ok.mp h
  obtain ⟨_, allowed, h⟩ := bind_eq_ok.mp h
  obtain ⟨other, next, current, survives⟩ := assertRoleChangeAllowed_ok allowed
  have id := (MemberTable.requireById_ok found).2.2
  refine ⟨target, found, id ▸ other, next, current, fun owner lost => ?_, ?_⟩
  · exact assertOwnerSurvives_ok survives owner (by simpa using lost)
  · split_ifs at h ⊢ <;> exact (Except.ok.inj h).symm

theorem remove_ok {ctx : Context Id} {memberId : Id} {t t' : MemberTable Id}
    (h : remove ctx memberId t = .ok t') :
    ∃ target, t.requireById ctx.organizationId memberId = .ok target ∧
      ctx.membershipId ≠ memberId ∧ mayAssignRole ctx.role target.role = true ∧
      (target.role = .owner → 1 < t.countOwners ctx.organizationId) ∧ t' = t.delete memberId := by
  obtain ⟨target, found, h⟩ := bind_eq_ok.mp h
  obtain ⟨_, allowed, h⟩ := bind_eq_ok.mp h
  obtain ⟨other, current, survives⟩ := assertMemberRemovalAllowed_ok allowed
  have id := (MemberTable.requireById_ok found).2.2
  refine ⟨target, found, id ▸ other, current, fun owner => ?_, (Except.ok.inj h).symm⟩
  exact assertOwnerSurvives_ok survives owner (by simp)

inductive OrganizationStatus
  | active | suspended | deleted
  deriving DecidableEq

structure Invitation (Id : Type) where
  organizationId : Id
  role : MemberRole
  invitedByMembershipId : Id
  deriving DecidableEq

def conflict (message : String) : AppError := { code := .conflict, message }

/-- The `verify` hook of `accept`, for an invitee who is not a member yet. -/
def verifyInvitation (role : MemberRole) (status : OrganizationStatus)
    (inviter : Option MemberRole) : Except AppError Unit :=
  if status ≠ .active then
    .error (conflict "That organization is not accepting new members right now.")
  else
    match inviter with
    | none =>
        .error (conflict ("The member who invited you is no longer part of that organization. " ++
          "Ask for a new invitation."))
    | some inviter =>
        if !mayAssignRole inviter role then
          .error (conflict ("The member who invited you can no longer grant that role. Ask for " ++
            "a new invitation."))
        else .ok ()

theorem verifyInvitation_ok {status : OrganizationStatus}
    {inviter : Option MemberRole} (h : verifyInvitation role status inviter = .ok ()) :
    ∃ r, inviter = some r ∧ mayAssignRole r role = true := by
  unfold verifyInvitation at h
  split at h
  · cases h
  · split at h
    · cases h
    · rename_i r
      split at h
      · cases h
      · rename_i may
        exact ⟨r, rfl, by simpa using may⟩

end Hookubit.Members.Service
