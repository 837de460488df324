/- sources: authz/permissions.ts
   digest: The role lattice: who may give which role, and which changes an owner survives. -/

import Hookubit.Common.Errors
import Mathlib.Tactic.SplitIfs

set_option autoImplicit false
set_option relaxedAutoImplicit false

namespace Hookubit.Authz.Permissions

open Common.Errors

inductive MemberRole
  | owner | admin | developer | viewer | billing
  deriving DecidableEq

def MemberRole.text : MemberRole → String
  | .owner => "owner"
  | .admin => "admin"
  | .developer => "developer"
  | .viewer => "viewer"
  | .billing => "billing"

def MemberRole.ofText : String → Option MemberRole
  | "owner" => some .owner
  | "admin" => some .admin
  | "developer" => some .developer
  | "viewer" => some .viewer
  | "billing" => some .billing
  | _ => none

/-- The `members.write` row of the permission matrix. -/
def MemberRole.membersWrite : MemberRole → Bool
  | .owner | .admin => true
  | .developer | .viewer | .billing => false

def ROLE_RANK : MemberRole → ℕ
  | .owner => 40
  | .admin => 30
  | .developer => 20
  | .viewer => 10
  | .billing => 10

/-- Never a role ranked above one's own. -/
def mayAssignRole (actor target : MemberRole) : Bool :=
  actor.membersWrite && ROLE_RANK target ≤ ROLE_RANK actor

variable {Id : Type}

structure RoleChange (Id : Type) where
  actorRole : MemberRole
  actorMembershipId : Id
  targetMembershipId : Id
  currentRole : MemberRole
  ownerCount : ℕ

/-- `assertOwnerSurvives`; a removal has no next role. -/
def assertOwnerSurvives (currentRole : MemberRole) (nextRole : Option MemberRole)
    (ownerCount : ℕ) : Except AppError Unit :=
  if currentRole ≠ .owner ∨ nextRole = some .owner then .ok ()
  else if ownerCount ≤ 1 then
    .error
      { code := .conflict
        message :=
          "An organization must always have at least one owner. Promote another member first." }
  else .ok ()

def forbidden (message : String) : AppError := { code := .forbidden, message }

def assertRoleChangeAllowed [DecidableEq Id] (change : RoleChange Id) (nextRole : MemberRole) :
    Except AppError Unit :=
  if !change.actorRole.membersWrite then .error (forbidden "You may not change member roles.")
  else if change.actorMembershipId = change.targetMembershipId then
    .error (forbidden "You cannot change your own role. Ask another owner or admin to do it.")
  else if !mayAssignRole change.actorRole nextRole then
    .error (forbidden ("You may not assign the role \"" ++ nextRole.text ++ "\"."))
  else if !mayAssignRole change.actorRole change.currentRole then
    .error (forbidden ("You may not change the role of an " ++ change.currentRole.text ++ "."))
  else assertOwnerSurvives change.currentRole (some nextRole) change.ownerCount

/-- Removal is a role change to no role, under the same last-owner rule. -/
def assertMemberRemovalAllowed [DecidableEq Id] (change : RoleChange Id) : Except AppError Unit :=
  if !change.actorRole.membersWrite then .error (forbidden "You may not remove members.")
  else if change.actorMembershipId = change.targetMembershipId then
    .error (forbidden "You cannot remove your own membership. Ask another owner or admin to do it.")
  else if !mayAssignRole change.actorRole change.currentRole then
    .error (forbidden ("You may not remove an " ++ change.currentRole.text ++ "."))
  else assertOwnerSurvives change.currentRole none change.ownerCount

theorem assertOwnerSurvives_ok {currentRole : MemberRole} {nextRole : Option MemberRole}
    {ownerCount : ℕ} (h : assertOwnerSurvives currentRole nextRole ownerCount = .ok ()) :
    currentRole = .owner → nextRole ≠ some .owner → 1 < ownerCount := by
  intro owner lost
  unfold assertOwnerSurvives at h
  split_ifs at h with kept few
  · exact absurd owner (kept.resolve_right lost)
  · omega

theorem assertRoleChangeAllowed_ok [DecidableEq Id] {change : RoleChange Id}
    {nextRole : MemberRole} (h : assertRoleChangeAllowed change nextRole = .ok ()) :
    change.actorMembershipId ≠ change.targetMembershipId ∧
      mayAssignRole change.actorRole nextRole = true ∧
      mayAssignRole change.actorRole change.currentRole = true ∧
      assertOwnerSurvives change.currentRole (some nextRole) change.ownerCount = .ok () := by
  unfold assertRoleChangeAllowed at h
  split_ifs at h with _ other next current
  · exact ⟨other, by simpa using next, by simpa using current, h⟩

theorem assertMemberRemovalAllowed_ok [DecidableEq Id] {change : RoleChange Id}
    (h : assertMemberRemovalAllowed change = .ok ()) :
    change.actorMembershipId ≠ change.targetMembershipId ∧
      mayAssignRole change.actorRole change.currentRole = true ∧
      assertOwnerSurvives change.currentRole none change.ownerCount = .ok () := by
  unfold assertMemberRemovalAllowed at h
  split_ifs at h with _ other current
  · exact ⟨other, by simpa using current, h⟩

end Hookubit.Authz.Permissions
