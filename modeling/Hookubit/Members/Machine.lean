/- sources: members/members.service.ts, organizations/user-scope.ts,
     organizations/tenant-transaction.ts, authz/tenant-resolver.service.ts resolve
   digest: Memberships under every order of resolutions, role changes, removals and redemptions. -/

import Hookubit.Automata.LabelledSystem
import Hookubit.Members.Service

/-!
A role change or a removal that commits is one step, because its transaction is serializable; one
that fails, is aborted or gives up is none. A redemption runs at the default isolation level, so
each of its statements is a step of its own and reads what is committed then. A request keeps
the context that was resolved for it until it ends.
-/

set_option autoImplicit false
set_option relaxedAutoImplicit false

namespace Hookubit.Members.Machine

open Authz.Permissions Automata.LabelledSystem Common.Errors Members.Service

structure Organization (Id : Type) where
  id : Id
  status : OrganizationStatus
  deriving DecidableEq

/-- The statement that a redemption issues next, with what the earlier ones have read. -/
inductive Phase
  | organization
  | inviter (status : OrganizationStatus)
  | existing (status : OrganizationStatus) (inviter : Option MemberRole)
  | insert (inviter : Option MemberRole)
  deriving DecidableEq

structure Redemption (Id : Type) where
  invitation : Invitation Id
  userId : Id
  membershipId : Id
  phase : Phase
  deriving DecidableEq

/-- The role that a redemption has read of its inviter. -/
def Phase.read : Phase → Option MemberRole
  | .organization | .inviter _ => none
  | .existing _ role | .insert role => role

structure State (Id : Type) where
  organizations : List (Organization Id)
  members : MemberTable Id
  requests : ℕ → Option (Context Id)
  redemptions : ℕ → Option (Redemption Id)

inductive Op (Id : Type)
  | createOrganization (organizationId membershipId userId : Id)
  | resolve (request : ℕ) (organizationId userId : Id)
  | finish (request : ℕ)
  | changeRole (request : ℕ) (memberId : Id) (role : MemberRole)
  | remove (request : ℕ) (memberId : Id)
  | accept (redemption : ℕ) (invitation : Invitation Id) (userId membershipId : Id)
  | advance (redemption : ℕ)
  deriving DecidableEq

variable {Id : Type}

def State.withRequest (s : State Id) (q : ℕ) (ctx : Option (Context Id)) : State Id :=
  { s with requests := Function.update s.requests q ctx }

def State.withRedemption (s : State Id) (r : ℕ) (p : Option (Redemption Id)) : State Id :=
  { s with redemptions := Function.update s.redemptions r p }

def Redemption.newMember (p : Redemption Id) : Membership Id :=
  ⟨p.membershipId, p.invitation.organizationId, p.userId, p.invitation.role⟩

variable [DecidableEq Id]

def State.findOrganization (s : State Id) (id : Id) : Option (Organization Id) :=
  s.organizations.find? fun o => decide (o.id = id)

/-- The inviter's role; a row of another organization is no inviter. -/
def Redemption.readInviter (p : Redemption Id) (t : MemberTable Id) : Option MemberRole :=
  ((t.findUnique p.invitation.invitedByMembershipId).filter fun m =>
    decide (m.organizationId = p.invitation.organizationId)).map Membership.role

/-- One statement of `join`. A refusal, an existing membership and a collision end it. -/
def State.advance (s : State Id) (r : ℕ) (p : Redemption Id) : State Id :=
  match p.phase with
  | .organization =>
      match s.findOrganization p.invitation.organizationId with
      | none => s.withRedemption r none
      | some o => s.withRedemption r (some { p with phase := .inviter o.status })
  | .inviter status =>
      s.withRedemption r (some { p with phase := .existing status (p.readInviter s.members) })
  | .existing status inviter =>
      match s.members.findMember p.invitation.organizationId p.userId with
      | some _ => s.withRedemption r none
      | none =>
          match verifyInvitation p.invitation.role status inviter with
          | .error _ => s.withRedemption r none
          | .ok () => s.withRedemption r (some { p with phase := .insert inviter })
  | .insert _ =>
      match s.members.insert p.newMember with
      | none => s.withRedemption r none
      | some t => { s.withRedemption r none with members := t }

def next (s : State Id) : Op Id → Option (State Id)
  | .createOrganization organizationId membershipId userId =>
      if (s.findOrganization organizationId).isSome then none
      else
        (s.members.insert ⟨membershipId, organizationId, userId, .owner⟩).map fun t =>
          { s with organizations := ⟨organizationId, .active⟩ :: s.organizations, members := t }
  | .resolve q organizationId userId => do
      let m ← s.members.findMember organizationId userId
      let o ← s.findOrganization organizationId
      if o.status = .deleted then none
      else some (s.withRequest q (some ⟨organizationId, userId, m.id, m.role⟩))
  | .finish q => some (s.withRequest q none)
  | .changeRole q memberId role => do
      let ctx ← s.requests q
      match changeRole ctx memberId role s.members with
      | .error _ => none
      | .ok t => some { s with members := t }
  | .remove q memberId => do
      let ctx ← s.requests q
      match remove ctx memberId s.members with
      | .error _ => none
      | .ok t => some { s with members := t }
  | .accept r invitation userId membershipId =>
      some (s.withRedemption r (some ⟨invitation, userId, membershipId, .organization⟩))
  | .advance r => do
      let p ← s.redemptions r
      some (s.advance r p)

def initial : State Id := ⟨[], .empty, fun _ => none, fun _ => none⟩

def memberships : System (State Id) (Op Id) := .ofStep (· = initial) next

/-- Every way a step can go, by what it does to the state. -/
inductive Step (s : State Id) : Op Id → State Id → Prop
  | createOrganization {o m u : Id} {t : MemberTable Id}
      (inserted : s.members.insert ⟨m, o, u, .owner⟩ = some t) :
      Step s (.createOrganization o m u)
        { s with organizations := ⟨o, .active⟩ :: s.organizations, members := t }
  | resolve {q : ℕ} {o u : Id} {m : Membership Id} (found : s.members.findMember o u = some m) :
      Step s (.resolve q o u) (s.withRequest q (some ⟨o, u, m.id, m.role⟩))
  | finish {q : ℕ} : Step s (.finish q) (s.withRequest q none)
  | changeRole {q : ℕ} {ctx : Context Id} {id : Id} {role : MemberRole} {t : MemberTable Id}
      (request : s.requests q = some ctx) (changed : changeRole ctx id role s.members = .ok t) :
      Step s (.changeRole q id role) { s with members := t }
  | remove {q : ℕ} {ctx : Context Id} {id : Id} {t : MemberTable Id}
      (request : s.requests q = some ctx) (removed : remove ctx id s.members = .ok t) :
      Step s (.remove q id) { s with members := t }
  | accept {r : ℕ} {i : Invitation Id} {u m : Id} :
      Step s (.accept r i u m) (s.withRedemption r (some ⟨i, u, m, .organization⟩))
  | dropped {r : ℕ} {p : Redemption Id} (redemption : s.redemptions r = some p) :
      Step s (.advance r) (s.withRedemption r none)
  | readOrganization {r : ℕ} {p : Redemption Id} {status : OrganizationStatus}
      (redemption : s.redemptions r = some p) :
      Step s (.advance r) (s.withRedemption r (some { p with phase := .inviter status }))
  | readInviter {r : ℕ} {p : Redemption Id} {status : OrganizationStatus}
      (redemption : s.redemptions r = some p) :
      Step s (.advance r)
        (s.withRedemption r
          (some { p with phase := .existing status (p.readInviter s.members) }))
  | verified {r : ℕ} {p : Redemption Id} {status : OrganizationStatus}
      {inviter : Option MemberRole} (redemption : s.redemptions r = some p)
      (phase : p.phase = .existing status inviter)
      (checked : verifyInvitation p.invitation.role status inviter = .ok ()) :
      Step s (.advance r) (s.withRedemption r (some { p with phase := .insert inviter }))
  | joined {r : ℕ} {p : Redemption Id} {inviter : Option MemberRole} {t : MemberTable Id}
      (redemption : s.redemptions r = some p) (phase : p.phase = .insert inviter)
      (inserted : s.members.insert p.newMember = some t) :
      Step s (.advance r) { s.withRedemption r none with members := t }

theorem advance_step {s : State Id} {r : ℕ} {p : Redemption Id} (h : s.redemptions r = some p) :
    Step s (.advance r) (s.advance r p) := by
  unfold State.advance
  split
  · split
    · exact .dropped h
    · exact .readOrganization h
  · exact .readInviter h
  · rename_i phase
    split
    · exact .dropped h
    · split
      · exact .dropped h
      · rename_i checked
        exact .verified h phase checked
  · rename_i phase
    split
    · exact .dropped h
    · rename_i inserted
      exact .joined h phase inserted

theorem next_step {s t : State Id} {a : Op Id} (h : next s a = some t) : Step s a t := by
  cases a with
  | createOrganization o m u =>
    rw [next] at h
    split at h
    · cases h
    · obtain ⟨table, inserted, rfl⟩ := Option.map_eq_some_iff.mp h
      exact .createOrganization inserted
  | resolve q o u =>
    obtain ⟨m, found, h⟩ := Option.bind_eq_some_iff.mp h
    obtain ⟨organization, _, h⟩ := Option.bind_eq_some_iff.mp h
    obtain ⟨_, ⟨⟩⟩ := Option.ite_none_left_eq_some.mp h
    exact .resolve found
  | finish q =>
    obtain ⟨⟩ := h
    exact .finish
  | changeRole q id role =>
    obtain ⟨ctx, request, h⟩ := Option.bind_eq_some_iff.mp h
    split at h
    · cases h
    · rename_i changed
      obtain ⟨⟩ := h
      exact .changeRole request changed
  | remove q id =>
    obtain ⟨ctx, request, h⟩ := Option.bind_eq_some_iff.mp h
    split at h
    · cases h
    · rename_i removed
      obtain ⟨⟩ := h
      exact .remove request removed
  | accept r i u m =>
    obtain ⟨⟩ := h
    exact .accept
  | advance r =>
    obtain ⟨p, redemption, ⟨⟩⟩ := Option.bind_eq_some_iff.mp h
    exact advance_step redemption

end Hookubit.Members.Machine
