/- sources: members/members.service.ts, organizations/user-scope.ts join,
     authz/tenant-resolver.service.ts resolve
   digest: When the authority that a membership change was checked against is still held. -/

import Hookubit.Members.Machine

/-!
The actor's role is read when the request is resolved and the inviter's by a statement of its own,
so both may have been taken away by the time the change commits. They have not been if nobody's
role is touched while a request or a redemption still rests on it.
-/

set_option autoImplicit false
set_option relaxedAutoImplicit false

namespace Hookubit.Members.Authority

open Authz.Permissions Automata.LabelledSystem Members.Service Members.Machine

variable {Id : Type} {s : State Id} {t : MemberTable Id} {role : MemberRole}

/-- The membership is in the table, in that organization and with that role. -/
def Holds (t : MemberTable Id) (id organizationId : Id) (role : MemberRole) : Prop :=
  ∃ m ∈ t.rows, m.id = id ∧ m.organizationId = organizationId ∧ m.role = role

/-- Nothing that is still running has read the membership's role. -/
def Idle (s : State Id) (id : Id) : Prop :=
  (∀ q ctx, s.requests q = some ctx → ctx.membershipId ≠ id) ∧
    ∀ r p, s.redemptions r = some p → p.phase.read ≠ none →
      p.invitation.invitedByMembershipId ≠ id

/-- A role is changed, or a member removed, only when the membership is idle. -/
def Undisturbed (s : State Id) : Op Id → State Id → Prop
  | .changeRole _ id _, _ => Idle s id
  | .remove _ id, _ => Idle s id
  | _, _ => True

/-- Every role that something running has read is still the role. -/
structure Current (s : State Id) : Prop where
  request : ∀ q ctx, s.requests q = some ctx →
    Holds s.members ctx.membershipId ctx.organizationId ctx.role
  inviter : ∀ r p role, s.redemptions r = some p → p.phase.read = some role →
    Holds s.members p.invitation.invitedByMembershipId p.invitation.organizationId role
  checked : ∀ r p inviter, s.redemptions r = some p → p.phase = .insert inviter →
    ∃ role, inviter = some role ∧ mayAssignRole role p.invitation.role = true

theorem Current.keep {id : Id} (h : Current s) (idle : Idle s id)
    (others : ∀ m ∈ s.members.rows, m.id ≠ id → m ∈ t.rows) : Current { s with members := t } := by
  have kept {i o : Id} {role : MemberRole} (holds : Holds s.members i o role) (other : i ≠ id) :
      Holds t i o role := by
    obtain ⟨m, hm, rfl, facts⟩ := holds
    exact ⟨m, others m hm other, rfl, facts⟩
  refine ⟨fun q ctx hq => kept (h.request q ctx hq) (idle.1 q ctx hq), ?_, h.checked⟩
  intro r p role hr read
  exact kept (h.inviter r p role hr read) (idle.2 r p hr (by simp [read]))

theorem Current.withRequest {q : ℕ} {new : Option (Context Id)} (h : Current s)
    (fresh : ∀ ctx ∈ new, Holds s.members ctx.membershipId ctx.organizationId ctx.role) :
    Current (s.withRequest q new) := by
  refine ⟨fun n ctx hn => ?_, h.inviter, h.checked⟩
  by_cases same : n = q
  · subst same
    exact fresh ctx (by simpa [State.withRequest] using hn)
  · exact h.request n ctx (by simpa [State.withRequest, same] using hn)

theorem Current.withRedemption {r : ℕ} {new : Option (Redemption Id)} (h : Current s)
    (read : ∀ p ∈ new, ∀ role, p.phase.read = some role →
      Holds s.members p.invitation.invitedByMembershipId p.invitation.organizationId role)
    (checked : ∀ p ∈ new, ∀ inviter, p.phase = .insert inviter → ∃ role, inviter = some role ∧
      mayAssignRole role p.invitation.role = true) :
    Current (s.withRedemption r new) := by
  refine ⟨h.request, fun n p role hn => ?_, fun n p inviter hn => ?_⟩
  all_goals by_cases same : n = r
  · subst same
    exact read p (by simpa [State.withRedemption] using hn) role
  · exact h.inviter n p role (by simpa [State.withRedemption, same] using hn)
  · subst same
    exact checked p (by simpa [State.withRedemption] using hn) inviter
  · exact h.checked n p inviter (by simpa [State.withRedemption, same] using hn)

variable [DecidableEq Id]

/-- The authority for the step is held when it commits. -/
def Authorised (s : State Id) : Op Id → Prop
  | .changeRole q id role => ∀ ctx target, s.requests q = some ctx →
      s.members.requireById ctx.organizationId id = .ok target →
      ∃ r, Holds s.members ctx.membershipId ctx.organizationId r ∧
        mayAssignRole r target.role = true ∧ mayAssignRole r role = true
  | .remove q id => ∀ ctx target, s.requests q = some ctx →
      s.members.requireById ctx.organizationId id = .ok target →
      ∃ r, Holds s.members ctx.membershipId ctx.organizationId r ∧
        mayAssignRole r target.role = true
  | .advance n => ∀ p inviter t, s.redemptions n = some p → p.phase = .insert inviter →
      s.members.insert p.newMember = some t →
      ∃ r, Holds s.members p.invitation.invitedByMembershipId p.invitation.organizationId r ∧
        mayAssignRole r p.invitation.role = true
  | _ => True

theorem Holds.insert {t' : MemberTable Id} {id o : Id} {m : Membership Id} (h : Holds t id o role)
    (inserted : t.insert m = some t') : Holds t' id o role := by
  obtain ⟨q, hq, facts⟩ := h
  exact ⟨q, MemberTable.rows_insert inserted ▸ List.mem_cons_of_mem _ hq, facts⟩

theorem Current.insert {m : Membership Id} (h : Current s)
      (inserted : s.members.insert m = some t) :
    Current { s with members := t } :=
  ⟨fun q ctx hq => (h.request q ctx hq).insert inserted,
    fun r p role hr read => (h.inviter r p role hr read).insert inserted, h.checked⟩

theorem readInviter_holds {p : Redemption Id} (h : p.readInviter t = some role) :
    Holds t p.invitation.invitedByMembershipId p.invitation.organizationId role := by
  obtain ⟨m, hm, rfl⟩ := Option.map_eq_some_iff.mp h
  obtain ⟨found, here⟩ := Option.filter_eq_some_iff.mp hm
  obtain ⟨mem, id⟩ := MemberTable.findUnique_some found
  exact ⟨m, mem, id, of_decide_eq_true here, rfl⟩

theorem Current.step {t : State Id} {a : Op Id} (h : Current s) (step : Step s a t)
    (ok : Undisturbed s a t) : Current t := by
  cases step with
  | createOrganization inserted =>
    exact ⟨(h.insert inserted).request, (h.insert inserted).inviter, h.checked⟩
  | resolve found =>
    refine h.withRequest fun ctx hctx => ?_
    obtain rfl := Option.some.inj hctx
    obtain ⟨mem, here, _⟩ := MemberTable.findMember_some found
    exact ⟨_, mem, rfl, here, rfl⟩
  | finish => exact h.withRequest (by simp)
  | changeRole request changed =>
    obtain ⟨target, _, _, _, _, _, rfl⟩ := changeRole_ok changed
    refine h.keep ok fun m hm other => ?_
    split
    · exact hm
    · exact MemberTable.mem_updateRole_of_ne hm other
  | remove request removed =>
    obtain ⟨target, _, _, _, _, rfl⟩ := remove_ok removed
    exact h.keep ok fun m hm other => MemberTable.mem_delete.mpr ⟨hm, other⟩
  | accept => exact h.withRedemption (by simp [Phase.read]) (by simp)
  | dropped _ => exact h.withRedemption (by simp) (by simp)
  | readOrganization _ => exact h.withRedemption (by simp [Phase.read]) (by simp)
  | readInviter _ =>
    refine h.withRedemption (fun p hp role read => ?_) (by simp)
    obtain rfl := Option.some.inj hp
    exact readInviter_holds read
  | @verified r p status inviter redemption phase verified =>
    refine h.withRedemption (fun q hq role read => ?_) fun q hq i hi => ?_
    all_goals obtain rfl := Option.some.inj hq
    · exact h.inviter r p role redemption (by rw [phase]; exact read)
    · obtain rfl := Phase.insert.inj hi
      exact verifyInvitation_ok verified
  | @joined r p _ _ _ _ inserted =>
    have gone : Current (s.withRedemption r none) := h.withRedemption (by simp) (by simp)
    exact gone.insert inserted

theorem Current.authorised {t : State Id} {a : Op Id} (h : Current s) (step : Step s a t) :
    Authorised s a := by
  cases step with
  | changeRole request changed =>
    intro ctx target hq found
    obtain rfl := Option.some.inj (request.symm.trans hq)
    obtain ⟨target', found', _, assign, current, _⟩ := changeRole_ok changed
    obtain rfl := Except.ok.inj (found.symm.trans found')
    exact ⟨_, h.request _ _ hq, current, assign⟩
  | remove request removed =>
    intro ctx target hq found
    obtain rfl := Option.some.inj (request.symm.trans hq)
    obtain ⟨target', found', _, current, _⟩ := remove_ok removed
    obtain rfl := Except.ok.inj (found.symm.trans found')
    exact ⟨_, h.request _ _ hq, current⟩
  | dropped | readOrganization | readInviter | verified | joined =>
    intro p inviter _ hr phase _
    obtain ⟨role, rfl, may⟩ := h.checked _ p inviter hr phase
    exact ⟨role, h.inviter _ p role hr (by rw [phase]; rfl), may⟩
  | _ => trivial

/-- While no role that a running request or redemption has read is touched, every change commits
under authority that is held. -/
theorem authority_current_when_idle {s t : State Id} {a : Op Id}
    (reach : Reachable (memberships.constrain Undisturbed) s) (edge : next s a = some t) :
    Authorised s a := by
  have current : Current s := by
    refine reach.invariant ?_ fun _ _ _ h edge => h.step (next_step edge.1) edge.2
    rintro _ rfl
    exact ⟨by simp [initial], by simp [initial], by simp [initial]⟩
  exact current.authorised (next_step edge)

def founding : List (Op ℕ) :=
  [.createOrganization 0 1 11, .accept 0 ⟨0, .admin, 1⟩ 12 2, .advance 0, .advance 0, .advance 0,
    .advance 0, .accept 0 ⟨0, .developer, 1⟩ 13 3, .advance 0, .advance 0, .advance 0, .advance 0]

def touchesNoRole : Op Id → Bool
  | .changeRole _ _ _ | .remove _ _ => false
  | _ => true

theorem exists_undisturbed_of_execute {l : List (Op ℕ)} {test : State ℕ → Bool}
    (quiet : l.all touchesNoRole = true) (run : (execute next initial l).any test = true) :
    ∃ s, Reachable (memberships.constrain Undisturbed) s ∧ test s = true := by
  obtain ⟨s, ran, passed⟩ := (Option.any_eq_true _ _).mp run
  have harmless : ∀ (s : State ℕ) a t, touchesNoRole a = true → Undisturbed s a t := by
    intro s a t ha
    cases a with
    | changeRole _ _ _ | remove _ _ => cases ha
    | _ => trivial
  exact ⟨s, (Reachable.start rfl).constrain_of_execute harmless (List.all_eq_true.mp quiet) ran,
    passed⟩

/-- The admin's request is about to promote the developer. -/
def promotes (s : State ℕ) : Bool :=
  (next s (.changeRole 0 3 .admin)).isSome &&
    decide (s.requests 0 = some ⟨0, 12, 2, .admin⟩) && (s.members.requireById 0 3).isOk

theorem of_promotes {s : State ℕ} (h : promotes s = true) :
    ∃ t target, next s (.changeRole 0 3 .admin) = some t ∧
      s.requests 0 = some ⟨0, 12, 2, .admin⟩ ∧ s.members.requireById 0 3 = .ok target := by
  simp only [promotes, Bool.and_eq_true, decide_eq_true_eq] at h
  obtain ⟨⟨commits, request⟩, found⟩ := h
  obtain ⟨t, edge⟩ := Option.isSome_iff_exists.mp commits
  cases answer : s.members.requireById 0 3 with
  | error e =>
    rw [answer] at found
    cases found
  | ok target => exact ⟨t, target, edge, request, rfl⟩

/-- An invitation by the admin, redeemed up to its insert. -/
def redeeming : List (Op ℕ) :=
  [.accept 0 ⟨0, .admin, 2⟩ 14 4, .advance 0, .advance 0, .advance 0]

def redeems (s : State ℕ) : Bool :=
  (next s (.advance 0)).isSome &&
    decide (s.redemptions 0 = some ⟨⟨0, .admin, 2⟩, 14, 4, .insert (some .admin)⟩) &&
    (s.members.insert ⟨4, 0, 14, .admin⟩).isSome

theorem of_redeems {s : State ℕ} (h : redeems s = true) :
    ∃ t table, next s (.advance 0) = some t ∧
      s.redemptions 0 = some ⟨⟨0, .admin, 2⟩, 14, 4, .insert (some .admin)⟩ ∧
      s.members.insert ⟨4, 0, 14, .admin⟩ = some table := by
  simp only [redeems, Bool.and_eq_true, decide_eq_true_eq] at h
  obtain ⟨⟨commits, redemption⟩, inserts⟩ := h
  obtain ⟨t, edge⟩ := Option.isSome_iff_exists.mp commits
  obtain ⟨table, inserted⟩ := Option.isSome_iff_exists.mp inserts
  exact ⟨t, table, edge, redemption, inserted⟩

/-- Membership `2` holds a role that may assign admin when its request promotes, and when its
invitation is redeemed. -/
theorem promotion_and_redemption_authorised :
    (∃ s t : State ℕ, Reachable (memberships.constrain Undisturbed) s ∧
      next s (.changeRole 0 3 .admin) = some t ∧
      ∃ r, Holds s.members 2 0 r ∧ mayAssignRole r .admin = true) ∧
    ∃ s t : State ℕ, Reachable (memberships.constrain Undisturbed) s ∧
      next s (.advance 0) = some t ∧
      ∃ r, Holds s.members 2 0 r ∧ mayAssignRole r .admin = true := by
  constructor
  · have run : (execute next initial (founding ++ [.resolve 0 0 12])).any promotes = true := by
      decide +kernel
    obtain ⟨s, reach, ready⟩ := exists_undisturbed_of_execute (by decide) run
    obtain ⟨t, target, edge, request, found⟩ := of_promotes ready
    obtain ⟨r, holds, -, assign⟩ := authority_current_when_idle reach edge _ target request found
    exact ⟨s, t, reach, edge, r, holds, assign⟩
  · have run : (execute next initial (founding ++ redeeming)).any redeems = true := by
      decide +kernel
    obtain ⟨s, reach, ready⟩ := exists_undisturbed_of_execute (by decide) run
    obtain ⟨t, table, edge, redemption, inserted⟩ := of_redeems ready
    exact ⟨s, t, reach, edge,
      authority_current_when_idle reach edge _ _ table redemption rfl inserted⟩

theorem not_holds {t : MemberTable ℕ} {id o : ℕ}
    (h : (t.rows.all fun m => decide (m.id ≠ id) || !mayAssignRole m.role role) = true) :
    ¬∃ r, Holds t id o r ∧ mayAssignRole r role = true := by
  rintro ⟨_, ⟨m, hm, rfl, _, rfl⟩, may⟩
  simpa [may] using List.all_eq_true.mp h m hm

/-- An admin's request, resolved before the owner makes the admin a viewer, still promotes; and an
invitation whose inviter has been read is redeemed after the inviter's removal. -/
theorem stale_authority_commits :
    (∃ s t : State ℕ, Reachable memberships s ∧ next s (.changeRole 0 3 .admin) = some t ∧
      ¬Authorised s (.changeRole 0 3 .admin)) ∧
    ∃ s t : State ℕ, Reachable memberships s ∧ next s (.advance 0) = some t ∧
      ¬Authorised s (.advance 0) := by
  constructor
  · have run : (execute next initial (founding ++ [.resolve 0 0 12, .resolve 1 0 11,
        .changeRole 1 2 .viewer])).any (fun s => promotes s &&
          s.members.rows.all fun m => decide (m.id ≠ 2) || !mayAssignRole m.role .admin) =
            true := by
      decide +kernel
    obtain ⟨s, reach, facts⟩ : ∃ s, Reachable memberships s ∧ _ :=
      exists_reachable_of_execute rfl run
    obtain ⟨ready, demoted⟩ := Bool.and_eq_true_iff.mp facts
    obtain ⟨t, target, edge, request, found⟩ := of_promotes ready
    refine ⟨s, t, reach, edge, fun authorised => ?_⟩
    obtain ⟨r, holds, -, assign⟩ := authorised _ target request found
    exact not_holds demoted ⟨r, holds, assign⟩
  · have run : (execute next initial (founding ++ redeeming ++ [.resolve 1 0 11,
        .remove 1 2])).any (fun s => redeems s &&
          s.members.rows.all fun m => decide (m.id ≠ 2) || !mayAssignRole m.role .admin) =
            true := by
      decide +kernel
    obtain ⟨s, reach, facts⟩ : ∃ s, Reachable memberships s ∧ _ :=
      exists_reachable_of_execute rfl run
    obtain ⟨ready, removed⟩ := Bool.and_eq_true_iff.mp facts
    obtain ⟨t, table, edge, redemption, inserted⟩ := of_redeems ready
    refine ⟨s, t, reach, edge, fun authorised => ?_⟩
    exact not_holds removed (authorised _ _ table redemption rfl inserted)

end Hookubit.Members.Authority
