/- sources: auth/auth.service.ts (login, logout, resetPassword), auth/session.service.ts
   digest: One user's logins, logouts and password resets under every order of single statements. -/

import Hookubit.Automata.LabelledSystem
import Mathlib.Data.Int.Notation

/-!
None of the three calls opens a transaction, so the state keeps for each call in progress the
statement it issues next. The token table is not part of the state: whether a reset's token could
be consumed is said by the label. The email check, the dummy verifications and the cookies touch
no row and are left out.
-/

set_option autoImplicit false
set_option relaxedAutoImplicit false

namespace Hookubit.Auth.Machine

open Automata.LabelledSystem

structure User (Hash : Type) where
  passwordHash : Hash
  emailVerifiedAt : Option ℤ
  disabledAt : Option ℤ
  lastLoginAt : Option ℤ
  deriving DecidableEq

inductive SessionRevocationReason
  | logout | passwordReset
  deriving DecidableEq

/-- A row of `sessions`. `revision` says which password hash its login had verified against; it
is kept for the statements about it and read by no code. -/
structure Session where
  expiresAt : ℤ
  revokedAt : Option ℤ
  revokedReason : Option SessionRevocationReason
  revision : ℕ
  deriving DecidableEq

/-- A revocation leaves an earlier one as it is. -/
def Session.revoke (x : Session) (now : ℤ) (reason : SessionRevocationReason) : Session :=
  if x.revokedAt.isNone then { x with revokedAt := some now, revokedReason := some reason } else x

/-- Seven days, in milliseconds. -/
def SESSION_TTL : ℤ := 7 * 24 * 60 * 60 * 1000

/-- The statement that a login issues next; after the first it has verified its password against
the hash of that revision. -/
inductive Login (Password : Type)
  | readUser (password : Password)
  | updateLastLogin (revision : ℕ)
  | audit (revision : ℕ)
  | issue (revision : ℕ)
  deriving DecidableEq

def Login.read {Password : Type} : Login Password → Option ℕ
  | .readUser _ => none
  | .updateLastLogin r | .audit r | .issue r => some r

/-- The statement that a reset issues next; once it has replaced the hash, with the revision
that this began. -/
inductive Reset (Hash : Type)
  | readUser (hash : Hash)
  | update (hash : Hash)
  | revokeOutstanding (revision : ℕ)
  | revokeAllForUser (revision : ℕ)
  | audit (revision : ℕ)
  | completed (revision : ℕ)
  deriving DecidableEq

structure State (Password Hash : Type) where
  clock : ℤ
  user : User Hash
  revision : ℕ
  sessions : ℕ → Option Session
  logins : ℕ → Option (Login Password)
  logouts : ℕ → Option ℕ
  resets : ℕ → Option (Reset Hash)

/-- A statement may also fail, which ends its call; a revocation that fails is only logged. -/
inductive Op (Password Hash : Type)
  | tick (d : ℕ)
  | login (n : ℕ) (password : Password)
  | loginStatement (n sessionId : ℕ)
  | loginFails (n : ℕ)
  | logout (n sessionId : ℕ)
  | revoke (n : ℕ) (succeeds : Bool)
  | resetPassword (n : ℕ) (consumed : Bool) (hash : Hash)
  | resetStatement (n : ℕ)
  | resetFails (n : ℕ)
  deriving DecidableEq

variable {Password Hash : Type}

namespace State

variable (s : State Password Hash)

/-- `verify`, for a cookie whose signature is good. -/
def verify (sessionId : ℕ) : Bool :=
  match s.sessions sessionId with
  | none => false
  | some x => x.revokedAt.isNone && decide (s.clock < x.expiresAt) && s.user.disabledAt.isNone

def withLogin (n : ℕ) (l : Option (Login Password)) : State Password Hash :=
  { s with logins := Function.update s.logins n l }

def withReset (n : ℕ) (r : Option (Reset Hash)) : State Password Hash :=
  { s with resets := Function.update s.resets n r }

/-- `UPDATE sessions … WHERE … AND revoked_at IS NULL`. -/
def revokeWhere (p : ℕ → Bool) (reason : SessionRevocationReason) : State Password Hash :=
  { s with
    sessions := fun id =>
      (s.sessions id).map fun x => if p id then x.revoke s.clock reason else x }

/-- What `login` does with the row it has read. -/
def checkPassword (verify : Hash → Password → Bool) (password : Password) :
    Option (Login Password) :=
  if s.user.disabledAt.isSome then none
  else if !verify s.user.passwordHash password then none
  else if s.user.emailVerifiedAt.isNone then none
  else some (.updateLastLogin s.revision)

def newSession (revision : ℕ) : Session := ⟨s.clock + SESSION_TTL, none, none, revision⟩

def loginStatement (verify : Hash → Password → Bool) (n sessionId : ℕ) :
    Login Password → Option (State Password Hash)
  | .readUser password => some (s.withLogin n (s.checkPassword verify password))
  | .updateLastLogin r =>
      some { s.withLogin n (some (.audit r)) with
        user := { s.user with lastLoginAt := some s.clock } }
  | .audit r => some (s.withLogin n (some (.issue r)))
  | .issue r =>
      if (s.sessions sessionId).isSome then none
      else
        some { s.withLogin n none with
          sessions := Function.update s.sessions sessionId (some (s.newSession r)) }

def resetStatement (n : ℕ) : Reset Hash → Option (State Password Hash)
  | .readUser hash =>
      if s.user.disabledAt.isSome then some (s.withReset n none)
      else some (s.withReset n (some (.update hash)))
  | .update hash =>
      some { s.withReset n (some (.revokeOutstanding (s.revision + 1))) with
        user := { s.user with passwordHash := hash }, revision := s.revision + 1 }
  | .revokeOutstanding k => some (s.withReset n (some (.revokeAllForUser k)))
  | .revokeAllForUser k =>
      some ((s.revokeWhere (fun _ => true) .passwordReset).withReset n (some (.audit k)))
  | .audit k => some (s.withReset n (some (.completed k)))
  | .completed _ => none

end State

def next (verify : Hash → Password → Bool) (s : State Password Hash) :
    Op Password Hash → Option (State Password Hash)
  | .tick d => some { s with clock := s.clock + d }
  | .login n password => some (s.withLogin n (some (.readUser password)))
  | .loginStatement n sessionId => (s.logins n).bind (s.loginStatement verify n sessionId)
  | .loginFails n => some (s.withLogin n none)
  | .logout n sessionId =>
      some { s with logouts :=
        Function.update s.logouts n (if s.verify sessionId then some sessionId else none) }
  | .revoke n succeeds =>
      (s.logouts n).map fun sessionId =>
        let s := { s with logouts := Function.update s.logouts n none }
        if succeeds then s.revokeWhere (fun id => decide (id = sessionId)) .logout else s
  | .resetPassword n consumed hash =>
      if consumed ∧ s.resets n = none then some (s.withReset n (some (.readUser hash))) else none
  | .resetStatement n => (s.resets n).bind (s.resetStatement n)
  | .resetFails n =>
      match s.resets n with
      | some (.completed _) | none => none
      | some _ => some (s.withReset n none)

def Fresh (s : State Password Hash) : Prop :=
  (∀ id, s.sessions id = none) ∧ (∀ n, s.logins n = none) ∧ (∀ n, s.logouts n = none) ∧
    ∀ n, s.resets n = none

def accounts (verify : Hash → Password → Bool) :
    System (State Password Hash) (Op Password Hash) :=
  .ofStep Fresh (next verify)

/-- What any statements may do to the sessions there are: time passes, and a revocation, once
made, stays as it was recorded. -/
structure Ages (s t : State Password Hash) : Prop where
  clock : s.clock ≤ t.clock
  disabled : t.user.disabledAt = s.user.disabledAt
  sessions : ∀ id x, s.sessions id = some x → ∃ y, t.sessions id = some y ∧
    y.expiresAt = x.expiresAt ∧ (x.revokedAt ≠ none → y = x)

variable {s t : State Password Hash}

theorem Ages.same (clock : s.clock ≤ t.clock)
    (disabled : t.user.disabledAt = s.user.disabledAt) (sessions : t.sessions = s.sessions) :
    Ages s t :=
  ⟨clock, disabled, fun _ x found => ⟨x, sessions ▸ found, rfl, fun _ => rfl⟩⟩

theorem Ages.trans {s t u : State Password Hash} (first : Ages s t) (second : Ages t u) :
    Ages s u := by
  refine ⟨Int.le_trans first.clock second.clock, second.disabled.trans first.disabled, ?_⟩
  intro id x found
  obtain ⟨y, hy, expires, kept⟩ := first.sessions id x found
  obtain ⟨z, hz, expires', kept'⟩ := second.sessions id y hy
  refine ⟨z, hz, expires'.trans expires, fun revoked => ?_⟩
  obtain rfl := kept revoked
  exact kept' revoked

theorem Ages.revokeWhere (s : State Password Hash) (p : ℕ → Bool)
    (reason : SessionRevocationReason) : Ages s (s.revokeWhere p reason) := by
  refine ⟨Int.le_refl _, rfl, fun id x found => ⟨_, congrArg (Option.map _) found, ?_, ?_⟩⟩
  · simp only [Session.revoke]
    split_ifs <;> rfl
  · intro revoked
    simp [Session.revoke, revoked]

variable {verify : Hash → Password → Bool}

theorem Ages.loginStatement
    {n sessionId : ℕ} {l : Login Password} (step : s.loginStatement verify n sessionId l = some t) :
    Ages s t := by
  cases l with
  | readUser _ | updateLastLogin _ | audit _ =>
    cases step
    exact .same (Int.le_refl _) rfl rfl
  | issue r =>
    simp only [State.loginStatement] at step
    split at step <;> cases step
    rename_i free
    refine ⟨Int.le_refl _, rfl, fun id x found => ⟨x, ?_, rfl, fun _ => rfl⟩⟩
    -- the id of the new session is not that of an old one
    have other : id ≠ sessionId := fun same => free (by rw [← same, found]; rfl)
    exact (Function.update_of_ne other _ _).trans found

theorem Ages.next {a : Op Password Hash} (step : next verify s a = some t) : Ages s t := by
  cases a with
  | tick d =>
    cases step
    exact .same (Int.le_add_of_nonneg_right (Int.natCast_nonneg d)) rfl rfl
  | login _ _ | loginFails _ | logout _ _ =>
    cases step
    exact .same (Int.le_refl _) rfl rfl
  | loginStatement n sessionId =>
    obtain ⟨l, _, step⟩ := Option.bind_eq_some_iff.mp step
    exact Ages.loginStatement step
  | revoke n succeeds =>
    obtain ⟨sessionId, _, rfl⟩ := Option.map_eq_some_iff.mp step
    dsimp only
    split
    · obtain ⟨clock, disabled, sessions⟩ := Ages.revokeWhere s (fun id => id = sessionId) .logout
      exact ⟨clock, disabled, sessions⟩
    · exact .same (Int.le_refl _) rfl rfl
  | resetPassword n consumed hash =>
    obtain ⟨_, ⟨⟩⟩ := Option.ite_none_right_eq_some.mp step
    exact .same (Int.le_refl _) rfl rfl
  | resetStatement n =>
    obtain ⟨p, _, step⟩ := Option.bind_eq_some_iff.mp step
    cases p with
    | readUser hash =>
      simp only [State.resetStatement] at step
      split at step <;> cases step <;> exact .same (Int.le_refl _) rfl rfl
    | revokeAllForUser k =>
      cases step
      obtain ⟨clock, disabled, sessions⟩ := Ages.revokeWhere s (fun _ => true) .passwordReset
      exact ⟨clock, disabled, sessions⟩
    | completed k => cases step
    | _ =>
      cases step
      exact .same (Int.le_refl _) rfl rfl
  | resetFails n =>
    simp only [Machine.next] at step
    split at step <;> cases step
    exact .same (Int.le_refl _) rfl rfl

/-- A session that was refused once is refused from then on, whatever is logged in, logged out or
reset meanwhile; and what its row says of a revocation is never written over. -/
theorem refused_session_stays_refused
    {l : List (Op Password Hash)} (run : Run (accounts verify) s l t)
    {id : ℕ} {x : Session} (found : s.sessions id = some x) (refused : s.verify id = false) :
    t.verify id = false ∧ (x.revokedAt ≠ none → t.sessions id = some x) := by
  have ages : Ages s t := Run.relates (I := fun _ => True) (R := Ages)
    (fun _ => .same (Int.le_refl _) rfl rfl) (fun _ _ _ => Ages.trans) (fun _ _ _ _ _ => trivial)
    (fun _ _ _ _ step => Ages.next step) run trivial
  obtain ⟨y, here, expires, kept⟩ := ages.sessions id x found
  refine ⟨?_, fun revoked => kept revoked ▸ here⟩
  simp only [State.verify, found, here, expires, ages.disabled, Bool.and_eq_false_iff,
    decide_eq_false_iff_not, Int.not_lt] at refused ⊢
  rcases refused with (revoked | expired) | disabled
  · obtain rfl := kept fun absent => by simp [absent] at revoked
    exact .inl (.inl revoked)
  · exact .inl (.inr (Int.le_trans expired ages.clock))
  · exact .inr disabled

/-- A user with one session, logged out at the instant 3. -/
def loggedOut : State ℕ ℕ :=
  ⟨5, ⟨1, some 0, none, none⟩, 0, Function.update (fun _ => none) 0
    (some ⟨SESSION_TTL, some 3, some .logout, 0⟩), fun _ => none, fun _ => none, fun _ => none⟩

theorem logged_out_stays_refused : ∃ t : State ℕ ℕ, t.clock = 9 ∧ t.verify 0 = false := by
  have run : Run (accounts fun hash password => decide (hash = password)) loggedOut
      [.login 0 1, .loginStatement 0 1, .tick 4] _ := run_of_execute rfl
  exact ⟨_, rfl, (refused_session_stays_refused run rfl rfl).1⟩

end Hookubit.Auth.Machine
