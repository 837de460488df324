/- sources: auth/auth.service.ts (login, resetPassword), auth/session.service.ts
   digest: Which sessions survive a completed password reset, and when none of the old ones does. -/

import Hookubit.Auth.Machine

set_option autoImplicit false
set_option relaxedAutoImplicit false

namespace Hookubit.Auth.PasswordReset

open Automata.LabelledSystem Auth.Machine

variable {Password Hash : Type}

/-- The revision that a reset's new hash began, once it is written. -/
def began : Reset Hash → Option ℕ
  | .readUser _ | .update _ => none
  | .revokeOutstanding k | .revokeAllForUser k | .audit k | .completed k => some k

def swept : Reset Hash → Option ℕ
  | .audit k | .completed k => some k
  | _ => none

theorem began_of_swept {p : Reset Hash} {k : ℕ} (h : swept p = some k) : began p = some k := by
  cases p with
  | audit _ | completed _ => exact h
  | _ => cases h

/-- After a completed reset no session is accepted whose login had verified against an earlier
hash. -/
def SignedOut (s : State Password Hash) : Prop :=
  ∀ n k, s.resets n = some (.completed k) → ∀ id x, s.sessions id = some x → x.revision < k →
    s.verify id = false

/-- A reset revokes the sessions only when no login is still on its way that had verified against
an earlier hash. -/
def Drained (s : State Password Hash) : Op Password Hash → State Password Hash → Prop
  | .resetStatement n, _ => ∀ k, s.resets n = some (.revokeAllForUser k) →
      ∀ m l r, s.logins m = some l → l.read = some r → k ≤ r
  | _, _ => True

/-- What a reset that has revoked the sessions leaves behind it, for good. -/
structure Swept (s : State Password Hash) : Prop where
  begun : ∀ n p k, s.resets n = some p → began p = some k → k ≤ s.revision
  login : ∀ n p k, s.resets n = some p → swept p = some k →
    ∀ m l r, s.logins m = some l → l.read = some r → k ≤ r
  session : ∀ n p k, s.resets n = some p → swept p = some k →
    ∀ id x, s.sessions id = some x → x.revision < k → x.revokedAt.isSome = true

namespace Swept

variable {s : State Password Hash}

theorem withLogin (h : Swept s) {n : ℕ} {new : Option (Login Password)}
    (late : ∀ l ∈ new, ∀ r, l.read = some r →
      (∃ m old, s.logins m = some old ∧ old.read = some r) ∨ r = s.revision) :
    Swept (s.withLogin n new) := by
  refine ⟨h.begun, fun i p k hp hk m l r hl hr => ?_, h.session⟩
  by_cases same : m = n
  · subst same
    have here : l ∈ new := by simpa [State.withLogin] using hl
    obtain ⟨m', old, ho, hr'⟩ | rfl := late l here r hr
    · exact h.login i p k hp hk m' old r ho hr'
    · exact h.begun i p k hp (began_of_swept hk)
  · exact h.login i p k hp hk m l r (by simpa [State.withLogin, same] using hl) hr

theorem withReset (h : Swept s) {n : ℕ} {new : Option (Reset Hash)}
    (begun : ∀ p ∈ new, ∀ k, began p = some k → k ≤ s.revision)
    (login : ∀ p ∈ new, ∀ k, swept p = some k →
      ∀ m l r, s.logins m = some l → l.read = some r → k ≤ r)
    (session : ∀ p ∈ new, ∀ k, swept p = some k →
      ∀ id x, s.sessions id = some x → x.revision < k → x.revokedAt.isSome = true) :
    Swept (s.withReset n new) := by
  have old {m : ℕ} {p : Reset Hash} (hm : (s.withReset n new).resets m = some p) (other : m ≠ n) :
      s.resets m = some p := by simpa [State.withReset, other] using hm
  have fresh {p : Reset Hash} (hn : (s.withReset n new).resets n = some p) : p ∈ new := by
    simpa [State.withReset] using hn
  refine ⟨fun m p k hp => ?_, fun m p k hp => ?_, fun m p k hp => ?_⟩
  all_goals by_cases same : m = n
  · exact begun p (fresh (same ▸ hp)) k
  · exact h.begun m p k (old hp same)
  · exact login p (fresh (same ▸ hp)) k
  · exact h.login m p k (old hp same)
  · exact session p (fresh (same ▸ hp)) k
  · exact h.session m p k (old hp same)

theorem dropReset (h : Swept s) (n : ℕ) : Swept (s.withReset n none) :=
  h.withReset (by simp) (by simp) (by simp)

end Swept

theorem revoke_facts (x : Session) (now : ℤ) (reason : SessionRevocationReason) :
    (x.revoke now reason).revision = x.revision ∧
      (x.revoke now reason).revokedAt.isSome = true := by
  unfold Session.revoke
  split
  · exact ⟨rfl, rfl⟩
  · rename_i already
    exact ⟨rfl, by simpa [Option.isSome_iff_ne_none] using already⟩

variable {s : State Password Hash}

theorem of_revokeWhere {p : ℕ → Bool} {reason : SessionRevocationReason}
    {id : ℕ} {x : Session} (h : (s.revokeWhere p reason).sessions id = some x) :
    ∃ y, s.sessions id = some y ∧ x.revision = y.revision ∧
      (p id = true ∨ y.revokedAt.isSome = true → x.revokedAt.isSome = true) := by
  obtain ⟨y, hy, rfl⟩ := Option.map_eq_some_iff.mp h
  refine ⟨y, hy, ?_⟩
  split
  · exact ⟨(revoke_facts y _ _).1, fun _ => (revoke_facts y _ _).2⟩
  · rename_i other
    exact ⟨rfl, fun h => h.resolve_left other⟩

theorem Swept.revokeWhere (h : Swept s) (p : ℕ → Bool)
    (reason : SessionRevocationReason) : Swept (s.revokeWhere p reason) := by
  refine ⟨h.begun, h.login, fun n q k hq hk id x hx hr => ?_⟩
  obtain ⟨y, hy, same, revoked⟩ := of_revokeWhere hx
  exact revoked (.inr (h.session n q k hq hk id y hy (same ▸ hr)))

variable {verify : Hash → Password → Bool} {s t : State Password Hash}

theorem Swept.loginStatement {n sessionId : ℕ} {l : Login Password}
    (h : Swept s) (here : s.logins n = some l)
    (step : s.loginStatement verify n sessionId l = some t) : Swept t := by
  cases l with
  | readUser password =>
    obtain ⟨⟩ := step
    refine h.withLogin fun l hl r hr => .inr ?_
    unfold State.checkPassword at hl
    split_ifs at hl
    any_goals cases hl
    exact (Option.some.inj hr).symm
  | updateLastLogin r =>
    obtain ⟨⟩ := step
    have moved : Swept (s.withLogin n (some (.audit r))) := h.withLogin fun l hl r' hr =>
      .inl ⟨n, _, here, by obtain ⟨⟩ := hl; exact hr⟩
    exact ⟨moved.begun, moved.login, moved.session⟩
  | audit r =>
    obtain ⟨⟩ := step
    exact h.withLogin fun l hl r' hr => .inl ⟨n, _, here, by obtain ⟨⟩ := hl; exact hr⟩
  | issue r =>
    obtain ⟨_, ⟨⟩⟩ := Option.ite_none_left_eq_some.mp step
    have ended : Swept (s.withLogin n none) := h.withLogin (by simp)
    refine ⟨ended.begun, ended.login, fun i p k hp hk id x hx old => ?_⟩
    by_cases same : id = sessionId
    · -- the new session comes from a login that was no longer early
      subst same
      obtain rfl : s.newSession r = x := by simpa using hx
      have := h.login i p k hp hk n _ r here rfl
      exact absurd old (Nat.not_lt.mpr this)
    · exact h.session i p k hp hk id x (by simpa [same] using hx) old

theorem Swept.resetStatement {n : ℕ} {p : Reset Hash} (h : Swept s) (here : s.resets n = some p)
    (ok : ∀ k, s.resets n = some (.revokeAllForUser k) →
      ∀ m l r, s.logins m = some l → l.read = some r → k ≤ r)
    (step : s.resetStatement n p = some t) : Swept t := by
  cases p with
  | readUser hash =>
    rw [State.resetStatement] at step
    split at step <;> obtain ⟨⟩ := step
    · exact h.dropReset n
    · exact h.withReset (by simp [began]) (by simp [swept]) (by simp [swept])
  | update hash =>
    obtain ⟨⟩ := step
    have later : Swept { s with revision := s.revision + 1 } :=
      ⟨fun i p k hp hk => Nat.le_succ_of_le (h.begun i p k hp hk), h.login, h.session⟩
    have moved : Swept (({ s with revision := s.revision + 1 } : State Password Hash).withReset n
        (some (.revokeOutstanding (s.revision + 1)))) :=
      later.withReset (by simp [began]) (by simp [swept]) (by simp [swept])
    exact ⟨moved.begun, moved.login, moved.session⟩
  | revokeOutstanding k =>
    obtain ⟨⟩ := step
    refine h.withReset (fun p hp j hj => ?_) (by simp [swept]) (by simp [swept])
    obtain ⟨⟩ := hp
    exact h.begun n _ j here hj
  | revokeAllForUser k =>
    obtain ⟨⟩ := step
    refine (h.revokeWhere (fun _ => true) .passwordReset).withReset ?_ ?_ ?_
    all_goals
      intro p hp j hj
      obtain ⟨⟩ := hp
    · exact h.begun n _ j here hj
    · obtain ⟨⟩ := hj
      exact ok k here
    · intro id x hx _
      obtain ⟨_, _, _, revoked⟩ := of_revokeWhere hx
      exact revoked (.inl rfl)
  | audit k =>
    obtain ⟨⟩ := step
    refine h.withReset ?_ ?_ ?_
    all_goals
      intro p hp j hj
      obtain ⟨⟩ := hp
    · exact h.begun n _ j here hj
    · exact h.login n _ j here hj
    · exact h.session n _ j here hj
  | completed k => cases step

theorem Swept.next {a : Op Password Hash} (h : Swept s)
    (step : next verify s a = some t) (ok : Drained s a t) : Swept t := by
  cases a with
  | tick d =>
    obtain ⟨⟩ := step
    exact ⟨h.begun, h.login, h.session⟩
  | login n password =>
    obtain ⟨⟩ := step
    exact h.withLogin (by simp [Login.read])
  | loginStatement n sessionId =>
    obtain ⟨l, here, step⟩ := Option.bind_eq_some_iff.mp step
    exact h.loginStatement here step
  | loginFails n =>
    obtain ⟨⟩ := step
    exact h.withLogin (by simp)
  | logout n sessionId =>
    obtain ⟨⟩ := step
    exact ⟨h.begun, h.login, h.session⟩
  | revoke n succeeds =>
    obtain ⟨sessionId, _, rfl⟩ := Option.map_eq_some_iff.mp step
    have ended : Swept { s with logouts := Function.update s.logouts n none } :=
      ⟨h.begun, h.login, h.session⟩
    dsimp only
    split
    · exact ended.revokeWhere _ _
    · exact ended
  | resetPassword n consumed hash =>
    obtain ⟨_, ⟨⟩⟩ := Option.ite_none_right_eq_some.mp step
    exact h.withReset (by simp [began]) (by simp [swept]) (by simp [swept])
  | resetStatement n =>
    obtain ⟨p, here, step⟩ := Option.bind_eq_some_iff.mp step
    exact h.resetStatement here ok step
  | resetFails n =>
    rw [Machine.next] at step
    split at step
    any_goals cases step
    exact h.dropReset n

/-- In every run in which resets revoke only when the earlier logins have drained, a completed
reset has signed the user out everywhere. -/
theorem reset_signs_out_when_drained
    (reach : Reachable ((accounts verify).constrain Drained) s) : SignedOut s := by
  have kept : Swept s := by
    refine reach.invariant ?_ fun _ _ _ h edge => h.next edge.1 edge.2
    rintro s ⟨_, _, _, none_begun⟩
    exact ⟨by simp [none_begun], by simp [none_begun], by simp [none_begun]⟩
  intro n k completed id x hx old
  have revoked := kept.session n _ k completed rfl id x hx old
  rw [State.verify, hx]
  simp [Option.isSome_iff_ne_none.mp revoked]

def account : State ℕ ℕ :=
  ⟨0, ⟨1, some 0, none, none⟩, 0, fun _ => none, fun _ => none, fun _ => none, fun _ => none⟩

def samePassword (hash password : ℕ) : Bool := decide (hash = password)

def resetting : List (Op ℕ ℕ) :=
  [.resetPassword 0 true 2, .resetStatement 0, .resetStatement 0, .resetStatement 0,
    .resetStatement 0, .resetStatement 0]

theorem fresh_account : Fresh account := ⟨fun _ => rfl, fun _ => rfl, fun _ => rfl, fun _ => rfl⟩

/-- The login reads the user before the reset and issues its session after it. -/
theorem login_outlives_reset :
    ∃ s : State ℕ ℕ, Reachable (accounts samePassword) s ∧ ¬SignedOut s := by
  have run : (execute (next samePassword) account ([.login 0 1, .loginStatement 0 0] ++ resetting ++
      [.loginStatement 0 0, .loginStatement 0 0, .loginStatement 0 0])).any (fun s =>
        decide (s.resets 0 = some (.completed 1)) &&
        decide (s.sessions 0 = some ⟨SESSION_TTL, none, none, 0⟩) && s.verify 0) = true := by
    decide +kernel
  obtain ⟨s, reach, facts⟩ := exists_reachable_of_execute fresh_account run
  simp only [Bool.and_eq_true, decide_eq_true_eq] at facts
  obtain ⟨⟨completed, session⟩, accepted⟩ := facts
  refine ⟨s, reach, fun out => ?_⟩
  have refused := out 0 1 completed 0 _ session (by decide)
  rw [accepted] at refused
  cases refused

def loggingIn : List (Op ℕ ℕ) :=
  [.login 0 1, .loginStatement 0 0, .loginStatement 0 0, .loginStatement 0 0, .loginStatement 0 0]

theorem reachable_of_resets {s t : State ℕ ℕ} {l : List (Op ℕ ℕ)}
    (reach : Reachable ((accounts samePassword).constrain Drained) s)
    (quiet : ∀ m, s.logins m = none)
    (labels : ∀ a ∈ l, a = .resetStatement 0 ∨ a = .resetPassword 0 true 2)
    (run : execute (next samePassword) s l = some t) :
    Reachable ((accounts samePassword).constrain Drained) t := by
  induction l generalizing s with
  | nil =>
    obtain rfl : s = t := by simpa [execute] using run
    exact reach
  | cons a l ih =>
    obtain ⟨m, hm, rest⟩ := Option.bind_eq_some_iff.mp run
    have ok : Drained s a m := by
      obtain rfl | rfl := labels a List.mem_cons_self
      · intro k _ m l r hl
        rw [quiet m] at hl
        cases hl
      · trivial
    have same : m.logins = s.logins := by
      obtain rfl | rfl := labels a List.mem_cons_self
      · obtain ⟨p, _, step⟩ := Option.bind_eq_some_iff.mp hm
        cases p <;> simp only [State.resetStatement] at step
        case readUser => split at step <;> (obtain ⟨⟩ := step; rfl)
        case completed => cases step
        all_goals
          obtain ⟨⟩ := step
          rfl
      · obtain ⟨_, ⟨⟩⟩ := Option.ite_none_right_eq_some.mp hm
        rfl
    exact ih (reach.step ⟨hm, ok⟩) (by simpa [same] using quiet)
      (fun b hb => labels b (List.mem_cons_of_mem _ hb)) rest

/-- A login that has issued its session before the reset is signed out by it. -/
theorem finished_login_is_signed_out :
    ∃ s : State ℕ ℕ, (∃ x, s.sessions 0 = some x ∧ x.revision < 1) ∧
      s.resets 0 = some (.completed 1) ∧ SignedOut s := by
  let s₀ : State ℕ ℕ := (execute (next samePassword) account loggingIn).getD account
  have login : execute (next samePassword) account loggingIn = some s₀ := rfl
  have quiet : ∀ m, s₀.logins m = none := by
    intro m
    cases m <;> rfl
  have harmless : ∀ (s : State ℕ ℕ) (a : Op ℕ ℕ) (t : State ℕ ℕ),
      (match a with | .resetStatement _ => False | _ => True) → Drained s a t := by
    intro s a t ha
    cases a <;> first | exact ha.elim | trivial
  have reach : Reachable ((accounts samePassword).constrain Drained) s₀ :=
    (Reachable.start fresh_account).constrain_of_execute harmless (by simp [loggingIn]) login
  have run : (execute (next samePassword) s₀ resetting).any (fun s =>
      decide (s.resets 0 = some (.completed 1)) &&
        (s.sessions 0).any fun x => decide (x.revision < 1)) = true := by
    decide +kernel
  obtain ⟨s, hs, facts⟩ := (Option.any_eq_true _ _).mp run
  simp only [Bool.and_eq_true, decide_eq_true_eq, Option.any_eq_true] at facts
  have resets := reachable_of_resets reach quiet (by simp [resetting]) hs
  exact ⟨s, facts.2, facts.1, reset_signs_out_when_drained resets⟩

end Hookubit.Auth.PasswordReset
