/- sources: endpoint-secrets/endpoint-secrets.service.ts, endpoints/endpoints.service.ts enable
   digest: A live endpoint can be signed for at the instant of every call, and later exactly when
     one of its secrets has no expiry. -/

import Hookubit.EndpointSecrets.Machine
import Mathlib.Data.Finset.Dedup
import Mathlib.Data.Finset.Order

set_option autoImplicit false
set_option relaxedAutoImplicit false

namespace Hookubit.EndpointSecrets.Signing

open Automata.LabelledSystem Endpoints.Store EndpointSecrets.Service EndpointSecrets.Machine

/-- Deliveries go to the endpoint. -/
def Live (e : Endpoint) : Prop := e.status = .active ∧ e.enabled = true

instance decidableLive : DecidablePred Live := fun _ => inferInstanceAs (Decidable (_ ∧ _))

variable {Id : Type} [DecidableEq Id] {kind : Id → EndpointSecret Id → Prop} {s t : State Id}
  {a : Op Id}

/-- Every live endpoint has a secret of the given kind. -/
def Covered (kind : Id → EndpointSecret Id → Prop) (s : State Id) : Prop :=
  ∀ id, ∀ e ∈ s.endpoints.lookup id, Live e → ∃ secret ∈ s.secrets.rows, kind id secret

def Signs (now : ℤ) (id : Id) (secret : EndpointSecret Id) : Prop :=
  secret.endpointId = id ∧ isEffectivelyActive now secret = true

/-- Every live endpoint can be signed for at the present instant. -/
def Signable (s : State Id) : Prop := Covered (Signs s.clock) s

def Anchored (s : State Id) : Prop := Covered EndpointSecret.Lasting s

/-- A call that makes an endpoint live, or takes a secret from a live one, finds another secret
without expiry. -/
def Careful (s : State Id) : Op Id → State Id → Prop
  | .enable id, _ => ∃ secret ∈ s.secrets.rows, secret.Lasting id
  | .revoke id secretId, _ => ∀ e ∈ s.endpoints.lookup id, Live e →
      ∃ secret ∈ s.secrets.rows, secret.id ≠ secretId ∧ secret.Lasting id
  | _, _ => True

instance decidableCareful (s : State Id) : ∀ a t, Decidable (Careful s a t)
  | .enable id, _ => inferInstanceAs (Decidable (∃ secret ∈ s.secrets.rows, secret.Lasting id))
  | .revoke id secretId, _ => inferInstanceAs (Decidable (∀ e ∈ s.endpoints.lookup id, Live e →
      ∃ secret ∈ s.secrets.rows, secret.id ≠ secretId ∧ secret.Lasting id))
  | .tick _, _ | .create .., _ | .update .., _ | .disable _, _ | .remove _, _ | .rotate .., _ =>
      isTrue trivial

theorem Covered.withEndpoint {id : Id} {e : Endpoint} (h : Covered kind s)
    (here : Live e → ∃ secret ∈ s.secrets.rows, kind id secret) :
    Covered kind (s.withEndpoint id e) := by
  intro other f found live
  by_cases same : other = id
  · subst same
    obtain rfl : e = f := by simpa [State.withEndpoint] using found
    exact here live
  · rw [State.withEndpoint, AList.lookup_insert_ne same] at found
    exact h other f found live

theorem Covered.withSecrets {table : SecretTable Id} (id : Id)
    (owned : ∀ id secret, kind id secret → secret.endpointId = id) (h : Covered kind s)
    (elsewhere : ∀ secret ∈ s.secrets.rows, secret.endpointId ≠ id → secret ∈ table.rows)
    (here : ∀ e ∈ s.endpoints.lookup id, Live e → ∃ secret ∈ table.rows, kind id secret) :
    Covered kind { s with secrets := table } := by
  intro other e found live
  by_cases same : other = id
  · subst same
    exact here e found live
  · obtain ⟨secret, hs, this⟩ := h other e found live
    exact ⟨secret, elsewhere secret hs (owned other secret this ▸ same), this⟩

theorem not_live_unminted (columns : Columns) (cleaned : Bool) :
    ¬ Live (unminted columns cleaned) := by
  cases cleaned <;> simp [Live, unminted, createData, removeData, EndpointUpdate.apply]

/-- What a call keeps covered by any kind of secret that a fresh one belongs to, as long as its
own checks, or its caller's care, leave one for the endpoint that it enables or revokes from. -/
theorem Covered.call (fresh : ∀ id (secret : EndpointSecret Id), secret.Lasting id → kind id secret)
    (owned : ∀ id secret, kind id secret → secret.endpointId = id) (h : Covered kind s)
    (step : Step s a t)
    (enabling : ∀ id, a = .enable id → ∃ secret ∈ s.secrets.rows, kind id secret)
    (revoking : ∀ id secretId, a = .revoke id secretId → ∀ e ∈ s.endpoints.lookup id, Live e →
      ∃ secret ∈ t.secrets.rows, kind id secret) :
    Covered kind t := by
  cases step with
  | tick forward => exact h
  | unminted free => exact h.withEndpoint fun live => absurd live (not_live_unminted _ _)
  | @minted id _ _ _ _ created table free inserted =>
    obtain ⟨lasting, _, rows⟩ := SecretTable.insertSecret_ok inserted
    have covered : Covered kind { s with secrets := table } :=
      h.withSecrets id owned (fun _ hs _ => rows ▸ List.mem_cons_of_mem _ hs)
        fun _ _ _ => ⟨created, rows ▸ List.mem_cons_self, fresh id created lasting⟩
    exact covered.withEndpoint fun _ =>
      ⟨created, rows ▸ List.mem_cons_self, fresh id created lasting⟩
  | @update id _ _ e found => exact h.withEndpoint (h id e found)
  | @enable id e found live => exact h.withEndpoint fun _ => enabling id rfl
  | disable found => exact h.withEndpoint fun live => nomatch live.1
  | removed found gone => exact h.withEndpoint fun live => nomatch gone.symm.trans live.1
  | remove found => exact h.withEndpoint fun live => nomatch live.1
  | @rotate id _ _ answer table rotated =>
    obtain ⟨_, ⟨mem, lasting⟩, elsewhere⟩ := rotate_ok rotated
    exact h.withSecrets id owned (fun secret hs other => (elsewhere secret other).mpr hs)
      fun _ _ _ => ⟨answer.1, mem, fresh id answer.1 lasting⟩
  | @revoke id secretId _ table revoked =>
    obtain ⟨_, _, rfl, _⟩ := revoke_ok revoked
    exact h.withSecrets id owned
      (fun _ hs other => (SecretTable.mem_updateMany_of_misses (.inl other)).mpr hs)
      (revoking id secretId rfl)

theorem Signable.call (h : Signable s) (step : Step s a t) (same : t.clock = s.clock) :
    Signable t := by
  have covered : Covered (Signs s.clock) t := by
    refine Covered.call (fun id secret lasting => ⟨lasting.1, lasting.isEffectivelyActive _⟩)
      (fun _ _ signs => signs.1) h step ?_ ?_
    · rintro id rfl
      cases step with
      | enable _ live => exact SecretTable.hasLiveSecret_iff.mp live
    · rintro id secretId rfl e found live
      cases step with
      | revoke revoked =>
        obtain ⟨endpoint, row, _, signing⟩ := revoke_ok revoked
        obtain rfl : endpoint = e := Option.some_inj.mp (row.symm.trans found)
        exact SecretTable.assertStillSigning_ok signing (by rw [live.1]; decide)
  rwa [Signable, same]

theorem clock_le_of_step (step : Step s a t) : s.clock ≤ t.clock := by
  cases step with
  | tick forward => exact forward
  | _ => exact le_rfl

/-- A run of calls, of any kind and number, that takes no time leaves every live endpoint with a
signing secret: what a secret is lost to is its expiry, never a call. -/
theorem instant_calls_keep_signable {calls : List (Op Id)} (run : Run signing s calls t)
    (instant : t.clock = s.clock) (h : Signable s) : Signable t := by
  have later : ∀ {s t : State Id} {calls : List (Op Id)}, Run signing s calls t →
      s.clock ≤ t.clock := fun run =>
    Run.relates (I := fun _ => True) (R := fun s t => s.clock ≤ t.clock) (fun _ => le_rfl)
      (fun _ _ _ => le_trans) (fun _ _ _ _ _ => trivial)
      (fun _ _ _ _ edge => clock_le_of_step (next_step edge)) run trivial
  induction run with
  | nil s => exact h
  | cons edge rest ih =>
    have first := clock_le_of_step (next_step edge)
    have second := later rest
    exact ih (by omega) (h.call (next_step edge) (by omega))

theorem Anchored.signable (h : Anchored s) : Signable s := by
  intro id e found live
  obtain ⟨secret, hs, lasting⟩ := h id e found live
  exact ⟨secret, hs, lasting.1, lasting.isEffectivelyActive _⟩

/-- With no further call, every live endpoint stays signed for exactly when each of them has a
secret without expiry. -/
theorem signable_from_now_on_iff :
    (∀ now, s.clock ≤ now → Signable { s with clock := now }) ↔ Anchored s := by
  refine ⟨fun always id e found live => ?_, fun h _ _ => Anchored.signable h⟩
  -- one instant is past every expiry in the table
  obtain ⟨last, bound⟩ := (s.secrets.rows.filterMap EndpointSecret.expiresAt).toFinset.exists_le
  obtain ⟨secret, hs, here, active⟩ := always (max s.clock last) (le_max_left _ _) id e found live
  obtain ⟨on, ahead⟩ := Bool.and_eq_true_iff.mp active
  refine ⟨secret, hs, here, on, Option.eq_none_iff_forall_ne_some.mpr fun expiry hx => ?_⟩
  have early : expiry ≤ last :=
    bound expiry (List.mem_toFinset.mpr (List.mem_filterMap.mpr ⟨secret, hs, hx⟩))
  rw [hx, Option.all_some, decide_eq_true_iff] at ahead
  exact absurd ((le_max_right s.clock last).trans_lt ahead) early.not_gt

theorem Anchored.step (h : Anchored s) (step : Step s a t) (careful : Careful s a t) :
    Anchored t := by
  refine Covered.call (fun _ _ lasting => lasting) (fun _ _ lasting => lasting.1) h step ?_ ?_
  · rintro id rfl
    exact careful
  · rintro id secretId rfl e found live
    obtain ⟨secret, hs, other, lasting⟩ := careful e found live
    cases step with
    | revoke revoked =>
      obtain ⟨_, _, rfl, _⟩ := revoke_ok revoked
      refine ⟨secret, ?_, lasting⟩
      exact (SecretTable.mem_updateMany_of_misses (.inr (by simpa using other))).mpr hs

theorem not_anchored_of_careless (step : Step s a t) (careless : ¬ Careful s a t) :
    ¬ Anchored t := by
  intro anchored
  cases step with
  | @enable id e found live =>
    exact careless (anchored id (enableData.apply e) (by simp [State.withEndpoint]) ⟨rfl, rfl⟩)
  | @revoke id secretId _ table revoked =>
    obtain ⟨_, _, rfl, _⟩ := revoke_ok revoked
    refine careless fun e found live => ?_
    obtain ⟨secret, hs, lasting⟩ := anchored id e found live
    obtain ⟨old, missed⟩ | ⟨q, _, _, rfl⟩ := SecretTable.mem_updateMany.mp hs
    · exact ⟨secret, old, fun same => missed ⟨lasting.1, by simp [same]⟩, lasting⟩
    · exact nomatch lasting.2.1
  | _ => exact careless trivial

/-- In every run of careful calls every live endpoint has a signing secret in every state, and the
first call without that care leaves one that will have none. -/
theorem live_endpoints_stay_signable {s : State Id}
    (reach : Reachable (signing.constrain Careful) s) :
    (∀ id, ∀ e ∈ s.endpoints.lookup id, e.status = .active ∧ e.enabled = true →
      ∃ secret ∈ s.secrets.rows,
        secret.endpointId = id ∧ isEffectivelyActive s.clock secret = true) ∧
      ∀ a t, next s a = some t → ¬ Careful s a t →
        ∃ now u, next t (.tick now) = some u ∧ ¬ Signable u := by
  have anchored : Anchored s := by
    refine reach.invariant (I := Anchored) ?_ ?_
    · rintro s ⟨empty, _⟩ id e found
      simp [empty] at found
    · rintro u a w h ⟨moved, careful⟩
      exact h.step (next_step moved) careful
  refine ⟨anchored.signable, fun a t moved careless => ?_⟩
  have lapses := mt signable_from_now_on_iff.mp
    (not_anchored_of_careless (next_step moved) careless)
  push Not at lapses
  obtain ⟨now, forward, unsigned⟩ := lapses
  exact ⟨now, _, if_pos forward, unsigned⟩

def columns : Columns := ⟨[], [], none, 10000, 5, none, 60, none, none⟩

def project : State ℕ := ⟨0, ∅, .empty⟩

/-- A rotation with an hour of overlap, after which the superseded secret is revoked and the window
closes. -/
def supersededRevoked : List (Op ℕ) :=
  [.create 0 1 true columns true .minted, .rotate 0 2 (some 3600), .revoke 0 1, .tick 3600000]

theorem superseded_secret_may_go :
    ∃ s : State ℕ, Reachable (signing.constrain Careful) s ∧
      (∃ e ∈ s.endpoints.lookup 0, Live e) ∧
      (∀ id, ∀ e ∈ s.endpoints.lookup id, e.status = .active ∧ e.enabled = true →
        ∃ secret ∈ s.secrets.rows,
          secret.endpointId = id ∧ isEffectivelyActive s.clock secret = true) := by
  have run : (execute (fun s a => (next s a).filter fun t => Careful s a t) project
      supersededRevoked).any (fun s => (s.endpoints.lookup 0).any (Live ·)) = true := by
    decide +kernel
  obtain ⟨s, hs, live⟩ := (Option.any_eq_true _ _).mp run
  obtain ⟨e, found, on⟩ := (Option.any_eq_true _ _).mp live
  have reach : Reachable (signing.constrain Careful) s :=
    reachable_constrain_of_execute ⟨rfl, rfl⟩ hs
  exact ⟨s, reach, ⟨e, found, of_decide_eq_true on⟩, (live_endpoints_stay_signable reach).1⟩

/-- The same rotation with the new secret revoked: its only survivor has an hour left. -/
def newestRevoked : List (Op ℕ) :=
  [.create 0 1 true columns true .minted, .rotate 0 2 (some 3600), .revoke 0 2, .tick 3600000]

/-- Before the hour is over it still has that survivor. -/
theorem revoked_newest_signable_at_once : ∃ s : State ℕ, s.clock = 0 ∧ Signable s := by
  have run : Run signing project (newestRevoked.take 3) _ := run_of_execute rfl
  exact ⟨_, rfl, instant_calls_keep_signable run rfl fun _ _ found => nomatch found⟩

theorem revoked_newest_lapses :
    ∃ s : State ℕ, Reachable signing s ∧ ∃ e ∈ s.endpoints.lookup 0,
      e.status = .active ∧ e.enabled = true ∧
        ∀ secret ∈ s.secrets.rows, isEffectivelyActive s.clock secret = false := by
  have run : (execute next project newestRevoked).any (fun s => (s.endpoints.lookup 0).any fun e =>
      decide (e.status = .active ∧ e.enabled = true ∧
        ∀ secret ∈ s.secrets.rows, isEffectivelyActive s.clock secret = false)) = true := by
    decide +kernel
  obtain ⟨s, reach, facts⟩ : ∃ s, Reachable signing s ∧ _ :=
    exists_reachable_of_execute ⟨rfl, rfl⟩ run
  obtain ⟨e, found, unsigned⟩ := (Option.any_eq_true _ _).mp facts
  exact ⟨s, reach, e, found, of_decide_eq_true unsigned⟩

end Hookubit.EndpointSecrets.Signing
