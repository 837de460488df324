/- sources: endpoint-secrets/endpoint-secrets.service.ts, endpoint-secrets/secret-generator.ts,
     endpoint-secrets/dto/index.ts isEffectivelyActive, prisma/schema.prisma EndpointSecret
   digest: The signing secrets of endpoints and the transactions that rotate and revoke them. -/

import Hookubit.Data.Rows
import Hookubit.Endpoints.Store

set_option autoImplicit false
set_option relaxedAutoImplicit false

namespace Hookubit.EndpointSecrets.Service

open Common.Errors Data.Rows Endpoints.Store

/-- A row of `endpoint_secrets`, with times in milliseconds. No rule here reads the ciphertext. -/
structure EndpointSecret (Id : Type) where
  id : Id
  endpointId : Id
  version : ℕ
  active : Bool
  createdAt : ℤ
  expiresAt : Option ℤ
  rotatedAt : Option ℤ
  deriving DecidableEq

variable {Id : Type} {endpointId : Id} {row : Option Endpoint}

/-- Signing at `now`: the column says so and the expiry, if any, is still ahead. -/
def isEffectivelyActive (now : ℤ) (secret : EndpointSecret Id) : Bool :=
  secret.active && secret.expiresAt.all (now < ·)

/-- An active secret of the endpoint that no clock will stop. -/
def EndpointSecret.Lasting (endpointId : Id) (secret : EndpointSecret Id) : Prop :=
  secret.endpointId = endpointId ∧ secret.active = true ∧ secret.expiresAt = none

theorem EndpointSecret.Lasting.isEffectivelyActive {secret : EndpointSecret Id}
    (h : secret.Lasting endpointId) (now : ℤ) : isEffectivelyActive now secret = true := by
  simp [Service.isEffectivelyActive, h.2.1, h.2.2]

/-- The payload of an `updateMany` on `endpoint_secrets`. -/
structure SecretUpdate where
  active : Option Bool := none
  expiresAt : Option (Option ℤ) := none
  rotatedAt : Option (Option ℤ) := none
  deriving DecidableEq

def SecretUpdate.apply (data : SecretUpdate) (secret : EndpointSecret Id) : EndpointSecret Id :=
  { secret with
    active := data.active.getD secret.active
    expiresAt := data.expiresAt.getD secret.expiresAt
    rotatedAt := data.rotatedAt.getD secret.rotatedAt }

/-- The table, with its primary key and its `@@unique([endpointId, version])`. -/
structure SecretTable (Id : Type) where
  rows : List (EndpointSecret Id)
  keyed : (rows.map EndpointSecret.id).Nodup
  versioned : (rows.map fun secret => (secret.endpointId, secret.version)).Nodup

def SecretTable.empty : SecretTable Id := ⟨[], by simp, by simp⟩

variable [DecidableEq Id]

instance decidableLasting (endpointId : Id) : DecidablePred (EndpointSecret.Lasting endpointId) :=
  fun _ => inferInstanceAs (Decidable (_ ∧ _ ∧ _))

namespace SecretTable

/-- Every row of the endpoint, newest version first. -/
def secretsFor (t : SecretTable Id) (endpointId : Id) : List (EndpointSecret Id) :=
  (t.rows.filter fun secret => decide (secret.endpointId = endpointId)).insertionSort
    fun a b => b.version ≤ a.version

variable {t : SecretTable Id} {endpointId : Id} {secret : EndpointSecret Id} {ids : List Id}
  {data : SecretUpdate}

theorem mem_secretsFor :
    secret ∈ t.secretsFor endpointId ↔ secret ∈ t.rows ∧ secret.endpointId = endpointId := by
  rw [secretsFor, List.mem_insertionSort, List.mem_filter, decide_eq_true_iff]

/-- What `updateMany` with `{ endpointId, id: { in: ids } }` does to one row. -/
def patch (endpointId : Id) (ids : List Id) (data : SecretUpdate) (secret : EndpointSecret Id) :
    Option (EndpointSecret Id) :=
  if secret.endpointId = endpointId ∧ secret.id ∈ ids then some (data.apply secret) else none

theorem patch_eq_some {q : EndpointSecret Id} : patch endpointId ids data secret = some q ↔
      (secret.endpointId = endpointId ∧ secret.id ∈ ids) ∧ data.apply secret = q := by
  rw [patch, Option.ite_none_right_eq_some, Option.some_inj]

def updateMany (t : SecretTable Id) (endpointId : Id) (ids : List Id) (data : SecretUpdate) :
    SecretTable Id where
  rows := updateWhere (patch endpointId ids data) t.rows
  keyed := by
    rw [map_updateWhere]
    · exact t.keyed
    · intro secret _ q hq
      obtain ⟨_, rfl⟩ := patch_eq_some.mp hq
      rfl
  versioned := by
    rw [map_updateWhere]
    · exact t.versioned
    · intro secret _ q hq
      obtain ⟨_, rfl⟩ := patch_eq_some.mp hq
      rfl

/-- An INSERT, refused on either key. -/
def insert (t : SecretTable Id) (secret : EndpointSecret Id) : Option (SecretTable Id) :=
  if h : secret.id ∉ t.rows.map EndpointSecret.id ∧
      (secret.endpointId, secret.version) ∉ t.rows.map fun q => (q.endpointId, q.version) then
    some ⟨secret :: t.rows, List.nodup_cons.mpr ⟨h.1, t.keyed⟩,
      List.nodup_cons.mpr ⟨h.2, t.versioned⟩⟩
  else none

theorem rows_insert {t' : SecretTable Id} (h : t.insert secret = some t') :
    t'.rows = secret :: t.rows ∧ secret.id ∉ t.rows.map EndpointSecret.id := by
  obtain ⟨fresh, ⟨⟩⟩ := Option.dite_none_right_eq_some.mp h
  exact ⟨rfl, fresh.1⟩

theorem mem_updateMany : secret ∈ (t.updateMany endpointId ids data).rows ↔
      (secret ∈ t.rows ∧ ¬ (secret.endpointId = endpointId ∧ secret.id ∈ ids)) ∨
        ∃ q ∈ t.rows, (q.endpointId = endpointId ∧ q.id ∈ ids) ∧ data.apply q = secret :=
  mem_updateWhere_ite

theorem mem_updateMany_of_misses (misses : secret.endpointId ≠ endpointId ∨ secret.id ∉ ids) :
    secret ∈ (t.updateMany endpointId ids data).rows ↔ secret ∈ t.rows := by
  have missed : ¬ (secret.endpointId = endpointId ∧ secret.id ∈ ids) := not_and_or.mpr misses
  rw [mem_updateMany, and_iff_left missed]
  -- an update moves neither column of the WHERE clause
  refine or_iff_left ?_
  rintro ⟨q, _, hit, rfl⟩
  exact missed hit

end SecretTable

def rotateDeleted : AppError where
  code := .conflict
  message := "This endpoint is deleted. Rotating a secret for it would create a credential " ++
    "nothing can use."

def concurrentRotation : AppError where
  code := .conflict
  message := "Another rotation for this endpoint is in progress. Retry the request."

def lastSecret : AppError where
  code := .conflict
  message := "This is the only secret currently signing for this endpoint. Removing it would " ++
    "make every delivery fail unsigned. Rotate instead - use an overlap of 0 seconds if this " ++
    "secret has leaked and must stop signing immediately."

def notSigning : AppError where
  code := .internalError
  message := "Refusing to commit: this would have left an active endpoint with no signing " ++
    "secret, and every delivery to it would fail closed. Nothing was changed."

def DEFAULT_OVERLAP_SECONDS : ℤ := 24 * 60 * 60
def MIN_OVERLAP_SECONDS : ℤ := 0
def MAX_OVERLAP_SECONDS : ℤ := 30 * 24 * 60 * 60

/-- What `RotateSecretDto` lets through; a body without the field is a default rotation. -/
def OverlapAccepted (overlap : Option ℤ) : Prop :=
  ∀ seconds ∈ overlap, MIN_OVERLAP_SECONDS ≤ seconds ∧ seconds ≤ MAX_OVERLAP_SECONDS

instance decidableOverlapAccepted : DecidablePred OverlapAccepted := fun overlap =>
  inferInstanceAs (Decidable (∀ seconds ∈ overlap, _))

def requireEndpoint (row : Option Endpoint) : Except AppError Endpoint :=
  match row with
  | none => .error resourceNotFound
  | some endpoint => .ok endpoint

def requireRotatable (row : Option Endpoint) : Except AppError Endpoint := do
  let endpoint ← requireEndpoint row
  if endpoint.status = .deleted then .error rotateDeleted else .ok endpoint

namespace SecretTable

/-- The endpoint's next secret: active, without expiry, one version on. -/
def newSecret (endpointId : Id) (existing : List (EndpointSecret Id)) (now : ℤ) (id : Id) :
    EndpointSecret Id where
  id := id
  endpointId := endpointId
  version := existing.foldl (fun highest secret => max highest secret.version) 0 + 1
  active := true
  createdAt := now
  expiresAt := none
  rotatedAt := none

/-- A collision on either key is reported as a conflict. -/
def insertSecret (t : SecretTable Id) (endpointId : Id) (existing : List (EndpointSecret Id))
    (now : ℤ) (id : Id) : Except AppError (EndpointSecret Id × SecretTable Id) :=
  match t.insert (newSecret endpointId existing now id) with
  | none => .error concurrentRotation
  | some t' => .ok (newSecret endpointId existing now id, t')

def hasLiveSecret (t : SecretTable Id) (endpointId : Id) (now : ℤ) : Bool :=
  t.rows.any fun secret => decide (secret.endpointId = endpointId) && isEffectivelyActive now secret

/-- A deleted endpoint has nothing to sign. -/
def assertStillSigning (t : SecretTable Id) (endpointId : Id) (endpoint : Endpoint) (now : ℤ) :
    Except AppError Unit :=
  if endpoint.status = .deleted ∨ (t.secretsFor endpointId).any (isEffectivelyActive now) then
    .ok ()
  else .error notSigning

/-- Secrets whose window closed before the call; an empty list of ids matches no row. -/
def sweepExpired (t : SecretTable Id) (endpointId : Id) (secrets : List (EndpointSecret Id))
    (now : ℤ) : SecretTable Id :=
  let stale := secrets.filter fun secret => secret.active && secret.expiresAt.any (· ≤ now)
  t.updateMany endpointId (stale.map EndpointSecret.id) { active := some false }

end SecretTable

/-- The live secrets that a rotation puts a nearer end to. -/
def extended (liveBefore : List (EndpointSecret Id)) (expiresAt : ℤ) : List (EndpointSecret Id) :=
  liveBefore.filter fun secret => secret.expiresAt.all (expiresAt < ·)

/-- What `rotate` does to the secrets that were there before it. -/
def SecretTable.retire (t : SecretTable Id) (endpointId : Id)
    (existing : List (EndpointSecret Id)) (expiresAt now : ℤ) : SecretTable Id :=
  let liveBefore := existing.filter (isEffectivelyActive now)
  (t.updateMany endpointId ((extended liveBefore expiresAt).map EndpointSecret.id)
    { expiresAt := some (some expiresAt), rotatedAt := some (some now) }).sweepExpired
      endpointId existing now

/-- The prior versions that a rotation reports as still signing, and when the last one stops. -/
structure StillSigning where
  versions : List ℕ
  stopsAt : Option ℤ
  deriving DecidableEq

def stillSigningAfter (liveBefore : List (EndpointSecret Id)) (extendedIds : List Id)
    (newExpiry now : ℤ) : StillSigning :=
  let surviving := (liveBefore.map fun secret =>
    (secret.version,
      if secret.id ∈ extendedIds then newExpiry else secret.expiresAt.getD 0)).filter
        fun p => decide (now < p.2)
  ⟨(surviving.map Prod.fst).insertionSort (· ≥ ·), (surviving.map Prod.snd).max?⟩

/-- The transaction of `rotate`. The answer is the new row and the report on the old ones. -/
def rotate (endpointId : Id) (row : Option Endpoint) (overlap : Option ℤ) (now : ℤ) (id : Id)
    (t : SecretTable Id) :
    Except AppError ((EndpointSecret Id × StillSigning) × SecretTable Id) := do
  let endpoint ← requireRotatable row
  let created ← t.insertSecret endpointId (t.secretsFor endpointId) now id
  let expiresAt := now + overlap.getD DEFAULT_OVERLAP_SECONDS * 1000
  let table := created.2.retire endpointId (t.secretsFor endpointId) expiresAt now
  table.assertStillSigning endpointId endpoint now
  let liveBefore := (t.secretsFor endpointId).filter (isEffectivelyActive now)
  .ok ((created.1,
    stillSigningAfter liveBefore ((extended liveBefore expiresAt).map EndpointSecret.id) expiresAt
      now), table)

/-- `revoke` reads the target among the endpoint's own secrets. -/
def requireSecret (secrets : List (EndpointSecret Id)) (secretId : Id) :
    Except AppError (EndpointSecret Id) :=
  match secrets.find? fun secret => decide (secret.id = secretId) with
  | none => .error resourceNotFound
  | some target => .ok target

/-- The survivors are counted at `now`; when their own windows close is not looked at. -/
def assertSurvivors (secrets : List (EndpointSecret Id)) (secretId : Id) (endpoint : Endpoint)
    (now : ℤ) : Except AppError Unit :=
  if (secrets.filter fun secret => decide (secret.id ≠ secretId) &&
    isEffectivelyActive now secret) =
      [] ∧ endpoint.status ≠ .deleted then
    .error lastSecret
  else .ok ()

def revokeData (now : ℤ) : SecretUpdate :=
  { active := some false, expiresAt := some (some now), rotatedAt := some (some now) }

def revoke (endpointId : Id) (row : Option Endpoint) (secretId : Id) (now : ℤ)
    (t : SecretTable Id) : Except AppError (EndpointSecret Id × SecretTable Id) := do
  let endpoint ← requireEndpoint row
  let target ← requireSecret (t.secretsFor endpointId) secretId
  assertSurvivors (t.secretsFor endpointId) secretId endpoint now
  let table := t.updateMany endpointId [secretId] (revokeData now)
  table.assertStillSigning endpointId endpoint now
  .ok ((revokeData now).apply target, table)

theorem requireEndpoint_ok {endpoint : Endpoint} (h : requireEndpoint row = .ok endpoint) :
    row = some endpoint := by
  cases row with
  | none => cases h
  | some e =>
    obtain ⟨⟩ := h
    rfl

theorem requireRotatable_ok {endpoint : Endpoint} (h : requireRotatable row = .ok endpoint) :
    row = some endpoint ∧ endpoint.status ≠ .deleted := by
  obtain ⟨e, found, h⟩ := bind_eq_ok.mp h
  split at h
  · cases h
  · rename_i kept
    obtain ⟨⟩ := h
    exact ⟨requireEndpoint_ok found, kept⟩

namespace SecretTable

variable {t : SecretTable Id} {endpointId : Id} {now : ℤ}

theorem insertSecret_ok {t' : SecretTable Id} {id : Id} {existing : List (EndpointSecret Id)}
    {created : EndpointSecret Id}
    (h : t.insertSecret endpointId existing now id = .ok (created, t')) :
    created.Lasting endpointId ∧ created.id ∉ t.rows.map EndpointSecret.id ∧
      t'.rows = created :: t.rows := by
  unfold insertSecret at h
  split at h
  · cases h
  · rename_i inserted
    obtain ⟨⟩ := h
    obtain ⟨rows, fresh⟩ := rows_insert inserted
    exact ⟨⟨rfl, rfl, rfl⟩, fresh, rows⟩

theorem assertStillSigning_ok {endpoint : Endpoint}
    (h : t.assertStillSigning endpointId endpoint now = .ok ())
      (kept : endpoint.status ≠ .deleted) :
    ∃ secret ∈ t.rows, secret.endpointId = endpointId ∧ isEffectivelyActive now secret = true := by
  unfold assertStillSigning at h
  split at h
  · rename_i signing
    obtain ⟨secret, hs, live⟩ := List.any_eq_true.mp (signing.resolve_left kept)
    obtain ⟨mem, here⟩ := mem_secretsFor.mp hs
    exact ⟨secret, mem, here, live⟩
  · cases h

theorem hasLiveSecret_iff : t.hasLiveSecret endpointId now = true ↔
      ∃ secret ∈ t.rows, secret.endpointId = endpointId ∧
        isEffectivelyActive now secret = true := by
  simp [hasLiveSecret]

theorem mem_retire_of_misses {existing : List (EndpointSecret Id)} {expiresAt : ℤ}
    {secret : EndpointSecret Id}
    (misses : secret.endpointId ≠ endpointId ∨ secret.id ∉ existing.map EndpointSecret.id) :
    secret ∈ (t.retire endpointId existing expiresAt now).rows ↔ secret ∈ t.rows := by
  have among (chosen : List (EndpointSecret Id)) (sub : chosen.Sublist existing) :
      secret.endpointId ≠ endpointId ∨ secret.id ∉ chosen.map EndpointSecret.id :=
    misses.imp_right fun absent found => absent ((sub.map _).subset found)
  refine (mem_updateMany_of_misses (among _ List.filter_sublist)).trans
    (mem_updateMany_of_misses (among _ ?_))
  exact List.filter_sublist.trans List.filter_sublist

end SecretTable

theorem rotate_ok {id : Id} {overlap : Option ℤ} {now : ℤ} {t t' : SecretTable Id}
    {answer : EndpointSecret Id × StillSigning}
    (h : rotate endpointId row overlap now id t = .ok (answer, t')) :
    (∃ endpoint, row = some endpoint ∧ endpoint.status ≠ .deleted) ∧
      (answer.1 ∈ t'.rows ∧ answer.1.Lasting endpointId) ∧
      ∀ secret : EndpointSecret Id, secret.endpointId ≠ endpointId →
        (secret ∈ t'.rows ↔ secret ∈ t.rows) := by
  obtain ⟨endpoint, required, h⟩ := bind_eq_ok.mp h
  obtain ⟨⟨created, inserted⟩, insertion, h⟩ := bind_eq_ok.mp h
  obtain ⟨_, _, ⟨⟩⟩ := bind_eq_ok.mp h
  obtain ⟨lasting, fresh, rows⟩ := SecretTable.insertSecret_ok insertion
  refine ⟨⟨endpoint, requireRotatable_ok required⟩, ⟨?_, lasting⟩, ?_⟩
  · refine (SecretTable.mem_retire_of_misses (.inr fun found => fresh ?_)).mpr
      (rows ▸ List.mem_cons_self)
    exact List.map_subset _ (fun _ hs => (SecretTable.mem_secretsFor.mp hs).1) found
  · intro secret elsewhere
    rw [SecretTable.mem_retire_of_misses (.inl elsewhere), rows, List.mem_cons]
    exact or_iff_right fun same => elsewhere (same ▸ lasting.1)

theorem revoke_ok {secretId : Id} {now : ℤ} {t t' : SecretTable Id} {answer : EndpointSecret Id}
    (h : revoke endpointId row secretId now t = .ok (answer, t')) :
    ∃ endpoint, row = some endpoint ∧ t' = t.updateMany endpointId [secretId] (revokeData now) ∧
      t'.assertStillSigning endpointId endpoint now = .ok () := by
  obtain ⟨endpoint, required, h⟩ := bind_eq_ok.mp h
  obtain ⟨target, _, h⟩ := bind_eq_ok.mp h
  obtain ⟨_, _, h⟩ := bind_eq_ok.mp h
  obtain ⟨_, signing, ⟨⟩⟩ := bind_eq_ok.mp h
  exact ⟨endpoint, requireEndpoint_ok required, rfl, signing⟩

end Hookubit.EndpointSecrets.Service
