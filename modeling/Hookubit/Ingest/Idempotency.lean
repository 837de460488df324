/- sources: ingest/handler.go (checkIdempotency, persist), ingest/store.go (claimIdempotencySQL,
     CreateEvent), ingest/idempotency.go Decide
   digest: While the record of a key is live, the key has one event and every 202 names it. -/

import Hookubit.Ingest.Moves

/-!
The record of a key is written by the transaction that creates its event, and nothing but a
claim over an expired record replaces it. So a request that has read a live record holds what
is still in the table, however old its reading and whatever its clock says.
-/

set_option autoImplicit false
set_option relaxedAutoImplicit false

namespace Hookubit.Ingest.Idempotency

open Automata.LabelledSystem Data.Rows Ingest.Machine Ingest.Moves Ingest.Store Payloadstore.Keys
open Postgres.Clock

def held (projectID key : Text) (db : Tables) : Option IdempotencyRow :=
  db.idempotencyKeys.find? (·.isFor projectID key)

def eventsFor (projectID key : Text) (db : Tables) : List EventRow :=
  db.events.filter fun e => e.projectID = projectID && e.idempotencyKey = some key

/-- The database clock is short of the expiry of the key's record, if there is one. -/
def Live (projectID key : Text) (s : State) : Prop :=
  ∀ row ∈ held projectID key s.db, s.clock < row.expiresAt

instance (projectID key : Text) (s : State) : Decidable (Live projectID key s) :=
  inferInstanceAs (Decidable (∀ row ∈ held projectID key s.db, s.clock < row.expiresAt))

section Claim

variable {p : CreateEventParams} {now : ℤ} {rows keys : List IdempotencyRow}

private theorem isFor_iff {projectID key : Text} {row : IdempotencyRow} :
    row.isFor projectID key = true ↔ row.projectID = projectID ∧ row.key = key := by
  simp [IdempotencyRow.isFor]

private theorem claim_of_live {row : IdempotencyRow} (named : p.idempotencyKey ≠ [])
    (found : rows.find? (·.isFor p.projectID p.idempotencyKey) = some row)
    (live : now < row.expiresAt) : p.claim now rows = none := by
  simp only [CreateEventParams.claim, if_neg named, claimIdempotencySQL, found]
  exact if_neg (not_le.mpr live)

private theorem claim_of_free (named : p.idempotencyKey ≠ [])
    (free : rows.find? (·.isFor p.projectID p.idempotencyKey) = none)
    (claimed : p.claim now rows = some keys) :
    ∃ row, keys.find? (·.isFor p.projectID p.idempotencyKey) = some row ∧
      row.eventID = some p.eventID ∧ row.requestHash = p.requestHash := by
  simp only [CreateEventParams.claim, if_neg named, claimIdempotencySQL, free,
    Option.some.injEq] at claimed
  subst claimed
  rw [List.find?_append, free]
  simp [IdempotencyRow.isFor]

private theorem find?_claim {projectID key : Text}
    (other : ¬ (p.projectID = projectID ∧ p.idempotencyKey = key))
    (claimed : p.claim now rows = some keys) :
    keys.find? (·.isFor projectID key) = rows.find? (·.isFor projectID key) := by
  have misses : ∀ row : IdempotencyRow, row.projectID = p.projectID → row.key = p.idempotencyKey →
      row.isFor projectID key = false := by
    intro row same_project same_key
    rw [Bool.eq_false_iff, Ne, isFor_iff, same_project, same_key]
    exact other
  simp only [CreateEventParams.claim, claimIdempotencySQL] at claimed
  split at claimed
  · cases claimed; rfl
  split at claimed
  · cases claimed
    rw [List.find?_append, List.find?_singleton, misses _ rfl rfl]
    simp
  · split at claimed
    · cases claimed
      refine find?_updateWhere fun r q written => ?_
      obtain ⟨matched, new⟩ := Option.ite_none_right_eq_some.mp written
      cases new
      obtain ⟨same_project, same_key⟩ := isFor_iff.mp matched
      exact ⟨misses r same_project same_key, misses _ rfl rfl⟩
    · cases claimed

end Claim

section Invariant

variable {setup : Setup} {projectID key : Text}

/-- The key has a record exactly when it has an event, and then one that the record names. -/
def Paired (projectID key : Text) (db : Tables) : Prop :=
  (held projectID key db = none → eventsFor projectID key db = []) ∧
    ∀ row ∈ held projectID key db, ∃ e, eventsFor projectID key db = [e] ∧ row.eventID = some e.id

/-- What a request with the key has read, or answered, is in the key's record. -/
def Told (setup : Setup) (record : Option IdempotencyRow) (r : Request) : Prop :=
  match r.phase with
  | .deciding found | .redeciding found => ∀ seen ∈ found, ∃ row ∈ record, row.record = seen
  | .answered (.ok eventID) =>
      ∃ row ∈ record, row.eventID = some eventID ∧ row.requestHash = setup.hashPayload r.body
  | _ => True

theorem Told.mono {record record' : Option IdempotencyRow} {r : Request}
    (kept : ∀ row ∈ record, row ∈ record') (h : Told setup record r) : Told setup record' r := by
  unfold Told at h ⊢
  split at h
  · intro seen found
    obtain ⟨row, here, same⟩ := h seen found
    exact ⟨row, kept row here, same⟩
  · intro seen found
    obtain ⟨row, here, same⟩ := h seen found
    exact ⟨row, kept row here, same⟩
  · obtain ⟨row, here, same⟩ := h
    exact ⟨row, kept row here, same⟩
  · trivial

section Transaction

variable {p : CreateEventParams} {now : ℤ} {db db' : Tables} {result : Option Bool}

private theorem held_first (named : key ≠ [])
    (same : p.projectID = projectID ∧ p.idempotencyKey = key)
    (live : ∀ row ∈ held projectID key db, now < row.expiresAt) {keys : List IdempotencyRow}
    (claimed : p.claim now db.idempotencyKeys = some keys) :
    held projectID key db = none ∧ ∃ row, keys.find? (·.isFor projectID key) = some row ∧
      row.eventID = some p.eventID ∧ row.requestHash = p.requestHash := by
  obtain ⟨rfl, rfl⟩ := same
  have free : held p.projectID p.idempotencyKey db = none := by
    rw [Option.eq_none_iff_forall_ne_some]
    intro row found
    rw [claim_of_live named found (live row found)] at claimed
    cases claimed
  exact ⟨free, claim_of_free named free claimed⟩

private theorem held_created (named : key ≠ [])
    (live : ∀ row ∈ held projectID key db, now < row.expiresAt)
    (created : Created p now db result db') :
    ∀ row ∈ held projectID key db, row ∈ held projectID key db' := by
  cases created with
  | unchanged _ => exact fun row here => here
  | committed claimed _ =>
    intro row here
    by_cases same : p.projectID = projectID ∧ p.idempotencyKey = key
    · rw [(held_first named same live claimed).1] at here
      cases here
    · exact (find?_claim same claimed).trans here

private theorem eventsFor_append (named : key ≠ []) (keys : List IdempotencyRow)
    (outbox : List OutboxRow) :
    eventsFor projectID key ⟨keys, db.events ++ [p.row now], outbox⟩ =
      eventsFor projectID key db ++
        if p.projectID = projectID ∧ p.idempotencyKey = key then [p.row now] else [] := by
  rw [eventsFor, List.filter_append, ← eventsFor, List.filter_cons]
  -- A request without a key writes null, which no key equals.
  by_cases empty : p.idempotencyKey = []
  · simp [CreateEventParams.row, nullable, empty, Ne.symm named]
  · simp [CreateEventParams.row, nullable, empty]

private theorem paired_created (named : key ≠ [])
    (live : ∀ row ∈ held projectID key db, now < row.expiresAt)
    (paired : Paired projectID key db) (created : Created p now db result db') :
    Paired projectID key db' := by
  cases created with
  | unchanged _ => exact paired
  | @committed keys outbox claimed _ =>
    by_cases same : p.projectID = projectID ∧ p.idempotencyKey = key
    · obtain ⟨free, row, here, names, _⟩ := held_first named same live claimed
      have none_before : eventsFor projectID key db = [] := paired.1 free
      have one : eventsFor projectID key ⟨keys, db.events ++ [p.row now], outbox⟩ =
          [p.row now] := by
        rw [eventsFor_append named, none_before, if_pos same, List.nil_append]
      refine ⟨fun gone => absurd (here.symm.trans gone) (by simp), ?_⟩
      intro row' here'
      obtain rfl : row = row' := Option.some.inj (here.symm.trans here')
      exact ⟨p.row now, one, names⟩
    · have record : held projectID key ⟨keys, db.events ++ [p.row now], outbox⟩ =
          held projectID key db := find?_claim same claimed
      have events : eventsFor projectID key ⟨keys, db.events ++ [p.row now], outbox⟩ =
          eventsFor projectID key db := by
        rw [eventsFor_append named, if_neg same, List.append_nil]
      rw [Paired, record, events]
      exact paired

private theorem record_created (named : key ≠ [])
    (same : p.projectID = projectID ∧ p.idempotencyKey = key)
    (live : ∀ row ∈ held projectID key db, now < row.expiresAt)
    (created : Created p now db (some true) db') :
    ∃ row ∈ held projectID key db', row.eventID = some p.eventID ∧
      row.requestHash = p.requestHash := by
  cases created with
  | unchanged refused => exact absurd rfl refused
  | committed claimed _ =>
    obtain ⟨_, row, here, written⟩ := held_first named same live claimed
    exact ⟨row, here, written⟩

end Transaction

structure Settled (setup : Setup) (projectID key : Text) (s : State) : Prop where
  live : Live projectID key s
  paired : Paired projectID key s.db
  told : ∀ q r, s.requests q = some r → r.projectID = projectID → r.idempotencyKey = key →
    Told setup (held projectID key s.db) r

variable {s t : State} {r : Request}

private theorem told_decided {found : Option IdempotencyRecord} {appNow : ℤ} {proceed : Phase}
    (paired : Paired projectID key s.db)
    (quiet : Told setup (held projectID key s.db) (r.goTo proceed))
    (read : ∀ seen ∈ found, ∃ row ∈ held projectID key s.db, row.record = seen) :
    Told setup (held projectID key s.db)
      (r.goTo (checkIdempotency found (setup.hashPayload r.body) appNow proceed)) := by
  obtain same | ⟨err, same⟩ | ⟨seen, hit, agrees, same⟩ :=
    checkIdempotency_cases found (setup.hashPayload r.body) appNow proceed
  · rw [same]; exact quiet
  · rw [same]; trivial
  · rw [same]
    obtain ⟨row, here, rfl⟩ := read seen hit
    obtain ⟨e, _, names⟩ := paired.2 row here
    refine ⟨row, here, ?_, agrees⟩
    simp [IdempotencyRow.record, names]

private theorem told_thinks {phase : Phase}
    (same : r.projectID = projectID ∧ r.idempotencyKey = key)
    (paired : Paired projectID key s.db) (told : Told setup (held projectID key s.db) r)
    (thinks : Thinks setup s r phase) : Told setup (held projectID key s.db) (r.goTo phase) := by
  have read : ∀ seen ∈ FindIdempotency r.projectID r.idempotencyKey s.db.idempotencyKeys,
      ∃ row ∈ held projectID key s.db, row.record = seen := by
    intro seen found
    rw [same.1, same.2] at found
    exact Option.map_eq_some_iff.mp found
  cases thinks with
  | look _ => exact read
  | lookAgain _ => exact read
  | decide phase => exact told_decided paired trivial (by simpa only [Told, phase] using told)
  | decideAgain phase => exact told_decided paired trivial (by simpa only [Told, phase] using told)
  | lookFails _ | metadataFails _ | create _ | giveUp _ | crash _ => trivial

private theorem told_setRequest {q : ℕ} {record record' : Option IdempotencyRow}
    (kept : ∀ row ∈ record, row ∈ record')
    (told : ∀ q r, s.requests q = some r → r.projectID = projectID → r.idempotencyKey = key →
      Told setup record r)
    (new : r.projectID = projectID → r.idempotencyKey = key → Told setup record' r) :
    ∀ q' r', (s.setRequest q r).requests q' = some r' → r'.projectID = projectID →
      r'.idempotencyKey = key → Told setup record' r' := by
  intro q' r' found project same
  obtain ⟨rfl, rfl⟩ | ⟨_, found⟩ := requests_setRequest found
  · exact new project same
  · exact (told q' r' found project same).mono kept

private theorem settled_step {a : Op} (named : key ≠ []) (h : Settled setup projectID key s)
    (step : Step setup s a t) (live : Live projectID key t) : Settled setup projectID key t := by
  obtain ⟨before, paired, told⟩ := h
  cases step with
  | tick _ | reconcile _ | sweep _ _ | delete _ _ => exact ⟨live, paired, told⟩
  | arrive _ new =>
    refine ⟨live, paired, told_setRequest (fun _ here => here) told ?_⟩
    intro _ _
    obtain rfl | rfl := new <;> trivial
  | think found thinks =>
    refine ⟨live, paired, told_setRequest (fun _ here => here) told ?_⟩
    intro project same
    exact told_thinks (s := s) ⟨project, same⟩ paired (told _ _ found project same) thinks
  | @plan q r eventID put stamp _ _ _ _ =>
    refine ⟨live, paired, told_setRequest (fun _ here => here) told ?_⟩
    intro _ _
    obtain ⟨plan, new⟩ | ⟨err, new⟩ := plan_cases setup r eventID put stamp s.objects
    · rw [Told, new]; trivial
    · rw [Told, new]; trivial
  | commit _ _ minted created outcome =>
    refine ⟨live, paired_created named before paired created,
      told_setRequest (held_created named before created) told fun project same => ?_⟩
    obtain rfl | ⟨rfl, rfl⟩ | ⟨_, rfl⟩ := outcome
    · trivial
    · exact record_created named ⟨project, same⟩ before created
    · trivial
  | dispose _ outcome =>
    refine ⟨live, paired, told_setRequest (fun _ here => here) told ?_⟩
    intro _ _
    obtain ⟨_, rfl⟩ | ⟨_, rfl⟩ := outcome <;> trivial

private theorem settled_start (start : Start setup s) : Settled setup projectID key s := by
  obtain ⟨empty, idle, _⟩ := start
  have free : held projectID key s.db = none := by
    rw [empty]
    rfl
  have unused : eventsFor projectID key s.db = [] := by
    rw [empty]
    rfl
  refine ⟨?_, ⟨fun _ => unused, ?_⟩, ?_⟩
  · intro row here
    rw [free] at here
    cases here
  · intro row here
    rw [free] at here
    cases here
  · intro q r found
    rw [idle q] at found
    cases found

end Invariant

/-- As long as the record of a key has not expired on the database's clock, at most one event
has been created under the key, and every request with the key that was answered with an event
was answered with that one, for the body hash that the record holds. -/
theorem idempotent_ingest (setup : Setup) {projectID key : Text} (named : key ≠ []) {s : State}
    (reach : Reachable ((ingest setup).constrain fun _ _ t => Live projectID key t) s) :
    (eventsFor projectID key s.db).length ≤ 1 ∧
      ∀ q r eventID, s.requests q = some r → r.projectID = projectID → r.idempotencyKey = key →
        r.phase = .answered (.ok eventID) →
          (∃ e, eventsFor projectID key s.db = [e] ∧ e.id = eventID) ∧
          ∃ row, held projectID key s.db = some row ∧
            row.requestHash = setup.hashPayload r.body := by
  have settled : Settled setup projectID key s := by
    refine reach.invariant (I := Settled setup projectID key) ?_ ?_
    · intro s start
      exact settled_start start
    · rintro s a t h ⟨moved, live⟩
      exact settled_step named h (next_step moved) live
  constructor
  · cases record : held projectID key s.db with
    | none => simp [settled.paired.1 record]
    | some row =>
      obtain ⟨e, one, _⟩ := settled.paired.2 row record
      simp [one]
  · intro q r eventID found project same answered
    have told := settled.told q r found project same
    rw [Told, answered] at told
    obtain ⟨row, here, names, agrees⟩ := told
    obtain ⟨e, one, owns⟩ := settled.paired.2 row here
    exact ⟨⟨e, one, Option.some.inj (owns.symm.trans names)⟩, row, here, agrees⟩

/-- Two requests with one key reach their transactions; the one that loses replays the other. -/
theorem lost_race_names_the_winner :
    ∃ s r, Reachable ((ingest smallLimits).constrain fun _ _ t => Live sampleProject ['k'] t) s ∧
      s.requests 1 = some r ∧ r.phase = .answered (.ok (sampleEvent '1')) ∧
      ∃ e, eventsFor sampleProject ['k'] s.db = [e] ∧ e.id = sampleEvent '1' := by
  have reach : Reachable
      ((ingest smallLimits).constrain fun _ _ t => Live sampleProject ['k'] t) _ :=
    reachable_constrain_of_execute (l := upToCommit 0 ['k'] [7] '1' ++ upToCommit 1 ['k'] [7] '2' ++
      [.commit 0 ['a'] true, .commit 1 ['b'] true, .disposeOrphan 1 true, .findIdempotency 1 true,
        .decide 1 0]) start_quiet rfl
  exact ⟨_, _, reach, rfl, rfl,
    ((idempotent_ingest smallLimits (by decide) reach).2 1 _ _ rfl rfl rfl rfl).1⟩

end Hookubit.Ingest.Idempotency
