/- sources: ingest/handler.go persist, ingest/payload.go (PlanPayload, DisposeOrphan),
     payloadstore/reconcile.go Reconcile
   digest: Neither compensating deletes nor sweeps take the payload of a committed event. -/

import Hookubit.Ingest.Minting

/-!
An object is deleted by the request that uploaded it, once that request can no longer commit,
and by a sweep. A sweep looks at objects whose date is older than its cutoff, so by the time
it asks the database, a request that uploaded one has committed or never will.
-/

set_option autoImplicit false
set_option relaxedAutoImplicit false

namespace Hookubit.Ingest.PayloadSafety

open Automata.LabelledSystem Ingest.Machine Ingest.Minting Ingest.Moves Ingest.Store
open Payloadstore.Keys Payloadstore.Reconcile Postgres.Clock

/-- What the deployment owes: an upload is dated no earlier than it happened, by its id or by
the store; an offloading request commits within `D` of its upload; and every sweep waits longer. -/
def Timely (setup : Setup) (D : ℤ) (s : State) : Op → Prop
  | .planPayload _ eventID _ stamp => ∀ v ∈ Parse eventID Event, s.clock ≤ age (ulidTime v) stamp
  | .commit q _ _ => ∀ r ∈ s.requests q, setup.limits.NeedsOffload r.body.length = true →
      s.clock ≤ r.uploadedAt + D
  | .reconcile _ opts => D < opts.effectiveMinAge
  | _ => True

instance (setup : Setup) (D : ℤ) (s : State) : (a : Op) → Decidable (Timely setup D s a)
  | .planPayload _ eventID _ stamp =>
      inferInstanceAs (Decidable (∀ v ∈ Parse eventID Event, s.clock ≤ age (ulidTime v) stamp))
  | .commit q _ _ => inferInstanceAs (Decidable (∀ r ∈ s.requests q,
      setup.limits.NeedsOffload r.body.length = true → s.clock ≤ r.uploadedAt + D))
  | .reconcile _ opts => inferInstanceAs (Decidable (D < opts.effectiveMinAge))
  | .tick _ | .arrive .. | .findIdempotency .. | .decide .. | .metadataFails _ | .createEvent ..
  | .createError _ | .disposeOrphan .. | .crash _ | .listPage .. | .examine _
  | .payloadReferenced .. | .delete .. | .stop _ => .isTrue trivial

/-- The location of the payload of an event. -/
def home (setup : Setup) (projectID eventID : Text) : Text :=
  Location setup.store.bucket (Key setup.store.keyPrefix projectID eventID)

def planOf : Phase → Option PayloadPlan
  | .planned plan | .creating plan _ | .gaveUp plan _ | .discarding plan | .taken plan => some plan
  | _ => none

/-- Its transaction may still come. -/
def mayCommit : Phase → Bool
  | .planned _ | .creating _ _ | .gaveUp _ _ => true
  | _ => false

section Plans

variable {setup : Setup} {s : State} {r : Request} {eventID : Text} {put : PutOutcome}
  {stamp : Option ℤ} {objects : List Object} {plan : PayloadPlan}

variable (setup r eventID put stamp objects) in
private theorem plan_objects :
    (r.plan setup eventID put stamp objects).2 = objects ∨
      (r.plan setup eventID put stamp objects).2 =
        PutObject (Put setup.store r.projectID eventID r.body stamp).1 objects :=
  (ite_eq_or_eq _ _ _).symm

private theorem plan_put (size : setup.limits.CheckSize r.body.length = none)
    (big : setup.limits.NeedsOffload r.body.length = true) (kept : put.kept = true) :
    (r.plan setup eventID put stamp objects).2 =
      PutObject (Put setup.store r.projectID eventID r.body stamp).1 objects :=
  if_pos ⟨size, big, kept⟩

private theorem plan_offloaded
    (planned : (r.plan setup eventID put stamp objects).1 = .planned plan)
    (located : plan.location ≠ []) :
    setup.limits.NeedsOffload r.body.length = true ∧
      plan.location = home setup r.projectID eventID ∧
      Get plan.location (r.plan setup eventID put stamp objects).2 = some r.body := by
  unfold Request.plan PlanPayload at planned
  cases size : setup.limits.CheckSize r.body.length with
  | some err => simp [size] at planned
  | none =>
    by_cases big : setup.limits.NeedsOffload r.body.length = true
    · cases put with
      | stored =>
        simp only [size, big, if_true, Phase.planned.injEq] at planned
        subst planned
        refine ⟨big, rfl, ?_⟩
        rw [plan_put size big rfl]
        exact get_put setup.store r.projectID eventID r.body stamp objects
      | storedUnanswered => simp [size, big] at planned
      | refused error => cases error <;> simp [size, big] at planned
    · simp only [size, big, Bool.false_eq_true, if_false, Phase.planned.injEq] at planned
      subst planned
      exact absurd rfl located

private theorem plan_of_thinks {phase : Phase} (thinks : Thinks setup s r phase)
    (has : planOf phase = some plan) : planOf r.phase = some plan ∧
      (mayCommit phase = true → mayCommit r.phase = true) := by
  have decided : ∀ {found appNow proceed}, planOf proceed = none →
      planOf (checkIdempotency found (setup.hashPayload r.body) appNow proceed) = none := by
    intro found appNow proceed none_yet
    obtain same | ⟨err, same⟩ | ⟨_, _, _, same⟩ :=
      checkIdempotency_cases found (setup.hashPayload r.body) appNow proceed
    · rw [same]; exact none_yet
    · rw [same]; rfl
    · rw [same]; rfl
  cases thinks with
  | decide _ | decideAgain _ => rw [decided rfl] at has; cases has
  | metadataFails before | create before | giveUp before =>
    rw [before]
    exact ⟨has, fun _ => rfl⟩
  | look _ | lookAgain _ | lookFails _ | crash _ => cases has

end Plans

section Invariant

variable {setup : Setup} {D : ℤ} {s t : State} {a : Op} {e : Text} {p : Pass}

/-- No request with this id can commit any more, and none will have it. -/
def Expired (D : ℤ) (s : State) (e : Text) : Prop :=
  e ∈ s.used ∧ ∀ q r, s.requests q = some r → r.eventID = some e → r.uploadedAt + D < s.clock

/-- If a sweep can read an event id in the key of an object, it reads a date not before the
upload under that id. -/
def Dated (setup : Setup) (s : State) (o : Object) : Prop :=
  ∀ parsed, ParseKey setup.store.keyPrefix o.key = some parsed → parsed.eventID ∈ s.used ∧
    ∀ q r, s.requests q = some r → r.eventID = some parsed.eventID →
      r.uploadedAt ≤ age parsed.createdAt o.lastModified

theorem Expired.later (h : Expired D s e) (later : Later s t) : Expired D t e := by
  refine ⟨later.used e h.1, ?_⟩
  intro q r found has
  obtain ⟨r₀, before, had, date⟩ := later.owner q r e found has h.1
  have := h.2 q r₀ before had
  have := later.clock
  omega

theorem Dated.later {o : Object} (h : Dated setup s o) (later : Later s t) : Dated setup t o := by
  intro parsed accepted
  obtain ⟨used, dates⟩ := h parsed accepted
  refine ⟨later.used _ used, ?_⟩
  intro q r found has
  obtain ⟨r₀, before, had, date⟩ := later.owner q r _ found has used
  exact date ▸ dates q r₀ before had

/-- The object in hand is of this event, and no request can commit the event any more. -/
structure Condemned (setup : Setup) (D : ℤ) (s : State) (o : Object) (e : Text) : Prop where
  named : ∃ parsed, ParseKey setup.store.keyPrefix o.key = some parsed ∧ parsed.eventID = e
  expired : Expired D s e

/-- What the lookup of a sweep has excluded. -/
def Unreferenced (db : Tables) (e : Text) : Prop :=
  ∀ row ∈ db.events, row.id = e → row.payloadLocation = none

/-- Where a sweep stands. -/
structure Careful (setup : Setup) (D : ℤ) (s : State) (p : Pass) : Prop where
  cutoff : p.cutoff + D < s.clock
  page : ∀ o ∈ p.page, Dated setup s o
  looking : ∀ o e, p.stage = .looking o e → Condemned setup D s o e
  deleting : ∀ o e, p.stage = .deleting o e → Condemned setup D s o e ∧ Unreferenced s.db e

/-- A request with a location uploaded under its own id. As long as it may commit in time, the
object is there. -/
def Uploaded (setup : Setup) (D : ℤ) (s : State) (r : Request) : Prop :=
  ∀ plan, planOf r.phase = some plan → plan.location ≠ [] →
    ∃ e, r.eventID = some e ∧ setup.limits.NeedsOffload r.body.length = true ∧
      plan.location = home setup r.projectID e ∧ (mayCommit r.phase = true →
        Get plan.location s.objects = some r.body ∨ r.uploadedAt + D < s.clock)

/-- The row belongs to an answered request, and its payload is where it says. -/
def Backed (setup : Setup) (s : State) (row : EventRow) : Prop :=
  ∃ q r answer, s.requests q = some r ∧ r.eventID = some row.id ∧ r.phase = .answered answer ∧
    ∀ location, row.payloadLocation = some location →
      location = home setup r.projectID row.id ∧ Get location s.objects = some r.body

structure Safe (setup : Setup) (D : ℤ) (s : State) : Prop where
  minted : Minted s
  dated : ∀ o ∈ s.objects, Dated setup s o
  uploaded : ∀ q r, s.requests q = some r → Uploaded setup D s r
  careful : ∀ i p, s.passes i = some p → Careful setup D s p
  backed : ∀ row ∈ s.db.events, Backed setup s row

/-- A request that carries a plan which it will never commit. -/
def Discarding (s : State) (e : Text) : Prop :=
  ∃ q r plan, s.requests q = some r ∧ r.eventID = some e ∧ planOf r.phase = some plan ∧
    mayCommit r.phase = false

private theorem key_ne {projectID projectID' e' : Text} (plain : '/' ∉ e) (plain' : '/' ∉ e')
    (differs : e ≠ e') :
    Key setup.store.keyPrefix projectID e ≠ Key setup.store.keyPrefix projectID' e' :=
  fun same => differs (eventID_of_key_eq plain plain' same)

/-- Of the objects of ids in use, a step takes away only what a request discards and what a
sweep has found to be expired and without a row. -/
private theorem get_of_step (safe : Safe setup D s) (step : Step setup s a t) (projectID : Text)
    (used : e ∈ s.used) (plain : '/' ∉ e) :
    Get (home setup projectID e) t.objects = Get (home setup projectID e) s.objects ∨
      Discarding s e ∨ (Expired D s e ∧ Unreferenced s.db e) := by
  have keyed := key_ne_nil setup.store.keyPrefix projectID e
  cases step with
  | tick _ | arrive _ _ | think _ _ | commit _ _ _ _ _ | reconcile _ | sweep _ _ => exact .inl rfl
  | @plan q r e' put stamp _ _ fresh parses =>
    obtain ⟨v, parsed⟩ := Option.ne_none_iff_exists'.mp parses
    have plain' : '/' ∉ e' := slash_not_mem_of_parse (by decide) parsed
    have differs : e ≠ e' := fun same => fresh (same ▸ used)
    refine .inl ?_
    obtain same | same := plan_objects setup r e' put stamp s.objects
    · exact congrArg _ same
    · exact (congrArg _ same).trans
        (get_putObject setup.store keyed (key_ne plain plain' differs) _)
  | @dispose q r deleted plan phase found outcome =>
    have carries : planOf r.phase = some plan ∧ mayCommit r.phase = false := by
      obtain ⟨before, _⟩ | ⟨before, _⟩ := outcome <;> rw [before] <;> exact ⟨rfl, rfl⟩
    by_cases kept : plan.location = [] ∨ deleted = false
    · exact .inl (congrArg _ (if_pos kept))
    · obtain ⟨e', has, _, located, _⟩ := safe.uploaded q r found plan carries.1 (not_or.mp kept).1
      by_cases same : e = e'
      · exact .inr (.inl ⟨q, r, plan, found, same ▸ has, carries⟩)
      · refine .inl ((congrArg _ (if_neg kept)).trans ?_)
        rw [located]
        exact get_delete setup.store keyed (key_ne_nil _ _ _)
          (key_ne plain (safe.minted.plain q r e' found has) same) _
  | @delete i p o e' deleted acknowledged found stage =>
    obtain ⟨⟨⟨parsed, accepted, names⟩, expired⟩, unreferenced⟩ :=
      (safe.careful i p found).deleting o e' stage
    cases deleted with
    | false => exact .inl rfl
    | true =>
      by_cases same : Key setup.store.keyPrefix projectID e = o.key
      · rw [← same] at accepted
        obtain rfl : e' = e := names.symm.trans (parseKey_key accepted).2
        exact .inr (.inr ⟨expired, unreferenced⟩)
      · have keyed' : o.key ≠ [] := by
          intro empty
          rw [empty] at accepted
          simp [ParseKey, cutPrefix] at accepted
        exact .inl (get_delete setup.store keyed keyed' same _)

private theorem dated_step (safe : Safe setup D s) (step : Step setup s a t)
    (timely : Timely setup D s a) :
    ∀ o ∈ t.objects, Dated setup t o := by
  have later := later_of_step step
  have minted := minted_step safe.minted step
  have old : ∀ o ∈ s.objects, Dated setup t o := fun o ho => (safe.dated o ho).later later
  cases step with
  | tick _ | arrive _ _ | think _ _ | commit _ _ _ _ _ | reconcile _ | sweep _ _ => exact old
  | @plan q r e put stamp _ _ fresh _ =>
    intro o ho
    obtain same | same := plan_objects setup r e put stamp s.objects
    · exact old o (same ▸ ho)
    obtain before | rfl := mem_of_mem_putObject (same ▸ ho)
    · exact old o before
    intro parsed accepted
    obtain ⟨_, named⟩ := parseKey_key accepted
    obtain ⟨v, read, date⟩ := createdAt_of_parseKey accepted
    rw [named] at read
    rw [named, date]
    refine ⟨List.mem_cons_self, ?_⟩
    intro q' r' found' has'
    obtain rfl := minted.unique q' q r' _ e found' (Function.update_self ..) has' rfl
    obtain rfl := Option.some.inj (found'.symm.trans (Function.update_self ..))
    exact timely v read
  | dispose _ _ =>
    intro o ho
    apply old o
    unfold disposeOrphan at ho
    split at ho
    · exact ho
    · exact mem_of_mem_delete ho
  | delete _ _ =>
    intro o ho
    apply old o
    dsimp only at ho
    split at ho
    · exact mem_of_mem_delete ho
    · exact ho

private theorem uploaded_kept (safe : Safe setup D s) (step : Step setup s a t) {q : ℕ}
    {r : Request}
    (found : s.requests q = some r) : Uploaded setup D t r := by
  intro plan carries located
  obtain ⟨e, has, big, location, there⟩ := safe.uploaded q r found plan carries located
  refine ⟨e, has, big, location, ?_⟩
  intro may
  have clock := (later_of_step step).clock
  obtain here | late := there may
  · have used := safe.minted.used q r e found has
    have plain := safe.minted.plain q r e found has
    obtain same | ⟨q', r', _, found', has', _, never⟩ | ⟨expired, _⟩ :=
      get_of_step safe step r.projectID used plain
    · rw [location] at here ⊢
      exact .inl (same.trans here)
    · obtain rfl := safe.minted.unique q q' r r' e found found' has has'
      obtain rfl := Option.some.inj (found.symm.trans found')
      rw [never] at may
      cases may
    · have := expired.2 q r found has
      exact .inr (by omega)
  · exact .inr (by omega)

private theorem Uploaded.goTo {r : Request} {phase : Phase} (h : Uploaded setup D t r)
    (goes : ∀ plan, planOf phase = some plan → planOf r.phase = some plan ∧
      (mayCommit phase = true → mayCommit r.phase = true)) : Uploaded setup D t (r.goTo phase) := by
  intro plan carries located
  obtain ⟨before, may⟩ := goes plan carries
  obtain ⟨e, has, big, location, there⟩ := h plan before located
  exact ⟨e, has, big, location, fun now => there (may now)⟩

private theorem uploaded_step (safe : Safe setup D s) (step : Step setup s a t) :
    ∀ q r, t.requests q = some r → Uploaded setup D t r := by
  have kept : ∀ {q r}, s.requests q = some r → Uploaded setup D t r := uploaded_kept safe step
  intro q' r' found'
  cases step with
  | tick _ | reconcile _ | sweep _ _ | delete _ _ => exact kept found'
  | arrive _ new =>
    obtain ⟨rfl, rfl⟩ | ⟨_, found'⟩ := requests_setRequest found'
    · obtain rfl | rfl := new <;> exact fun plan carries => nomatch carries
    · exact kept found'
  | think found thinks =>
    obtain ⟨rfl, rfl⟩ | ⟨_, found'⟩ := requests_setRequest found'
    · exact (kept found).goTo fun plan carries => plan_of_thinks thinks carries
    · exact kept found'
  | @plan q r e put stamp _ _ _ _ =>
    obtain ⟨rfl, rfl⟩ | ⟨_, found'⟩ := requests_setRequest found'
    · intro plan carries located
      obtain ⟨plan', planned⟩ | ⟨err, failed⟩ := plan_cases setup r e put stamp s.objects
      · rw [planned] at carries
        obtain rfl := Option.some.inj carries
        obtain ⟨big, location, here⟩ := plan_offloaded planned located
        exact ⟨e, rfl, big, location, fun _ => .inl here⟩
      · rw [failed] at carries
        cases carries
    · exact kept found'
  | commit found phase _ _ outcome =>
    obtain ⟨rfl, rfl⟩ | ⟨_, found'⟩ := requests_setRequest found'
    · apply (kept found).goTo
      intro plan carries
      obtain rfl | ⟨_, rfl⟩ | ⟨_, rfl⟩ := outcome
      · cases carries
      · cases carries
      · obtain phase | phase := phase <;> rw [phase] <;> exact ⟨carries, fun never => nomatch never⟩
    · exact kept found'
  | dispose found outcome =>
    obtain ⟨rfl, rfl⟩ | ⟨_, found'⟩ := requests_setRequest found'
    · obtain ⟨_, rfl⟩ | ⟨_, rfl⟩ := outcome <;> exact fun plan carries => nomatch carries
    · exact kept found'

private theorem unreferenced_step (safe : Safe setup D s) (step : Step setup s a t)
    (timely : Timely setup D s a) (expired : Expired D s e) (h : Unreferenced s.db e) :
    Unreferenced t.db e := by
  cases step with
  | @commit q r outboxID e' plan expiresAt replied result db phase found before has created _ =>
    cases created with
    | unchanged _ => exact h
    | committed _ _ =>
      intro row hrow same
      obtain old | new := List.mem_append.mp hrow
      · exact h row old same
      obtain rfl := List.mem_singleton.mp new
      obtain rfl : e' = e := same
      by_contra located
      have offloaded : plan.location ≠ [] := fun empty => located (if_pos empty)
      have carries : planOf r.phase = some plan := by
        obtain before | before := before <;> rw [before] <;> rfl
      obtain ⟨_, _, big, _⟩ := safe.uploaded q r found plan carries offloaded
      have in_time := timely r found big
      have too_late := expired.2 q r found has
      omega
  | _ => exact h

private theorem Condemned.later {o : Object} (h : Condemned setup D s o e) (later : Later s t) :
    Condemned setup D t o e :=
  ⟨h.named, h.expired.later later⟩

private theorem Careful.later (h : Careful setup D s p) (later : Later s t)
    (unreferenced : ∀ e, Expired D s e → Unreferenced s.db e → Unreferenced t.db e) :
    Careful setup D t p := by
  refine ⟨lt_of_lt_of_le h.cutoff later.clock, fun o ho => (h.page o ho).later later,
    fun o e stage => (h.looking o e stage).later later, fun o e stage => ?_⟩
  obtain ⟨condemned, absent⟩ := h.deleting o e stage
  exact ⟨condemned.later later, unreferenced e condemned.expired absent⟩

private theorem Careful.between {p' : Pass} (h : Careful setup D s p)
    (cutoff : p'.cutoff = p.cutoff) (page : ∀ o ∈ p'.page, Dated setup s o)
    (idle : ∀ o e, p'.stage ≠ .looking o e) (idle' : ∀ o e, p'.stage ≠ .deleting o e) :
    Careful setup D s p' :=
  ⟨cutoff ▸ h.cutoff, page, fun o e stage => absurd stage (idle o e),
    fun o e stage => absurd stage (idle' o e)⟩

private theorem careful_examine (h : Careful setup D s p) :
    Careful setup D s (p.examine setup.store) := by
  unfold Pass.examine
  split
  · rename_i o rest page
    have tail : ∀ o' ∈ rest, Dated setup s o' := fun o' ho' =>
      h.page o' (page ▸ List.mem_cons_of_mem o ho')
    dsimp only
    split
    · exact h.between rfl tail nofun nofun
    · rename_i parsed accepted
      split
      · exact h.between rfl tail nofun nofun
      · rename_i not_younger
        obtain ⟨used, dates⟩ := h.page o (page ▸ List.mem_cons_self) parsed accepted
        have cutoff := h.cutoff
        refine ⟨cutoff, tail, fun o' e' stage => ?_, nofun⟩
        cases stage
        refine ⟨⟨parsed, accepted, rfl⟩, used, ?_⟩
        intro q r found has
        have := dates q r found has
        omega
  · rename_i page
    have none_left : ∀ o ∈ p.page, Dated setup s o := h.page
    split
    · exact h.between rfl none_left nofun nofun
    · split
      · exact h.between rfl none_left nofun nofun
      · exact h.between rfl none_left nofun nofun

private theorem careful_deleted {acknowledged : Bool} (h : Careful setup D s p) :
    Careful setup D s (p.deleted acknowledged) := by
  unfold Pass.deleted
  split
  · refine h.between rfl h.page ?_ ?_ <;> dsimp only <;> split <;> nofun
  · exact h.between rfl h.page nofun nofun

private theorem careful_sweeps {p' : Pass} (safe : Safe setup D s) (h : Careful setup D s p)
    (sweeps : Sweeps setup s p p') : Careful setup D s p' := by
  cases sweeps with
  | list =>
    exact h.between rfl (fun o ho => safe.dated o (mem_of_mem_listObjectsV2 ho)) nofun nofun
  | listFails | stop => exact h.between rfl h.page nofun nofun
  | examine _ => exact careful_examine h
  | lookFails _ => exact h.between rfl h.page nofun nofun
  | @look o e stage =>
    cases answer : payloadReferenced e s.db with
    | true => exact h.between rfl h.page nofun nofun
    | false =>
      refine ⟨h.cutoff, h.page, nofun, ?_⟩
      intro o' e' stage'
      cases stage'
      refine ⟨h.looking o e stage, ?_⟩
      intro row hrow same
      have := List.any_eq_false.mp answer row hrow
      simpa [same] using this

private theorem careful_step (safe : Safe setup D s) (step : Step setup s a t)
    (timely : Timely setup D s a) :
    ∀ i p, t.passes i = some p → Careful setup D t p := by
  have later := later_of_step step
  have kept : ∀ {i p}, s.passes i = some p → Careful setup D t p := fun found =>
    (safe.careful _ _ found).later later fun _ => unreferenced_step safe step timely
  intro j p' found'
  cases step with
  | tick _ | arrive _ _ | think _ _ | plan _ _ _ _ | commit _ _ _ _ _ | dispose _ _ =>
    exact kept found'
  | @reconcile i opts _ =>
    obtain rfl | before := passes_setPass found'
    · have longer : D < opts.effectiveMinAge := timely
      refine ⟨?_, nofun, nofun, nofun⟩
      simp only [Pass.start, State.setPass]
      omega
    · exact kept before
  | sweep found sweeps =>
    obtain rfl | before := passes_setPass found'
    · exact (careful_sweeps safe (safe.careful _ _ found) sweeps).later later
        fun _ _ absent => absent
    · exact kept before
  | @delete i p o e deleted acknowledged found stage =>
    obtain rfl | before := passes_setPass found'
    · exact careful_deleted (kept found)
    · exact kept before

private theorem backed_step (safe : Safe setup D s) (step : Step setup s a t)
    (timely : Timely setup D s a) :
    ∀ row ∈ t.db.events, Backed setup t row := by
  have kept : ∀ row ∈ s.db.events, Backed setup t row := by
    intro row hrow
    obtain ⟨q, r, answer, found, has, answered, payload⟩ := safe.backed row hrow
    refine ⟨q, r, answer, answered_step step found answered, has, answered, ?_⟩
    intro location stored
    obtain ⟨rfl, here⟩ := payload location stored
    refine ⟨rfl, ?_⟩
    have used := safe.minted.used q r _ found has
    have plain := safe.minted.plain q r _ found has
    obtain same | ⟨q', r', _, found', has', carries, _⟩ | ⟨_, unreferenced⟩ :=
      get_of_step safe step r.projectID used plain
    · exact same.trans here
    · -- Its own request has been answered and carries no plan.
      obtain rfl := safe.minted.unique q q' r r' _ found found' has has'
      obtain rfl := Option.some.inj (found.symm.trans found')
      rw [answered] at carries
      cases carries
    · rw [unreferenced row hrow rfl] at stored
      cases stored
  cases step with
  | @commit q r outboxID e plan expiresAt replied result db phase found before has created
      outcome =>
    cases created with
    | unchanged _ => exact kept
    | committed _ _ =>
      intro row hrow
      obtain old | new := List.mem_append.mp hrow
      · exact kept row old
      obtain rfl := List.mem_singleton.mp new
      obtain ⟨answer, rfl⟩ : ∃ answer, phase = .answered answer := by
        obtain rfl | ⟨_, rfl⟩ | ⟨refused, _⟩ := outcome
        · exact ⟨_, rfl⟩
        · exact ⟨_, rfl⟩
        · exact absurd rfl refused
      refine ⟨q, _, answer, Function.update_self .., has, rfl, ?_⟩
      intro location stored
      obtain ⟨offloaded, same⟩ := Option.ite_none_left_eq_some.mp stored
      obtain rfl : plan.location = location := Option.some.inj same
      have carries : planOf r.phase = some plan ∧ mayCommit r.phase = true := by
        obtain before | before := before <;> rw [before] <;> exact ⟨rfl, rfl⟩
      obtain ⟨e', has', big, located, there⟩ := safe.uploaded q r found plan carries.1 offloaded
      obtain rfl : e = e' := Option.some.inj (has.symm.trans has')
      -- The commit is in time, so no sweep was allowed to take the object.
      have in_time := timely r found big
      refine ⟨located, (there carries.2).resolve_right ?_⟩
      omega
  | _ => exact kept

private theorem safe_step (safe : Safe setup D s) (step : Step setup s a t)
    (timely : Timely setup D s a) :
    Safe setup D t where
  minted := minted_step safe.minted step
  dated := dated_step safe step timely
  uploaded := uploaded_step safe step
  careful := careful_step safe step timely
  backed := backed_step safe step timely

private theorem safe_start (start : Start setup s) : Safe setup D s := by
  obtain ⟨empty, idle, unswept, owned⟩ := start
  have no_request : ∀ {q r}, s.requests q ≠ some r := fun found => by
    rw [idle] at found
    cases found
  refine ⟨⟨?_, ?_, ?_⟩, ?_, ?_, ?_, ?_⟩
  · intro q r e found
    exact absurd found no_request
  · intro q r e found
    exact absurd found no_request
  · intro q q' r r' e found
    exact absurd found no_request
  · exact fun o ho parsed accepted =>
      ⟨owned o ho parsed accepted, fun q r found => absurd found no_request⟩
  · intro q r found
    exact absurd found no_request
  · intro i p found
    rw [unswept] at found
    cases found
  · rw [empty]
    exact fun row none_there => nomatch none_there

end Invariant

/-- In every state that requests and sweeps can reach in this way, the payload of a committed
event that was offloaded is at the location in its row, as the request uploaded it. -/
theorem payload_of_committed_event_kept (setup : Setup) (D : ℤ) {s : State}
    (reach : Reachable ((ingest setup).constrain fun s a _ => Timely setup D s a) s) :
    ∀ e ∈ s.db.events, ∀ location, e.payloadLocation = some location →
      ∃ q r, s.requests q = some r ∧ r.eventID = some e.id ∧
        Get location s.objects = some r.body := by
  have safe : Safe setup D s := by
    apply reach.invariant (I := Safe setup D) (fun s start => safe_start start)
    rintro s a t safe ⟨moved, timely⟩
    exact safe_step safe (next_step moved) timely
  intro e he location stored
  obtain ⟨q, r, _, found, has, _, payload⟩ := safe.backed e he
  exact ⟨q, r, found, has, (payload location stored).2⟩

/-- A transaction that its handler has given up commits while one sweep runs; two hours later
another sweep reaches the object and finds it referenced. -/
theorem late_commit_keeps_payload :
    ∃ s p e, Reachable ((ingest smallLimits).constrain
      fun s a _ => Timely smallLimits minute s a) s ∧
      s.passes 1 = some p ∧ p.report.referenced = 1 ∧ e ∈ s.db.events ∧
      ∃ location, e.payloadLocation = some location ∧ ∃ q r, s.requests q = some r ∧
        r.eventID = some e.id ∧ Get location s.objects = some r.body := by
  have reach : Reachable
      ((ingest smallLimits).constrain fun s a _ => Timely smallLimits minute s a) _ :=
    reachable_constrain_of_execute (l := upToCommit 0 ['k'] [1, 2, 3] '1' ++
      [.createError 0, .reconcile 0 ⟨0, 0, 0⟩, .listPage 0 true, .examine 0, .commit 0 ['a'] true,
        .tick (2 * hour), .reconcile 1 ⟨0, 0, 0⟩, .listPage 1 true, .examine 1,
        .payloadReferenced 1 true]) start_quiet rfl
  exact ⟨_, _, _, reach, rfl, rfl, List.mem_singleton_self _, _, rfl,
    payload_of_committed_event_kept smallLimits minute reach _ (List.mem_singleton_self _) _ rfl⟩

end Hookubit.Ingest.PayloadSafety
