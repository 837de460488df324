/- sources: ingest/handler.go accept, ingest/store.go (FindIdempotency, CreateEvent), router/store.go
   digest: To the router, ingest is the start of its pipeline; an acknowledged event is queued
     there. -/

import Hookubit.Ingest.Moves
import Hookubit.Pipeline.Leases

set_option autoImplicit false
set_option relaxedAutoImplicit false

namespace Hookubit.Ingest.Refinement

open Automata.LabelledSystem Data.Rows Ingest.Machine Ingest.Moves Ingest.Store Payloadstore.Keys
open Pipeline.Leases (sound_of_reachable)
open Pipeline.Machine (Platform pipeline)

variable {R W : Type} [DecidableEq R] [DecidableEq W] {opts : R → Router.Process.Options}
  {setup : Setup} {s t : State} {a : Op}

/-- What the router and the workers see of ingest: the clock and their columns of its rows. -/
def view (R W : Type) (s : State) : Platform Text R W := ⟨s.clock, s.db.routed R W, []⟩

theorem view_createEvent (p : CreateEventParams) (outboxID : Text) :
    (CreateEvent p outboxID s.clock s.db).2 = s.db ∨
      ∃ op, Pipeline.Machine.next opts (view R W s) op =
        some (view R W { s with db := (CreateEvent p outboxID s.clock s.db).2 }) := by
  by_cases created : (CreateEvent p outboxID s.clock s.db).1 = some true
  · have inserted := createEvent_insertEvent R W created
    exact .inr ⟨.createEvent _ outboxID, Option.map_eq_some_iff.mpr ⟨_, inserted, rfl⟩⟩
  · have may := createEvent_created p outboxID s.clock s.db
    generalize (CreateEvent p outboxID s.clock s.db).2 = db at may
    generalize (CreateEvent p outboxID s.clock s.db).1 = result at may created
    cases may with
    | unchanged _ => exact .inl rfl
    | committed _ _ => exact absurd rfl created

theorem view_commit {q : ℕ} {outboxID : Text} {replied : Bool}
    (h : next setup s (.commit q outboxID replied) = some t) :
    view R W t = view R W s ∨
      ∃ op, Pipeline.Machine.next opts (view R W s) op = some (view R W t) := by
  obtain ⟨r, _, h⟩ := Option.bind_eq_some_iff.mp h
  split at h
  · cases h
    exact (view_createEvent _ outboxID).imp_left fun same => by simp only [view, same]; rfl
  · cases h
    exact (view_createEvent _ outboxID).imp_left fun same => by simp only [view, same]; rfl
  · cases h

theorem view_step (opts : R → Router.Process.Options) (h : next setup s a = some t) :
    view R W t = view R W s ∨
      ∃ op, Pipeline.Machine.next opts (view R W s) op = some (view R W t) := by
  cases next_step h with
  | tick later => exact .inr ⟨.tick _, if_pos later⟩
  | commit _ _ _ _ _ => exact view_commit h
  | _ => exact .inl rfl

/-- The refinement: whatever ingest does, its tables are ones that the pipeline reaches. -/
theorem view_reachable (opts : R → Router.Process.Options) (reach : Reachable (ingest setup) s) :
    Reachable (pipeline opts) (view R W s) := by
  induction reach with
  | @start s start => exact .start ⟨by rw [view, start.1]; rfl, rfl⟩
  | step _ edge ih =>
    rcases view_step (W := W) opts edge with same | ⟨op, moved⟩
    · rw [same]
      exact ih
    · exact ih.step moved

/-- The event that a request has read in a record, or has been answered with. -/
def names : Phase → Option Text
  | .deciding (some record) | .redeciding (some record) => some record.eventID
  | .answered (.ok eventID) => some eventID
  | _ => none

/-- Every event id in a record, in the hands of a request or in an answer is that of a row. -/
structure Grounded (db : Tables) (requests : ℕ → Option Request) : Prop where
  records : ∀ row ∈ db.idempotencyKeys, ∃ e ∈ db.events, row.eventID = some e.id
  named : ∀ q r, requests q = some r → ∀ eventID ∈ names r.phase, ∃ e ∈ db.events, e.id = eventID

theorem Grounded.setRequest (grounded : Grounded s.db s.requests) {q : ℕ} {r : Request}
    (named : ∀ eventID ∈ names r.phase, ∃ e ∈ s.db.events, e.id = eventID) :
    Grounded s.db (s.setRequest q r).requests := by
  refine ⟨grounded.records, ?_⟩
  intro q' r' found
  rcases requests_setRequest found with ⟨rfl, rfl⟩ | ⟨_, old⟩
  · exact named
  · exact grounded.named q' r' old

theorem Grounded.findIdempotency (grounded : Grounded s.db s.requests) {projectID key : Text}
    {record : IdempotencyRecord}
    (found : FindIdempotency projectID key s.db.idempotencyKeys = some record) :
    ∃ e ∈ s.db.events, e.id = record.eventID := by
  obtain ⟨row, here, rfl⟩ := Option.map_eq_some_iff.mp found
  obtain ⟨e, he, names⟩ := grounded.records row (List.mem_of_find?_eq_some here)
  exact ⟨e, he, by rw [IdempotencyRow.record, names, Option.getD_some]⟩

theorem Grounded.think (grounded : Grounded s.db s.requests) {q : ℕ} {r : Request} {phase : Phase}
    (found : s.requests q = some r) (thinks : Thinks setup s r phase) :
    ∀ eventID ∈ names phase, ∃ e ∈ s.db.events, e.id = eventID := by
  -- A record that was read before decides what the request is answered with.
  have replayed : ∀ {seen : Option IdempotencyRecord} {appNow : ℤ} {proceed : Phase},
      (∀ record ∈ seen, ∃ e ∈ s.db.events, e.id = record.eventID) → names proceed = none →
      ∀ eventID ∈ names (checkIdempotency seen (setup.hashPayload r.body) appNow proceed),
        ∃ e ∈ s.db.events, e.id = eventID := by
    intro seen appNow proceed read nothing eventID named
    rcases checkIdempotency_cases seen (setup.hashPayload r.body) appNow proceed with
      goesOn | ⟨err, refused⟩ | ⟨record, here, _, replay⟩
    · rw [goesOn, nothing] at named
      cases named
    · rw [refused] at named
      cases named
    · rw [replay] at named
      cases named
      exact read record here
  intro eventID named
  cases thinks with
  | look _ | lookAgain _ =>
    cases read : FindIdempotency r.projectID r.idempotencyKey s.db.idempotencyKeys with
    | none => rw [read] at named; cases named
    | some record =>
      rw [read] at named
      cases named
      exact grounded.findIdempotency read
  | decide phase =>
    refine replayed (fun record here => ?_) rfl eventID named
    exact grounded.named q r found _ (by rw [phase, here]; rfl)
  | decideAgain phase =>
    refine replayed (fun record here => ?_) rfl eventID named
    exact grounded.named q r found _ (by rw [phase, here]; rfl)
  | _ => cases named

theorem event_of_mem_claim {p : CreateEventParams} {now : ℤ} {rows keys : List IdempotencyRow}
    (claimed : p.claim now rows = some keys) {row : IdempotencyRow} (hr : row ∈ keys) :
    row ∈ rows ∨ row.eventID = some p.eventID := by
  simp only [CreateEventParams.claim, claimIdempotencySQL] at claimed
  split at claimed
  · cases claimed
    exact .inl hr
  split at claimed
  · cases claimed
    rcases List.mem_append.mp hr with old | new
    · exact .inl old
    · exact .inr (by rw [List.mem_singleton.mp new])
  · split at claimed <;> cases claimed
    rcases mem_updateWhere_ite.mp hr with ⟨old, _⟩ | ⟨_, _, _, rfl⟩
    · exact .inl old
    · exact .inr rfl

theorem Grounded.commit (grounded : Grounded s.db s.requests) {q : ℕ} {r : Request}
    {p : CreateEventParams} {result : Option Bool} {db : Tables} {phase : Phase}
    (created : Created p s.clock s.db result db)
    (named : ∀ eventID ∈ names phase, result = some true ∧ eventID = p.eventID) :
    Grounded db (s.setRequest q (r.goTo phase)).requests := by
  cases created with
  | unchanged refused =>
    exact grounded.setRequest fun eventID h => absurd (named eventID h).1 refused
  | committed claimed _ =>
    have new : p.row s.clock ∈ s.db.events ++ [p.row s.clock] :=
      List.mem_append_right _ List.mem_cons_self
    refine ⟨fun row hr => ?_, fun q' r' found eventID h => ?_⟩
    · rcases event_of_mem_claim claimed hr with old | mine
      · obtain ⟨e, he, same⟩ := grounded.records row old
        exact ⟨e, List.mem_append_left _ he, same⟩
      · exact ⟨_, new, mine⟩
    · rcases requests_setRequest found with ⟨rfl, rfl⟩ | ⟨_, old⟩
      · exact ⟨_, new, (named eventID h).2.symm⟩
      · obtain ⟨e, he, same⟩ := grounded.named q' r' old eventID h
        exact ⟨e, List.mem_append_left _ he, same⟩

theorem Grounded.step (grounded : Grounded s.db s.requests) (step : Step setup s a t) :
    Grounded t.db t.requests := by
  have silent : ∀ {phase : Phase}, names phase = none → ∀ eventID ∈ names phase,
      ∃ e ∈ s.db.events, e.id = eventID := fun none_named eventID h => by
    rw [none_named] at h
    cases h
  cases step with
  | tick _ | reconcile _ | sweep _ _ | delete _ _ => exact grounded
  | arrive _ phase =>
    refine grounded.setRequest (silent ?_)
    rcases phase with rfl | rfl <;> rfl
  | think found thinks => exact grounded.setRequest (grounded.think found thinks)
  | @plan _ r eventID put stamp _ _ _ _ =>
    refine grounded.setRequest (silent ?_)
    rcases plan_cases setup r eventID put stamp s.objects with ⟨plan, h⟩ | ⟨err, h⟩ <;>
      simp only [h] <;> rfl
  | commit _ _ _ created outcome =>
    refine grounded.commit created fun eventID h => ?_
    rcases outcome with rfl | ⟨done, rfl⟩ | ⟨_, rfl⟩ <;> cases h
    exact ⟨done, rfl⟩
  | dispose _ outcome =>
    refine grounded.setRequest (silent ?_)
    rcases outcome with ⟨_, rfl⟩ | ⟨_, rfl⟩ <;> rfl

/-- Whatever requests do, the pipeline takes over what they leave; and a producer is told of no
event that is not stored and queued there. -/
theorem acknowledged_event_is_queued (opts : R → Router.Process.Options)
    (reach : Reachable (ingest setup) s) :
    Reachable (pipeline opts) (view R W s) ∧
      ∀ q r, s.requests q = some r → ∀ eventID, r.phase = .answered (.ok eventID) →
        (∃ e ∈ s.db.events, e.id = eventID) ∧ ∃ o ∈ s.db.outbox, o.eventID = eventID := by
  have taken : Reachable (pipeline opts) (view R W s) := view_reachable opts reach
  have grounded : Grounded s.db s.requests := by
    refine reach.invariant (I := fun s => Grounded s.db s.requests) ?_ ?_
    · intro s start
      exact ⟨by simp [start.1], by simp [start.2.1]⟩
    · intro s a t grounded edge
      exact grounded.step (next_step edge)
  refine ⟨taken, fun q r found eventID told => ?_⟩
  obtain ⟨e, he, same⟩ := grounded.named q r found eventID (by rw [told]; rfl)
  obtain ⟨o, ho, covers⟩ := (sound_of_reachable taken).keyed.covered e.routed
    (List.mem_map_of_mem he)
  obtain ⟨row, hrow, rfl⟩ := List.mem_map.mp ho
  exact ⟨⟨e, he, same⟩, row, hrow, covers.trans same⟩

/-- The request that lost the race for a key is told of the winner's event, which is queued. -/
theorem lost_race_is_queued : ∃ s, Reachable (ingest smallLimits) s ∧
    Reachable (pipeline fun _ => ⟨0, 0⟩) (view ℕ ℕ s) ∧
    (s.requests 1).map Request.phase = some (.answered (.ok (sampleEvent '1'))) ∧
    (∃ e ∈ s.db.events, e.id = sampleEvent '1') ∧
    ∃ o ∈ s.db.outbox, o.eventID = sampleEvent '1' := by
  have reach : Reachable (ingest smallLimits) _ :=
    .run (.start start_quiet) (run_of_execute (l := upToCommit 0 ['k'] [7] '1' ++
      upToCommit 1 ['k'] [7] '2' ++ [.commit 0 ['a'] true, .commit 1 ['b'] true,
        .disposeOrphan 1 true, .findIdempotency 1 true, .decide 1 0]) rfl)
  obtain ⟨taken, queued⟩ :=
    acknowledged_event_is_queued (R := ℕ) (W := ℕ) (fun _ => ⟨0, 0⟩) reach
  exact ⟨_, reach, taken, rfl, queued 1 _ rfl _ rfl⟩

end Hookubit.Ingest.Refinement
