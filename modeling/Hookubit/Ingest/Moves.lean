/- sources: ingest/handler.go, ingest/payload.go, payloadstore/reconcile.go
   digest: Everything one step can do to a request, to a sweep, to the tables and to the bucket. -/

import Hookubit.Ingest.Machine

set_option autoImplicit false
set_option relaxedAutoImplicit false

namespace Hookubit.Ingest.Moves

open Ingest.Machine Ingest.Store Payloadstore.Keys Payloadstore.Reconcile

/-- What a request does by itself, without writing anything. -/
inductive Thinks (setup : Setup) (s : State) (r : Request) : Phase → Prop
  | look : r.phase = .checking →
      Thinks setup s r (.deciding
        (FindIdempotency r.projectID r.idempotencyKey s.db.idempotencyKeys))
  | lookAgain : r.phase = .rereading →
      Thinks setup s r
        (.redeciding (FindIdempotency r.projectID r.idempotencyKey s.db.idempotencyKeys))
  | lookFails : r.phase = .checking ∨ r.phase = .rereading →
      Thinks setup s r (.answered (.error errInternal))
  | decide {found : Option IdempotencyRecord} {appNow : ℤ} : r.phase = .deciding found →
      Thinks setup s r (checkIdempotency found (setup.hashPayload r.body) appNow .planning)
  | decideAgain {found : Option IdempotencyRecord} {appNow : ℤ} : r.phase = .redeciding found →
      Thinks setup s r (checkIdempotency found (setup.hashPayload r.body) appNow vanished)
  | metadataFails {plan : PayloadPlan} : r.phase = .planned plan →
      Thinks setup s r (.discarding plan)
  | create {plan : PayloadPlan} {expiresAt : ℤ} : r.phase = .planned plan →
      Thinks setup s r (.creating plan expiresAt)
  | giveUp {plan : PayloadPlan} {expiresAt : ℤ} : r.phase = .creating plan expiresAt →
      Thinks setup s r (.gaveUp plan expiresAt)
  | crash : (∀ answer, r.phase ≠ .answered answer) → Thinks setup s r .crashed

/-- What a sweep does by itself. -/
inductive Sweeps (setup : Setup) (s : State) (p : Pass) : Pass → Prop
  | list : Sweeps setup s p (p.listed (some
      (ListObjectsV2 setup.store.bucket (setup.store.keyPrefix ++ ['/']) p.token s.objects)))
  | listFails : Sweeps setup s p (p.listed none)
  | examine : p.stage = .examining → Sweeps setup s p (p.examine setup.store)
  | look {o : Object} {eventID : Text} : p.stage = .looking o eventID →
      Sweeps setup s p (p.lookedUp o eventID (some (payloadReferenced eventID s.db)))
  | lookFails {o : Object} {eventID : Text} : p.stage = .looking o eventID →
      Sweeps setup s p (p.lookedUp o eventID none)
  | stop : Sweeps setup s p { p with stage := .returned }

/-- One step of the whole. -/
inductive Step (setup : Setup) (s : State) : Op → State → Prop
  | tick {now : ℤ} : s.clock ≤ now → Step setup s (.tick now) { s with clock := now }
  | arrive {q : ℕ} {organizationID projectID eventType idempotencyKey : Text}
      {body : List UInt8} {phase : Phase} : s.requests q = none →
      phase = .planning ∨ phase = .checking →
      Step setup s (.arrive q organizationID projectID eventType idempotencyKey body)
        (s.setRequest q
          ⟨organizationID, projectID, eventType, idempotencyKey, body, none, 0, phase⟩)
  | think {a : Op} {q : ℕ} {r : Request} {phase : Phase} : s.requests q = some r →
      Thinks setup s r phase → Step setup s a (s.setRequest q (r.goTo phase))
  | plan {q : ℕ} {r : Request} {eventID : Text} {put : PutOutcome} {stamp : Option ℤ} :
      s.requests q = some r → r.phase = .planning → eventID ∉ s.used →
      Parse eventID Event ≠ none →
      Step setup s (.planPayload q eventID put stamp)
        { s.setRequest q { r with
            eventID := some eventID
            uploadedAt := s.clock
            phase := (r.plan setup eventID put stamp s.objects).1 } with
          objects := (r.plan setup eventID put stamp s.objects).2
          used := eventID :: s.used }
  | commit {q : ℕ} {r : Request} {outboxID eventID : Text} {plan : PayloadPlan} {expiresAt : ℤ}
      {replied : Bool} {result : Option Bool} {db : Tables} {phase : Phase} :
      s.requests q = some r →
      r.phase = .creating plan expiresAt ∨ r.phase = .gaveUp plan expiresAt →
      r.eventID = some eventID →
      Created (r.params setup eventID plan expiresAt) s.clock s.db result db →
      phase = .answered (.error errInternal) ∨
        (result = some true ∧ phase = .answered (.ok eventID)) ∨
        (result ≠ some true ∧ phase = .taken plan) →
      Step setup s (.commit q outboxID replied) { s.setRequest q (r.goTo phase) with db := db }
  | dispose {q : ℕ} {r : Request} {deleted : Bool} {plan : PayloadPlan} {phase : Phase} :
      s.requests q = some r →
      (r.phase = .discarding plan ∧ phase = .answered (.error errInternal)) ∨
        (r.phase = .taken plan ∧ phase = .rereading) →
      Step setup s (.disposeOrphan q deleted) { s.setRequest q (r.goTo phase) with
        objects := disposeOrphan plan deleted s.objects }
  | reconcile {i : ℕ} {opts : ReconcileOptions} : s.passes i = none →
      Step setup s (.reconcile i opts) (s.setPass i (.start opts s.clock))
  | sweep {a : Op} {i : ℕ} {p p' : Pass} : s.passes i = some p → Sweeps setup s p p' →
      Step setup s a (s.setPass i p')
  | delete {i : ℕ} {p : Pass} {o : Object} {eventID : Text} {deleted acknowledged : Bool} :
      s.passes i = some p → p.stage = .deleting o eventID →
      Step setup s (.delete i deleted acknowledged) { s.setPass i (p.deleted acknowledged) with
        objects := if deleted then Delete (Location setup.store.bucket o.key) s.objects
          else s.objects }

theorem requests_setRequest {s : State} {q q' : ℕ} {r r' : Request}
    (h : (s.setRequest q r).requests q' = some r') :
    q' = q ∧ r' = r ∨ q' ≠ q ∧ s.requests q' = some r' := by
  by_cases same : q' = q
  · subst same
    exact .inl ⟨rfl, by simpa [State.setRequest, eq_comm] using h⟩
  · exact .inr ⟨same, by simpa [State.setRequest, same] using h⟩

theorem passes_setPass {s : State} {i j : ℕ} {p p' : Pass}
    (h : (s.setPass i p).passes j = some p') : p' = p ∨ s.passes j = some p' := by
  by_cases same : j = i
  · subst same
    exact .inl (by simpa [State.setPass, eq_comm] using h)
  · exact .inr (by simpa [State.setPass, same] using h)

private theorem told_cases (r : Request) (eventID : Text) (plan : PayloadPlan) (replied : Bool)
    (result : Option Bool) : ∃ phase, r.told eventID plan replied result = r.goTo phase ∧
      (phase = .answered (.error errInternal) ∨
        (result = some true ∧ phase = .answered (.ok eventID)) ∨
        (result ≠ some true ∧ phase = .taken plan)) := by
  refine ⟨_, rfl, ?_⟩
  split
  · split
    · exact .inr (.inl ⟨rfl, rfl⟩)
    · exact .inr (.inr ⟨by simp, rfl⟩)
    · exact .inl rfl
  · exact .inl rfl

theorem checkIdempotency_cases (found : Option IdempotencyRecord) (requestHash : Text) (appNow : ℤ)
    (proceed : Phase) :
    checkIdempotency found requestHash appNow proceed = proceed ∨
      (∃ err, checkIdempotency found requestHash appNow proceed = .answered (.error err)) ∨
      ∃ record, found = some record ∧ record.requestHash = requestHash ∧
        checkIdempotency found requestHash appNow proceed = .answered (.ok record.eventID) := by
  cases found with
  | none => exact .inl rfl
  | some record =>
    unfold checkIdempotency
    split
    · rename_i replayed
      refine .inr (.inr ⟨record, rfl, ?_, rfl⟩)
      by_contra differs
      simp only [Decide, if_pos differs] at replayed
      split at replayed <;> cases replayed
    · exact .inr (.inl ⟨_, rfl⟩)
    · exact .inr (.inl ⟨_, rfl⟩)
    · exact .inl rfl

theorem plan_cases (setup : Setup) (r : Request) (eventID : Text) (put : PutOutcome)
    (stamp : Option ℤ) (objects : List Object) :
    (∃ plan, (r.plan setup eventID put stamp objects).1 = .planned plan) ∨
      ∃ err, (r.plan setup eventID put stamp objects).1 = .answered (.error err) := by
  unfold Request.plan
  dsimp only
  split
  · exact .inl ⟨_, rfl⟩
  · exact .inr ⟨_, rfl⟩

section Inversion

variable {setup : Setup} {s t : State} {q : ℕ}

private theorem findIdempotency_step {ok : Bool} (h : next setup s
      (.findIdempotency q ok) = some t) :
    Step setup s (.findIdempotency q ok) t := by
  obtain ⟨r, found, h⟩ := Option.bind_eq_some_iff.mp h
  split at h
  · rename_i phase
    cases h
    cases ok with
    | true => exact .think found (.look phase)
    | false => exact .think found (.lookFails (.inl phase))
  · rename_i phase
    cases h
    cases ok with
    | true => exact .think found (.lookAgain phase)
    | false => exact .think found (.lookFails (.inr phase))
  · cases h

private theorem decide_step {appNow : ℤ} (h : next setup s (.decide q appNow) = some t) :
    Step setup s (.decide q appNow) t := by
  obtain ⟨r, found, h⟩ := Option.bind_eq_some_iff.mp h
  split at h
  · cases h; exact .think found (.decide ‹_›)
  · cases h; exact .think found (.decideAgain ‹_›)
  · cases h

private theorem planPayload_step {eventID : Text} {put : PutOutcome} {stamp : Option ℤ}
    (h : next setup s (.planPayload q eventID put stamp) = some t) :
    Step setup s (.planPayload q eventID put stamp) t := by
  obtain ⟨r, found, h⟩ := Option.bind_eq_some_iff.mp h
  split at h
  · rename_i phase
    split at h
    · cases h
    · rename_i fresh
      cases h
      exact .plan found phase (fun used => fresh (.inl used)) fun bad => fresh (.inr bad)
  · cases h

private theorem commit_step {outboxID : Text} {replied : Bool}
    (h : next setup s (.commit q outboxID replied) = some t) :
    Step setup s (.commit q outboxID replied) t := by
  obtain ⟨r, found, h⟩ := Option.bind_eq_some_iff.mp h
  split at h
  · rename_i phase minted
    cases h
    obtain ⟨phase', told, outcome⟩ := told_cases r _ _ replied _
    rw [told]
    exact .commit found (.inl phase) minted (createEvent_created _ outboxID _ _) outcome
  · rename_i phase minted
    cases h
    obtain ⟨phase', told, outcome⟩ := told_cases r _ _ false _
    rw [told]
    exact .commit found (.inr phase) minted (createEvent_created _ outboxID _ _) outcome
  · cases h

private theorem disposeOrphan_step {deleted : Bool}
    (h : next setup s (.disposeOrphan q deleted) = some t) :
    Step setup s (.disposeOrphan q deleted) t := by
  obtain ⟨r, found, h⟩ := Option.bind_eq_some_iff.mp h
  split at h
  · cases h; exact .dispose found (.inl ⟨‹_›, rfl⟩)
  · cases h; exact .dispose found (.inr ⟨‹_›, rfl⟩)
  · cases h

private theorem crash_step (h : next setup s (.crash q) = some t) : Step setup s (.crash q) t := by
  obtain ⟨r, found, h⟩ := Option.bind_eq_some_iff.mp h
  split at h
  · cases h; exact .think found (.giveUp ‹_›)
  · cases h
  · cases h
  · cases h
  · rename_i unanswered _
    cases h
    exact .think found (.crash unanswered)

private theorem delete_step {i : ℕ} {deleted acknowledged : Bool}
    (h : next setup s (.delete i deleted acknowledged) = some t) :
    Step setup s (.delete i deleted acknowledged) t := by
  obtain ⟨p, found, h⟩ := Option.bind_eq_some_iff.mp h
  split at h
  · rename_i stage
    split at h
    · cases h
    · cases h; exact .delete found stage
  · cases h

theorem next_step {a : Op} (h : next setup s a = some t) : Step setup s a t := by
  cases a with
  | tick now =>
    simp only [next, Option.ite_none_right_eq_some] at h
    obtain ⟨later, moved⟩ := h
    cases moved
    exact .tick later
  | arrive q organizationID projectID eventType idempotencyKey body =>
    simp only [next] at h
    split at h
    · cases h
    · rename_i free
      cases h
      exact .arrive free (by split <;> simp)
  | findIdempotency q ok => exact findIdempotency_step h
  | decide q appNow => exact decide_step h
  | planPayload q eventID put stamp => exact planPayload_step h
  | metadataFails q =>
    obtain ⟨r, found, h⟩ := Option.bind_eq_some_iff.mp h
    split at h
    · cases h; exact .think found (.metadataFails ‹_›)
    · cases h
  | createEvent q appNow =>
    obtain ⟨r, found, h⟩ := Option.bind_eq_some_iff.mp h
    split at h
    · cases h; exact .think found (.create ‹_›)
    · cases h
  | commit q outboxID replied => exact commit_step h
  | createError q =>
    obtain ⟨r, found, h⟩ := Option.bind_eq_some_iff.mp h
    split at h
    · cases h; exact .think found (.giveUp ‹_›)
    · cases h
  | disposeOrphan q deleted => exact disposeOrphan_step h
  | crash q => exact crash_step h
  | reconcile i opts =>
    simp only [next] at h
    split at h
    · cases h
    · cases h; exact .reconcile ‹_›
  | listPage i ok =>
    obtain ⟨p, found, h⟩ := Option.bind_eq_some_iff.mp h
    split at h
    · cases h
      cases ok with
      | true => exact .sweep found .list
      | false => exact .sweep found .listFails
    · cases h
  | examine i =>
    obtain ⟨p, found, h⟩ := Option.bind_eq_some_iff.mp h
    split at h
    · cases h; exact .sweep found (.examine ‹_›)
    · cases h
  | payloadReferenced i ok =>
    obtain ⟨p, found, h⟩ := Option.bind_eq_some_iff.mp h
    split at h
    · rename_i stage
      cases h
      cases ok with
      | true => exact .sweep found (.look stage)
      | false => exact .sweep found (.lookFails stage)
    · cases h
  | delete i deleted acknowledged => exact delete_step h
  | stop i =>
    obtain ⟨p, found, rfl⟩ := Option.map_eq_some_iff.mp h
    exact .sweep found .stop

end Inversion

end Hookubit.Ingest.Moves
