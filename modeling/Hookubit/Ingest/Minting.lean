/- sources: ingest/handler.go persist, ids/ids.go New
   digest: Every minted event id belongs to one request, and what that request is stays fixed. -/

import Hookubit.Ingest.Moves

set_option autoImplicit false
set_option relaxedAutoImplicit false

namespace Hookubit.Ingest.Minting

open Ingest.Machine Ingest.Moves Payloadstore.Keys

variable {setup : Setup} {s t : State} {a : Op}

/-- Requests never share an event id, and the ids they have are recorded as used. -/
structure Minted (s : State) : Prop where
  used : ∀ q r e, s.requests q = some r → r.eventID = some e → e ∈ s.used
  plain : ∀ q r e, s.requests q = some r → r.eventID = some e → '/' ∉ e
  unique : ∀ q q' r r' e, s.requests q = some r → s.requests q' = some r' →
    r.eventID = some e → r'.eventID = some e → q = q'

/-- Time passes, and an id that was in use belongs to the request that had it, from the same
moment on. -/
structure Later (s t : State) : Prop where
  clock : s.clock ≤ t.clock
  used : ∀ e ∈ s.used, e ∈ t.used
  owner : ∀ q r e, t.requests q = some r → r.eventID = some e → e ∈ s.used →
    ∃ r₀, s.requests q = some r₀ ∧ r₀.eventID = some e ∧ r₀.uploadedAt = r.uploadedAt

theorem id_of_step (step : Step setup s a t) {q : ℕ} {r : Request} {e : Text}
    (found : t.requests q = some r) (has : r.eventID = some e) :
    (∃ r₀, s.requests q = some r₀ ∧ r₀.eventID = some e ∧ r₀.uploadedAt = r.uploadedAt) ∨
      (e ∉ s.used ∧ e ∈ t.used ∧ '/' ∉ e) := by
  cases step with
  | tick _ | reconcile _ | sweep _ _ | delete _ _ => exact .inl ⟨r, found, has, rfl⟩
  | arrive _ _ =>
    obtain ⟨rfl, rfl⟩ | ⟨_, found⟩ := requests_setRequest found
    · cases has
    · exact .inl ⟨r, found, has, rfl⟩
  | think before _ | commit before _ _ _ _ | dispose before _ =>
    obtain ⟨rfl, rfl⟩ | ⟨_, found⟩ := requests_setRequest found
    · exact .inl ⟨_, before, has, rfl⟩
    · exact .inl ⟨r, found, has, rfl⟩
  | plan _ _ fresh parses =>
    obtain ⟨rfl, rfl⟩ | ⟨_, found⟩ := requests_setRequest found
    · obtain ⟨v, parsed⟩ := Option.ne_none_iff_exists'.mp parses
      cases has
      exact .inr ⟨fresh, List.mem_cons_self, slash_not_mem_of_parse (by decide) parsed⟩
    · exact .inl ⟨r, found, has, rfl⟩

theorem others_of_step (step : Step setup s a t) :
    ∃ q₀, ∀ q, q ≠ q₀ → t.requests q = s.requests q := by
  cases step with
  | tick _ | reconcile _ | sweep _ _ | delete _ _ => exact ⟨0, fun _ _ => rfl⟩
  | @arrive q | @think _ q | @plan q | @commit q | @dispose q =>
    exact ⟨q, fun q' differs => Function.update_of_ne differs ..⟩

theorem later_of_step (step : Step setup s a t) : Later s t where
  clock := by
    cases step with
    | tick later => exact later
    | _ => exact le_rfl
  used := by
    cases step with
    | plan _ _ _ _ => exact fun e here => List.mem_cons_of_mem _ here
    | _ => exact fun e here => here
  owner q r e found has here := (id_of_step step found has).resolve_right fun new => new.1 here

theorem minted_step (h : Minted s) (step : Step setup s a t) : Minted t where
  used q r e found has := by
    obtain ⟨r₀, before, had, _⟩ | ⟨_, here, _⟩ := id_of_step step found has
    · exact (later_of_step step).used e (h.used q r₀ e before had)
    · exact here
  plain q r e found has := by
    obtain ⟨r₀, before, had, _⟩ | ⟨_, _, plain⟩ := id_of_step step found has
    · exact h.plain q r₀ e before had
    · exact plain
  unique q q' r r' e found found' has has' := by
    obtain ⟨q₀, others⟩ := others_of_step step
    have owner := (later_of_step step).owner
    -- Of two requests one did not move, so the id was in use before.
    by_cases moved : q = q₀
    · by_cases moved' : q' = q₀
      · exact moved.trans moved'.symm
      · have before' := (others q' moved').symm.trans found'
        obtain ⟨r₀, before, had, _⟩ := owner q r e found has (h.used q' r' e before' has')
        exact h.unique q q' r₀ r' e before before' had has'
    · have before := (others q moved).symm.trans found
      obtain ⟨r₀, before', had, _⟩ := owner q' r' e found' has' (h.used q r e before has)
      exact h.unique q q' r r₀ e before before' has had

theorem answered_step (step : Step setup s a t) {q : ℕ} {r : Request}
    {answer : Except Store.ApiError Text} (found : s.requests q = some r)
    (answered : r.phase = .answered answer) : t.requests q = some r := by
  have kept : ∀ {q' : ℕ} {r' r'' : Request}, s.requests q' = some r' →
      (∀ answer, r'.phase ≠ .answered answer) →
      Function.update s.requests q' (some r'') q = some r := by
    intro q' r' r'' found' unanswered
    refine (Function.update_of_ne ?_ ..).trans found
    rintro rfl
    obtain rfl := Option.some.inj (found.symm.trans found')
    exact unanswered answer answered
  cases step with
  | tick _ | reconcile _ | sweep _ _ | delete _ _ => exact found
  | arrive free _ =>
    refine (Function.update_of_ne ?_ ..).trans found
    rintro rfl
    rw [free] at found
    cases found
  | think found' thinks =>
    apply kept found'
    intro answer same
    cases thinks <;> simp_all
  | plan found' phase _ _ => exact kept found' fun answer same => by simp [phase] at same
  | commit found' phase _ _ _ =>
    apply kept found'
    intro answer same
    obtain phase | phase := phase <;> simp [phase] at same
  | dispose found' phase =>
    apply kept found'
    intro answer same
    obtain ⟨phase, _⟩ | ⟨phase, _⟩ := phase <;> simp [phase] at same

end Hookubit.Ingest.Minting
