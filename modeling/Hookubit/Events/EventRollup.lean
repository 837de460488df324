/- sources: events/delivery-rollup.ts, events/events.service.ts rollUpDeliveries
   digest: What became of each event of a page, counted from grouped reads of its deliveries. -/

import Hookubit.Authz.ProjectReads

/-!
The loop over groups reads one unchanging table, so every statement sees the same groups in the
same order. Its counts are kept as a map from an event to a count for each status.
-/

set_option autoImplicit false
set_option relaxedAutoImplicit false

namespace Hookubit.Events.EventRollup

open Authz.ProjectReads
open Authz.ScopedRepository (MAX_PAGE_SIZE)
open Common.Errors Data.GroupCounts Data.OffsetPages Queue.Deliveries Router.Store
open Worker.StateMachine

inductive EventRollupState
  | received | inProgress | delivered | partlyDelivered | allFailed | dropped
  deriving DecidableEq

/-- `failed` counts the exhausted ones too. -/
structure DeliveryRollup where
  state : EventRollupState
  total : ℕ
  succeeded : ℕ
  failed : ℕ
  inFlight : ℕ
  cancelled : ℕ
  deriving DecidableEq

abbrev Counts := State → ℕ

def emptyCounts : Counts := fun _ => 0

def rollUp (eventStatus : EventStatus) (counts : Counts) : DeliveryRollup :=
  let total := (ALL_STATUSES.map counts).sum
  let succeeded := counts .succeeded
  let failed := counts .failed + counts .exhausted
  let cancelled := counts .cancelled
  let inFlight := (IN_FLIGHT.map counts).sum
  let state : EventRollupState :=
    if total = 0 then if eventStatus = .processed then .dropped else .received
    else if 0 < inFlight then .inProgress
    else if succeeded = total then .delivered
    else if succeeded = 0 then .allFailed
    else .partlyDelivered
  { state, total, succeeded, failed, inFlight, cancelled }

variable {Id W : Type} [LinearOrder Id]

/-- A group's count goes into the row of its event, if the event was asked about. -/
def setCount (counts : Id → Option Counts) (g : Group (Id × State) (Delivery Id W)) :
    Id → Option Counts :=
  match counts g.key.1 with
  | none => counts
  | some row => Function.update counts g.key.1 (some (Function.update row g.key.2 g.count))

section RollUp

variable (ctx : ProjectContext Id) (db : Records Id W)

/-- The groups of `groupBy(['eventId', 'status'])` over the events asked about. -/
def eventGroups (eventIds : List Id) : List (Group (Id × State) (Delivery Id W)) :=
  groups byColumns (fun d => (d.eventId, d.status))
    (deliveriesWhere ctx db fun d => eventIds.contains d.eventId)

/-- `none` where the fuel does not suffice to read all groups. -/
def rollUpDeliveries (fuel : ℕ) (events : List (EventRow Id)) :
    Except AppError (Option (Id → Option DeliveryRollup)) :=
  let eventIds := events.map (·.id)
  if eventIds.isEmpty then .ok (some fun _ => none)
  else do
    let counts ← drain
      (fun skip => groupBy "Delivery" (eventGroups ctx db eventIds) (some MAX_PAGE_SIZE)
        (some skip))
      MAX_PAGE_SIZE setCount fuel 0 fun id => if eventIds.contains id then
        some emptyCounts else none
    .ok (counts.map fun counts =>
      record (fun event : EventRow Id => event.id)
        (fun event => rollUp event.status ((counts event.id).getD emptyCounts))
          (fun _ => none) events)

def deliveriesOf (eventId : Id) : List (Delivery Id W) :=
  deliveriesWhere ctx db fun d => d.eventId = eventId

end RollUp

def countOf (deliveries : List (Delivery Id W)) : Counts := fun s =>
  deliveries.countP fun d => d.status = s

/-- What each state says about an event and its deliveries. -/
def Fits (eventStatus : EventStatus) (deliveries : List (Delivery Id W)) : EventRollupState → Prop
  | .dropped => deliveries = [] ∧ eventStatus = .processed
  | .received => deliveries = [] ∧ eventStatus ≠ .processed
  | .inProgress => ∃ d ∈ deliveries, d.status.Terminal = false
  | .delivered => deliveries ≠ [] ∧ ∀ d ∈ deliveries, d.status = .succeeded
  | .allFailed =>
      deliveries ≠ [] ∧ ∀ d ∈ deliveries, d.status.Terminal = true ∧ d.status ≠ .succeeded
  | .partlyDelivered =>
      (∀ d ∈ deliveries, d.status.Terminal = true) ∧ (∃ d ∈ deliveries, d.status = .succeeded) ∧
        ∃ d ∈ deliveries, d.status ≠ .succeeded

/-- A rollup that says the truth. -/
structure Exact (eventStatus : EventStatus) (deliveries : List (Delivery Id W))
    (rollup : DeliveryRollup) : Prop where
  total : rollup.total = deliveries.length
  succeeded : rollup.succeeded = deliveries.countP fun d => d.status = .succeeded
  failed : rollup.failed = deliveries.countP fun d => d.status = .failed ∨ d.status = .exhausted
  inFlight : rollup.inFlight = deliveries.countP fun d => !d.status.Terminal
  cancelled : rollup.cancelled = deliveries.countP fun d => d.status = .cancelled
  adds_up : rollup.succeeded + rollup.failed + rollup.inFlight + rollup.cancelled = rollup.total
  state : ∀ s, rollup.state = s ↔ Fits eventStatus deliveries s

section Counts

omit [LinearOrder Id]

variable (eventStatus : EventStatus) {deliveries : List (Delivery Id W)}

theorem rollUp_total :
    (rollUp eventStatus (countOf deliveries)).total = deliveries.length :=
  sum_all_statuses deliveries

theorem rollUp_inFlight :
    (rollUp eventStatus (countOf deliveries)).inFlight =
      deliveries.countP fun d => !d.status.Terminal := by
  refine (sum_statuses deliveries (by decide)).trans (List.countP_congr fun d _ => ?_)
  rw [← contains_inFlight]
  simp

theorem rollUp_failed :
    (rollUp eventStatus (countOf deliveries)).failed =
      deliveries.countP fun d => d.status = .failed ∨ d.status = .exhausted := by
  have pair : (FAILING.map (countOf deliveries)).sum =
      (rollUp eventStatus (countOf deliveries)).failed := by
    simp [rollUp, FAILING]
  refine pair.symm.trans ((sum_statuses deliveries (by decide)).trans ?_)
  simp [FAILING]

theorem rollUp_state :
    (rollUp eventStatus (countOf deliveries)).state =
      if deliveries = [] then if eventStatus = .processed then .dropped else .received
      else if ∃ d ∈ deliveries, d.status.Terminal = false then .inProgress
      else if ∀ d ∈ deliveries, d.status = .succeeded then .delivered
      else if ∀ d ∈ deliveries, d.status ≠ .succeeded then .allFailed
      else .partlyDelivered := by
  have total : (ALL_STATUSES.map (countOf deliveries)).sum = deliveries.length :=
    rollUp_total eventStatus
  have inFlight : (IN_FLIGHT.map (countOf deliveries)).sum =
      deliveries.countP fun d => !d.status.Terminal := rollUp_inFlight eventStatus
  have some_moving : (0 < deliveries.countP fun d => !d.status.Terminal) ↔
      ∃ d ∈ deliveries, d.status.Terminal = false := by
    simp [List.countP_pos_iff]
  have all_done : countOf deliveries .succeeded = deliveries.length ↔
      ∀ d ∈ deliveries, d.status = .succeeded := by
    simp [countOf, List.countP_eq_length]
  have none_done : countOf deliveries .succeeded = 0 ↔
      ∀ d ∈ deliveries, d.status ≠ .succeeded := by
    simp [countOf, List.countP_eq_zero]
  simp only [rollUp, total, inFlight, List.length_eq_zero_iff, some_moving, all_done, none_done]

theorem fits_rollUp :
    Fits eventStatus deliveries (rollUp eventStatus (countOf deliveries)).state := by
  rw [rollUp_state]
  split_ifs with empty routed moving all_done none_done
  · exact ⟨empty, routed⟩
  · exact ⟨empty, routed⟩
  · exact moving
  · exact ⟨empty, all_done⟩
  · refine ⟨empty, fun d hd => ⟨?_, none_done d hd⟩⟩
    exact eq_true_of_ne_false fun early => moving ⟨d, hd, early⟩
  · push Not at all_done none_done
    exact ⟨fun d hd => eq_true_of_ne_false fun early => moving ⟨d, hd, early⟩, none_done, all_done⟩

theorem rollUp_state_of_fits {eventStatus : EventStatus} {s : EventRollupState}
    (fits : Fits eventStatus deliveries s) :
    (rollUp eventStatus (countOf deliveries)).state = s := by
  have still (ended : ∀ d ∈ deliveries, d.status.Terminal = true) :
      ¬ ∃ d ∈ deliveries, d.status.Terminal = false := by
    rintro ⟨d, hd, early⟩
    exact Bool.false_ne_true (early.symm.trans (ended d hd))
  rw [rollUp_state]
  cases s with
  | dropped => rw [if_pos fits.1, if_pos fits.2]
  | received => rw [if_pos fits.1, if_neg fits.2]
  | inProgress =>
    obtain ⟨d, hd, early⟩ := fits
    rw [if_neg (List.ne_nil_of_mem hd), if_pos ⟨d, hd, early⟩]
  | delivered =>
    have ended : ∀ d ∈ deliveries, d.status.Terminal = true := fun d hd => by
      rw [fits.2 d hd]
      rfl
    rw [if_neg fits.1, if_neg (still ended), if_pos fits.2]
  | allFailed =>
    obtain ⟨d, hd⟩ := List.exists_mem_of_ne_nil _ fits.1
    rw [if_neg fits.1, if_neg (still fun d hd => (fits.2 d hd).1),
      if_neg fun all_done => (fits.2 d hd).2 (all_done d hd), if_pos fun d hd => (fits.2 d hd).2]
  | partlyDelivered =>
    obtain ⟨ended, ⟨d, hd, done⟩, ⟨e, he, undone⟩⟩ := fits
    rw [if_neg (List.ne_nil_of_mem hd), if_neg (still ended),
      if_neg fun all_done => undone (all_done e he), if_neg fun none_done => none_done d hd done]

theorem rollUp_exact (deliveries : List (Delivery Id W)) :
    Exact eventStatus deliveries (rollUp eventStatus (countOf deliveries)) where
  total := rollUp_total _
  succeeded := rfl
  failed := rollUp_failed _
  inFlight := rollUp_inFlight _
  cancelled := rfl
  adds_up := by
    simp only [rollUp, ALL_STATUSES, IN_FLIGHT, List.map_cons, List.map_nil, List.sum_cons,
      List.sum_nil]
    omega
  state s := by
    constructor
    · rintro rfl
      exact fits_rollUp eventStatus
    · exact rollUp_state_of_fits

end Counts

section Page

variable {ctx : ProjectContext Id} {db : Records Id W}

theorem setCount_eq {counts : Id → Option Counts} {id : Id} {row : Counts}
    (asked : counts id = some row) (g : Group (Id × State) (Delivery Id W)) :
    setCount counts g id =
      some fun s => if (id, s) = g.key then g.count else row s := by
  unfold setCount
  by_cases here : g.key.1 = id
  · rw [here, asked]
    simp only [Function.update_self, Option.some.injEq]
    funext s
    by_cases status : s = g.key.2
    · have same : (id, s) = g.key := by rw [← here, status]
      rw [if_pos same, status, Function.update_self]
    · rw [Function.update_of_ne status, if_neg fun same => status (congrArg Prod.snd same)]
  · have kept : (some fun s => if (id, s) = g.key then g.count else row s) = counts id := by
      rw [asked]
      congr 1
      funext s
      exact if_neg fun same => here (congrArg Prod.fst same).symm
    rw [kept]
    cases counts g.key.1 with
    | none => rfl
    | some other => exact Function.update_of_ne (Ne.symm here) _ _

theorem foldl_setCount (gs : List (Group (Id × State) (Delivery Id W))) {id : Id}
    (counts : Id → Option Counts) {row : Counts} (m : Id × State → Option ℕ)
    (asked : counts id = some row) (same : ∀ s, row s = (m (id, s)).getD 0) :
    (gs.foldl setCount counts) id =
      some fun s => (record Group.key Group.count m gs (id, s)).getD 0 := by
  induction gs generalizing counts row m with
  | nil =>
    rw [List.foldl_nil, asked]
    exact congrArg some (funext same)
  | cons g gs ih =>
    refine ih _ _ (setCount_eq asked g) fun s => ?_
    dsimp only
    by_cases here : (id, s) = g.key
    · rw [if_pos here, here, Function.update_self, Option.getD_some]
    · rw [if_neg here, Function.update_of_ne here, same]

theorem counts_eq {eventIds : List Id} {id : Id} (asked : id ∈ eventIds) :
    ((eventGroups ctx db eventIds).foldl setCount
        fun id => if eventIds.contains id then some emptyCounts else none) id =
      some (countOf (deliveriesOf ctx db id)) := by
  have start : (if eventIds.contains id then some emptyCounts else none) = some emptyCounts :=
    if_pos (List.contains_iff_mem.mpr asked)
  refine (foldl_setCount (eventGroups ctx db eventIds)
    (fun id => if eventIds.contains id then some emptyCounts else none) (fun _ => none) start
    fun _ => rfl).trans ?_
  congr 1
  funext s
  rw [eventGroups, getD_record_count, countOf, deliveriesOf]
  apply countP_deliveriesWhere
  intro d
  have member : d.eventId = id → eventIds.contains d.eventId = true := by
    rintro rfl
    exact List.contains_iff_mem.mpr asked
  grind

theorem rollUpDeliveries_eq {events : List (EventRow Id)} (present : events ≠ []) {fuel : ℕ}
    (enough : db.deliveries.length < fuel) :
    rollUpDeliveries ctx db fuel events =
      .ok (some (record (fun event : EventRow Id => event.id)
        (fun event => rollUp event.status
          ((((eventGroups ctx db (events.map (·.id))).foldl setCount fun id =>
            if (events.map (·.id)).contains id then some emptyCounts else none) event.id).getD
              emptyCounts)) (fun _ => none) events)) := by
  have few : (eventGroups ctx db (events.map (·.id))).length < fuel :=
    (length_groups_le.trans (length_deliveriesWhere_le ctx db _)).trans_lt enough
  have occupied : (events.map (·.id)).isEmpty = false := by
    rw [List.isEmpty_eq_false_iff]
    exact fun absent => present (List.map_eq_nil_iff.mp absent)
  simp only [rollUpDeliveries, occupied, drain_groupBy _ _ setCount few]
  rfl

/-- The rollup of every event of a page is exact. As many turns of the loop as there are
deliveries are always enough. -/
theorem rollups_exact (events : List (EventRow Id)) (stored : ∀ e ∈ events, e ∈ db.events)
    (fuel : ℕ) (enough : db.deliveries.length < fuel) :
    ∃ rollups, rollUpDeliveries ctx db fuel events = .ok (some rollups) ∧
      ∀ e ∈ events, ∃ rollup, rollups e.id = some rollup ∧
        Exact e.status (deliveriesOf ctx db e.id) rollup := by
  by_cases empty : events = []
  · subst empty
    exact ⟨fun _ => none, rfl, List.forall_mem_nil _⟩
  · refine ⟨_, rollUpDeliveries_eq empty enough, fun e he => ?_⟩
    refine ⟨rollUp e.status (countOf (deliveriesOf ctx db e.id)), ?_, rollUp_exact _ _⟩
    apply record_eq_some
    · -- The primary key: an event of the page with this id is this event.
      intro other member same
      have : other = e := List.inj_on_of_nodup_map db.eventKey (stored other member)
        (stored e he) same
      subst this
      rw [counts_eq (List.mem_map_of_mem he), Option.getD_some]
    · exact .inr ⟨e, he, rfl⟩

end Page

theorem nodup_one_two : [1, 2].Nodup := by decide

/-- One event that reached one endpoint and is being retried at another. -/
def sample : Records ℕ ℕ where
  events := [⟨⟨1, 1, 1, "order.created", 0⟩, .processed, none⟩]
  endpoints := [⟨1, 1, "a", "https://a.test", .active, true, 0⟩,
    ⟨2, 1, "b", "https://b.test", .active, true, 0⟩]
  endpointHealth := []
  deliveries := [{ Delivery.inserted 1 1 1 1 1 1 5 0 with status := .succeeded },
    { Delivery.inserted 2 1 2 2 1 1 5 0 with status := .retrying }]
  eventKey := List.nodup_singleton _
  endpointKey := nodup_one_two
  healthKey := List.nodup_nil
  deliveryKey := nodup_one_two

theorem sample_rollups_exact : sample.deliveries.length < 3 ∧
    ∃ rollups, rollUpDeliveries ⟨1, 1⟩ sample 3 sample.events = .ok (some rollups) ∧
      ∀ e ∈ sample.events, ∃ rollup, rollups e.id = some rollup ∧
        Exact e.status (deliveriesOf ⟨1, 1⟩ sample e.id) rollup :=
  ⟨by decide, rollups_exact sample.events (fun _ he => he) 3 (by decide)⟩

end Hookubit.Events.EventRollup
