/- sources: endpoints/endpoint-health.service.ts, endpoints/endpoints.service.ts list,
     endpoint-secrets/endpoint-secrets.service.ts liveSecretEndpointIds
   digest: The endpoint list and the health that is summarised for a whole page of it. -/

import Hookubit.Authz.ProjectReads
import Hookubit.EndpointSecrets.Service

/-!
All statements of one request read the same tables. A statement without `orderBy` may give its
rows in any order; the one here is read whole or refused, so the order of the table will do.
-/

set_option autoImplicit false
set_option relaxedAutoImplicit false

namespace Hookubit.Endpoints.EndpointHealth

open Authz.ProjectReads
open Authz.ScopedRepository (MAX_PAGE_SIZE DEFAULT_PAGE_SIZE pageSize pageSize_le)
open Common.Errors Data.Binary64 Data.GroupCounts Data.OffsetPages
open EndpointSecrets.Service (EndpointSecret isEffectivelyActive)
open Postgres.Clock Queue.Deliveries Worker.StateMachine
open Worker.Store (EndpointStatus)

def HEALTH_WINDOW_MS : ℤ := 3600000

/-- `successRate1h` is missing, not zero, where nothing settled. -/
structure EndpointHealthSummary where
  successRate1h : Option ℚ
  deliveries1h : ℕ
  deliveriesWaiting : ℕ
  consecutiveFailures : ℕ
  openedAt : Option ℤ
  lastDeliveryAt : Option ℤ
  deriving DecidableEq

variable {Id W : Type} [LinearOrder Id]

section Service

variable (ctx : ProjectContext Id) (db : Records Id W)

/-- The counts of `groupBy(endpointId, status)`, by the page; `none` where the fuel is spent. -/
def countsByEndpoint (fuel : ℕ) (clause : Delivery Id W → Bool) :
    Except AppError (Option (Id × State → Option ℕ)) :=
  drain
    (fun skip => groupBy "Delivery"
      (groups byColumns (fun d => (d.endpointId, d.status)) (deliveriesWhere ctx db clause))
      (some MAX_PAGE_SIZE) (some skip))
    MAX_PAGE_SIZE (fun byEndpoint g => Function.update byEndpoint g.key (some g.count)) fuel 0
    fun _ => none

/-- The newest delivery of each endpoint, from `_max`. -/
def lastDeliveryByEndpoint (endpointIds : List Id) : Except AppError (Id → Option ℤ) := do
  let groups ← groupBy "Delivery"
    (groups (· ≤ ·) Delivery.endpointId
      (deliveriesWhere ctx db fun d => endpointIds.contains d.endpointId))
    (some MAX_PAGE_SIZE) none
  .ok (record Prod.fst Prod.snd (fun _ => none)
    (groups.filterMap fun g => (g.rows.map Delivery.createdAt).max?.map fun t => (g.key, t)))

/-- The loop body of `summarise`, for one endpoint. -/
def summaryFrom (recent waiting : Id × State → Option ℕ) (breaker : Option (Health Id))
    (lastSeen : Option ℤ) (endpointId : Id) : EndpointHealthSummary :=
  let succeeded := (recent (endpointId, .succeeded)).getD 0
  let failing := (FAILING.map fun status => (recent (endpointId, status)).getD 0).sum
  let settled := succeeded + failing
  { successRate1h := if settled = 0 then none else some (roundRate (round64 (succeeded / settled)))
    deliveries1h := (ALL_STATUSES.map fun status => (recent (endpointId, status)).getD 0).sum
    deliveriesWaiting := (ALL_STATUSES.map fun status => (waiting (endpointId, status)).getD 0).sum
    consecutiveFailures := (breaker.map Health.consecutiveFailures).getD 0
    openedAt := breaker.bind Health.openedAt
    lastDeliveryAt := lastSeen }

def since (now : ℤ) : ℤ := now - HEALTH_WINDOW_MS * millisecond

def summarise (fuel : ℕ) (endpointIds : List Id) (now : ℤ) :
    Except AppError (Option (Id → Option EndpointHealthSummary)) :=
  if endpointIds.isEmpty then .ok (some fun _ => none)
  else do
    let recent ← countsByEndpoint ctx db fuel fun d =>
      endpointIds.contains d.endpointId && since now ≤ d.createdAt
    let waiting ← countsByEndpoint ctx db fuel fun d =>
      endpointIds.contains d.endpointId && IN_FLIGHT.contains d.status
    let breakers ← findMany "Endpoint health"
      (db.endpointHealth.filter fun h => ownHealth ctx db h && endpointIds.contains h.endpointId)
      none none
    let lastSeen ← lastDeliveryByEndpoint ctx db endpointIds
    let breakerFor := record Health.endpointId id (fun _ => none) breakers
    .ok (recent.bind fun recent => waiting.map fun waiting =>
      record id (fun endpointId =>
        summaryFrom recent waiting (breakerFor endpointId) (lastSeen endpointId) endpointId)
        (fun _ => none) endpointIds)

def liveSecretEndpointIds (secrets : List (EndpointSecret Id)) (endpointIds : List Id) (now : ℤ) :
    Except AppError (Id → Bool) :=
  let wanted := endpointIds.dedup
  if wanted.isEmpty then .ok fun _ => false
  else do
    let groups ← groupBy "Endpoint secret"
      (groups (· ≤ ·) EndpointSecret.endpointId (secrets.filter fun s =>
        viaEndpoint ctx db s.endpointId && wanted.contains s.endpointId &&
          isEffectivelyActive now s))
      (some wanted.length) none
    .ok fun endpointId => (groups.map Group.key).contains endpointId

structure ListEndpointsQuery where
  status : Option EndpointStatus
  includeDeleted : Option Bool
  limit : Option ℕ
  offset : Option ℕ
  deriving DecidableEq

def ListEndpointsQuery.admits (query : ListEndpointsQuery) (e : Endpoint Id) : Bool :=
  match query.status with
  | some status => e.status = status
  | none => if query.includeDeleted = some true then true else e.status ≠ .deleted

structure EndpointItem (Id : Type) where
  endpoint : Endpoint Id
  hasLiveSecret : Bool
  health : Option EndpointHealthSummary

/-- The rows of the page, in the order that the database picks. -/
def pageOf (query : ListEndpointsQuery) (orderBy : List (Endpoint Id) → List (Endpoint Id)) :
    Page (Endpoint Id) :=
  findPage (orderBy (db.endpoints.filter fun e => ownEndpoint ctx e && query.admits e))
    query.limit query.offset

def attach (page : Page (Endpoint Id)) (live : Id → Bool)
    (health : Id → Option EndpointHealthSummary) : Page (EndpointItem Id) where
  rows := page.rows.map fun e => ⟨e, live e.id, health e.id⟩
  hasMore := page.hasMore
  nextSkip := page.nextSkip

/-- A page of endpoints. Where the summary fails the list goes on without any. -/
def list (fuel : ℕ) (secrets : List (EndpointSecret Id)) (query : ListEndpointsQuery) (now : ℤ)
    (orderBy : List (Endpoint Id) → List (Endpoint Id)) :
    Except AppError (Option (Page (EndpointItem Id))) := do
  let page := pageOf ctx db query orderBy
  let ids := page.rows.map Endpoint.id
  let live ← liveSecretEndpointIds ctx db secrets ids now
  let health :=
    match summarise ctx db fuel ids now with
    | .ok health => health
    | .error _ => some fun _ => none
  .ok (health.map (attach page live))

end Service

section Own

variable (ctx : ProjectContext Id) (db : Records Id W)

/-- What the summary of an endpoint is meant to be: read off its own deliveries and its own
health row. -/
def healthOf (now : ℤ) (endpointId : Id) : EndpointHealthSummary :=
  let recent := deliveriesWhere ctx db fun d => d.endpointId = endpointId && since now ≤ d.createdAt
  let waiting := deliveriesWhere ctx db fun d => d.endpointId = endpointId && !d.status.Terminal
  let succeeded := recent.countP fun d => d.status = .succeeded
  let settled := recent.countP fun d => d.status ∈ [.succeeded, .failed, .exhausted]
  let breaker := db.endpointHealth.find? fun h => h.endpointId = endpointId
  { successRate1h := if settled = 0 then none else some (roundRate (round64 (succeeded / settled)))
    deliveries1h := recent.length
    deliveriesWaiting := waiting.length
    consecutiveFailures := (breaker.map Health.consecutiveFailures).getD 0
    openedAt := breaker.bind Health.openedAt
    lastDeliveryAt :=
      ((deliveriesWhere ctx db fun d => d.endpointId = endpointId).map Delivery.createdAt).max? }

/-- The counts that a clause leaves, under endpoint and status. -/
def countsWhere (clause : Delivery Id W → Bool) : Id × State → Option ℕ :=
  record Group.key Group.count (fun _ => none)
    (groups byColumns (fun d => (d.endpointId, d.status)) (deliveriesWhere ctx db clause))

def healthRows (endpointIds : List Id) : List (Health Id) :=
  db.endpointHealth.filter fun h => h.endpointId ∈ endpointIds

end Own

section Summary

variable {ctx : ProjectContext Id} {db : Records Id W} {endpointIds : List Id}

theorem countsByEndpoint_eq {fuel : ℕ} (enough : db.deliveries.length < fuel)
    (clause : Delivery Id W → Bool) :
    countsByEndpoint ctx db fuel clause = .ok (some (countsWhere ctx db clause)) :=
  drain_groupBy _ _ _
    ((length_groups_le.trans (length_deliveriesWhere_le ctx db clause)).trans_lt enough) _

theorem count_at {id : Id} (asked : id ∈ endpointIds) (q : Delivery Id W → Bool) (s : State) :
    (countsWhere ctx db (fun d => endpointIds.contains d.endpointId && q d) (id, s)).getD 0 =
      (deliveriesWhere ctx db fun d => d.endpointId = id && q d).countP fun d => d.status = s := by
  rw [countsWhere, getD_record_count]
  apply countP_deliveriesWhere
  intro d
  have member (same : d.endpointId = id) : endpointIds.contains d.endpointId = true :=
    List.contains_iff_mem.mpr (same ▸ asked)
  grind

variable (ctx db) in
theorem lastDeliveryByEndpoint_eq (few : endpointIds.length ≤ MAX_PAGE_SIZE) :
    ∃ lastSeen, lastDeliveryByEndpoint ctx db endpointIds = .ok lastSeen ∧
      ∀ id ∈ endpointIds, lastSeen id =
        ((deliveriesWhere ctx db fun d => d.endpointId = id).map Delivery.createdAt).max? := by
  -- One group for each endpoint at most, so the page ceiling takes nothing away.
  have all : (groups (· ≤ ·) Delivery.endpointId
      (deliveriesWhere ctx db fun d => endpointIds.contains d.endpointId)).length ≤
        MAX_PAGE_SIZE := by
    refine (length_groups_le_of_forall_mem fun d hd => ?_).trans few
    exact List.contains_iff_mem.mp ((mem_deliveriesWhere ctx db).mp hd).2.2
  have read : lastDeliveryByEndpoint ctx db endpointIds =
      .ok (record Prod.fst Prod.snd (fun _ => none) ((groups (· ≤ ·) Delivery.endpointId
        (deliveriesWhere ctx db fun d => endpointIds.contains d.endpointId)).filterMap fun g =>
          (g.rows.map Delivery.createdAt).max?.map fun t => (g.key, t))) := by
    rw [lastDeliveryByEndpoint, groupBy_some, Option.getD_none, List.drop_zero,
      List.take_of_length_le (by simpa [MAX_PAGE_SIZE] using all)]
    rfl
  refine ⟨_, read, fun id asked => ?_⟩
  rw [record_filterMap_groups fun g => (g.rows.map Delivery.createdAt).max?]
  have own : (deliveriesWhere ctx db fun d => endpointIds.contains d.endpointId).filter
      (fun d => d.endpointId = id) = deliveriesWhere ctx db fun d => d.endpointId = id := by
    rw [deliveriesWhere, deliveriesWhere, List.filter_filter]
    refine List.filter_congr fun d _ => ?_
    have member (same : d.endpointId = id) : endpointIds.contains d.endpointId = true :=
      List.contains_iff_mem.mpr (same ▸ asked)
    grind
  split
  · rw [groupAt, own]
  · rename_i absent
    have empty : (deliveriesWhere ctx db fun d => d.endpointId = id) = [] := by
      rw [← own]
      refine List.filter_eq_nil_iff.mpr fun d hd here => absent ⟨d, hd, by simpa using here⟩
    rw [empty]
    rfl

theorem breakerFor_eq {id : Id} (asked : id ∈ endpointIds) :
    record Health.endpointId (fun h => h) (fun _ => none) (healthRows db endpointIds) id =
      db.endpointHealth.find? fun h => h.endpointId = id := by
  cases found : db.endpointHealth.find? fun h => h.endpointId = id with
  | none =>
    apply record_of_not_mem
    intro h hh
    simpa using List.find?_eq_none.mp found h (List.mem_filter.mp hh).1
  | some h =>
    have here : h.endpointId = id := by simpa using List.find?_some found
    have stored : h ∈ db.endpointHealth := List.mem_of_find?_eq_some found
    apply record_eq_some
    · intro other member same
      exact List.inj_on_of_nodup_map db.healthKey (List.mem_filter.mp member).1 stored
        (same.trans here.symm)
    · refine .inr ⟨h, List.mem_filter.mpr ⟨stored, ?_⟩, here⟩
      simpa [here] using asked

theorem filter_ownHealth (own : ∀ id ∈ endpointIds, viaEndpoint ctx db id = true) :
    (db.endpointHealth.filter fun h => ownHealth ctx db h && endpointIds.contains h.endpointId) =
      healthRows db endpointIds := by
  refine List.filter_congr fun h _ => ?_
  have := own h.endpointId
  by_cases member : h.endpointId ∈ endpointIds
  · simp [ownHealth, member, this member]
  · simp [member]

theorem summaryFrom_eq {id : Id} (asked : id ∈ endpointIds) (now : ℤ) :
    summaryFrom
        (countsWhere ctx db fun d =>
          endpointIds.contains d.endpointId && since now ≤ d.createdAt)
        (countsWhere ctx db fun d =>
          endpointIds.contains d.endpointId && IN_FLIGHT.contains d.status)
        (db.endpointHealth.find? fun h => h.endpointId = id)
        ((deliveriesWhere ctx db fun d => d.endpointId = id).map Delivery.createdAt).max? id =
      healthOf ctx db now id := by
  have settled := sum_statuses
    (deliveriesWhere ctx db fun d => d.endpointId = id && since now ≤ d.createdAt)
    (show [State.succeeded, .failed, .exhausted].Nodup by decide)
  simp only [List.map_cons, List.map_nil, List.sum_cons, List.sum_nil, Nat.add_zero] at settled
  simp only [summaryFrom, healthOf, count_at asked fun d => decide (since now ≤ d.createdAt),
    count_at asked fun d => !d.status.Terminal, sum_all_statuses, FAILING, List.map_cons,
    List.map_nil, List.sum_cons, List.sum_nil, Nat.add_zero, settled, contains_inFlight]

variable {fuel : ℕ} (enough : db.deliveries.length < fuel) (present : endpointIds ≠ [])
  (own : ∀ id ∈ endpointIds, viaEndpoint ctx db id = true)

include enough present own

theorem summarise_eq_bind (few : endpointIds.length ≤ MAX_PAGE_SIZE) (now : ℤ) :
    ∃ summaries : List (Health Id) → Id → Option EndpointHealthSummary,
      summarise ctx db fuel endpointIds now =
        (findMany "Endpoint health" (healthRows db endpointIds) none none).map
          (fun breakers => some (summaries breakers)) ∧
      ∀ id ∈ endpointIds, summaries (healthRows db endpointIds) id =
        some (healthOf ctx db now id) := by
  obtain ⟨lastSeen, read, last⟩ := lastDeliveryByEndpoint_eq ctx db few
  have occupied : endpointIds.isEmpty = false := List.isEmpty_eq_false_iff.mpr present
  refine ⟨fun breakers => record id (fun endpointId => summaryFrom
    (countsWhere ctx db fun d => endpointIds.contains d.endpointId && since now ≤ d.createdAt)
    (countsWhere ctx db fun d => endpointIds.contains d.endpointId && IN_FLIGHT.contains d.status)
    (record Health.endpointId (fun h => h) (fun _ => none) breakers endpointId)
    (lastSeen endpointId) endpointId) (fun _ => none) endpointIds, ?_, ?_⟩
  · simp only [summarise, occupied, countsByEndpoint_eq enough, filter_ownHealth own, read]
    cases findMany "Endpoint health" (healthRows db endpointIds) none none <;> rfl
  · intro endpointId asked
    apply record_eq_some
    · rintro other member rfl
      rw [breakerFor_eq member, last _ member, summaryFrom_eq member]
      rfl
    · exact .inr ⟨endpointId, asked, rfl⟩

theorem summarise_eq (few : endpointIds.length ≤ MAX_PAGE_SIZE)
    (readable : (healthRows db endpointIds).length ≤ DEFAULT_PAGE_SIZE) (now : ℤ) :
    ∃ summaries, summarise ctx db fuel endpointIds now = .ok (some summaries) ∧
      ∀ id ∈ endpointIds, summaries id = some (healthOf ctx db now id) := by
  obtain ⟨summaries, read, right⟩ := summarise_eq_bind enough present own few now
  refine ⟨summaries (healthRows db endpointIds), ?_, right⟩
  rw [read, findMany_none, if_neg (not_lt.mpr readable)]
  rfl

theorem summarise_error (few : endpointIds.length ≤ MAX_PAGE_SIZE)
    (many : DEFAULT_PAGE_SIZE < (healthRows db endpointIds).length) (now : ℤ) :
    ∃ e, summarise ctx db fuel endpointIds now = .error e := by
  obtain ⟨summaries, read, -⟩ := summarise_eq_bind enough present own few now
  rw [read, findMany_none, if_pos many]
  exact ⟨_, rfl⟩

end Summary

omit [LinearOrder Id] in
/-- `orderBy: { createdAt: 'desc' }`. -/
abbrev newestFirst : Endpoint Id → Endpoint Id → Prop := descending Endpoint.createdAt

/-- Every endpoint on the page comes with the health that is its own, the same that it would be
given if it were summarised alone. -/
def CarriesOwnHealth (ctx : ProjectContext Id) (db : Records Id W) (fuel : ℕ)
    (secrets : List (EndpointSecret Id)) (query : ListEndpointsQuery) (now : ℤ)
    (orderBy : List (Endpoint Id) → List (Endpoint Id)) : Prop :=
  ∃ page, list ctx db fuel secrets query now orderBy = .ok (some page) ∧
    page.rows.map EndpointItem.endpoint = (pageOf ctx db query orderBy).rows ∧
    ∀ item ∈ page.rows, item.health = some (healthOf ctx db now item.endpoint.id) ∧
      ∃ alone, summarise ctx db fuel [item.endpoint.id] now = .ok (some alone) ∧
        item.health = alone item.endpoint.id

section List

variable {ctx : ProjectContext Id} {db : Records Id W} {query : ListEndpointsQuery}
  {orderBy : List (Endpoint Id) → List (Endpoint Id)}
  (ordered : ∀ rows, Answer newestFirst rows (orderBy rows))

theorem length_pageOf_le : (pageOf ctx db query orderBy).rows.length ≤ MAX_PAGE_SIZE := by
  rw [pageOf, findPage, cut_rows]
  exact (List.length_take_le _ _).trans (pageSize_le _)

include ordered

theorem viaEndpoint_of_mem {id : Id}
    (listed : id ∈ (pageOf ctx db query orderBy).rows.map Endpoint.id) :
    viaEndpoint ctx db id = true := by
  obtain ⟨e, he, rfl⟩ := List.mem_map.mp listed
  rw [pageOf, findPage, cut_rows] at he
  have stored := (ordered _).perm.mem_iff.mp (List.mem_of_mem_drop (List.mem_of_mem_take he))
  obtain ⟨stored, own⟩ := List.mem_filter.mp stored
  rw [Bool.and_eq_true] at own
  exact List.any_eq_true.mpr ⟨e, stored, by simp [own.1]⟩

omit ordered

theorem length_healthRows_le (endpointIds : List Id) :
    (healthRows db endpointIds).length ≤ endpointIds.length := by
  rw [← List.length_map Health.endpointId]
  have nodup : ((healthRows db endpointIds).map Health.endpointId).Nodup :=
    db.healthKey.sublist (List.filter_sublist.map _)
  refine (List.subperm_of_subset nodup fun id hid => ?_).length_le
  obtain ⟨h, hh, rfl⟩ := List.mem_map.mp hid
  simpa using (List.mem_filter.mp hh).2

variable {fuel : ℕ} (secrets : List (EndpointSecret Id)) {now : ℤ}

variable (ctx db now) in
theorem exists_live (endpointIds : List Id) :
    ∃ live, liveSecretEndpointIds ctx db secrets endpointIds now = .ok live := by
  unfold liveSecretEndpointIds
  dsimp only
  split
  · exact ⟨_, rfl⟩
  · rw [groupBy_some]
    exact ⟨_, rfl⟩

/-- The page has the summaries where they could be made, and none where making them failed. -/
theorem exists_list {answer : Except AppError (Option (Id → Option EndpointHealthSummary))}
    (summarised : summarise ctx db fuel ((pageOf ctx db query orderBy).rows.map Endpoint.id) now =
      answer) :
    ∃ live, list ctx db fuel secrets query now orderBy =
      .ok ((answer.toOption.getD (some fun _ => none)).map
        (attach (pageOf ctx db query orderBy) live)) := by
  obtain ⟨live, read⟩ := exists_live ctx db secrets now
    ((pageOf ctx db query orderBy).rows.map Endpoint.id)
  refine ⟨live, ?_⟩
  simp only [list, read, summarised]
  cases answer <;> rfl

include ordered

theorem not_carriesOwnHealth (enough : db.deliveries.length < fuel)
    (many : DEFAULT_PAGE_SIZE <
      (healthRows db ((pageOf ctx db query orderBy).rows.map Endpoint.id)).length) :
    ¬ CarriesOwnHealth ctx db fuel secrets query now orderBy := by
  have occupied : (pageOf ctx db query orderBy).rows.map Endpoint.id ≠ [] := by
    intro empty
    rw [empty] at many
    exact absurd (many.trans_le (length_healthRows_le [])) (Nat.not_lt_zero _)
  obtain ⟨e, failed⟩ :=
    summarise_error enough occupied (fun id hid => viaEndpoint_of_mem ordered hid)
    (by rw [List.length_map]; exact length_pageOf_le) many now
  obtain ⟨live, listed⟩ := exists_list secrets failed
  rintro ⟨page, result, -, own⟩
  obtain rfl := Option.some.inj (Except.ok.inj (listed.symm.trans result))
  obtain ⟨e, he⟩ := List.exists_mem_of_ne_nil _ fun empty => occupied
    (List.map_eq_nil_iff.mpr empty)
  exact absurd (own _ (List.mem_map_of_mem he)).1.symm (Option.some_ne_none _)

theorem carriesOwnHealth (enough : db.deliveries.length < fuel)
    (readable : (healthRows db ((pageOf ctx db query orderBy).rows.map Endpoint.id)).length ≤
      DEFAULT_PAGE_SIZE) :
    CarriesOwnHealth ctx db fuel secrets query now orderBy := by
  by_cases empty : (pageOf ctx db query orderBy).rows.map Endpoint.id = []
  · have summarised : summarise ctx db fuel
      ((pageOf ctx db query orderBy).rows.map Endpoint.id) now =
        .ok (some fun _ => none) := by
      rw [empty]
      rfl
    obtain ⟨live, listed⟩ := exists_list secrets summarised
    refine ⟨_, listed, by simp [attach, Function.comp_def], fun item hitem => ?_⟩
    rw [attach, List.map_eq_nil_iff.mp empty] at hitem
    cases hitem
  · obtain ⟨health, summarised, right⟩ := summarise_eq enough empty
      (fun id hid => viaEndpoint_of_mem ordered hid)
      (by rw [List.length_map]; exact length_pageOf_le) readable now
    obtain ⟨live, listed⟩ := exists_list secrets summarised
    refine ⟨_, listed, by simp [attach, Function.comp_def], fun item hitem => ?_⟩
    obtain ⟨e, he, rfl⟩ := List.mem_map.mp hitem
    have asked := List.mem_map_of_mem (f := Endpoint.id) he
    -- Alone, an endpoint has one health row at most, which is always read.
    obtain ⟨alone, single, same⟩ := summarise_eq enough (List.cons_ne_nil e.id [])
      (fun id hid => List.mem_singleton.mp hid ▸ viaEndpoint_of_mem ordered asked)
      (by simp [MAX_PAGE_SIZE]) ((length_healthRows_le _).trans (by simp [DEFAULT_PAGE_SIZE])) now
    refine ⟨right _ asked, alone, single, ?_⟩
    exact (right _ asked).trans (same _ (List.mem_singleton_self _)).symm

/-- The page carries each endpoint's own health just if no more of its endpoints than a default
page holds have a health row. -/
theorem own_health_listed_iff (enough : db.deliveries.length < fuel) :
    CarriesOwnHealth ctx db fuel secrets query now orderBy ↔
      (healthRows db ((pageOf ctx db query orderBy).rows.map Endpoint.id)).length ≤
        DEFAULT_PAGE_SIZE := by
  constructor
  · intro own
    by_contra many
    exact not_carriesOwnHealth ordered secrets enough (not_le.mp many) own
  · exact carriesOwnHealth ordered secrets enough

end List

def tried (n : ℕ) : Records ℕ ℕ where
  events := []
  endpoints := (List.range n).map fun i => ⟨i, 1, "e", "https://e.test", .active, true, i⟩
  endpointHealth := (List.range n).map fun i => ⟨i, 0, none⟩
  deliveries := []
  eventKey := List.nodup_nil
  endpointKey := @nodup_map_range _ _ _ _ id rfl Function.injective_id n
  healthKey := @nodup_map_range _ _ _ _ id rfl Function.injective_id n
  deliveryKey := List.nodup_nil

def largestPage : ListEndpointsQuery := ⟨none, none, some 200, none⟩

theorem tried_page_carries_health :
    (healthRows (tried 50) ((pageOf ⟨1, 1⟩ (tried 50) largestPage
      (List.insertionSort newestFirst)).rows.map Endpoint.id)).length ≤ DEFAULT_PAGE_SIZE ∧
    CarriesOwnHealth ⟨1, 1⟩ (tried 50) 1 [] largestPage 0 (List.insertionSort newestFirst) := by
  have few : (healthRows (tried 50) ((pageOf ⟨1, 1⟩ (tried 50) largestPage
      (List.insertionSort newestFirst)).rows.map Endpoint.id)).length ≤ DEFAULT_PAGE_SIZE := by
    decide +kernel
  exact ⟨few, (own_health_listed_iff answer_insertionSort [] (by decide)).mpr few⟩

/-- A page of 51 endpoints that have a health row each. -/
theorem tried_page_loses_health :
    ¬ CarriesOwnHealth ⟨1, 1⟩ (tried 51) 1 [] largestPage 0 (List.insertionSort newestFirst) := by
  apply not_carriesOwnHealth answer_insertionSort [] (by decide)
  decide +kernel

end Hookubit.Endpoints.EndpointHealth
