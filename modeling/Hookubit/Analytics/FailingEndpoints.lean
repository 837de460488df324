/- sources: analytics/analytics.service.ts failingEndpoints, analytics/analytics-limits.ts
   digest: The endpoints that fail hardest in a window, ranked from two grouped reads. -/

import Hookubit.Analytics.Window
import Hookubit.Authz.ProjectReads
import Mathlib.Algebra.Order.BigOperators.Group.List
import Mathlib.Data.Fintype.EquivFin
import Mathlib.Data.List.ProdSigma

/-!
The database ranks groups by their counts; how it orders groups of one count is its own choice.
-/

set_option autoImplicit false
set_option relaxedAutoImplicit false

namespace Hookubit.Analytics.FailingEndpoints

open Analytics.Window Authz.ProjectReads
open Authz.ScopedRepository (MAX_PAGE_SIZE)
open Common.Errors
open Data.Binary64 Data.GroupCounts Data.OffsetPages
open Postgres.Clock Queue.Deliveries Worker.StateMachine
open Worker.Store (EndpointStatus)

def MAX_ENDPOINT_RANKING : ℕ := 50

structure FailingEndpointsQuery where
  windowHours : Option ℤ
  limit : Option ℕ
  deriving DecidableEq

structure FailingEndpoint (Id : Type) where
  endpointId : Id
  name : Option String
  url : Option String
  status : Option EndpointStatus
  enabled : Option Bool
  failing : ℕ
  failed : ℕ
  exhausted : ℕ
  retrying : ℕ
  total : ℕ
  failureRate : ℚ
  deriving DecidableEq

structure FailingEndpointsAnswer (Id : Type) where
  window : AnalyticsWindow
  data : List (FailingEndpoint Id)
  hasMore : Bool
  deriving DecidableEq

variable {Id W : Type} [LinearOrder Id]

/-- The row of one endpoint, from the counts by endpoint and status. -/
def rowOf (byEndpoint : Id × State → Option ℕ) (endpoint : Option (Endpoint Id)) (endpointId : Id) :
    FailingEndpoint Id :=
  let countAt (status : State) : ℕ := (byEndpoint (endpointId, status)).getD 0
  let total := (ALL_STATUSES.map countAt).sum
  let failed := countAt .failed
  let exhausted := countAt .exhausted
  let failing := failed + exhausted
  { endpointId := endpointId
    name := endpoint.map Endpoint.name
    url := endpoint.map Endpoint.url
    status := endpoint.map Endpoint.status
    enabled := endpoint.map Endpoint.enabled
    failing := failing
    failed := failed
    exhausted := exhausted
    retrying := countAt .retrying
    total := total
    failureRate := if total = 0 then 0 else roundRate (round64 (failing / total)) }

omit [LinearOrder Id] in
def inWindow (window : AnalyticsWindow) (d : Delivery Id W) : Bool :=
  window.windowFrom ≤ d.createdAt && d.createdAt < window.windowTo

section Service

variable (ctx : ProjectContext Id) (db : Records Id W)

/-- What the ranking query groups: the failing deliveries of the window, by endpoint. -/
def failingGroups (window : AnalyticsWindow) : List (Group Id (Delivery Id W)) :=
  groups (· ≤ ·) Delivery.endpointId
    (deliveriesWhere ctx db fun d => inWindow window d && FAILING.contains d.status)

/-- The rest of the request, once the endpoints are known: the breakdown by status, and the
endpoint rows themselves. -/
def rankingRows (window : AnalyticsWindow) (limit : ℕ) (endpointIds : List Id) :
    Except AppError (List (FailingEndpoint Id)) := do
  let breakdown ← groupBy "Delivery"
    (groups byColumns (fun d => (d.endpointId, d.status)) (deliveriesWhere ctx db fun d =>
      inWindow window d && endpointIds.contains d.endpointId))
    (some (MAX_ENDPOINT_RANKING * ALL_STATUSES.length)) none
  let endpoints ← findMany "Endpoint"
    (db.endpoints.filter fun e => ownEndpoint ctx e && endpointIds.contains e.id) (some limit) none
  let byEndpoint := record Group.key Group.count (fun _ => none) breakdown
  let rows := record Endpoint.id id (fun _ => none) endpoints
  .ok (endpointIds.map fun endpointId => rowOf byEndpoint (rows endpointId) endpointId)

def limitOf (query : FailingEndpointsQuery) : ℕ := min (query.limit.getD 10) MAX_ENDPOINT_RANKING

/-- `orderBy` is the order that the database picks for the ranking. -/
def failingEndpoints (query : FailingEndpointsQuery) (now : ℤ)
    (orderBy : List (Group Id (Delivery Id W)) → List (Group Id (Delivery Id W))) :
    Except AppError (FailingEndpointsAnswer Id) := do
  let window ← resolveWindow query.windowHours now
  let limit := limitOf query
  let ranked ← groupBy "Delivery" (orderBy (failingGroups ctx db window)) (some (limit + 1)) none
  let hasMoreEndpoints : Bool := limit < ranked.length
  let ranked := if hasMoreEndpoints then ranked.take limit else ranked
  let endpointIds := ranked.map Group.key
  if endpointIds.isEmpty then .ok { window := window, data := [], hasMore := false }
  else do
    let data ← rankingRows ctx db window limit endpointIds
    .ok { window := window, data := data, hasMore := hasMoreEndpoints }

end Service

/-- `orderBy: { _count: { endpointId: 'desc' } }`. -/
abbrev mostFirst : Group Id (Delivery Id W) → Group Id (Delivery Id W) → Prop :=
  descending Group.count

/-- The true number of failing deliveries of an endpoint, among those of the window. -/
def failingIn (deliveries : List (Delivery Id W)) (endpointId : Id) : ℕ :=
  deliveries.countP fun d => d.endpointId = endpointId && FAILING.contains d.status

def totalIn (deliveries : List (Delivery Id W)) (endpointId : Id) : ℕ :=
  deliveries.countP fun d => d.endpointId = endpointId

structure Exact (deliveries : List (Delivery Id W)) (data : List (FailingEndpoint Id)) : Prop where
  failing : ∀ row ∈ data, row.failing = failingIn deliveries row.endpointId
  total : ∀ row ∈ data, row.total = totalIn deliveries row.endpointId
  sorted : data.Pairwise fun a b => b.failing ≤ a.failing
  worst : ∀ endpointId ∉ data.map FailingEndpoint.endpointId, ∀ row ∈ data,
    failingIn deliveries endpointId ≤ failingIn deliveries row.endpointId

/-- How many endpoint and status pairs occur among the deliveries of these endpoints. -/
def pairCount (deliveries : List (Delivery Id W)) (endpointIds : List Id) : ℕ :=
  ((deliveries.filter fun d => endpointIds.contains d.endpointId).map
    fun d => (d.endpointId, d.status)).dedup.length

/-- A possible choice of the endpoints that fail hardest: no more than the limit, none left out
where there is room, and none left out that fails harder than one of them. -/
structure Worst (deliveries : List (Delivery Id W)) (limit : ℕ) (endpointIds : List Id) : Prop where
  nodup : endpointIds.Nodup
  failing : ∀ id ∈ endpointIds, 0 < failingIn deliveries id
  within : endpointIds.length ≤ limit
  full : endpointIds.length < limit → ∀ id, 0 < failingIn deliveries id → id ∈ endpointIds
  worst : ∀ id ∉ endpointIds, ∀ other ∈ endpointIds,
    failingIn deliveries id ≤ failingIn deliveries other

section Ranking

variable {deliveries : List (Delivery Id W)} {endpointIds : List Id}

/-- The groups that are ranked, from the deliveries of the window. -/
def rankedGroups (deliveries : List (Delivery Id W)) : List (Group Id (Delivery Id W)) :=
  groups (· ≤ ·) Delivery.endpointId (deliveries.filter fun d => FAILING.contains d.status)

theorem count_of_mem_rankedGroups {g : Group Id (Delivery Id W)}
    (hg : g ∈ rankedGroups deliveries) :
    g.count = failingIn deliveries g.key := by
  rw [(mem_groups.mp hg).2, groupAt_count, List.countP_filter]
  rfl

theorem exists_group_iff {id : Id} :
    (∃ g ∈ rankedGroups deliveries, g.key = id) ↔ 0 < failingIn deliveries id := by
  rw [failingIn, List.countP_pos_iff]
  constructor
  · rintro ⟨g, hg, rfl⟩
    obtain ⟨⟨d, hd, same⟩, -⟩ := mem_groups.mp hg
    obtain ⟨hd, failing⟩ := List.mem_filter.mp hd
    exact ⟨d, hd, by simpa [same] using failing⟩
  · rintro ⟨d, hd, here⟩
    rw [Bool.and_eq_true, decide_eq_true_eq] at here
    exact ⟨groupAt _ _ id, mem_groups.mpr
      ⟨⟨d, List.mem_filter.mpr ⟨hd, here.2⟩, here.1⟩, rfl⟩, rfl⟩

theorem worst_of_answer {answer : List (Group Id (Delivery Id W))}
    (allowed : Answer mostFirst (rankedGroups deliveries) answer) (limit : ℕ) :
    Worst deliveries limit ((answer.take limit).map Group.key) := by
  have inside {g : Group Id (Delivery Id W)} (hg : g ∈ answer) : g ∈ rankedGroups deliveries :=
    allowed.perm.mem_iff.mp hg
  refine ⟨?_, ?_, ?_, ?_, ?_⟩
  · have distinct : (answer.map Group.key).Nodup :=
      (allowed.perm.map Group.key).nodup_iff.mpr groups_keys_nodup
    exact distinct.sublist ((List.take_sublist limit answer).map _)
  · intro id hid
    obtain ⟨g, hg, rfl⟩ := List.mem_map.mp hid
    exact exists_group_iff.mp ⟨g, inside (List.mem_of_mem_take hg), rfl⟩
  · rw [List.length_map]
    exact List.length_take_le _ _
  · intro room id failing
    rw [List.length_map, List.length_take] at room
    obtain ⟨g, hg, rfl⟩ := exists_group_iff.mpr failing
    rw [List.take_of_length_le (by omega)]
    exact List.mem_map_of_mem (allowed.perm.mem_iff.mpr hg)
  · intro id out other hother
    obtain ⟨o, ho, rfl⟩ := List.mem_map.mp hother
    by_cases failing : 0 < failingIn deliveries id
    · obtain ⟨g, hg, rfl⟩ := exists_group_iff.mpr failing
      -- A group that is not among the first stands behind all of them.
      have late : g ∈ answer.drop limit := by
        have member := allowed.perm.mem_iff.mpr hg
        rw [← List.take_append_drop limit answer] at member
        exact (List.mem_append.mp member).resolve_left fun early => out (List.mem_map_of_mem early)
      have sorted := allowed.sorted
      rw [← List.take_append_drop limit answer] at sorted
      have fewer : g.count ≤ o.count := (List.pairwise_append.mp sorted).2.2 o ho g late
      rwa [count_of_mem_rankedGroups hg,
        count_of_mem_rankedGroups (inside (List.mem_of_mem_take ho))] at fewer
    · omega

theorem Worst.exists_answer {limit : ℕ} (worst : Worst deliveries limit endpointIds) :
    ∃ answer, Answer mostFirst (rankedGroups deliveries) answer ∧
      ((answer.take limit).map Group.key).Perm endpointIds := by
  let chosen := (rankedGroups deliveries).filter fun g => g.key ∈ endpointIds
  let others := (rankedGroups deliveries).filter fun g => !decide (g.key ∈ endpointIds)
  have keys : ((chosen.insertionSort mostFirst).map Group.key).Perm endpointIds := by
    have distinct : (chosen.map Group.key).Nodup :=
      groups_keys_nodup.sublist (List.filter_sublist.map _)
    refine ((List.perm_insertionSort mostFirst chosen).map _).trans
      ((List.perm_ext_iff_of_nodup distinct worst.nodup).mpr fun id => ?_)
    constructor
    · intro hid
      obtain ⟨g, hg, rfl⟩ := List.mem_map.mp hid
      simpa using (List.mem_filter.mp hg).2
    · intro hid
      obtain ⟨g, hg, rfl⟩ := exists_group_iff.mpr (worst.failing id hid)
      exact List.mem_map_of_mem (List.mem_filter.mpr ⟨hg, by simpa using hid⟩)
  have length_eq : (chosen.insertionSort mostFirst).length = endpointIds.length := by
    rw [← List.length_map Group.key, keys.length_eq]
  refine ⟨chosen.insertionSort mostFirst ++ others.insertionSort mostFirst, ⟨?_, ?_⟩, ?_⟩
  · exact ((List.perm_insertionSort _ _).append (List.perm_insertionSort _ _)).trans
      (List.filter_append_perm _ _)
  · refine List.pairwise_append.mpr
      ⟨List.pairwise_insertionSort _ _, List.pairwise_insertionSort _ _, ?_⟩
    intro a ha b hb
    obtain ⟨ha, inside⟩ := List.mem_filter.mp ((List.mem_insertionSort _).mp ha)
    obtain ⟨hb, outside⟩ := List.mem_filter.mp ((List.mem_insertionSort _).mp hb)
    unfold mostFirst descending
    rw [count_of_mem_rankedGroups ha, count_of_mem_rankedGroups hb]
    exact worst.worst _ (by simpa using outside) _ (by simpa using inside)
  · -- With room left there are no others.
    have first : (chosen.insertionSort mostFirst ++ others.insertionSort mostFirst).take limit =
        chosen.insertionSort mostFirst := by
      obtain room | exactly := lt_or_eq_of_le worst.within
      · have absent : others = [] := by
          refine List.filter_eq_nil_iff.mpr fun g hg => ?_
          simpa using worst.full room g.key (exists_group_iff.mp ⟨g, hg, rfl⟩)
        rw [absent, List.insertionSort_nil, List.append_nil,
          List.take_of_length_le (length_eq.trans_le worst.within)]
      · exact List.take_left' (length_eq.trans exactly)
    rw [first]
    exact keys

end Ranking

section Counts

variable {deliveries : List (Delivery Id W)} {endpointIds : List Id}

def breakdownGroups (deliveries : List (Delivery Id W)) (endpointIds : List Id) :
    List (Group (Id × State) (Delivery Id W)) :=
  groups byColumns (fun d => (d.endpointId, d.status))
    (deliveries.filter fun d => endpointIds.contains d.endpointId)

theorem length_breakdownGroups :
    (breakdownGroups deliveries endpointIds).length = pairCount deliveries endpointIds :=
  length_groups

/-- The counts as they are read off the first groups of the breakdown. -/
def countsOf (deliveries : List (Delivery Id W)) (endpointIds : List Id) : Id × State → Option ℕ :=
  record Group.key Group.count (fun _ => none)
    ((breakdownGroups deliveries endpointIds).take MAX_PAGE_SIZE)

theorem countP_pair {id : Id} (asked : id ∈ endpointIds) (s : State) :
    ((deliveries.filter fun d => endpointIds.contains d.endpointId).countP
      fun d => (d.endpointId, d.status) = (id, s)) =
      (deliveries.filter fun d => d.endpointId = id).countP fun d => d.status = s := by
  rw [List.countP_filter, List.countP_filter]
  refine List.countP_congr fun d _ => ?_
  have member (same : d.endpointId = id) : endpointIds.contains d.endpointId = true :=
    List.contains_iff_mem.mpr (same ▸ asked)
  grind

theorem totalIn_eq (id : Id) : (ALL_STATUSES.map fun s =>
    (deliveries.filter fun d => d.endpointId = id).countP fun d => d.status = s).sum =
      totalIn deliveries id := by
  rw [sum_all_statuses, totalIn, List.countP_eq_length_filter]

theorem failingIn_eq (id : Id) :
    ((deliveries.filter fun d => d.endpointId = id).countP fun d => d.status = .failed) +
      ((deliveries.filter fun d => d.endpointId = id).countP fun d => d.status = .exhausted) =
        failingIn deliveries id := by
  have pair := sum_statuses (deliveries.filter fun d => d.endpointId = id)
    (show FAILING.Nodup by decide)
  simp only [FAILING, List.map_cons, List.map_nil, List.sum_cons, List.sum_nil, Nat.add_zero]
    at pair
  rw [pair, failingIn, List.countP_filter]
  refine List.countP_congr fun d _ => ?_
  simp [FAILING, and_comm]

theorem countsOf_eq (fits : pairCount deliveries endpointIds ≤ MAX_PAGE_SIZE) {id : Id}
    (asked : id ∈ endpointIds) (s : State) :
    (countsOf deliveries endpointIds (id, s)).getD 0 =
      (deliveries.filter fun d => d.endpointId = id).countP fun d => d.status = s := by
  rw [countsOf, List.take_of_length_le (length_breakdownGroups.trans_le fits), breakdownGroups,
    getD_record_count, countP_pair asked]

theorem exists_total_lt (cut : MAX_PAGE_SIZE < pairCount deliveries endpointIds) :
    ∃ id ∈ endpointIds,
      (ALL_STATUSES.map fun s => (countsOf deliveries endpointIds (id, s)).getD 0).sum <
        totalIn deliveries id := by
  rw [← length_breakdownGroups] at cut
  have late : (breakdownGroups deliveries endpointIds)[MAX_PAGE_SIZE] ∈
      (breakdownGroups deliveries endpointIds).drop MAX_PAGE_SIZE :=
    List.mem_drop_iff_getElem.mpr ⟨0, by omega, rfl⟩
  obtain ⟨⟨d, hd, same⟩, -⟩ := mem_groups.mp (List.mem_of_mem_drop late)
  obtain ⟨hd, asked⟩ := List.mem_filter.mp hd
  refine ⟨d.endpointId, List.contains_iff_mem.mp asked, ?_⟩
  rw [← totalIn_eq]
  have missing : countsOf deliveries endpointIds (d.endpointId, d.status) = none := by
    rw [same]
    exact record_take_of_mem_drop late
  refine List.sum_lt_sum _ _ (fun s _ => ?_) ⟨d.status, ?_, ?_⟩
  · rw [← countP_pair (List.contains_iff_mem.mp asked)]
    exact getD_record_take_le MAX_PAGE_SIZE _
  · cases d.status <;> decide
  · rw [missing, Option.getD_none, List.countP_pos_iff]
    exact ⟨d, List.mem_filter.mpr ⟨hd, by simp⟩, by simp⟩

end Counts

section Answer

variable {ctx : ProjectContext Id} {db : Records Id W} {query : FailingEndpointsQuery} {now : ℤ}
  {window : AnalyticsWindow}

def windowDeliveries (ctx : ProjectContext Id) (db : Records Id W) (window : AnalyticsWindow) :
    List (Delivery Id W) :=
  deliveriesWhere ctx db (inWindow window)

def firstRanked (limit : ℕ) (answer : List (Group Id (Delivery Id W))) : List Id :=
  (answer.take limit).map Group.key

theorem failingGroups_eq :
    failingGroups ctx db window = rankedGroups (windowDeliveries ctx db window) := by
  rw [failingGroups, deliveriesWhere_and]
  rfl

theorem rankingRows_eq (ctx : ProjectContext Id) (db : Records Id W) (window : AnalyticsWindow)
    (limit : ℕ) (endpointIds : List Id) :
    ∃ rows : Id → Option (Endpoint Id), rankingRows ctx db window limit endpointIds =
      .ok (endpointIds.map fun id =>
        rowOf (countsOf (windowDeliveries ctx db window) endpointIds) (rows id) id) := by
  have cut : min (max 1 (MAX_ENDPOINT_RANKING * ALL_STATUSES.length)) MAX_PAGE_SIZE =
      MAX_PAGE_SIZE := by decide
  rw [rankingRows, groupBy_some, deliveriesWhere_and, cut]
  exact ⟨_, rfl⟩

variable (ctx db) in
theorem failingEndpoints_eq (resolved : resolveWindow query.windowHours now = .ok window)
    (orderBy : List (Group Id (Delivery Id W)) → List (Group Id (Delivery Id W))) :
    ∃ answer, failingEndpoints ctx db query now orderBy = .ok answer ∧
      ∃ rows : Id → Option (Endpoint Id), answer.data =
        (firstRanked (limitOf query) (orderBy (failingGroups ctx db window))).map fun id =>
          rowOf (countsOf (windowDeliveries ctx db window)
            (firstRanked (limitOf query) (orderBy (failingGroups ctx db window))))
              (rows id) id := by
  have one_more : min (max 1 (limitOf query + 1)) MAX_PAGE_SIZE = limitOf query + 1 := by
    have : limitOf query ≤ 50 := min_le_right _ _
    unfold MAX_PAGE_SIZE
    omega
  have first (answer : List (Group Id (Delivery Id W))) :
      (if limitOf query < (answer.take (limitOf query + 1)).length then
        (answer.take (limitOf query + 1)).take (limitOf query)
      else answer.take (limitOf query + 1)) = answer.take (limitOf query) := by
    simpa [cut] using cut_rows answer (limitOf query) 0
  obtain ⟨rows, read⟩ := rankingRows_eq ctx db window (limitOf query)
    (firstRanked (limitOf query) (orderBy (failingGroups ctx db window)))
  have listed : ((orderBy (failingGroups ctx db window)).take (limitOf query)).map Group.key =
      firstRanked (limitOf query) (orderBy (failingGroups ctx db window)) := rfl
  simp only [failingEndpoints, resolved, groupBy_some, one_more, Option.getD_none, List.drop_zero,
    bind, Except.bind, decide_eq_true_eq, first, listed, read]
  split
  · rename_i absent
    rw [List.isEmpty_iff.mp absent]
    exact ⟨_, rfl, rows, rfl⟩
  · exact ⟨_, rfl, rows, rfl⟩

variable {deliveries : List (Delivery Id W)}

theorem exact_iff {limit : ℕ} {answer : List (Group Id (Delivery Id W))}
    (allowed : Answer mostFirst (rankedGroups deliveries) answer)
    (rows : Id → Option (Endpoint Id)) :
    Exact deliveries ((firstRanked limit answer).map fun id =>
        rowOf (countsOf deliveries (firstRanked limit answer)) (rows id) id) ↔
      pairCount deliveries (firstRanked limit answer) ≤ MAX_PAGE_SIZE := by
  constructor
  · intro precise
    by_contra cut
    obtain ⟨id, asked, less⟩ := exists_total_lt (not_le.mp cut)
    exact less.ne (precise.total _ (List.mem_map_of_mem asked))
  · intro fits
    have failing : ∀ id ∈ firstRanked limit answer,
        (rowOf (countsOf deliveries (firstRanked limit answer)) (rows id) id).failing =
          failingIn deliveries id := by
      intro id asked
      simp only [rowOf, countsOf_eq fits asked]
      exact failingIn_eq id
    have worst := worst_of_answer allowed limit
    refine ⟨?_, ?_, ?_, ?_⟩
    · intro row hrow
      obtain ⟨id, asked, rfl⟩ := List.mem_map.mp hrow
      exact failing id asked
    · intro row hrow
      obtain ⟨id, asked, rfl⟩ := List.mem_map.mp hrow
      simp only [rowOf, countsOf_eq fits asked]
      exact totalIn_eq id
    · have sorted : (answer.take limit).Pairwise fun a b => b.count ≤ a.count :=
        allowed.sorted.sublist (List.take_sublist limit answer)
      rw [List.pairwise_map, firstRanked, List.pairwise_map]
      refine sorted.imp_of_mem fun {a b} ha hb fewer => ?_
      rw [count_of_mem_rankedGroups (allowed.perm.mem_iff.mp (List.mem_of_mem_take ha)),
        count_of_mem_rankedGroups (allowed.perm.mem_iff.mp (List.mem_of_mem_take hb))] at fewer
      exact ((failing _ (List.mem_map_of_mem hb)).trans_le fewer).trans_eq
        (failing _ (List.mem_map_of_mem ha)).symm
    · intro id out row hrow
      obtain ⟨other, asked, rfl⟩ := List.mem_map.mp hrow
      refine worst.worst id (fun inside => out ?_) other asked
      rw [List.map_map]
      exact List.mem_map.mpr ⟨id, inside, rfl⟩

theorem pairCount_perm {ids ids' : List Id}
    (same : ids.Perm ids') : pairCount deliveries ids = pairCount deliveries ids' := by
  have contains (d : Delivery Id W) : ids.contains d.endpointId = ids'.contains d.endpointId := by
    rw [Bool.eq_iff_iff, List.contains_iff_mem, List.contains_iff_mem, same.mem_iff]
  simp only [pairCount, contains]

/-- The request is answered with an exact ranking, whichever way the database orders ties. -/
def AnswersExactly (ctx : ProjectContext Id) (db : Records Id W) (query : FailingEndpointsQuery)
    (now : ℤ) (window : AnalyticsWindow) : Prop :=
  ∀ orderBy : List (Group Id (Delivery Id W)) → List (Group Id (Delivery Id W)),
    (∀ groups, Answer mostFirst groups (orderBy groups)) →
      ∃ answer, failingEndpoints ctx db query now orderBy = .ok answer ∧
        Exact (windowDeliveries ctx db window) answer.data

theorem not_answersExactly (resolved : resolveWindow query.windowHours now = .ok window)
    {endpointIds : List Id}
    (worst : Worst (windowDeliveries ctx db window) (limitOf query) endpointIds)
    (many : MAX_PAGE_SIZE < pairCount (windowDeliveries ctx db window) endpointIds) :
    ¬ AnswersExactly ctx db query now window := by
  intro exactly
  obtain ⟨ranking, allowed, first⟩ := worst.exists_answer
  obtain ⟨orderBy, ordered, same⟩ := allowed.exists_orderBy
  rw [← failingGroups_eq] at same
  obtain ⟨answer, listed, right⟩ := exactly orderBy ordered
  obtain ⟨answer', listed', rows, data⟩ := failingEndpoints_eq ctx db resolved orderBy
  obtain rfl := Except.ok.inj (listed.symm.trans listed')
  rw [data, same, exact_iff allowed, firstRanked, pairCount_perm first] at right
  omega

theorem answersExactly (resolved : resolveWindow query.windowHours now = .ok window)
    (fits : ∀ endpointIds, Worst (windowDeliveries ctx db window) (limitOf query) endpointIds →
      pairCount (windowDeliveries ctx db window) endpointIds ≤ MAX_PAGE_SIZE) :
    AnswersExactly ctx db query now window := by
  intro orderBy ordered
  obtain ⟨answer, listed, rows, data⟩ := failingEndpoints_eq ctx db resolved orderBy
  have allowed := ordered (failingGroups ctx db window)
  refine ⟨answer, listed, ?_⟩
  rw [data]
  have allowed' : Answer mostFirst (rankedGroups (windowDeliveries ctx db window))
      (orderBy (failingGroups ctx db window)) := by
    rw [← failingGroups_eq]
    exact allowed
  exact (exact_iff allowed' rows).mpr (fits _ (worst_of_answer allowed' (limitOf query)))

/-- The ranking is exact just if, however the worst endpoints are chosen among those that fail
equally often, no more endpoint and status pairs occur among their deliveries in the window than
a page holds. -/
theorem ranking_exact_iff (resolved : resolveWindow query.windowHours now = .ok window) :
    AnswersExactly ctx db query now window ↔
      ∀ endpointIds, Worst (windowDeliveries ctx db window) (limitOf query) endpointIds →
        pairCount (windowDeliveries ctx db window) endpointIds ≤ MAX_PAGE_SIZE := by
  constructor
  · intro exactly endpointIds worst
    by_contra many
    exact not_answersExactly resolved worst (not_le.mp many) exactly
  · exact answersExactly resolved

end Answer

variable {deliveries : List (Delivery Id W)}

theorem Worst.of_all {limit : ℕ} {endpointIds : List Id}
    (nodup : endpointIds.Nodup) (within : endpointIds.length ≤ limit)
    (failing : ∀ id ∈ endpointIds, 0 < failingIn deliveries id)
    (all : ∀ d ∈ deliveries, d.endpointId ∈ endpointIds) : Worst deliveries limit endpointIds := by
  have inside : ∀ id, 0 < failingIn deliveries id → id ∈ endpointIds := by
    intro id present
    obtain ⟨d, hd, here⟩ := List.countP_pos_iff.mp present
    rw [Bool.and_eq_true, decide_eq_true_eq] at here
    exact here.1 ▸ all d hd
  refine ⟨nodup, failing, within, fun _ => inside, fun id out other _ => ?_⟩
  have absent : failingIn deliveries id = 0 :=
    Nat.eq_zero_of_not_pos fun present => out (inside id present)
  rw [absent]
  exact Nat.zero_le _

theorem length_mul_le_pairCount {endpointIds : List Id} (nodup : endpointIds.Nodup)
    (every : ∀ id ∈ endpointIds, ∀ s, ∃ d ∈ deliveries, d.endpointId = id ∧ d.status = s) :
    endpointIds.length * 9 ≤ pairCount deliveries endpointIds := by
  have distinct : (endpointIds ×ˢ ALL_STATUSES).Nodup := nodup.product (by decide)
  have length_eq : (endpointIds ×ˢ ALL_STATUSES).length = endpointIds.length * 9 :=
    List.length_product _ _
  rw [← length_eq]
  refine (List.subperm_of_subset distinct fun pair hpair => ?_).length_le
  have asked : pair.1 ∈ endpointIds := (List.pair_mem_product.mp hpair).1
  obtain ⟨d, hd, here, status⟩ := every pair.1 asked pair.2
  refine List.mem_dedup.mpr (List.mem_map.mpr ⟨d, List.mem_filter.mpr ⟨hd, ?_⟩, ?_⟩)
  · rw [here]
    exact List.contains_iff_mem.mpr asked
  · rw [here, status]

theorem pairCount_le_length_mul (deliveries : List (Delivery Id W)) (endpointIds : List Id) :
    pairCount deliveries endpointIds ≤ endpointIds.length * 9 := by
  have length_eq : (endpointIds ×ˢ ALL_STATUSES).length = endpointIds.length * 9 :=
    List.length_product _ _
  have all (s : State) : s ∈ ALL_STATUSES := by cases s <;> decide
  rw [← length_eq]
  refine (List.subperm_of_subset (List.nodup_dedup _) fun pair hpair => ?_).length_le
  obtain ⟨d, hd, rfl⟩ := List.mem_map.mp (List.mem_dedup.mp hpair)
  exact List.pair_mem_product.mpr
    ⟨List.contains_iff_mem.mp (List.mem_filter.mp hd).2, all d.status⟩

theorem answersExactly_of_limit_le {ctx : ProjectContext Id} {db : Records Id W}
    {query : FailingEndpointsQuery} {now : ℤ} {window : AnalyticsWindow}
    (resolved : resolveWindow query.windowHours now = .ok window) (few : limitOf query ≤ 22) :
    AnswersExactly ctx db query now window := by
  refine answersExactly resolved fun endpointIds worst => ?_
  refine (pairCount_le_length_mul _ endpointIds).trans ?_
  have := worst.within
  unfold MAX_PAGE_SIZE
  omega

section Busy

variable (name : ℕ ↪ Id)

/-- One delivery of a project whose endpoints have a delivery in each status. -/
def busyDelivery (i : ℕ) : Delivery Id W :=
  { Delivery.inserted (name i) (name 1) (name (i / 9)) (name 1) (name 1) (name 1) 5 0 with
    status := ALL_STATUSES.getD (i % 9) .pending }

def busyEndpoint (i : ℕ) : Endpoint Id :=
  ⟨name i, name 1, "e", "https://e.test", .active, true, 0⟩

def busyProject (n : ℕ) : Records Id W where
  events := []
  endpoints := (List.range n).map (busyEndpoint name)
  endpointHealth := []
  deliveries := (List.range (n * 9)).map (busyDelivery name)
  eventKey := List.nodup_nil
  endpointKey := @nodup_map_range _ _ Endpoint.id (busyEndpoint name) _ rfl name.injective n
  healthKey := List.nodup_nil
  deliveryKey :=
    @nodup_map_range _ _ Delivery.id (busyDelivery name) _ rfl name.injective (n * 9)

def busyContext : ProjectContext Id := ⟨name 1, name 1⟩

def lastDay : AnalyticsWindow :=
  ⟨24, 1000000 - 86400000000000, 1000000, 1000000 - 172800000000000, 1000000 - 86400000000000⟩

theorem windowDeliveries_busyProject (n : ℕ) :
    windowDeliveries (busyContext name) (busyProject name n : Records Id W) lastDay =
      (List.range (n * 9)).map (busyDelivery name) := by
  refine List.filter_eq_self.mpr fun d hd => ?_
  obtain ⟨i, hi, rfl⟩ := List.mem_map.mp hd
  have inside : i / 9 < n := Nat.div_lt_of_lt_mul (by simpa [Nat.mul_comm] using hi)
  have via : viaEndpoint (busyContext name) (busyProject name n : Records Id W) (name (i / 9)) =
      true :=
    List.any_eq_true.mpr ⟨busyEndpoint name (i / 9),
      List.mem_map_of_mem (List.mem_range.mpr inside),
      by simp [busyEndpoint, ownEndpoint, busyContext]⟩
  have own : ownDelivery (busyContext name) (busyProject name n)
    (busyDelivery name i : Delivery Id W) =
      true := by
    rw [ownDelivery, show (busyDelivery name i : Delivery Id W).endpointId = name (i / 9) from rfl,
      via]
    simp [busyDelivery, busyContext, Delivery.inserted]
  rw [own]
  rfl

omit [LinearOrder Id] in
theorem exists_busyDelivery {n i : ℕ} (inside : i < n) (s : State) :
    ∃ d ∈ (List.range (n * 9)).map (busyDelivery (W := W) name),
      d.endpointId = name i ∧ d.status = s := by
  have small : State.position s < 9 := by cases s <;> decide
  refine ⟨busyDelivery name (i * 9 + State.position s),
    List.mem_map_of_mem (List.mem_range.mpr ?_), congrArg name ?_, ?_⟩
  · omega
  · show (i * 9 + State.position s) / 9 = i
    omega
  · have place : (i * 9 + State.position s) % 9 = State.position s := by omega
    show ALL_STATUSES.getD ((i * 9 + State.position s) % 9) .pending = s
    rw [place]
    cases s <;> rfl

theorem busyProject_not_exact {n limit : ℕ} (many : 22 < n) (within : n ≤ min limit 50) :
    ¬ AnswersExactly (busyContext name) (busyProject name n : Records Id W) ⟨none, some limit⟩
      1000000 lastDay := by
  have distinct : ((List.range n).map name).Nodup := List.nodup_range.map name.injective
  have every : ∀ id ∈ (List.range n).map name, ∀ s,
      ∃ d ∈ windowDeliveries (busyContext name) (busyProject name n : Records Id W) lastDay,
        d.endpointId = id ∧ d.status = s := by
    rw [windowDeliveries_busyProject]
    intro id hid s
    obtain ⟨i, hi, rfl⟩ := List.mem_map.mp hid
    exact exists_busyDelivery name (List.mem_range.mp hi) s
  have worst : Worst (windowDeliveries (busyContext name)
    (busyProject name n : Records Id W) lastDay)
      (limitOf ⟨none, some limit⟩) ((List.range n).map name) := by
    apply Worst.of_all distinct
    · rw [List.length_map, List.length_range]
      exact within
    · intro id hid
      obtain ⟨d, hd, here, failed⟩ := every id hid .failed
      exact List.countP_pos_iff.mpr ⟨d, hd, by simp [here, failed, FAILING]⟩
    · intro d hd
      rw [windowDeliveries_busyProject] at hd
      obtain ⟨i, hi, rfl⟩ := List.mem_map.mp hd
      refine List.mem_map_of_mem (List.mem_range.mpr ?_)
      exact Nat.div_lt_of_lt_mul (by simpa [Nat.mul_comm] using hi)
  have pairs := length_mul_le_pairCount distinct every
  rw [List.length_map, List.length_range] at pairs
  refine not_answersExactly rfl worst ?_
  unfold MAX_PAGE_SIZE
  omega

end Busy

/-- Twenty-two such endpoints are ranked as they should be. -/
theorem busy_project_ranked_exactly :
    resolveWindow none 1000000 = .ok lastDay ∧
      AnswersExactly ⟨1, 1⟩ (busyProject (.refl ℕ) 22 : Records ℕ ℕ) ⟨none, some 50⟩ 1000000
        lastDay := by
  refine ⟨rfl, (ranking_exact_iff rfl).mpr fun endpointIds worst => ?_⟩
  refine (List.dedup_sublist _).length_le.trans ?_
  rw [List.length_map]
  refine (List.length_filter_le _ _).trans ?_
  have all := windowDeliveries_busyProject (W := ℕ) (.refl ℕ) 22
  rw [show busyContext (.refl ℕ) = ⟨1, 1⟩ from rfl] at all
  rw [all, List.length_map, List.length_range]
  decide

/-- Twenty-three endpoints with deliveries in all nine statuses, all of them ranked. -/
theorem busy_project_ranked_wrongly :
    resolveWindow none 1000000 = .ok lastDay ∧
      ¬ AnswersExactly ⟨1, 1⟩ (busyProject (.refl ℕ) 23 : Records ℕ ℕ) ⟨none, some 50⟩ 1000000
        lastDay :=
  ⟨rfl, busyProject_not_exact (.refl ℕ) (by decide) (by decide)⟩

/-- Twenty-two is the largest limit for which every project, in every window, is ranked exactly. -/
theorem limit_exact_for_every_project_iff [Infinite Id] (limit : ℕ) :
    (∀ (ctx : ProjectContext Id) (db : Records Id W) (hours : Option ℤ) (now : ℤ)
      (window : AnalyticsWindow), resolveWindow hours now = .ok window →
        AnswersExactly ctx db ⟨hours, some limit⟩ now window) ↔ limit ≤ 22 := by
  constructor
  · intro exactly
    by_contra many
    have most : 23 ≤ min limit 50 := by omega
    exact busyProject_not_exact (Infinite.natEmbedding Id) (by decide) most
      (exactly _ _ none _ lastDay rfl)
  · intro few ctx db hours now window resolved
    exact answersExactly_of_limit_le resolved ((min_le_left _ _).trans few)

theorem fifty_not_exact_for_every_project : ¬∀ (ctx : ProjectContext ℕ) (db : Records ℕ ℕ)
    (hours : Option ℤ) (now : ℤ) (window : AnalyticsWindow),
      resolveWindow hours now = .ok window →
        AnswersExactly ctx db ⟨hours, some 50⟩ now window := by
  rw [limit_exact_for_every_project_iff]
  decide

end Hookubit.Analytics.FailingEndpoints
