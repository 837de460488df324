/- sources: maintenance/usage-aggregator.service.ts (sweep, pendingBuckets, fill, takeLock)
   digest: When the usage rollup is exact, and when a pass is skipped. -/

import Hookubit.Maintenance.UsageAggregator
import Mathlib.Data.Fintype.Basic

/-!
An hour counts as rolled up as soon as one record of its events is there. What keeps this safe is
that a pass which has written such a record goes on to write the rest of the hour, before it
stops and before any pass asks which hours are left.
-/

set_option autoImplicit false
set_option relaxedAutoImplicit false

namespace Hookubit.Maintenance.UsageExactness

open Automata.LabelledSystem Data.Rows Maintenance.UsageAggregator

variable {Tenant Id : Type} [DecidableEq Tenant]

section Records

def Recorded (table : List (UsageRecord Tenant)) (key : Tenant × UsageMetric × ℤ) : Prop :=
  ∃ r ∈ table, r.key = key

variable (source : Source Tenant) {row : UsageRecord Tenant} {table : List (UsageRecord Tenant)}
  {start : ℤ}

/-- The record holds the count of the source tables. -/
def Counted (r : UsageRecord Tenant) : Prop :=
  r.quantity = source.count r.metric r.tenant r.periodStart

def Complete (table : List (UsageRecord Tenant)) (start : ℤ) : Prop :=
  ∀ metric tenant, 0 < source.count metric tenant start → Recorded table (tenant, metric, start)

variable {source}

theorem recorded_upsert_self (row : UsageRecord Tenant) (table : List (UsageRecord Tenant)) :
    Recorded (upsert row table) row.key := by
  unfold upsert
  split
  · rename_i present
    obtain ⟨r, hr, same⟩ := List.any_eq_true.mp present
    have same : r.key = row.key := of_decide_eq_true same
    exact ⟨_, mem_updateWhere_ite.mpr (.inr ⟨r, hr, same, rfl⟩), same⟩
  · exact ⟨row, List.mem_cons_self, rfl⟩

theorem Recorded.afterUpsert {key : Tenant × UsageMetric × ℤ} (h : Recorded table key) :
    Recorded (upsert row table) key := by
  obtain ⟨r, hr, same⟩ := h
  unfold upsert
  split
  · by_cases hit : r.key = row.key
    · exact ⟨_, mem_updateWhere_ite.mpr (.inr ⟨r, hr, hit, rfl⟩), same⟩
    · exact ⟨r, mem_updateWhere_ite.mpr (.inl ⟨hr, hit⟩), same⟩
  · exact ⟨r, List.mem_cons_of_mem _ hr, same⟩

theorem mem_upsert {r : UsageRecord Tenant} (h : r ∈ upsert row table) :
    r ∈ table ∨ r.key = row.key ∧ r.quantity = row.quantity := by
  unfold upsert at h
  split at h
  · obtain ⟨hr, -⟩ | ⟨q, -, hit, rfl⟩ := mem_updateWhere_ite.mp h
    · exact .inl hr
    · exact .inr ⟨hit, rfl⟩
  · obtain rfl | hr := List.mem_cons.mp h
    · exact .inr ⟨rfl, rfl⟩
    · exact .inl hr

theorem counted_upsert (all : ∀ r ∈ table, Counted source r) (new : Counted source row) :
    ∀ r ∈ upsert row table, Counted source r := by
  intro r hr
  obtain hr | ⟨key, quantity⟩ := mem_upsert hr
  · exact all r hr
  · simp only [UsageRecord.key, Prod.mk.injEq] at key
    rw [Counted, quantity, key.1, key.2.1, key.2.2]
    exact new

theorem Complete.afterUpsert (h : Complete source table start) :
    Complete source (upsert row table) start :=
  fun metric tenant happened => (h metric tenant happened).afterUpsert

theorem quantity_eq_count (counted : ∀ r ∈ table, Counted source r)
    (complete : Complete source table start) (metric : UsageMetric) (tenant : Tenant) :
    quantity table metric tenant start = source.count metric tenant start := by
  unfold quantity
  split
  · rename_i r found
    have key : r.key = (tenant, metric, start) := by simpa using List.find?_some found
    have count := counted r (List.mem_of_find?_eq_some found)
    simp only [UsageRecord.key, Prod.mk.injEq] at key
    rwa [Counted, key.1, key.2.1, key.2.2] at count
  · rename_i absent
    by_contra positive
    obtain ⟨r, hr, key⟩ := complete metric tenant (Nat.pos_of_ne_zero (Ne.symm positive))
    exact List.find?_eq_none.mp absent r hr (decide_eq_true key)

omit [DecidableEq Tenant] in
theorem isDone_iff : isDone table start = true ↔
      ∃ r ∈ table, r.metric = .eventsIngested ∧ r.periodStart = start := by
  simp [isDone]

theorem isDone_upsert (h : isDone (upsert row table) start = true) :
    isDone table start = true ∨ row.metric = .eventsIngested ∧ row.periodStart = start := by
  obtain ⟨r, hr, metric, period⟩ := isDone_iff.mp h
  obtain hr | ⟨key, -⟩ := mem_upsert hr
  · exact .inl (isDone_iff.mpr ⟨r, hr, metric, period⟩)
  · simp only [UsageRecord.key, Prod.mk.injEq] at key
    exact .inr ⟨key.2.1 ▸ metric, key.2.2 ▸ period⟩

variable {groups : UsageMetric → List Tenant}

theorem mem_fillRows {r : UsageRecord Tenant}
    (h : r ∈ fillRows source start groups) : Counted source r ∧ r.periodStart = start := by
  have each : ∀ metric gs, r ∈ toRows source metric start gs →
      Counted source r ∧ r.periodStart = start := by
    intro metric gs hr
    obtain ⟨g, -, rfl⟩ := List.mem_map.mp hr
    exact ⟨rfl, rfl⟩
  simp only [fillRows, List.mem_append] at h
  obtain (h | h) | h := h
  · exact each _ _ h
  · exact each _ _ h
  · exact each _ _ h

theorem fillRows_cover
    (all : ∀ metric, (groups metric).Perm (source.groups metric start)) {metric : UsageMetric}
    {tenant : Tenant} (happened : 0 < source.count metric tenant start) :
    ∃ r ∈ fillRows source start groups, r.key = (tenant, metric, start) := by
  have grouped : tenant ∈ groups metric := by
    rw [(all metric).mem_iff, Source.groups, List.mem_dedup]
    exact List.count_pos_iff.mp happened
  have row : (⟨tenant, metric, start, source.count metric tenant start⟩ : UsageRecord Tenant) ∈
      toRows source metric start (groups metric) :=
    List.mem_map.mpr ⟨tenant, List.mem_filter.mpr ⟨grouped, decide_eq_true happened⟩, rfl⟩
  refine ⟨⟨tenant, metric, start, source.count metric tenant start⟩, ?_, rfl⟩
  simp only [fillRows, List.mem_append]
  cases metric with
  | eventsIngested => exact .inl (.inl row)
  | deliveries => exact .inl (.inr row)
  | replays => exact .inr row

end Records

section Phases

variable (source : Source Tenant)

/-- The pass has recorded events of the hour and has rows of it left to write. -/
def midwayAt (start : ℤ) : Phase Tenant → Bool
  | .writing hour written _ _ _ =>
      decide (hour = start) && written.any fun r => decide (r.metric = .eventsIngested)
  | _ => false

def isMidway : Phase Tenant → Bool
  | .writing _ written _ _ _ => written.any fun r => decide (r.metric = .eventsIngested)
  | _ => false

/-- What a pass has secured so far of the hours it looks back on. -/
def Secured (table : List (UsageRecord Tenant)) (now : ℤ) : Phase Tenant → Prop
  | .locked => True
  | .filling buckets => ∀ h ∈ window now, h ∈ buckets ∨ Complete source table h
  | .writing start _ row todo rest =>
      (∀ h ∈ window now, h = start ∨ h ∈ rest ∨ Complete source table h) ∧
        (∀ r ∈ row :: todo, Counted source r ∧ r.periodStart = start) ∧
          ∀ metric tenant, 0 < source.count metric tenant start →
            Recorded table (tenant, metric, start) ∨
              ∃ r ∈ row :: todo, r.key = (tenant, metric, start)

variable {source}

omit [DecidableEq Tenant] in
theorem isMidway_of_midwayAt {start : ℤ} {phase : Phase Tenant} (h : midwayAt start phase = true) :
    isMidway phase = true := by
  cases phase with
  | locked | filling => cases h
  | writing hour written row todo rest => exact (Bool.and_eq_true_iff.mp h).2

theorem Secured.afterUpsert {table : List (UsageRecord Tenant)} {now : ℤ} {phase : Phase Tenant}
    {new : UsageRecord Tenant} (h : Secured source table now phase) :
    Secured source (upsert new table) now phase := by
  cases phase with
  | locked => trivial
  | filling buckets => exact fun hour hw => (h hour hw).imp_right Complete.afterUpsert
  | writing start written row todo rest =>
    obtain ⟨hours, rows, cover⟩ := h
    refine ⟨fun hour hw => (hours hour hw).imp_right (Or.imp_right Complete.afterUpsert), rows, ?_⟩
    exact fun metric tenant happened => (cover metric tenant happened).imp_left Recorded.afterUpsert

theorem secured_advance {table : List (UsageRecord Tenant)} {now start : ℤ}
    {written todo : List (UsageRecord Tenant)} {rest : List ℤ}
    (hours : ∀ h ∈ window now, h = start ∨ h ∈ rest ∨ Complete source table h)
    (rows : ∀ r ∈ todo, Counted source r ∧ r.periodStart = start)
    (cover : ∀ metric tenant, 0 < source.count metric tenant start →
      Recorded table (tenant, metric, start) ∨ ∃ r ∈ todo, r.key = (tenant, metric, start)) :
    Secured source table now (.advance start written todo rest) ∧
      (written.any (fun r => decide (r.metric = .eventsIngested)) = true →
        Complete source table start ∨
          midwayAt start (.advance start written todo rest) = true) := by
  cases todo with
  | nil =>
    have complete : Complete source table start := by
      intro metric tenant happened
      obtain recorded | ⟨r, hr, -⟩ := cover metric tenant happened
      · exact recorded
      · cases hr
    refine ⟨fun h hw => ?_, fun _ => .inl complete⟩
    obtain rfl | later | done := hours h hw
    · exact .inr complete
    · exact .inl later
    · exact .inr done
  | cons row todo =>
    exact ⟨⟨hours, rows, cover⟩, fun begun => .inr (by simp [Phase.advance, midwayAt, begun])⟩

end Phases

section Exactness

variable [DecidableEq Id] (source : Source Tenant) {s : State Tenant Id} {i p : Id} {now start : ℤ}

/-- No pass stops midway through an hour, and none asks for the pending hours while one is. -/
def Unbroken (s : State Tenant Id) : Op Tenant Id → Prop
  | .pendingBuckets _ => ∀ i, ∀ pass ∈ s.passes i, isMidway pass.phase = false
  | .fail i => ∀ pass ∈ s.passes i, isMidway pass.phase = false
  | .crash p => ∀ i, ∀ pass ∈ s.passes i, pass.process = p → isMidway pass.phase = false
  | _ => True

/-- Records are exact, and an hour that counts as done is complete or being completed. -/
structure Good (s : State Tenant Id) : Prop where
  counted : ∀ r ∈ s.usage, Counted source r
  secured : ∀ i pass, s.passes i = some pass → Secured source s.usage pass.now pass.phase
  done : ∀ start, isDone s.usage start = true →
    Complete source s.usage start ∨
      ∃ i pass, s.passes i = some pass ∧ midwayAt start pass.phase = true

variable {source}

theorem Good.replace {new : Option (Pass Tenant Id)} (good : Good source s)
    (secured : ∀ pass, new = some pass → Secured source s.usage pass.now pass.phase)
    (kept : ∀ pass start, s.passes i = some pass → midwayAt start pass.phase = true →
      Complete source s.usage start ∨ ∃ pass', new = some pass' ∧
      midwayAt start pass'.phase = true) :
    Good source (setPass s i new) where
  counted := good.counted
  secured j pass hj := by
    by_cases same : j = i
    · subst same
      exact secured pass ((setPass_self s j new).symm.trans hj)
    · exact good.secured j pass ((setPass_of_ne same s new).symm.trans hj)
  done start recorded := by
    obtain complete | ⟨j, pass, hj, midway⟩ := good.done start recorded
    · exact .inl complete
    · by_cases same : j = i
      · subst same
        obtain complete | ⟨pass', rfl, midway'⟩ := kept pass start hj midway
        · exact .inl complete
        · exact .inr ⟨j, pass', setPass_self s j _, midway'⟩
      · exact .inr ⟨j, pass, (setPass_of_ne same s new).trans hj, midway⟩

theorem Good.replace_settled {new : Option (Pass Tenant Id)} (good : Good source s)
    (secured : ∀ pass, new = some pass → Secured source s.usage pass.now pass.phase)
    (settled : ∀ pass, s.passes i = some pass → isMidway pass.phase = false) :
    Good source (setPass s i new) := by
  refine good.replace secured fun pass start hi midway => ?_
  have begun := isMidway_of_midwayAt midway
  rw [settled pass hi] at begun
  cases begun

omit [DecidableEq Tenant] in
theorem length_pendingBuckets_le (now : ℤ) (table : List (UsageRecord Tenant)) :
    (pendingBuckets now table).length ≤ MAX_BUCKETS_PER_RUN := by
  refine (List.length_filter_le _ _).trans ?_
  simp [window]

theorem Good.afterPending (good : Good source s)
    (settled : ∀ i pass, s.passes i = some pass → isMidway pass.phase = false) :
    Good source (setPass s i (some ⟨p, now,
      .filling ((pendingBuckets now s.usage).take MAX_BUCKETS_PER_RUN)⟩)) := by
  refine good.replace_settled (fun pass new => ?_) (settled i)
  cases new
  rw [List.take_of_length_le (length_pendingBuckets_le now s.usage)]
  intro hour hw
  by_cases recorded : isDone s.usage hour = true
  · -- the hour is skipped, and nobody is still at it
    obtain complete | ⟨j, pass, hj, midway⟩ := good.done hour recorded
    · exact .inr complete
    · have begun := isMidway_of_midwayAt midway
      rw [settled j pass hj] at begun
      cases begun
  · exact .inl (List.mem_filter.mpr ⟨hw, by simpa using recorded⟩)

variable {groups : UsageMetric → List Tenant}

theorem Good.afterGroupBy {rest : List ℤ}
    (good : Good source s) (here : s.passes i = some ⟨p, now, .filling (start :: rest)⟩)
    (all : ∀ metric, (groups metric).Perm (source.groups metric start)) : Good source (setPass s i
      (some ⟨p, now, .advance start [] (fillRows source start groups) rest⟩)) := by
  have hours : ∀ h ∈ window now, h ∈ start :: rest ∨ Complete source s.usage h :=
    good.secured i _ here
  refine good.replace_settled (fun pass new => ?_) fun pass old => ?_
  · cases new
    refine (secured_advance (fun h hw => ?_) (fun r => mem_fillRows) ?_).1
    · simpa [or_assoc] using hours h hw
    · exact fun metric tenant happened => .inr (fillRows_cover all happened)
  · rw [here] at old
    cases old
    rfl

theorem cover_afterUpsert {table todo : List (UsageRecord Tenant)} {row : UsageRecord Tenant}
    (cover : ∀ metric tenant, 0 < source.count metric tenant start → Recorded table (tenant,
      metric, start) ∨ ∃ r ∈ row :: todo, r.key = (tenant, metric, start)) :
    ∀ metric tenant, 0 < source.count metric tenant start →
      Recorded (upsert row table) (tenant, metric, start) ∨
        ∃ r ∈ todo, r.key = (tenant, metric, start) := by
  intro metric tenant happened
  obtain recorded | ⟨r, hr, key⟩ := cover metric tenant happened
  · exact .inl recorded.afterUpsert
  · obtain rfl | hr := List.mem_cons.mp hr
    · exact .inl (key ▸ recorded_upsert_self r table)
    · exact .inr ⟨r, hr, key⟩

theorem Good.afterUpsert {written todo : List (UsageRecord Tenant)} {row : UsageRecord Tenant}
    {rest : List ℤ} (good : Good source s)
    (here : s.passes i = some ⟨p, now, .writing start written row todo rest⟩) :
    Good source (setPass { s with usage := upsert row s.usage } i
      (some ⟨p, now, .advance start (written ++ [row]) todo rest⟩)) := by
  obtain ⟨hours, rows, cover⟩ := good.secured i _ here
  obtain ⟨counted, period⟩ := rows row List.mem_cons_self
  have advance : Secured source (upsert row s.usage) now
        (.advance start (written ++ [row]) todo rest) ∧ _ :=
    secured_advance (fun h hw => (hours h hw).imp_right (Or.imp_right Complete.afterUpsert))
      (fun r hr => rows r (List.mem_cons_of_mem _ hr)) (cover_afterUpsert cover)
  refine ⟨counted_upsert good.counted counted, fun j pass hj => ?_, fun hour recorded => ?_⟩
  · by_cases same : j = i
    · subst same
      rw [setPass_self] at hj
      cases hj
      exact advance.1
    · rw [setPass_of_ne same] at hj
      exact (good.secured j pass hj).afterUpsert
  · have here' : (written ++ [row]).any (fun r => decide (r.metric = .eventsIngested)) = true →
        Complete source (upsert row s.usage) start ∨ ∃ j pass,
          (setPass { s with usage := upsert row s.usage } i
            (some ⟨p, now, .advance start (written ++ [row]) todo rest⟩)).passes j = some pass ∧
              midwayAt start pass.phase = true := by
      intro begun
      obtain complete | midway := advance.2 begun
      · exact .inl complete
      · exact .inr ⟨i, ⟨p, now, .advance start (written ++ [row]) todo rest⟩, setPass_self _ i _,
          midway⟩
    obtain before | ⟨metric, rfl⟩ := isDone_upsert recorded
    · obtain complete | ⟨j, pass, hj, midway⟩ := good.done hour before
      · exact .inl complete.afterUpsert
      · by_cases same : j = i
        · subst same
          rw [here] at hj
          cases hj
          obtain ⟨hour', begun⟩ := Bool.and_eq_true_iff.mp midway
          obtain rfl : start = hour := of_decide_eq_true hour'
          exact here' (by rw [List.any_append, begun, Bool.true_or])
        · exact .inr ⟨j, pass, (setPass_of_ne same _ _).trans hj, midway⟩
    · rw [period]
      exact here' (by simp [metric])

theorem Good.step {t : State Tenant Id} {a : Op Tenant Id} (good : Good source s)
    (unbroken : Unbroken s a) (edge : Step source s a t) : Good source t := by
  cases edge with
  | skip => exact good
  | @takeLock i session now idle taken =>
    have locked : Good source { s with lock := some session } :=
      ⟨good.counted, good.secured, good.done⟩
    refine locked.replace_settled (fun pass new => ?_) fun pass old => ?_
    · cases new
      trivial
    · exact absurd (idle.symm.trans old) (by simp)
  | pendingBuckets here => exact good.afterPending unbroken
  | groupBy here all => exact good.afterGroupBy here all
  | upsert here => exact good.afterUpsert here
  | finish here =>
    refine good.replace_settled (fun pass new => by cases new) fun pass old => ?_
    rw [here] at old
    cases old
    rfl
  | fail => exact good.replace_settled (fun pass new => by cases new) unbroken
  | @crash p =>
    refine ⟨good.counted, fun j pass hj => ?_, fun start recorded => ?_⟩
    · exact good.secured j pass (Option.filter_eq_some_iff.mp hj).1
    · obtain complete | ⟨j, pass, hj, midway⟩ := good.done start recorded
      · exact .inl complete
      · refine .inr ⟨j, pass, Option.filter_eq_some_iff.mpr ⟨hj, ?_⟩, midway⟩
        -- a pass of the crashed process was not midway
        have begun := isMidway_of_midwayAt midway
        refine decide_eq_true fun gone => ?_
        rw [unbroken j pass hj gone] at begun
        cases begun
  | restart => exact ⟨good.counted, good.secured, good.done⟩
  | endSession => exact ⟨good.counted, good.secured, good.done⟩

theorem good_of_reachable
    (reach : Reachable ((aggregation Id source).constrain fun s a _ => Unbroken s a) s) :
    Good source s := by
  refine reach.invariant (I := Good source) ?_ ?_
  · rintro s rfl
    exact ⟨by simp [initial], by simp [initial], by simp [initial, isDone]⟩
  · rintro s a t good ⟨edge, unbroken⟩
    exact good.step unbroken (next_step edge)

theorem Good.exact_of_finish {t : State Tenant Id} {pass : Pass Tenant Id} (good : Good source s)
    (running : s.passes i = some pass) (returned : next source s (.finish i) = some t)
    (hw : start ∈ window pass.now) (metric : UsageMetric) (tenant : Tenant) :
    quantity t.usage metric tenant start = source.count metric tenant start := by
  cases next_step returned with
  | finish here =>
    rw [here] at running
    cases running
    obtain left | complete := good.secured i _ here start hw
    · cases left
    · exact quantity_eq_count good.counted complete metric tenant

end Exactness

section Locking

variable [DecidableEq Id]

/-- The open sessions on which a pass has asked for the lock. -/
def noteSession : Op Tenant Id → List (Session Id) → List (Session Id)
  | .takeLock _ session _, log => session :: log
  | .crash p, log => log.filter fun session => decide (session.process ≠ p)
  | .endSession session, log => log.filter fun other => decide (other ≠ session)
  | _, log => log

/-- A pass asks on the session that the passes before it asked on, as far as that is open. -/
def SameSession (log : List (Session Id)) : Op Tenant Id → Prop
  | .takeLock _ session _ => ∀ earlier ∈ log, earlier = session
  | _ => True

def logged (Id : Type) [DecidableEq Id] (source : Source Tenant) :
    System (State Tenant Id × List (Session Id)) (Op Tenant Id) :=
  (aggregation Id source).observe (fun _ => noteSession) []

omit [DecidableEq Tenant] in
theorem skipped_eq_true {s : State Tenant Id} {session : Session Id} :
    skipped s session = true ↔ ∃ holder, s.lock = some holder ∧ holder ≠ session := by
  cases h : s.lock <;> simp [skipped, h]

theorem lock_step {source : Source Tenant} {s t : State Tenant Id} {a : Op Tenant Id}
    {log : List (Session Id)} (held : ∀ session, s.lock = some session ↔ session ∈ log)
    (same : SameSession log a) (edge : Step source s a t) :
    ∀ session, t.lock = some session ↔ session ∈ noteSession a log := by
  cases edge with
  | skip refused =>
    obtain ⟨holder, lock, other⟩ := skipped_eq_true.mp refused
    exact absurd (same holder ((held holder).mp lock)) other
  | @takeLock i session now idle taken =>
    intro other
    constructor
    · rintro ⟨⟩
      exact List.mem_cons_self
    · intro mem
      obtain rfl | earlier := List.mem_cons.mp mem
      · rfl
      · rw [same other earlier]
        rfl
  | pendingBuckets | groupBy | upsert | finish | fail | restart => exact held
  | crash =>
    intro session
    rw [noteSession, List.mem_filter, ← held session]
    exact Option.filter_eq_some_iff
  | endSession =>
    intro session
    rw [noteSession, List.mem_filter, ← held session]
    exact Option.filter_eq_some_iff

theorem lock_of_reachable {source : Source Tenant} {q : State Tenant Id × List (Session Id)}
    (reach : Reachable ((logged Id source).constrain fun q a _ => SameSession q.2 a) q) :
    ∀ session, q.1.lock = some session ↔ session ∈ q.2 := by
  refine reach.invariant (I := fun q => ∀ session, q.1.lock = some session ↔ session ∈ q.2) ?_ ?_
  · rintro ⟨s, log⟩ ⟨rfl, rfl⟩
    simp [initial]
  · rintro ⟨s, log⟩ a ⟨t, log'⟩ held ⟨⟨edge, rfl⟩, same⟩
    exact lock_step held same (next_step edge)

end Locking

section Rollup

variable [DecidableEq Id]

/-- Where no pass is cut off midway through an hour, a pass that returns leaves its window exact;
and where passes ask for the lock on one session, a pass is skipped only on another. -/
theorem rollup_exact_and_unskipped (source : Source Tenant) :
    (∀ s : State Tenant Id,
      Reachable ((aggregation Id source).constrain fun s a _ => Unbroken s a) s →
        ∀ i pass t, s.passes i = some pass → next source s (.finish i) = some t →
          ∀ start ∈ window pass.now, ∀ metric tenant,
            quantity t.usage metric tenant start = source.count metric tenant start) ∧
      ∀ q : State Tenant Id × List (Session Id),
        Reachable ((logged Id source).constrain fun q a _ => SameSession q.2 a) q →
          ∀ session, skipped q.1 session = false ↔ ∀ earlier ∈ q.2, earlier = session := by
  constructor
  · intro s reach i pass t running returned start hw metric tenant
    exact (good_of_reachable reach).exact_of_finish running returned hw metric tenant
  · intro q reach session
    have held := lock_of_reachable reach
    rw [← Bool.not_eq_true, skipped_eq_true]
    simp only [held, not_exists, not_and, ne_eq, not_not]

instance decidableUnbroken [Fintype Id] (s : State Tenant Id) :
    ∀ a : Op Tenant Id, Decidable (Unbroken s a)
  | .pendingBuckets _ => inferInstanceAs (Decidable (∀ i, ∀ pass ∈ s.passes i, _))
  | .fail i => inferInstanceAs (Decidable (∀ pass ∈ s.passes i, _))
  | .crash p => inferInstanceAs (Decidable (∀ i, ∀ pass ∈ s.passes i, pass.process = p → _))
  | .takeLock _ _ _ | .groupBy _ _ | .upsert _ | .finish _ | .restart _ | .endSession _ =>
      isTrue trivial

/-- One event and one delivery of one tenant, in the first hour of all. -/
def oneHour : Source Unit := ⟨[⟨(), 0⟩], [⟨(), 0, false⟩]⟩

def twoDaysOn : ℤ := 48 * HOUR

def oneGroup : UsageMetric → List Unit
  | .eventsIngested | .deliveries => [()]
  | .replays => []

/-- A pass up to its first record, which is one of events. -/
def firstRecord (i : Fin 2) : List (Op Unit (Fin 2)) :=
  [.takeLock i ⟨i, 0⟩ twoDaysOn, .pendingBuckets i, .groupBy i oneGroup, .upsert i]

def otherHours (i : Fin 2) : List (Op Unit (Fin 2)) := List.replicate 47 (.groupBy i fun _ => [])

/-- A pass is about to return, and this is what its records then say. -/
def returnsWith (i : Fin 2) (deliveries : ℕ) (s : State Unit (Fin 2)) : Bool :=
  (s.passes i).any (fun pass => decide (pass.now = twoDaysOn)) &&
    (next oneHour s (.finish i)).any fun t => decide
      (quantity t.usage .deliveries () 0 = deliveries)

theorem of_returnsWith {i : Fin 2} {deliveries : ℕ} {s : State Unit (Fin 2)}
    (h : returnsWith i deliveries s = true) :
    ∃ pass t, s.passes i = some pass ∧ pass.now = twoDaysOn ∧
      next oneHour s (.finish i) = some t ∧ quantity t.usage .deliveries () 0 = deliveries := by
  obtain ⟨running, returned⟩ := Bool.and_eq_true_iff.mp h
  obtain ⟨pass, here, time⟩ := (Option.any_eq_true _ _).mp running
  obtain ⟨t, step, reads⟩ := (Option.any_eq_true _ _).mp returned
  exact ⟨pass, t, here, of_decide_eq_true time, step, of_decide_eq_true reads⟩

theorem initial_start : (aggregation (Fin 2) oneHour).start initial := rfl

/-- One pass records the hour whole; and once it has asked on its session, that session and no other
is given the lock. -/
theorem whole_pass_exact_and_unskipped :
    (∃ s t, Reachable ((aggregation (Fin 2) oneHour).constrain fun s a _ => Unbroken s a) s ∧
      next oneHour s (.finish 0) = some t ∧
        quantity t.usage .deliveries () 0 = oneHour.count .deliveries () 0) ∧
      ∃ q, Reachable ((logged (Fin 2) oneHour).constrain fun q a _ => SameSession q.2 a) q ∧
        skipped q.1 ⟨0, 0⟩ = false ∧ skipped q.1 ⟨1, 0⟩ = true := by
  constructor
  · have run : (execute (fun s a => (next oneHour s a).filter fun _ => decide (Unbroken s a))
        initial (firstRecord 0 ++ .upsert 0 :: otherHours 0)).any (returnsWith 0 1) = true := by
      decide +kernel
    obtain ⟨s, run, returns⟩ := (Option.any_eq_true _ _).mp run
    obtain ⟨pass, t, running, time, returned, -⟩ := of_returnsWith returns
    have reach : Reachable ((aggregation (Fin 2) oneHour).constrain fun s a _ => Unbroken s a) s :=
      reachable_constrain_of_execute initial_start run
    have first : 0 ∈ window pass.now := by
      rw [time]
      decide +kernel
    exact ⟨s, t, reach, returned, (rollup_exact_and_unskipped oneHour).1 s reach 0 pass t running
      returned 0 first .deliveries ()⟩
  · have begun : Reachable ((logged (Fin 2) oneHour).constrain fun q a _ => SameSession q.2 a)
        (initial, []) := .start ⟨initial_start, rfl⟩
    obtain ⟨t, taken⟩ : ∃ t : State Unit (Fin 2),
        next oneHour initial (.takeLock 0 ⟨0, 0⟩ twoDaysOn) = some t :=
      ⟨_, rfl⟩
    have edge : ((logged (Fin 2) oneHour).constrain fun q a _ => SameSession q.2 a).step
        (initial, []) (.takeLock 0 ⟨0, 0⟩ twoDaysOn) (t, [⟨0, 0⟩]) :=
      ⟨⟨taken, rfl⟩, List.forall_mem_nil _⟩
    have reach := begun.step edge
    have asked := (rollup_exact_and_unskipped oneHour).2 _ reach
    refine ⟨_, reach, (asked _).mpr (by simp), ?_⟩
    exact (Bool.not_eq_false _).mp ((asked ⟨1, 0⟩).not.mpr (by simp))

/-- A crash after the first record hides the hour from every later pass; and after a pass that
went well no other process gets the lock. -/
theorem crash_hides_hour_and_lock_stays :
    (∃ s pass t, Reachable (aggregation (Fin 2) oneHour) s ∧ s.passes 0 = some pass ∧
        pass.now = twoDaysOn ∧ next oneHour s (.finish 0) = some t ∧
          quantity t.usage .deliveries () 0 ≠ oneHour.count .deliveries () 0) ∧
      ∃ s : State Unit (Fin 2), Reachable (aggregation (Fin 2) oneHour) s ∧
        (∀ p, s.up p = true) ∧ (∀ i, s.passes i = none) ∧ skipped s ⟨1, 0⟩ = true := by
  constructor
  · have run : (execute (next oneHour) initial (firstRecord 0 ++ [.crash 0, .restart 0,
        .takeLock 0 ⟨0, 0⟩ twoDaysOn, .pendingBuckets 0] ++ otherHours 0)).any
          (returnsWith 0 0) = true := by
      decide +kernel
    obtain ⟨s, reach, returns⟩ := exists_reachable_of_execute initial_start run
    obtain ⟨pass, t, running, time, returned, reads⟩ := of_returnsWith returns
    refine ⟨s, pass, t, reach, running, time, returned, ?_⟩
    rw [reads]
    decide
  · have run : (execute (next oneHour) initial
        (firstRecord 0 ++ .upsert 0 :: otherHours 0 ++ [.finish 0])).any (fun s =>
          decide (∀ p, s.up p = true) && decide (∀ i, (s.passes i).isNone = true) &&
            skipped s ⟨1, 0⟩) = true := by
      decide +kernel
    obtain ⟨s, reach, facts⟩ := exists_reachable_of_execute initial_start run
    simp only [Bool.and_eq_true, decide_eq_true_eq, Option.isNone_iff_eq_none] at facts
    exact ⟨s, reach, facts.1.1, facts.1.2, facts.2⟩

end Rollup

end Hookubit.Maintenance.UsageExactness
