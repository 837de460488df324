/- sources: maintenance/usage-aggregator.service.ts (sweep, pendingBuckets, fill, takeLock, toRows),
     prisma/schema.prisma (UsageRecord)
   digest: Passes of the usage rollup by many processes, statement by statement. -/

import Hookubit.Automata.LabelledSystem
import Hookubit.Data.Rows
import Mathlib.Data.List.Dedup

/-!
The rows that are counted are fixed; a pass reads only hours that are over. Each statement of a
pass is a step, and a process may crash, a statement fail or a session end between any two. The
lock statement runs on some session of the process's pool, and no statement ever unlocks. The
order in which a GROUP BY returns its groups is the database's choice.
-/

set_option autoImplicit false
set_option relaxedAutoImplicit false

namespace Hookubit.Maintenance.UsageAggregator

open Automata.LabelledSystem Data.Rows

inductive UsageMetric
  | eventsIngested | deliveries | replays
  deriving DecidableEq

def MAX_BUCKETS_PER_RUN : ℕ := 48

/-- An hour in milliseconds. -/
def HOUR : ℤ := 3600000

section Counting

variable {Tenant : Type}

/-- A row of `events`. The tenant is its organization and project. -/
structure EventRow (Tenant : Type) where
  tenant : Tenant
  createdAt : ℤ

structure DeliveryRow (Tenant : Type) where
  tenant : Tenant
  createdAt : ℤ
  isReplay : Bool

structure Source (Tenant : Type) where
  events : List (EventRow Tenant)
  deliveries : List (DeliveryRow Tenant)

def inHour (start createdAt : ℤ) : Bool := decide (start ≤ createdAt ∧ createdAt < start + HOUR)

/-- The tenants of the rows that a metric counts, one for each row. -/
def Source.occurrences (source : Source Tenant) (start : ℤ) : UsageMetric → List Tenant
  | .eventsIngested => (source.events.filter (inHour start ·.createdAt)).map (·.tenant)
  | .deliveries => (source.deliveries.filter (inHour start ·.createdAt)).map (·.tenant)
  | .replays =>
      (source.deliveries.filter fun d => inHour start d.createdAt && d.isReplay).map (·.tenant)

structure UsageRecord (Tenant : Type) where
  tenant : Tenant
  metric : UsageMetric
  periodStart : ℤ
  quantity : ℕ
  deriving DecidableEq

/-- The columns of the unique index. -/
def UsageRecord.key (r : UsageRecord Tenant) : Tenant × UsageMetric × ℤ :=
  (r.tenant, r.metric, r.periodStart)

variable [DecidableEq Tenant]

def Source.count (source : Source Tenant) (metric : UsageMetric) (tenant : Tenant) (start : ℤ) :
    ℕ :=
  (source.occurrences start metric).count tenant

/-- The groups of a GROUP BY, before the database orders them. -/
def Source.groups (source : Source Tenant) (metric : UsageMetric) (start : ℤ) : List Tenant :=
  (source.occurrences start metric).dedup

def toRows (source : Source Tenant) (metric : UsageMetric) (start : ℤ) (groups : List Tenant) :
    List (UsageRecord Tenant) :=
  (groups.filter fun g => decide (0 < source.count metric g start)).map fun g =>
    ⟨g, metric, start, source.count metric g start⟩

/-- The rows that `fill` writes for an hour, given the groups as they were returned. -/
def fillRows (source : Source Tenant) (start : ℤ) (groups : UsageMetric → List Tenant) :
    List (UsageRecord Tenant) :=
  toRows source .eventsIngested start (groups .eventsIngested) ++
    toRows source .deliveries start (groups .deliveries) ++
      toRows source .replays start (groups .replays)

/-- An upsert overwrites the quantity. -/
def upsert (row : UsageRecord Tenant) (table : List (UsageRecord Tenant)) :
    List (UsageRecord Tenant) :=
  if table.any (fun r => decide (r.key = row.key)) then
    updateWhere (fun r => if r.key = row.key then some
      { r with quantity := row.quantity } else none)
      table
  else row :: table

/-- A missing row counts as zero. -/
def quantity (table : List (UsageRecord Tenant)) (metric : UsageMetric) (tenant : Tenant)
    (start : ℤ) : ℕ :=
  match table.find? fun r => decide (r.key = (tenant, metric, start)) with
  | some r => r.quantity
  | none => 0

end Counting

section Window

def currentHour (now : ℤ) : ℤ := now / HOUR * HOUR

def oldest (now : ℤ) : ℤ := currentHour now - MAX_BUCKETS_PER_RUN * HOUR

/-- The complete hours that a pass looks back on, oldest first. -/
def window (now : ℤ) : List ℤ :=
  (List.range MAX_BUCKETS_PER_RUN).map fun k => oldest now + k * HOUR

variable {Tenant : Type}

/-- Some tenant's events of the hour are on record. -/
def isDone (table : List (UsageRecord Tenant)) (start : ℤ) : Bool :=
  table.any fun r => decide (r.metric = .eventsIngested ∧ r.periodStart = start)

def pendingBuckets (now : ℤ) (table : List (UsageRecord Tenant)) : List ℤ :=
  (window now).filter fun start => !isDone table start

end Window

section Passes

structure Session (Id : Type) where
  process : Id
  index : ℕ
  deriving DecidableEq

inductive Phase (Tenant : Type)
  | locked
  | filling (buckets : List ℤ)
  | writing (start : ℤ) (written : List (UsageRecord Tenant)) (row : UsageRecord Tenant)
      (todo : List (UsageRecord Tenant)) (rest : List ℤ)

variable {Tenant Id : Type}

/-- The loop over the rows of an hour, and after the last of them the next hour. -/
def Phase.advance (start : ℤ) (written todo : List (UsageRecord Tenant)) (rest : List ℤ) :
    Phase Tenant :=
  match todo with
  | [] => .filling rest
  | row :: todo => .writing start written row todo rest

structure Pass (Tenant Id : Type) where
  process : Id
  now : ℤ
  phase : Phase Tenant

/-- Passes and processes have names from the same type. -/
structure State (Tenant Id : Type) where
  usage : List (UsageRecord Tenant)
  lock : Option (Session Id)
  up : Id → Bool
  passes : Id → Option (Pass Tenant Id)

inductive Op (Tenant Id : Type)
  | takeLock (i : Id) (session : Session Id) (now : ℤ)
  | pendingBuckets (i : Id)
  | groupBy (i : Id) (groups : UsageMetric → List Tenant)
  | upsert (i : Id)
  | finish (i : Id)
  | fail (i : Id)
  | crash (p : Id)
  | restart (p : Id)
  | endSession (session : Session Id)

variable [DecidableEq Id]

/-- `pg_try_advisory_lock` answers false: another session holds the lock. -/
def skipped (s : State Tenant Id) (session : Session Id) : Bool :=
  s.lock.any fun holder => decide (holder ≠ session)

def setPass (s : State Tenant Id) (i : Id) (pass : Option (Pass Tenant Id)) : State Tenant Id :=
  { s with passes := Function.update s.passes i pass }

@[simp]
theorem setPass_self (s : State Tenant Id) (i : Id) (pass : Option (Pass Tenant Id)) :
    (setPass s i pass).passes i = pass := by
  simp [setPass]

@[simp]
theorem setPass_of_ne {i j : Id} (other : j ≠ i) (s : State Tenant Id)
    (pass : Option (Pass Tenant Id)) : (setPass s i pass).passes j = s.passes j := by
  simp [setPass, other]

variable [DecidableEq Tenant]

def next (source : Source Tenant) (s : State Tenant Id) : Op Tenant Id → Option (State Tenant Id)
  | .takeLock i session now =>
      if s.up session.process = true ∧ (s.passes i).isNone then
        if skipped s session then some s
        else some (setPass { s with lock := some session } i (some ⟨session.process, now, .locked⟩))
      else none
  | .pendingBuckets i =>
      match s.passes i with
      | some ⟨p, now, .locked⟩ =>
          let buckets := (pendingBuckets now s.usage).take MAX_BUCKETS_PER_RUN
          some (setPass s i (some ⟨p, now, .filling buckets⟩))
      | _ => none
  | .groupBy i groups =>
      match s.passes i with
      | some ⟨p, now, .filling (start :: rest)⟩ =>
          if (groups .eventsIngested).Perm (source.groups .eventsIngested start) ∧
              (groups .deliveries).Perm (source.groups .deliveries start) ∧
                (groups .replays).Perm (source.groups .replays start) then
            some (setPass s i
              (some ⟨p, now, .advance start [] (fillRows source start groups) rest⟩))
          else none
      | _ => none
  | .upsert i =>
      match s.passes i with
      | some ⟨p, now, .writing start written row todo rest⟩ =>
          some (setPass { s with usage := upsert row s.usage } i
            (some ⟨p, now, .advance start (written ++ [row]) todo rest⟩))
      | _ => none
  | .finish i =>
      match s.passes i with
      | some ⟨_, _, .filling []⟩ => some (setPass s i none)
      | _ => none
  | .fail i => if (s.passes i).isSome then some (setPass s i none) else none
  | .crash p =>
      some { s with
        lock := s.lock.filter fun holder => decide (holder.process ≠ p)
        up := Function.update s.up p false
        passes := fun i => (s.passes i).filter fun pass => decide (pass.process ≠ p) }
  | .restart p => some { s with up := Function.update s.up p true }
  | .endSession session =>
      some { s with lock := s.lock.filter fun holder => decide (holder ≠ session) }

def initial : State Tenant Id := ⟨[], none, fun _ => true, fun _ => none⟩

def aggregation (Id : Type) [DecidableEq Id] (source : Source Tenant) :
    System (State Tenant Id) (Op Tenant Id) :=
  .ofStep (· = initial) (next source)

/-- Everything that one step can do. -/
inductive Step (source : Source Tenant) (s : State Tenant Id) :
    Op Tenant Id → State Tenant Id → Prop
  | skip {i : Id} {session : Session Id} {now : ℤ} (refused : skipped s session = true) :
      Step source s (.takeLock i session now) s
  | takeLock {i : Id} {session : Session Id} {now : ℤ} (idle : s.passes i = none)
      (taken : skipped s session = false) :
      Step source s (.takeLock i session now)
        (setPass { s with lock := some session } i (some ⟨session.process, now, .locked⟩))
  | pendingBuckets {i p : Id} {now : ℤ} (here : s.passes i = some ⟨p, now, .locked⟩) :
      Step source s (.pendingBuckets i) (setPass s i
        (some ⟨p, now, .filling ((pendingBuckets now s.usage).take MAX_BUCKETS_PER_RUN)⟩))
  | groupBy {i p : Id} {now start : ℤ} {rest : List ℤ} {groups : UsageMetric → List Tenant}
      (here : s.passes i = some ⟨p, now, .filling (start :: rest)⟩)
      (all : ∀ metric, (groups metric).Perm (source.groups metric start)) :
      Step source s (.groupBy i groups)
        (setPass s i (some ⟨p, now, .advance start [] (fillRows source start groups) rest⟩))
  | upsert {i p : Id} {now start : ℤ} {written todo : List (UsageRecord Tenant)}
      {row : UsageRecord Tenant} {rest : List ℤ}
      (here : s.passes i = some ⟨p, now, .writing start written row todo rest⟩) :
      Step source s (.upsert i) (setPass { s with usage := upsert row s.usage } i
        (some ⟨p, now, .advance start (written ++ [row]) todo rest⟩))
  | finish {i p : Id} {now : ℤ} (here : s.passes i = some ⟨p, now, .filling []⟩) :
      Step source s (.finish i) (setPass s i none)
  | fail {i : Id} : Step source s (.fail i) (setPass s i none)
  | crash {p : Id} :
      Step source s (.crash p) { s with
        lock := s.lock.filter fun holder => decide (holder.process ≠ p)
        up := Function.update s.up p false
        passes := fun i => (s.passes i).filter fun pass => decide (pass.process ≠ p) }
  | restart {p : Id} : Step source s (.restart p) { s with up := Function.update s.up p true }
  | endSession {session : Session Id} :
      Step source s (.endSession session)
        { s with lock := s.lock.filter fun holder => decide (holder ≠ session) }

theorem next_step {source : Source Tenant} {s t : State Tenant Id} {a : Op Tenant Id}
    (h : next source s a = some t) : Step source s a t := by
  cases a with
  | takeLock i session now =>
    obtain ⟨⟨-, idle⟩, h⟩ := Option.ite_none_right_eq_some.mp h
    split at h
    · rename_i refused
      cases h
      exact .skip refused
    · rename_i taken
      cases h
      exact .takeLock (Option.isNone_iff_eq_none.mp idle) (Bool.eq_false_iff.mpr taken)
  | pendingBuckets i =>
    simp only [next] at h
    split at h
    · rename_i here
      cases h
      exact .pendingBuckets here
    · cases h
  | groupBy i groups =>
    simp only [next] at h
    split at h
    · rename_i here
      obtain ⟨⟨events, deliveries, replays⟩, h⟩ := Option.ite_none_right_eq_some.mp h
      cases h
      refine .groupBy here fun metric => ?_
      cases metric with
      | eventsIngested => exact events
      | deliveries => exact deliveries
      | replays => exact replays
    · cases h
  | upsert i =>
    simp only [next] at h
    split at h
    · rename_i here
      cases h
      exact .upsert here
    · cases h
  | finish i =>
    simp only [next] at h
    split at h
    · rename_i here
      cases h
      exact .finish here
    · cases h
  | fail i =>
    obtain ⟨-, h⟩ := Option.ite_none_right_eq_some.mp h
    cases h
    exact .fail
  | crash p => cases h; exact .crash
  | restart p => cases h; exact .restart
  | endSession session => cases h; exact .endSession

end Passes

end Hookubit.Maintenance.UsageAggregator
