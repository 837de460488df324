/- sources: queue/postgres.go (tenantSnapshotSQL, claimTenantFairSQL, perTenantCap, tenantBatch,
     pickTenants, refreshSnapshot, claimTenantFair)
   digest: The tenant-fair strategy: a rotating snapshot of tenants and a claim with a cap on
     each. -/

import Hookubit.Data.Binary64
import Hookubit.Data.KeysetPage
import Hookubit.Queue.Deliveries
import Mathlib.Data.Prod.Lex

/-!
Ids are texts of one linear order in which the empty text is least. A tenant is a pair of them,
compared as SQL compares rows. The random source of the queue is a shuffle, any function that
permutes a list.
-/

set_option autoImplicit false
set_option relaxedAutoImplicit false

namespace Hookubit.Queue.TenantFair

open Data.Binary64 Data.KeysetPage Data.Rows Queue.Deliveries

abbrev Tenant (Id : Type) := Id ×ₗ Id

variable {Id W : Type} [LinearOrder Id]

def tenantOf (d : Delivery Id W) : Tenant Id := toLex (d.organizationId, d.projectId)

/-- One descent of the index: the next tenant with ready work behind the cursor. -/
def nextTenant (now : ℤ) (deliveries : List (Delivery Id W)) (cursor : Tenant Id) :
    Option (Tenant Id) :=
  (pick (fun a b => tenantOf a ≤ tenantOf b)
    (fun d => readyPredicate now d && decide (cursor < tenantOf d)) 1 deliveries).head?.map tenantOf

/-- The recursive query, which the limit stops. -/
def tenantSnapshotSQL (now : ℤ) (deliveries : List (Delivery Id W)) (cursor : Tenant Id) :
    ℕ → List (Tenant Id)
  | 0 => []
  | size + 1 =>
      match nextTenant now deliveries cursor with
      | none => []
      | some t => t :: tenantSnapshotSQL now deliveries t size

theorem lt_nextTenant {now : ℤ} {deliveries : List (Delivery Id W)} {cursor t : Tenant Id}
    (h : nextTenant now deliveries cursor = some t) : cursor < t := by
  obtain ⟨d, first, rfl⟩ := Option.map_eq_some_iff.mp h
  have ready := (of_mem_pick (List.mem_of_mem_head? first)).2
  simp only [Bool.and_eq_true, decide_eq_true_eq] at ready
  exact ready.2

theorem lt_of_mem_tenantSnapshotSQL {now : ℤ} {deliveries : List (Delivery Id W)}
    {cursor t : Tenant Id} {size : ℕ} (h : t ∈ tenantSnapshotSQL now deliveries cursor size) :
    cursor < t := by
  induction size generalizing cursor with
  | zero => cases h
  | succ size ih =>
    rw [tenantSnapshotSQL] at h
    split at h
    · cases h
    · rename_i first found
      obtain rfl | later := List.mem_cons.mp h
      · exact lt_nextTenant found
      · exact (lt_nextTenant found).trans (ih later)

theorem tenantSnapshotSQL_ascending (now : ℤ) (deliveries : List (Delivery Id W))
    (cursor : Tenant Id) (size : ℕ) :
    (tenantSnapshotSQL now deliveries cursor size).Pairwise (· < ·) := by
  induction size generalizing cursor with
  | zero => exact List.Pairwise.nil
  | succ size ih =>
    rw [tenantSnapshotSQL]
    split
    · exact List.Pairwise.nil
    · rename_i first found
      exact List.pairwise_cons.mpr ⟨fun t h => lt_of_mem_tenantSnapshotSQL h, ih first⟩

section Queue

variable [OrderBot Id]

/-- What the queue remembers of the tenants. A snapshot names no tenant twice. -/
structure PostgresQueue (Id : Type) [LinearOrder Id] where
  snapshot : List (Tenant Id)
  cursor : Tenant Id
  ascending : snapshot.Pairwise (· < ·)

def PostgresQueue.fresh : PostgresQueue Id := ⟨[], ⊥, List.Pairwise.nil⟩

def refreshSnapshot (now : ℤ) (deliveries : List (Delivery Id W)) (size : ℤ)
    (q : PostgresQueue Id) : PostgresQueue Id :=
  let size := if size ≤ 0 then 1 else size
  let found := tenantSnapshotSQL now deliveries q.cursor size.toNat
  { snapshot := found
    cursor := if found.length < size then ⊥ else found.getLast?.getD ⊥
    ascending := tenantSnapshotSQL_ascending now deliveries q.cursor size.toNat }

end Queue

/-- A permutation of whatever list it is given. -/
abbrev Shuffle (Id : Type) := { f : List (Tenant Id) → List (Tenant Id) // ∀ l, (f l).Perm l }

def pickTenants (snapshot : List (Tenant Id)) (limit : ℤ) (rng : Shuffle Id) : List (Tenant Id) :=
  if snapshot.length = 0 ∨ limit ≤ 0 then []
  else
    let out := rng.1 snapshot
    if limit < out.length then out.take limit.toNat else out

/-- `int(x)` for an integral float. Out of range the result is the implementation's. -/
def toInt (wild : ℤ → ℤ) (x : ℤ) : ℤ := if -2 ^ 63 ≤ x ∧ x < 2 ^ 63 then x else wild x

def perTenantCap (wild : ℤ → ℤ) (limit tenants : ℤ) : ℤ :=
  if tenants ≤ 0 then limit
  else toInt wild (max 1 ⌈round64 (round64 limit / round64 tenants)⌉)

/-- The tenant's share of the batch: its ready rows that no other transaction has locked. -/
def pickFor (cap : ℕ) (now : ℤ) (skip : Id → Bool) (deliveries : List (Delivery Id W))
    (t : Tenant Id) : List (Delivery Id W) :=
  pick readyOrder (fun d => decide (tenantOf d = t) && readyPredicate now d && !skip d.id) cap
    deliveries

/-- The leases of a claim and the table afterwards. A negative `LIMIT` is an error. -/
def claimTenantFair (wild : ℤ → ℤ) (workerID : W) (limit lease now : ℤ) (skip : Id → Bool)
    (batch : List (Tenant Id)) (deliveries : List (Delivery Id W)) :
    Option (List (Delivery Id W) × List (Delivery Id W)) :=
  let cap := perTenantCap wild limit batch.length
  if cap < 0 ∨ limit < 0 then none
  else
    let picked := (batch.flatMap (pickFor cap.toNat now skip deliveries)).take limit.toNat
    let ids := picked.map Delivery.id
    let table := updateWhere
      (fun d => if d.id ∈ ids then some (claimRow workerID lease now d) else none) deliveries
    some (table.filter fun d => d.id ∈ ids, table)

end Hookubit.Queue.TenantFair
