/- sources: queue/postgres.go (tenantSnapshotSQL, refreshSnapshot)
   digest: Snapshot after snapshot, the cursor walks through all tenants with ready work. -/

import Hookubit.Queue.TenantFair
import Mathlib.Data.Finset.Sort

set_option autoImplicit false
set_option relaxedAutoImplicit false

namespace Hookubit.Queue.TenantRotation

open Data.KeysetPage Data.Rows Queue.Deliveries Queue.TenantFair

variable {Id W : Type} [LinearOrder Id]

section Snapshot

def Ready (now : ℤ) (deliveries : List (Delivery Id W)) (t : Tenant Id) : Prop :=
  ∃ d ∈ deliveries, readyPredicate now d = true ∧ tenantOf d = t

variable {now : ℤ} {deliveries : List (Delivery Id W)} {l : List (Tenant Id)}

theorem nextTenant_eq (strict : l.Pairwise (· < ·)) (ready : ∀ t, Ready now deliveries t ↔ t ∈ l)
    (cursor : Tenant Id) : nextTenant now deliveries cursor = (beyond id l cursor).head? := by
  have page : nextTenant now deliveries cursor = (ordered tenantOf (deliveries.filter fun d =>
      readyPredicate now d && decide (cursor < tenantOf d))).head?.map tenantOf := by
    rw [nextTenant, pick, List.head?_take, if_neg (by decide), ordered]
  have members (t : Tenant Id) : t ∈ beyond id l cursor ↔ ∃ d ∈ ordered tenantOf
      (deliveries.filter fun d => readyPredicate now d && decide (cursor < tenantOf d)),
      tenantOf d = t := by
    simp only [beyond, List.mem_filter, ← ready, mem_ordered, Ready, id, Bool.and_eq_true,
      decide_eq_true_eq]
    grind
  rw [page]
  exact head?_map_eq (ordered_sorted _) (strict.sublist List.filter_sublist) members

theorem beyond_tail (strict : l.Pairwise (· < ·)) {cursor t : Tenant Id} {rest : List (Tenant Id)}
    (h : beyond id l cursor = t :: rest) : beyond id l t = rest := by
  have first : ((beyond id l cursor).take 1).getLast? = some t := by simp [h]
  have after : beyond id l (id t) = (beyond id l cursor).drop 1 := beyond_last strict first
  rwa [h] at after

theorem tenantSnapshotSQL_eq (strict : l.Pairwise (· < ·))
    (ready : ∀ t, Ready now deliveries t ↔ t ∈ l) (cursor : Tenant Id) (size : ℕ) :
    tenantSnapshotSQL now deliveries cursor size = (beyond id l cursor).take size := by
  induction size generalizing cursor with
  | zero => rfl
  | succ size ih =>
    rw [tenantSnapshotSQL, nextTenant_eq strict ready]
    cases h : beyond id l cursor with
    | nil => rfl
    | cons t rest => simp only [List.head?_cons, ih, beyond_tail strict h, List.take_succ_cons]

end Snapshot

section Rotation

variable [OrderBot Id] (table : ℕ → List (Delivery Id W)) (now : ℕ → ℤ) (size : ℕ → ℤ)

def queueAt : ℕ → PostgresQueue Id
  | 0 => .fresh
  | n + 1 => refreshSnapshot (now n) (table n) (size n) (queueAt n)

def snapshotAt (n : ℕ) : List (Tenant Id) := (queueAt table now size (n + 1)).snapshot

/-- The n-th refresh puts the cursor back to the start. -/
def ResetAt (n : ℕ) : Prop := (queueAt table now size (n + 1)).cursor = ⊥

/-- The n-th refresh starts at the start: it is the first, or comes after a reset. -/
def StartsAt (n : ℕ) : Prop := (queueAt table now size n).cursor = ⊥

/-- The snapshots of `k` refreshes from the n-th on, one after another. -/
def snapshotsFrom (n k : ℕ) : List (Tenant Id) :=
  (List.range' n k).flatMap (snapshotAt table now size)

variable {table now size} {l : List (Tenant Id)}

section Fixed

variable (strict : l.Pairwise (· < ·)) (named : ∀ t ∈ l, t ≠ ⊥)
  (fixed : ∀ n t, Ready (now n) (table n) t ↔ t ∈ l) (sized : ∀ n, 1 ≤ size n)

include strict fixed sized in
theorem snapshotAt_eq (n : ℕ) : snapshotAt table now size n =
    (beyond id l (queueAt table now size n).cursor).take (size n).toNat := by
  have positive : ¬size n ≤ 0 := by
    have := sized n
    omega
  rw [snapshotAt, queueAt, refreshSnapshot, ← tenantSnapshotSQL_eq strict (fixed n)]
  simp only [if_neg positive]

include sized in
theorem cursor_succ (n : ℕ) : (queueAt table now size (n + 1)).cursor =
    if ((snapshotAt table now size n).length : ℤ) < size n then ⊥
    else (snapshotAt table now size n).getLast?.getD ⊥ := by
  have positive : ¬size n ≤ 0 := by
    have := sized n
    omega
  rw [snapshotAt, queueAt, refreshSnapshot]
  simp only [if_neg positive]

include strict named fixed sized

/-- A refresh reads all tenants that are left and resets, or fills its page and moves on. -/
theorem refresh_cases (n : ℕ) :
    (ResetAt table now size n ∧
      snapshotAt table now size n = beyond id l (queueAt table now size n).cursor) ∨
    ¬ResetAt table now size n ∧ (snapshotAt table now size n).length = (size n).toNat ∧
      (snapshotAt table now size n).getLast? = some (queueAt table now size (n + 1)).cursor := by
  have found := snapshotAt_eq strict fixed sized n
  have next : (queueAt table now size (n + 1)).cursor = _ := cursor_succ sized n
  have positive := sized n
  by_cases short : ((snapshotAt table now size n).length : ℤ) < size n
  · left
    rw [if_pos short] at next
    refine ⟨next, found.trans (List.take_of_length_le ?_)⟩
    rw [found, List.length_take] at short
    omega
  · right
    rw [if_neg short] at next
    have full : (snapshotAt table now size n).length = (size n).toNat := by
      have := congrArg List.length found
      rw [List.length_take] at this
      omega
    have filled : snapshotAt table now size n ≠ [] := by
      intro empty
      rw [empty, List.length_nil] at full
      omega
    obtain ⟨init, last, concat⟩ :=
      (List.eq_nil_or_concat' (snapshotAt table now size n)).resolve_left filled
    rw [concat, List.getLast?_concat, Option.getD_some] at next
    have inside : last ∈ l := by
      have member : last ∈ snapshotAt table now size n := by simp [concat]
      rw [found] at member
      exact (List.mem_filter.mp (List.mem_of_mem_take member)).1
    refine ⟨fun reset => named last inside (next.symm.trans reset), full, ?_⟩
    rw [concat, List.getLast?_concat, next]

theorem snapshotsFrom_eq_upTo {n k : ℕ} (starts : StartsAt table now size n)
    (running : ∀ i, i < k → ¬ResetAt table now size (n + i)) :
    snapshotsFrom table now size n k = upTo id l (queueAt table now size (n + k)).cursor := by
  induction k with
  | zero =>
    have absent : upTo id l ⊥ = [] := by
      apply List.filter_eq_nil_iff.mpr
      intro t ht
      simpa using named t ht
    rw [StartsAt] at starts
    rw [Nat.add_zero, starts, absent]
    rfl
  | succ k ih =>
    have before := ih fun i hi => running i (hi.trans (Nat.lt_succ_self k))
    obtain ⟨reset, -⟩ | ⟨-, -, last⟩ := refresh_cases strict named fixed sized (n + k)
    · exact absurd reset (running k (Nat.lt_succ_self k))
    · have found := snapshotAt_eq strict fixed sized (n + k)
      rw [found] at last
      have passed : upTo id l (queueAt table now size (n + k + 1)).cursor =
          upTo id l (queueAt table now size (n + k)).cursor ++
            (beyond id l (queueAt table now size (n + k)).cursor).take (size (n + k)).toNat :=
        upTo_last strict last
      rw [snapshotsFrom, List.range'_concat, List.flatMap_append, ← snapshotsFrom, before]
      simp only [Nat.one_mul, List.flatMap_cons, List.flatMap_nil, List.append_nil]
      rw [found, ← passed, Nat.add_assoc]

theorem snapshotsFrom_eq {n k : ℕ} (starts : StartsAt table now size n)
    (running : ∀ i, i < k → ¬ResetAt table now size (n + i))
    (resets : ResetAt table now size (n + k)) : snapshotsFrom table now size n (k + 1) = l := by
  have before := snapshotsFrom_eq_upTo strict named fixed sized starts running
  obtain ⟨-, last⟩ | ⟨moves, -⟩ := refresh_cases strict named fixed sized (n + k)
  · rw [snapshotsFrom, List.range'_concat, List.flatMap_append, ← snapshotsFrom, before]
    simp only [Nat.one_mul, List.flatMap_cons, List.flatMap_nil, List.append_nil]
    rw [last]
    exact upTo_append_beyond strict
  · exact absurd resets moves

theorem exists_resetAt {m : ℕ} (positive : 1 ≤ m) (least : ∀ n, m ≤ (size n).toNat) (n : ℕ) :
    ∃ k, k * m ≤ (beyond id l (queueAt table now size n).cursor).length ∧
      ResetAt table now size (n + k) := by
  generalize left : (beyond id l (queueAt table now size n).cursor).length = r
  induction r using Nat.strong_induction_on generalizing n with
  | _ r ih =>
    obtain ⟨reset, -⟩ | ⟨-, full, last⟩ := refresh_cases strict named fixed sized n
    · exact ⟨0, by omega, reset⟩
    · have found := snapshotAt_eq strict fixed sized n
      have page := congrArg List.length found
      rw [full, List.length_take, left] at page
      have enough := least n
      rw [found] at last
      have after : beyond id l (queueAt table now size (n + 1)).cursor =
          (beyond id l (queueAt table now size n).cursor).drop (size n).toNat :=
        beyond_last strict last
      have rest : (beyond id l (queueAt table now size (n + 1)).cursor).length =
          r - (size n).toNat := by
        rw [← left, ← List.length_drop, ← after]
      obtain ⟨k, few, resets⟩ := ih (r - (size n).toNat) (by omega) (n + 1) rest
      refine ⟨k + 1, ?_, by rwa [Nat.add_assoc, Nat.add_comm 1 k] at resets⟩
      rw [Nat.add_mul]
      omega

end Fixed

end Rotation

end Hookubit.Queue.TenantRotation
