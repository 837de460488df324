/- sources: queue/postgres.go (perTenantCap, pickTenants, claimTenantFair, claimTenantFairSQL)
   digest: How the batch of a tenant-fair claim is shared out, and up to which limit it suffices. -/

import Hookubit.Queue.TenantRotation
import Mathlib.Algebra.BigOperators.Ring.Finset

set_option autoImplicit false
set_option relaxedAutoImplicit false

namespace Hookubit.Queue.TenantShares

open Data.Binary64 Data.Rows Queue.Deliveries Queue.TenantFair Queue.TenantRotation

section Cap

variable (wild : ℤ → ℤ)

theorem le_mul_perTenantCap {limit tenants : ℤ} (present : 1 ≤ tenants) (few : tenants ≤ limit)
    (small : limit ≤ 2 ^ 53) :
    1 ≤ perTenantCap wild limit tenants ∧ limit ≤ tenants * perTenantCap wild limit tenants := by
  obtain ⟨n, rfl⟩ := Int.eq_ofNat_of_zero_le (show 0 ≤ limit by omega)
  obtain ⟨k, rfl⟩ := Int.eq_ofNat_of_zero_le (show 0 ≤ tenants by omega)
  have hn : n ≤ 2 ^ 53 := by exact_mod_cast small
  have hk : 0 < k := by omega
  have kn : k ≤ n := by omega
  set c : ℤ := max 1 ⌈round64 ((n : ℚ) / k)⌉ with hc
  have cap : perTenantCap wild n k = toInt wild c := by
    rw [perTenantCap, if_neg (by omega), hc]
    simp only [Int.cast_natCast]
    rw [round64_natCast hn, round64_natCast (kn.trans hn)]
  have quotient : (0 : ℚ) < n / k :=
    div_pos (by exact_mod_cast hk.trans_le kn) (by exact_mod_cast hk)
  have range : c < 2 ^ 63 := by
    have most : (n : ℚ) / k ≤ 2 ^ 53 :=
      (div_le_self (Nat.cast_nonneg n) (by exact_mod_cast hk)).trans (by exact_mod_cast hn)
    have rounded : round64 ((n : ℚ) / k) ≤ ((2 ^ 54 : ℤ) : ℚ) := by
      refine (round64_le_two_mul quotient).trans ?_
      push_cast
      linarith
    have whole := Int.ceil_le.mpr rounded
    omega
  have one : 1 ≤ c := le_max_left _ _
  have same : perTenantCap wild n k = c := by
    rw [cap, toInt, if_pos ⟨by omega, range⟩]
  refine ⟨same ▸ one, ?_⟩
  rw [same]
  by_contra short
  obtain ⟨m, hm⟩ := Int.eq_ofNat_of_zero_le (show 0 ≤ c by omega)
  have below : m * k < n := by
    rw [hm, not_le, mul_comm] at short
    exact_mod_cast short
  have above := lt_round64_div hn hk below
  have ceiling : round64 ((n : ℚ) / k) ≤ c := by
    refine (Int.le_ceil _).trans ?_
    exact_mod_cast le_max_right 1 ⌈round64 ((n : ℚ) / k)⌉
  rw [hm] at ceiling
  have : (m : ℚ) < (m : ℚ) := above.trans_le (by exact_mod_cast ceiling)
  exact lt_irrefl _ this

theorem perTenantCap_two_pow_succ : perTenantCap wild (2 ^ 53 + 1) 1 = 2 ^ 53 := by
  have limit : round64 ((2 ^ 53 + 1 : ℤ) : ℚ) = 2 ^ 53 := by
    have cast : ((2 ^ 53 + 1 : ℤ) : ℚ) = 2 ^ 53 + 1 := by norm_num
    rw [cast, round64_two_pow_succ]
  have lone : round64 ((1 : ℤ) : ℚ) = 1 := by
    have cast : ((1 : ℤ) : ℚ) = ((1 : ℕ) : ℚ) := by norm_num
    rw [cast, round64_natCast (by decide), Nat.cast_one]
  have again : round64 ((2 : ℚ) ^ 53 / 1) = ((2 ^ 53 : ℤ) : ℚ) := by
    have cast : (2 : ℚ) ^ 53 / 1 = ((2 ^ 53 : ℕ) : ℚ) := by norm_num
    rw [cast, round64_natCast (le_refl _)]
    norm_num
  rw [perTenantCap, if_neg (by decide), limit, lone, again, Int.ceil_intCast, toInt,
    if_pos (by decide)]
  decide

end Cap

section Batch

variable {Id W : Type} [LinearOrder Id]

theorem length_pickTenants (q : PostgresQueue Id) (rng : Shuffle Id) {limit : ℤ}
    (present : q.snapshot ≠ [])
    (positive : 1 ≤ limit) :
    ((pickTenants q.snapshot limit rng).length : ℤ) = min (q.snapshot.length : ℤ) limit := by
  have size := (rng.2 q.snapshot).length_eq
  have filled : ¬(q.snapshot.length = 0 ∨ limit ≤ 0) := by
    rw [List.length_eq_zero_iff]
    rintro (empty | absent)
    · exact present empty
    · omega
  simp only [pickTenants, if_neg filled]
  split
  · rw [List.length_take]
    omega
  · omega

theorem nodup_pickTenants (q : PostgresQueue Id) (rng : Shuffle Id) (limit : ℤ) :
    (pickTenants q.snapshot limit rng).Nodup := by
  have distinct : (rng.1 q.snapshot).Nodup :=
    (rng.2 q.snapshot).nodup_iff.mpr (q.ascending.imp fun h => h.ne)
  simp only [pickTenants]
  split_ifs
  · exact List.nodup_nil
  · exact distinct.sublist (List.take_sublist _ _)
  · exact distinct

variable {cap : ℕ} {now : ℤ} {skip : Id → Bool} {deliveries : List (Delivery Id W)}
  {batch : List (Tenant Id)}

theorem of_mem_pickFor {t : Tenant Id} {d : Delivery Id W}
    (h : d ∈ pickFor cap now skip deliveries t) : d ∈ deliveries ∧ tenantOf d = t := by
  obtain ⟨inside, ready⟩ := of_mem_pick h
  simp only [Bool.and_eq_true, decide_eq_true_eq] at ready
  exact ⟨inside, ready.1.1⟩

theorem nodup_picked (distinct : batch.Nodup) (rows : deliveries.Nodup) :
    (batch.flatMap (pickFor cap now skip deliveries)).Nodup := by
  rw [List.nodup_flatMap]
  refine ⟨fun t _ => nodup_pick rows, distinct.imp fun differ => ?_⟩
  intro d first second
  exact differ ((of_mem_pickFor first).2.symm.trans (of_mem_pickFor second).2)

theorem countP_picked_le (distinct : batch.Nodup) (t : Tenant Id) :
    (batch.flatMap (pickFor cap now skip deliveries)).countP (fun d => tenantOf d = t) ≤ cap := by
  induction batch with
  | nil => exact Nat.zero_le _
  | cons s rest ih =>
    obtain ⟨new, distinct⟩ := List.nodup_cons.mp distinct
    have none_of {u : List (Tenant Id)} (other : t ∉ u) :
        (u.flatMap (pickFor cap now skip deliveries)).countP (fun d => tenantOf d = t) = 0 := by
      rw [List.countP_eq_zero]
      intro d picked same
      obtain ⟨x, hx, here⟩ := List.mem_flatMap.mp picked
      have tenant := (of_mem_pickFor here).2
      rw [decide_eq_true_eq] at same
      exact other (same ▸ tenant ▸ hx)
    rw [List.flatMap_cons, List.countP_append]
    by_cases same : s = t
    · rw [none_of (same ▸ new), Nat.add_zero]
      refine List.countP_le_length.trans ?_
      rw [pickFor, length_pick]
      exact Nat.min_le_left _ _
    · have alone := none_of (u := [s]) (by simpa using Ne.symm same)
      rw [List.flatMap_singleton] at alone
      rw [alone, Nat.zero_add]
      exact ih distinct

end Batch

section Claim

variable {Id W : Type} [LinearOrder Id]

def readyCount (now : ℤ) (deliveries : List (Delivery Id W)) (t : Tenant Id) : ℕ :=
  deliveries.countP fun d => decide (tenantOf d = t) && readyPredicate now d

/-- What a claim owes its tenants: no more than the cap to any of them, all that the caps and
the limit allow if nothing is locked, and caps that make up the limit. -/
def FairClaim (wild : ℤ → ℤ) (workerID : W) (limit lease now : ℤ) (skip : Id → Bool)
    (batch : List (Tenant Id)) (deliveries : List (Delivery Id W)) : Prop :=
  let cap := perTenantCap wild limit batch.length
  ∃ leases table,
    claimTenantFair wild workerID limit lease now skip batch deliveries = some (leases, table) ∧
    (∀ t, (leases.countP (fun d => tenantOf d = t) : ℤ) ≤ cap) ∧
    ((∀ id, skip id = false) → (leases.length : ℤ) =
      min limit (batch.map fun t => min cap (readyCount now deliveries t)).sum) ∧
    limit ≤ batch.length * cap

variable {wild : ℤ → ℤ} {workerID : W} {limit lease now : ℤ} {skip : Id → Bool}
  {batch : List (Tenant Id)} {deliveries : List (Delivery Id W)}

theorem leases_perm (workerID : W) (lease now : ℤ) {picked : List (Delivery Id W)}
    (keyed : (deliveries.map Delivery.id).Nodup)
    (rows : ∀ d ∈ picked, d ∈ deliveries) (distinct : picked.Nodup) :
    ((updateWhere (fun d => if d.id ∈ picked.map Delivery.id then
        some (claimRow workerID lease now d) else none) deliveries).filter
      fun d => d.id ∈ picked.map Delivery.id).Perm (picked.map (claimRow workerID lease now)) := by
  have chosen : (deliveries.filter fun d => d.id ∈ picked.map Delivery.id).Perm picked := by
    refine (List.perm_ext_iff_of_nodup (keyed.of_map.filter _) distinct).mpr fun d => ?_
    rw [List.mem_filter, decide_eq_true_eq, List.mem_map]
    constructor
    · rintro ⟨inside, e, he, same⟩
      rwa [← List.inj_on_of_nodup_map keyed (rows e he) inside same]
    · intro here
      exact ⟨rows d here, d, here, rfl⟩
  have updated : updateWhere (fun d => if d.id ∈ picked.map Delivery.id then
      some (claimRow workerID lease now d) else none)
        (deliveries.filter fun d => d.id ∈ picked.map Delivery.id) =
      (deliveries.filter fun d => d.id ∈ picked.map Delivery.id).map
        (claimRow workerID lease now) := by
    apply List.map_congr_left
    intro d hd
    simp only [if_pos (of_decide_eq_true (List.mem_filter.mp hd).2), Option.getD_some]
  rw [filter_updateWhere, updated]
  · exact chosen.map _
  · intro r _ q hit
    obtain ⟨-, same⟩ := Option.ite_none_right_eq_some.mp hit
    cases same
    rfl

theorem fairClaim_of_cap (keyed : (deliveries.map Delivery.id).Nodup) (distinct : batch.Nodup)
    (positive : 1 ≤ limit) (cap : 1 ≤ perTenantCap wild limit batch.length)
    (enough : limit ≤ batch.length * perTenantCap wild limit batch.length) :
    FairClaim wild workerID limit lease now skip batch deliveries := by
  obtain ⟨c, hc⟩ := Int.eq_ofNat_of_zero_le (show 0 ≤ perTenantCap wild limit batch.length by omega)
  obtain ⟨n, rfl⟩ := Int.eq_ofNat_of_zero_le (show 0 ≤ limit by omega)
  have fits : ¬(perTenantCap wild n batch.length < 0 ∨ (n : ℤ) < 0) := by omega
  generalize hp : (batch.flatMap (pickFor c now skip deliveries)).take n = picked
  have rows : ∀ d ∈ picked, d ∈ deliveries := by
    intro d hd
    rw [← hp] at hd
    obtain ⟨t, -, here⟩ := List.mem_flatMap.mp (List.mem_of_mem_take hd)
    exact (of_mem_pickFor here).1
  have nodup : picked.Nodup :=
    hp ▸ (nodup_picked distinct keyed.of_map).sublist (List.take_sublist _ _)
  obtain ⟨leases, table, value, perm⟩ : ∃ leases table,
      claimTenantFair wild workerID n lease now skip batch deliveries = some (leases, table) ∧
        leases.Perm (picked.map (claimRow workerID lease now)) := by
    refine ⟨_, ?_, ?_, leases_perm workerID lease now keyed rows nodup⟩
    pick_goal 2
    subst hp
    rw [claimTenantFair, if_neg fits, hc]
    rfl
  refine ⟨leases, table, value, ?_, ?_, enough⟩
  · intro t
    have share : picked.countP (fun d => tenantOf d = t) ≤ c := by
      rw [← hp]
      exact (List.take_sublist n _).countP_le.trans (countP_picked_le distinct t)
    have count := perm.countP_eq (fun d => tenantOf d = t)
    rw [List.countP_map] at count
    rw [hc, count]
    exact_mod_cast share
  · intro free
    have each (t : Tenant Id) :
        (pickFor c now skip deliveries t).length = min c (readyCount now deliveries t) := by
      rw [pickFor, length_pick, readyCount]
      simp [free]
    have total : picked.length =
        min n (batch.map fun t => min c (readyCount now deliveries t)).sum := by
      rw [← hp, List.length_take, List.length_flatMap]
      simp only [each]
    rw [hc, perm.length_eq, List.length_map, total, Nat.cast_min, Nat.cast_list_sum, List.map_map]
    simp only [Function.comp_def, Nat.cast_min]

end Claim

section Fairness

variable {Id W : Type} [LinearOrder Id] [OrderBot Id]

/-- While the tenants with ready work stay the same, the snapshots from one reset of the cursor
to the next name each of them once, and a reset is never far. The claims up to a batch size are
fair exactly when it has at most 53 bits. -/
theorem tenant_fair_claiming_iff (tenants : Finset (Tenant Id))
    (named : ∀ t ∈ tenants, (ofLex t).1 ≠ ⊥ ∧ (ofLex t).2 ≠ ⊥)
    (table : ℕ → List (Delivery Id W)) (now size : ℕ → ℤ)
    (fixed : ∀ n t, Ready (now n) (table n) t ↔ t ∈ tenants) (sized : ∀ n, 1 ≤ size n)
    (wild : ℤ → ℤ) (workerID : W) (batchSize : ℤ) :
    (∀ n k, StartsAt table now size n → (∀ i, i < k → ¬ResetAt table now size (n + i)) →
      ResetAt table now size (n + k) → (snapshotsFrom table now size n (k + 1)).Nodup ∧
        ∀ t, t ∈ snapshotsFrom table now size n (k + 1) ↔ t ∈ tenants) ∧
    (∀ m : ℕ, 1 ≤ m → (∀ n, (m : ℤ) ≤ size n) → ∀ n, ∃ k,
      k < (tenants.card + (m - 1)) / m + 1 ∧ ResetAt table now size (n + k)) ∧
    ((∀ limit : ℤ, 1 ≤ limit → limit ≤ batchSize → ∀ (q : PostgresQueue Id) (rng : Shuffle Id),
        q.snapshot ≠ [] →
        ((pickTenants q.snapshot limit rng).length : ℤ) = min (q.snapshot.length : ℤ) limit ∧
        ∀ (lease instant : ℤ) (skip : Id → Bool) (deliveries : List (Delivery Id W)),
          (deliveries.map Delivery.id).Nodup →
          FairClaim wild workerID limit lease instant skip
            (pickTenants q.snapshot limit rng) deliveries) ↔
      batchSize ≤ 2 ^ 53) := by
  have strict : (tenants.sort (· ≤ ·)).Pairwise (· < ·) :=
    tenants.sortedLT_sort.pairwise
  have filled : ∀ t ∈ tenants.sort (· ≤ ·), t ≠ ⊥ := by
    intro t ht same
    exact (named t ((Finset.mem_sort _).mp ht)).1 (by rw [same]; rfl)
  have fixed' : ∀ n t, Ready (now n) (table n) t ↔ t ∈ tenants.sort (· ≤ ·) := fun n t => by
    rw [fixed, Finset.mem_sort]
  refine ⟨fun n k starts running resets => ?_, fun m positive least n => ?_, ?_, fun small => ?_⟩
  · rw [snapshotsFrom_eq strict filled fixed' sized starts running resets]
    exact ⟨Finset.sort_nodup _ _, fun t => Finset.mem_sort _⟩
  · have least' : ∀ n, m ≤ (size n).toNat := fun n => by
      have := least n
      omega
    obtain ⟨k, few, resets⟩ := exists_resetAt strict filled fixed' sized positive least' n
    have most : k * m ≤ tenants.card := by
      refine few.trans ((List.length_filter_le _ _).trans ?_)
      rw [Finset.length_sort]
    refine ⟨k, ?_, resets⟩
    have : k ≤ (tenants.card + (m - 1)) / m :=
      (Nat.le_div_iff_mul_le positive).mpr (most.trans (Nat.le_add_right _ _))
    omega
  · -- A lone tenant and the first limit that is no float.
    intro fair
    by_contra large
    obtain ⟨-, claim⟩ := fair (2 ^ 53 + 1) (by decide) (by omega)
      ⟨[⊥], ⊥, List.pairwise_singleton _ _⟩ ⟨id, fun l => List.Perm.refl l⟩ (List.cons_ne_nil _ _)
    obtain ⟨-, -, -, -, -, enough⟩ := claim 0 0 (fun _ => false) [] List.nodup_nil
    have lone : pickTenants [(⊥ : Tenant Id)] (2 ^ 53 + 1) ⟨id, fun l => List.Perm.refl l⟩ = [⊥] :=
      rfl
    rw [lone, List.length_singleton, Nat.cast_one, perTenantCap_two_pow_succ] at enough
    exact absurd enough (by decide)
  · intro limit positive within q rng present
    have count := length_pickTenants q rng present positive
    have size : 1 ≤ (q.snapshot.length : ℤ) := by
      exact_mod_cast List.length_pos_of_ne_nil present
    refine ⟨count, fun lease instant skip deliveries keyed => ?_⟩
    have least : 1 ≤ ((pickTenants q.snapshot limit rng).length : ℤ) := by
      rw [count]
      exact le_min size positive
    have most : ((pickTenants q.snapshot limit rng).length : ℤ) ≤ limit := by
      rw [count]
      exact min_le_right _ _
    obtain ⟨cap, enough⟩ := le_mul_perTenantCap wild least most (within.trans small)
    exact fairClaim_of_cap keyed (nodup_pickTenants q rng limit) positive cap enough

def oneRow : Delivery ℕ ℕ := .inserted 1 1 1 1 1 1 1 0

/-- Three tenants with three, two and one ready deliveries, in no order. -/
def sixRows : List (Delivery ℕ ℕ) :=
  [(1, 1, 1), (2, 1, 2), (3, 1, 1), (4, 2, 1), (5, 1, 1), (6, 1, 2)].map
    fun (id, organizationId, projectId) => .inserted id 1 1 1 organizationId projectId 1 0

/-- Snapshots of two tenants come round to all three, and the two of the first share a batch. -/
theorem three_tenants_claimed_fairly :
    let first : List (Tenant ℕ) := [toLex (1, 1), toLex (1, 2)]
    snapshotAt (fun _ => sixRows) (fun _ => 0) (fun _ => 2) 0 = first ∧
    (snapshotsFrom (fun _ => sixRows) (fun _ => 0) (fun _ => 2) 0 2).Nodup ∧
    toLex (2, 1) ∈ snapshotsFrom (fun _ => sixRows) (fun _ => 0) (fun _ => 2) 0 2 ∧
    (∃ k, k < 3 ∧ ResetAt (fun _ => sixRows) (fun _ => 0) (fun _ => 2) (2 + k)) ∧
    FairClaim (fun _ => 0) 7 3 0 0 (fun _ => false) first sixRows := by
  intro first
  let tenants : Finset (Tenant ℕ) := {toLex (1, 1), toLex (1, 2), toLex (2, 1)}
  have ready (t : Tenant ℕ) : Ready 0 sixRows t ↔ t ∈ tenants := by
    constructor
    · rintro ⟨d, inside, -, rfl⟩
      revert d
      decide
    · revert t
      unfold Ready
      decide
  have card : tenants.card = 3 := by decide
  obtain ⟨rotation, near_reset, claims⟩ := tenant_fair_claiming_iff tenants (by decide)
    (fun _ => sixRows) (fun _ => 0) (fun _ => 2) (fun _ => ready) (fun _ => by decide)
    (fun _ => 0) 7 100
  have running : ∀ i, i < 1 → ¬ResetAt (fun _ => sixRows) (fun _ => 0) (fun _ => 2) (0 + i) := by
    unfold ResetAt
    decide
  have resets : ResetAt (fun _ => sixRows) (fun _ => 0) (fun _ => 2) (0 + 1) := by
    unfold ResetAt
    decide
  obtain ⟨once, all⟩ := rotation 0 1 rfl running resets
  refine ⟨by decide, once, (all _).mpr (by decide), ?_, ?_⟩
  · simpa only [card] using near_reset 2 (by decide) (fun _ => le_refl 2) 2
  · exact (claims.mpr (by decide) 3 (by decide) (by decide) ⟨first, ⊥, by decide⟩
      ⟨id, fun l => List.Perm.refl l⟩ (List.cons_ne_nil _ _)).2 0 0 (fun _ => false) sixRows
      (by decide)

/-- A lone tenant is not given the whole batch. -/
theorem lone_tenant_capped_short :
    ¬FairClaim (fun _ => 0) 7 (2 ^ 53 + 1) 0 0 (fun _ => false) [toLex (1, 1)] [oneRow] := by
  rintro ⟨-, -, -, -, -, enough⟩
  rw [List.length_singleton, Nat.cast_one, perTenantCap_two_pow_succ] at enough
  exact absurd enough (by decide)

end Fairness

end Hookubit.Queue.TenantShares
