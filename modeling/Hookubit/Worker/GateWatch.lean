/- sources: worker/gatewatch.go
   digest: The two-generation counter of consecutive refusals at the tenant gate. -/

import Mathlib.Data.List.AList

/-!
The maps of the source are association lists. What the counter is relied on for is a field of
the structure: a remembered count has not reached the threshold.
-/

set_option autoImplicit false
set_option relaxedAutoImplicit false

namespace Hookubit.Worker.GateWatch

structure TenantGateWatch (Id : Type) [DecidableEq Id] where
  threshold : ℤ
  capacity : ℤ
  cur : AList fun _ : Id => ℤ
  prev : AList fun _ : Id => ℤ
  threshold_pos : 1 ≤ threshold
  remembered : ∀ id n, n ∈ cur.lookup id ∨ n ∈ prev.lookup id → 1 ≤ n ∧ n < threshold

variable {Id : Type} [DecidableEq Id]

def newTenantGateWatch (threshold capacity : ℤ) : TenantGateWatch Id where
  threshold := if threshold < 1 then 1 else threshold
  capacity := if capacity < 1 then 1 else capacity
  cur := ∅
  prev := ∅
  threshold_pos := by
    split <;> omega
  remembered := by simp

namespace TenantGateWatch

/-- The count a refusal starts from: the current generation's, else the previous one's. -/
def count (t : TenantGateWatch Id) (id : Id) : ℤ :=
  ((t.cur.lookup id).or (t.prev.lookup id)).getD 0

variable (t : TenantGateWatch Id)

theorem count_bounds (id : Id) :
    0 ≤ t.count id ∧ t.count id < t.threshold := by
  have positive := t.threshold_pos
  unfold count
  cases hc : t.cur.lookup id with
  | some n =>
    have := t.remembered id n (.inl hc)
    simp only [Option.some_or, Option.getD_some]
    omega
  | none =>
    cases hp : t.prev.lookup id with
    | some n =>
      have := t.remembered id n (.inr hp)
      simp only [Option.none_or, Option.getD_some]
      omega
    | none =>
      simp only [Option.none_or, Option.getD_none]
      omega

theorem mem_lookup_erase {m : AList fun _ : Id => ℤ} {a id : Id} {n : ℤ}
    (h : n ∈ (m.erase a).lookup id) : n ∈ m.lookup id := by
  by_cases same : id = a
  · subst same
    simp at h
  · rwa [AList.lookup_erase_ne same] at h

def forget (t : TenantGateWatch Id) (id : Id) : TenantGateWatch Id :=
  { t with
    cur := t.cur.erase id
    prev := t.prev.erase id
    remembered := fun a n h => t.remembered a n (h.imp mem_lookup_erase mem_lookup_erase) }

/-- The maps that a count is stored into: at capacity a new generation begins. -/
def rotated (t : TenantGateWatch Id) : (AList fun _ : Id => ℤ) × AList fun _ : Id => ℤ :=
  if t.capacity ≤ t.cur.entries.length then (∅, t.cur) else (t.cur, t.prev)

theorem remembered_rotated (id : Id) (n : ℤ)
    (h : n ∈ t.rotated.1.lookup id ∨ n ∈ t.rotated.2.lookup id) : 1 ≤ n ∧ n < t.threshold := by
  unfold rotated at h
  split at h
  · obtain empty | old := h
    · simp at empty
    · exact t.remembered id n (.inl old)
  · exact t.remembered id n h

/-- The watch with one refusal more, below the threshold. -/
def store (t : TenantGateWatch Id) (id : Id) (below : t.count id + 1 < t.threshold) :
    TenantGateWatch Id :=
  { t with
    cur := t.rotated.1.insert id (t.count id + 1)
    prev := t.rotated.2
    remembered := by
      intro a n h
      obtain stored | old := h
      · by_cases same : a = id
        · subst same
          obtain rfl : t.count a + 1 = n := by simpa using stored
          have := (t.count_bounds a).1
          omega
        · rw [AList.lookup_insert_ne same] at stored
          exact t.remembered_rotated a n (.inl stored)
      · exact t.remembered_rotated a n (.inr old) }

/-- `persistent` counts one refusal; a streak that reaches the threshold is reported and starts
again from nothing. -/
def persistent (t : TenantGateWatch Id) (id : Id) : Bool × TenantGateWatch Id :=
  if reached : t.threshold ≤ t.count id + 1 then (true, t.forget id)
  else (false, t.store id (Int.not_le.mp reached))

@[simp]
theorem threshold_forget (id : Id) :
    (t.forget id).threshold = t.threshold := rfl

@[simp]
theorem count_forget (id : Id) : (t.forget id).count id = 0 := by
  simp [count, forget]

theorem count_forget_ne {id other : Id} (ne : id ≠ other) :
    (t.forget other).count id = t.count id := by
  simp [count, forget, AList.lookup_erase_ne ne]

@[simp]
theorem threshold_persistent (id : Id) :
    (t.persistent id).2.threshold = t.threshold := by
  unfold persistent
  split <;> rfl

theorem persistent_fst (id : Id) :
    (t.persistent id).1 = true ↔ t.count id = t.threshold - 1 := by
  have := t.count_bounds id
  unfold persistent
  split
  · simp only [true_iff]
    omega
  · simp only [Bool.false_eq_true, false_iff]
    omega

theorem count_persistent (id : Id) :
    (t.persistent id).2.count id =
      if t.count id = t.threshold - 1 then 0 else t.count id + 1 := by
  have := t.count_bounds id
  unfold persistent
  split
  · rw [if_pos (by omega)]
    exact t.count_forget id
  · rw [if_neg (by omega)]
    simp [store, count]

end TenantGateWatch

end Hookubit.Worker.GateWatch
