/- sources: worker/gatewatch.go
   digest: The refusal tracker over call sequences: bounded, and exact while no streak is crowded
     out. -/

import Hookubit.Worker.GateWatch
import Mathlib.Data.List.TakeWhile

set_option autoImplicit false
set_option relaxedAutoImplicit false

namespace Hookubit.Worker.GateWatchRun

open GateWatch

inductive Call (Id : Type)
  | persistent (id : Id)
  | forget (id : Id)
  deriving DecidableEq

variable {Id : Type} [DecidableEq Id] {id other : Id} {t : TenantGateWatch Id} {n k : ℕ}

def Call.isPersistent : Call Id → Bool
  | .persistent _ => true
  | .forget _ => false

def step (t : TenantGateWatch Id) : Call Id → TenantGateWatch Id
  | .persistent id => (t.persistent id).2
  | .forget id => t.forget id

def watchAfter (threshold capacity : ℤ) : List (Call Id) → TenantGateWatch Id
  | [] => newTenantGateWatch threshold capacity
  | c :: calls => step (watchAfter threshold capacity calls) c

/-- The newest calls, back to the last `forget` of `id` or the last true answer for it. -/
def since (threshold capacity : ℤ) (id : Id) : List (Call Id) → List (Call Id)
  | [] => []
  | c :: calls =>
    if c = .forget id ∨
        c = .persistent id ∧ ((watchAfter threshold capacity calls).persistent id).1 = true then []
    else c :: since threshold capacity id calls

/-- Fewer than `capacity` refusals of other deliveries lie between consecutive ones of `id`. -/
def Close (capacity : ℤ) (id : Id) (calls : List (Call Id)) : Prop :=
  ∀ newer between older,
    calls = newer ++ .persistent id :: (between ++ .persistent id :: older) →
    .persistent id ∉ between → (between.countP Call.isPersistent : ℤ) < capacity

/-- Refusals of other deliveries since the newest one of `id`. -/
def others (id : Id) (calls : List (Call Id)) : ℕ :=
  (calls.takeWhile (· ≠ .persistent id)).countP Call.isPersistent

omit [DecidableEq Id] in
theorem Close.of_cons {capacity : ℤ} {c : Call Id} {calls : List (Call Id)}
    (close : Close capacity id (c :: calls)) : Close capacity id calls := by
  intro newer between older split apart
  exact close (c :: newer) between older (by rw [split]; rfl) apart

theorem Close.others_lt {capacity : ℤ} {calls : List (Call Id)}
    (close : Close capacity id (.persistent id :: calls)) (again : .persistent id ∈ calls) :
    (others id calls : ℤ) < capacity := by
  obtain ⟨between, older, split, apart⟩ := List.eq_append_cons_of_mem again
  have passed : ∀ c ∈ between, decide (c ≠ Call.persistent id) = true := by
    intro c hc
    exact decide_eq_true (ne_of_mem_of_not_mem hc apart)
  have few := close [] between older (by rw [split]; rfl) apart
  rw [others, split, List.takeWhile_append_of_pos passed, List.takeWhile_cons_of_neg (by simp),
    List.append_nil]
  exact few

theorem length_insert_le (m : AList fun _ : Id => ℤ) (id : Id) (n : ℤ) :
    (m.insert id n).entries.length ≤ m.entries.length + 1 := by
  rw [AList.entries_insert, List.length_cons]
  exact Nat.succ_le_succ (List.kerase_sublist id m.entries).length_le

theorem length_erase_le (m : AList fun _ : Id => ℤ) (id : Id) :
    (m.erase id).entries.length ≤ m.entries.length :=
  (List.kerase_sublist id m.entries).length_le

theorem step_cases (t : TenantGateWatch Id) (c : Call Id) :
    (∃ id, (c = .forget id ∨ c = .persistent id ∧ (t.persistent id).1 = true) ∧
        step t c = t.forget id) ∨
      ∃ id below, c = .persistent id ∧ (t.persistent id).1 = false ∧
        step t c = t.store id below := by
  cases c with
  | forget id => exact .inl ⟨id, .inl rfl, rfl⟩
  | persistent id =>
    by_cases reached : t.threshold ≤ t.count id + 1
    · exact .inl ⟨id, .inr ⟨rfl, by simp [TenantGateWatch.persistent, reached]⟩,
        by simp [step, TenantGateWatch.persistent, reached]⟩
    · exact .inr ⟨id, Int.not_le.mp reached, rfl, by simp [TenantGateWatch.persistent, reached],
        by simp [step, TenantGateWatch.persistent, reached]⟩

theorem rotated_cases (t : TenantGateWatch Id) :
    (t.capacity ≤ t.cur.entries.length ∧ t.rotated = (∅, t.cur)) ∨
      ((t.cur.entries.length : ℤ) < t.capacity ∧ t.rotated = (t.cur, t.prev)) := by
  unfold TenantGateWatch.rotated
  split
  · exact .inl ⟨by assumption, rfl⟩
  · exact .inr ⟨by omega, rfl⟩

theorem bounded_step {capacity : ℤ} (c : Call Id) (limit : t.capacity = capacity)
    (room : 1 ≤ capacity)
    (bounded : (t.cur.entries.length : ℤ) ≤ capacity ∧ (t.prev.entries.length : ℤ) ≤ capacity) :
    ((step t c).cur.entries.length : ℤ) ≤ capacity ∧
      ((step t c).prev.entries.length : ℤ) ≤ capacity := by
  obtain ⟨id, -, next⟩ | ⟨id, below, -, -, next⟩ := step_cases t c
  · have cur := length_erase_le t.cur id
    have prev := length_erase_le t.prev id
    simp only [next, TenantGateWatch.forget]
    omega
  · obtain ⟨full, rotated⟩ | ⟨free, rotated⟩ := rotated_cases t
    · have cur := length_insert_le (∅ : AList fun _ : Id => ℤ) id (t.count id + 1)
      rw [AList.empty_entries, List.length_nil] at cur
      simp only [next, TenantGateWatch.store, rotated]
      omega
    · have cur := length_insert_le t.cur id (t.count id + 1)
      simp only [next, TenantGateWatch.store, rotated]
      omega

/-- No generation remembers more than `n` refusals of `id`. -/
def AtMost (t : TenantGateWatch Id) (id : Id) (n : ℕ) : Prop :=
  ∀ k, k ∈ t.cur.lookup id ∨ k ∈ t.prev.lookup id → k ≤ n

theorem AtMost.count_le (atMost : AtMost t id n) : t.count id ≤ n := by
  unfold TenantGateWatch.count
  cases current : t.cur.lookup id with
  | some k => exact atMost k (.inl current)
  | none =>
    cases previous : t.prev.lookup id with
    | some k => exact atMost k (.inr previous)
    | none => exact Int.natCast_nonneg n

theorem AtMost.forget (atMost : AtMost t id n) (other : Id) : AtMost (t.forget other) id n :=
  fun k found => atMost k (found.imp TenantGateWatch.mem_lookup_erase
    TenantGateWatch.mem_lookup_erase)

theorem atMost_forget_self (t : TenantGateWatch Id) (id : Id) : AtMost (t.forget id) id 0 := by
  intro k found
  simp [TenantGateWatch.forget] at found

theorem AtMost.rotated (atMost : AtMost t id n) (k : ℤ)
    (found : k ∈ t.rotated.1.lookup id ∨ k ∈ t.rotated.2.lookup id) : k ≤ n := by
  obtain ⟨-, rotated⟩ | ⟨-, rotated⟩ := rotated_cases t
  · rw [rotated] at found
    obtain absent | old := found
    · simp at absent
    · exact atMost k (.inl old)
  · rw [rotated] at found
    exact atMost k found

theorem AtMost.store (atMost : AtMost t id n) (below : t.count other + 1 < t.threshold) :
    AtMost (t.store other below) id (if other = id then n + 1 else n) := by
  intro k found
  by_cases same : other = id
  · subst same
    rw [if_pos rfl]
    obtain stored | old := found
    · have := atMost.count_le
      simp only [TenantGateWatch.store, AList.lookup_insert, Option.mem_some_iff] at stored
      omega
    · have := atMost.rotated k (.inr old)
      omega
  · rw [if_neg same]
    obtain stored | old := found
    · rw [TenantGateWatch.store, AList.lookup_insert_ne (Ne.symm same)] at stored
      exact atMost.rotated k (.inl stored)
    · exact atMost.rotated k (.inr old)

/-- The watch still holds the whole streak of `n` refusals, `k` other ones after the last. -/
inductive Held (t : TenantGateWatch Id) (id : Id) : ℕ → ℕ → Prop
  | absent {k : ℕ} : t.cur.lookup id = none → t.prev.lookup id = none → Held t id 0 k
  | current {n k : ℕ} : t.cur.lookup id = some (n : ℤ) → Held t id n k
  | previous {n k : ℕ} : t.cur.lookup id = none → t.prev.lookup id = some (n : ℤ) →
      t.cur.entries.length ≤ k → Held t id n k

theorem Held.count (held : Held t id n k) : t.count id = n := by
  cases held with
  | absent current previous => simp [TenantGateWatch.count, current, previous]
  | current current => simp [TenantGateWatch.count, current]
  | previous current previous _ => simp [TenantGateWatch.count, current, previous]

theorem Held.forget {j : ℕ} (held : Held t id n k) (ne : id ≠ other) (later : k ≤ j) :
    Held (t.forget other) id n j := by
  have cur : (t.forget other).cur.lookup id = t.cur.lookup id := AList.lookup_erase_ne ne
  have prev : (t.forget other).prev.lookup id = t.prev.lookup id := AList.lookup_erase_ne ne
  have short : (t.forget other).cur.entries.length ≤ t.cur.entries.length :=
    length_erase_le t.cur other
  cases held with
  | absent current previous => exact .absent (cur.trans current) (prev.trans previous)
  | current current => exact .current (cur.trans current)
  | previous current previous size =>
    exact .previous (cur.trans current) (prev.trans previous) (by omega)

/-- One refusal of another delivery moves a streak back by at most one generation. -/
theorem Held.store (held : Held t id n k) (ne : id ≠ other)
    (below : t.count other + 1 < t.threshold) (near : n ≠ 0 → (k : ℤ) < t.capacity) :
    Held (t.store other below) id n (k + 1) := by
  have cur : (t.store other below).cur.lookup id = t.rotated.1.lookup id :=
    AList.lookup_insert_ne ne
  have size : (t.store other below).cur.entries.length ≤ t.rotated.1.entries.length + 1 :=
    length_insert_le t.rotated.1 other (t.count other + 1)
  obtain ⟨full, rotated⟩ | ⟨-, rotated⟩ := rotated_cases t
  · have prev : (t.store other below).prev = t.cur := congrArg Prod.snd rotated
    rw [rotated] at cur size
    cases held with
    | absent current previous =>
      exact .absent (cur.trans (AList.lookup_empty id)) (by rw [prev, current])
    | current current =>
      refine .previous (cur.trans (AList.lookup_empty id)) (by rw [prev, current]) ?_
      exact size.trans (Nat.succ_le_succ (Nat.zero_le k))
    | previous current previous short =>
      -- the generation that already pushed the streak back is too young to be full
      have := t.remembered id n (.inr previous)
      have := near (by omega)
      omega
  · have prev : (t.store other below).prev = t.prev := congrArg Prod.snd rotated
    rw [rotated] at cur size
    cases held with
    | absent current previous => exact .absent (cur.trans current) (by rw [prev, previous])
    | current current => exact .current (cur.trans current)
    | previous current previous short =>
      exact .previous (cur.trans current) (by rw [prev, previous])
        (size.trans (Nat.succ_le_succ short))

theorem Held.store_self (held : Held t id n k) (below : t.count id + 1 < t.threshold) :
    Held (t.store id below) id (n + 1) 0 := by
  refine .current ?_
  rw [TenantGateWatch.store, AList.lookup_insert, held.count]
  rfl

theorem since_cons_cases (threshold capacity : ℤ) (id : Id) (c : Call Id) (calls : List (Call Id)) :
    (since threshold capacity id (c :: calls) = [] ∧
        watchAfter threshold capacity (c :: calls) =
          (watchAfter threshold capacity calls).forget id) ∨
      (since threshold capacity id (c :: calls) = c :: since threshold capacity id calls ∧
        c ≠ .persistent id ∧ ∃ other, id ≠ other ∧
          (watchAfter threshold capacity (c :: calls) =
              (watchAfter threshold capacity calls).forget other ∨
            c = .persistent other ∧ ∃ below, watchAfter threshold capacity (c :: calls) =
              (watchAfter threshold capacity calls).store other below)) ∨
      (c = .persistent id ∧
        since threshold capacity id (c :: calls) = c :: since threshold capacity id calls ∧
        ∃ below, watchAfter threshold capacity (c :: calls) =
          (watchAfter threshold capacity calls).store id below) := by
  obtain ⟨other, reset, next⟩ | ⟨other, below, rfl, answer, next⟩ :=
    step_cases (watchAfter threshold capacity calls) c
  · by_cases same : id = other
    · subst same
      exact .inl ⟨if_pos reset, next⟩
    · have kept : c ≠ .forget id ∧ c ≠ .persistent id := by
        obtain rfl | ⟨rfl, -⟩ := reset
        all_goals simp [Ne.symm same]
      exact .inr (.inl ⟨if_neg (by simp [kept]), kept.2, other, same, .inl next⟩)
  · by_cases same : id = other
    · subst same
      exact .inr (.inr ⟨rfl, if_neg (by simp [answer]), below, next⟩)
    · have ne : Call.persistent other ≠ .persistent id := by simp [Ne.symm same]
      exact .inr (.inl ⟨if_neg (by simp [ne]), ne, other, same, .inr ⟨rfl, below, next⟩⟩)

@[simp]
theorem others_cons_self (id : Id) (calls : List (Call Id)) :
    others id (.persistent id :: calls) = 0 := by
  simp [others]

theorem others_cons_of_ne {c : Call Id} (ne : c ≠ .persistent id) (calls : List (Call Id)) :
    others id (c :: calls) = others id calls + if c.isPersistent then 1 else 0 := by
  simp [others, ne, List.countP_cons]

section Run

variable {threshold capacity : ℤ} (positive : 1 ≤ threshold) (room : 1 ≤ capacity)

include positive room

theorem watchAfter_limits (calls : List (Call Id)) :
    (watchAfter threshold capacity calls).threshold = threshold ∧
      (watchAfter threshold capacity calls).capacity = capacity := by
  induction calls with
  | nil => exact ⟨if_neg (by omega), if_neg (by omega)⟩
  | cons c calls ih =>
    obtain ⟨id, -, next⟩ | ⟨id, below, -, -, next⟩ :=
      step_cases (watchAfter threshold capacity calls) c
    all_goals
      rw [watchAfter, next]
      exact ih

theorem watchAfter_bounded (calls : List (Call Id)) :
    ((watchAfter threshold capacity calls).cur.entries.length : ℤ) ≤ capacity ∧
      ((watchAfter threshold capacity calls).prev.entries.length : ℤ) ≤ capacity := by
  induction calls with
  | nil =>
    have empty : (0 : ℤ) ≤ capacity := by omega
    exact ⟨empty, empty⟩
  | cons c calls ih => exact bounded_step c (watchAfter_limits positive room calls).2 room ih

omit positive room in
theorem watchAfter_atMost (threshold capacity : ℤ) (id : Id) (calls : List (Call Id)) :
    AtMost (watchAfter threshold capacity calls) id
      ((since threshold capacity id calls).count (.persistent id)) := by
  induction calls with
  | nil =>
    intro k found
    simp [watchAfter, newTenantGateWatch] at found
  | cons c calls ih =>
    obtain ⟨ended, next⟩ | ⟨kept, ne, other, apart, next | ⟨-, below, next⟩⟩ |
      ⟨rfl, kept, below, next⟩ := since_cons_cases threshold capacity id c calls
    · rw [ended, next]
      exact atMost_forget_self _ id
    · rw [kept, next, List.count_cons_of_ne ne]
      exact ih.forget other
    · have stored := ih.store below
      rwa [if_neg (Ne.symm apart), ← List.count_cons_of_ne ne, ← kept, ← next] at stored
    · have stored := ih.store below
      rwa [if_pos rfl, ← List.count_cons_self, ← kept, ← next] at stored

theorem watchAfter_held (id : Id) (calls : List (Call Id))
    (close : Close capacity id (since threshold capacity id calls))
    (near : .persistent id ∈ since threshold capacity id calls →
      (others id (since threshold capacity id calls) : ℤ) < capacity) :
    Held (watchAfter threshold capacity calls) id
      ((since threshold capacity id calls).count (.persistent id))
      (others id (since threshold capacity id calls)) := by
  induction calls with
  | nil => exact .absent rfl rfl
  | cons c calls ih =>
    obtain ⟨ended, next⟩ | ⟨kept, ne, other, apart, next⟩ | ⟨rfl, kept, below, next⟩ :=
      since_cons_cases threshold capacity id c calls
    · rw [ended, next]
      exact .absent (AList.lookup_erase _ _) (AList.lookup_erase _ _)
    · rw [kept] at close near ⊢
      rw [others_cons_of_ne ne] at near ⊢
      rw [List.count_cons_of_ne ne]
      have held := ih close.of_cons fun again => by
        have := near (List.mem_cons_of_mem c again)
        omega
      obtain next | ⟨rfl, below, next⟩ := next
      · rw [next]
        exact held.forget apart (by omega)
      · rw [next]
        refine held.store apart below fun streak => ?_
        have := near (List.mem_cons_of_mem _ (List.count_pos_iff.mp (by omega)))
        rw [(watchAfter_limits positive room calls).2]
        omega
    · rw [kept] at close near ⊢
      have held := ih close.of_cons close.others_lt
      rw [next, List.count_cons_self, others_cons_self]
      exact held.store_self below

/-- The refusal tracker is bounded by its capacity, never reports a streak shorter than the
threshold, and reports one that reaches it as long as it is not crowded out. -/
theorem tenantGateWatch_exact (calls : List (Call Id)) :
    ((watchAfter threshold capacity calls).cur.entries.length : ℤ) ≤ capacity ∧
      ((watchAfter threshold capacity calls).cur.entries.length +
        (watchAfter threshold capacity calls).prev.entries.length : ℤ) ≤ 2 * capacity ∧
      ∀ id,
        (((watchAfter threshold capacity calls).persistent id).1 = true →
          threshold ≤ (since threshold capacity id calls).count (.persistent id) + 1) ∧
        (((since threshold capacity id calls).count (.persistent id) + 1 : ℤ) = threshold →
          Close capacity id (.persistent id :: since threshold capacity id calls) →
          ((watchAfter threshold capacity calls).persistent id).1 = true) := by
  have limits := watchAfter_limits positive room calls
  have bounded := watchAfter_bounded positive room calls
  refine ⟨bounded.1, by omega, fun id => ⟨fun reported => ?_, fun reached close => ?_⟩⟩
  · have counted := (TenantGateWatch.persistent_fst _ id).mp reported
    have := (watchAfter_atMost threshold capacity id calls).count_le
    omega
  · have held := watchAfter_held positive room id calls close.of_cons close.others_lt
    apply (TenantGateWatch.persistent_fst _ id).mpr
    rw [held.count]
    omega

end Run

/-- A rotation between the refusals does not cost a delivery its count. -/
theorem third_refusal_is_reported :
    ((watchAfter 3 1 [.persistent 0, .persistent 0]).persistent (0 : ℕ)).1 = true ∧
      3 ≤ ((since 3 1 (0 : ℕ) [.persistent 0, .persistent 0]).count (.persistent 0) + 1 : ℤ) := by
  have reported : ((watchAfter 3 1 [.persistent 0, .persistent 0]).persistent (0 : ℕ)).1 =
      true := by
    decide
  have positive : (1 : ℤ) ≤ 3 := by decide
  have room : (1 : ℤ) ≤ 1 := by decide
  have refusals := tenantGateWatch_exact positive room [.persistent (0 : ℕ), .persistent 0]
  exact ⟨reported, (refusals.2.2 0).1 reported⟩

end Hookubit.Worker.GateWatchRun
