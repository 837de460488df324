/- digest: A list swept again and again from its start, with a bound on what one sweep looks at. -/

import Mathlib.Data.List.Sort
import Mathlib.Order.WellFounded

set_option autoImplicit false
set_option relaxedAutoImplicit false

namespace Hookubit.Data.BoundedScan

universe u v

section Scan

variable {α : Type u} [DecidableEq α] (good : α → Bool) (width quota : ℕ)

/-- What one sweep takes: at most `quota` of the good ones among the first `width`. -/
def taken (l : List α) : List α := ((l.take width).filter good).take quota

def scan (l : List α) : List α := l.filter fun a => a ∉ taken good width quota l

variable {good width quota} {l : List α} {a : α}

omit [DecidableEq α] in
theorem of_mem_taken (h : a ∈ taken good width quota l) : a ∈ l.take width ∧ good a = true :=
  List.mem_filter.mp (List.mem_of_mem_take h)

theorem mem_scan : a ∈ scan good width quota l ↔ a ∈ l ∧ a ∉ taken good width quota l := by
  simp [scan]

theorem scan_sublist : (scan good width quota l).Sublist l := List.filter_sublist

theorem not_good_of_scan_eq (positive : 0 < quota) (same : scan good width quota l = l)
    (early : a ∈ l.take width) : good a = false := by
  by_contra h
  have found : a ∈ (l.take width).filter good := List.mem_filter.mpr ⟨early, by simpa using h⟩
  obtain ⟨first, rest, cons⟩ := List.exists_cons_of_ne_nil (List.ne_nil_of_mem found)
  have first_taken : first ∈ taken good width quota l := by
    obtain ⟨q, rfl⟩ := Nat.exists_eq_succ_of_ne_zero positive.ne'
    simp [taken, cons]
  have inside : first ∈ l := List.mem_of_mem_take (of_mem_taken first_taken).1
  rw [← same] at inside
  exact (mem_scan.mp inside).2 first_taken

end Scan

section Position

variable {α : Type u} {κ : Type v} [LinearOrder κ] {key : α → κ} {l : List α} {a : α} {width : ℕ}

theorem countP_lt_of_mem_take (strict : l.Pairwise fun a b => key a < key b)
    (early : a ∈ l.take width) : l.countP (fun b => key b < key a) < width := by
  have apart := strict
  rw [← List.take_append_drop width l, List.pairwise_append] at apart
  have late : (l.drop width).countP (fun b => key b < key a) = 0 := by
    rw [List.countP_eq_zero]
    intro b hb
    simpa using (apart.2.2 a early b hb).le
  have others : (l.take width).countP (fun b => key b < key a) < (l.take width).length := by
    refine lt_of_le_of_ne List.countP_le_length fun all => ?_
    have self := List.countP_eq_length.mp all a early
    simp at self
  calc l.countP (fun b => key b < key a)
      = (l.take width).countP (fun b => key b < key a) := by
        nth_rewrite 1 [← List.take_append_drop width l]
        rw [List.countP_append, late, Nat.add_zero]
    _ < width := others.trans_le (List.length_take_le width l)

theorem le_countP_of_not_mem_take (strict : l.Pairwise fun a b => key a < key b) (inside : a ∈ l)
    (late : a ∉ l.take width) {p : α → Bool} (all : ∀ b ∈ l.take width, p b = true) :
    width ≤ l.countP fun b => p b && decide (key b < key a) := by
  have apart := strict
  rw [← List.take_append_drop width l, List.pairwise_append] at apart
  have behind : a ∈ l.drop width := by
    rw [← List.take_append_drop width l] at inside
    exact (List.mem_append.mp inside).resolve_left late
  have full : (l.take width).length = width := by
    have := List.length_pos_of_mem behind
    rw [List.length_drop] at this
    rw [List.length_take]
    omega
  have before : (l.take width).countP (fun b => p b && decide (key b < key a)) = width := by
    refine (List.countP_eq_length.mpr fun b hb => ?_).trans full
    simp [all b hb, apart.2.2 b hb a behind]
  calc width = (l.take width).countP fun b => p b && decide (key b < key a) := before.symm
    _ ≤ l.countP fun b => p b && decide (key b < key a) := (List.take_sublist width l).countP_le

end Position

section Sweeps

variable {α : Type u} {κ : Type v} [LinearOrder κ] (key : α → κ) (good : ℕ → α → Bool)

open Classical in
/-- How many stand before an element and are never good. -/
noncomputable def keptBefore (l : List α) (a : α) : ℕ :=
  l.countP fun b => decide (∀ n, good n b = false) && decide (key b < key a)

variable {key good} [DecidableEq α] {width quota : ℕ} {L : ℕ → List α}
  (sweep : ∀ n, L (n + 1) = scan (good n) width quota (L n))

include sweep

theorem sublist_of_le {m n : ℕ} (h : m ≤ n) : (L n).Sublist (L m) := by
  induction n, h using Nat.le_induction with
  | base => exact List.Sublist.refl _
  | succ n _ ih =>
    rw [sweep n]
    exact scan_sublist.trans ih

theorem keptBefore_eq (a : α) (n : ℕ) :
    keptBefore key good (L n) a = keptBefore key good (L 0) a := by
  classical
  induction n with
  | zero => rfl
  | succ n ih =>
    rw [← ih, keptBefore, keptBefore, sweep n, scan, List.countP_filter]
    apply List.countP_congr
    intro b inside
    have stays : (∀ n, good n b = false) → b ∉ taken (good n) width quota (L n) := by
      intro never gone
      have := (of_mem_taken gone).2
      rw [never n] at this
      cases this
    simp
    tauto

theorem mem_of_le_keptBefore (strict : (L 0).Pairwise fun a b => key a < key b) {a : α}
    (inside : a ∈ L 0) (far : width ≤ keptBefore key good (L 0) a) (n : ℕ) : a ∈ L n := by
  classical
  induction n with
  | zero => exact inside
  | succ n ih =>
    rw [sweep n, mem_scan]
    refine ⟨ih, fun gone => ?_⟩
    have few := countP_lt_of_mem_take (strict.sublist (sublist_of_le sweep n.zero_le))
      (of_mem_taken gone).1
    rw [← keptBefore_eq sweep a n] at far
    have many : keptBefore key good (L n) a ≤ (L n).countP fun b => key b < key a :=
      List.countP_mono_left fun b _ h => ((Bool.and_eq_true _ _).mp h).2
    omega

theorem eventually_stable : ∃ N, ∀ n, N ≤ n → L n = L N := by
  obtain ⟨N, -, least⟩ := (measure fun n => (L n).length).wf.has_min Set.univ ⟨0, trivial⟩
  refine ⟨N, fun n later => (sublist_of_le sweep later).eq_of_length_le ?_⟩
  exact Nat.not_lt.mp (least n trivial)

/-- In the end what is left and ever good has `width` kept ones before it. -/
theorem eventually_le_keptBefore (strict : (L 0).Pairwise fun a b => key a < key b)
    (mono : ∀ m n a, m ≤ n → good m a = true → good n a = true) (positive : 0 < quota) :
    ∃ N, ∀ n, N ≤ n → ∀ a ∈ L n, ∀ m, good m a = true → width ≤ keptBefore key good (L 0) a := by
  classical
  obtain ⟨N, stable⟩ := eventually_stable sweep
  refine ⟨N, fun n later a inside m ripe => ?_⟩
  rw [stable n later] at inside
  -- The sweeps no longer take anything, so the first `width` are never good.
  have never (b : α) (early : b ∈ (L N).take width) (k : ℕ) : good k b = false := by
    have still : scan (good (max k N)) width quota (L N) = L N := by
      have step := sweep (max k N)
      rw [stable _ (le_max_right k N), stable _ ((le_max_right k N).trans (Nat.le_succ _))] at step
      exact step.symm
    have late := not_good_of_scan_eq positive still early
    by_contra h
    rw [mono k (max k N) b (le_max_left k N) (by simpa using h)] at late
    cases late
  have behind : a ∉ (L N).take width := by
    intro early
    rw [never a early m] at ripe
    cases ripe
  rw [← keptBefore_eq sweep a N]
  exact le_countP_of_not_mem_take (strict.sublist (sublist_of_le sweep N.zero_le)) inside behind
    fun b early => decide_eq_true (never b early)

end Sweeps

end Hookubit.Data.BoundedScan
