/- digest: Numbered hits in windows that begin at least one length apart, and how many fit an interval. -/

import Mathlib.Data.List.Range
import Mathlib.Data.List.Perm.Subperm

set_option autoImplicit false
set_option relaxedAutoImplicit false

namespace Hookubit.Data.FixedWindow

/-- A hit: when it came, its number in its window, and when that window began. -/
structure Hit where
  time : ℤ
  count : ℕ
  start : ℤ
  deriving DecidableEq

/-- A later hit has a higher number in the same window, or its window began a length later and
after the earlier hit. -/
def Precedes (length : ℤ) (earlier later : Hit) : Prop :=
  (earlier.start = later.start ∧ earlier.count < later.count) ∨
    (earlier.start + length ≤ later.start ∧ earlier.time ≤ later.start)

/-- Hits in fixed windows, newest first. -/
structure Windows (length : ℤ) (log : List Hit) : Prop where
  ordered : log.Pairwise fun later earlier => Precedes length earlier later
  started : ∀ h ∈ log, h.start ≤ h.time ∧ 1 ≤ h.count

/-- The newest window began at `start` and has counted to `count`. -/
def Current (length : ℤ) (log : List Hit) (start : ℤ) (count : ℕ) : Prop :=
  ∀ h ∈ log, (h.start = start ∧ h.count ≤ count) ∨ (h.start + length ≤ start ∧ h.time ≤ start)

/-- Every window has ended by `now`. -/
def Over (length : ℤ) (log : List Hit) (now : ℤ) : Prop :=
  ∀ h ∈ log, h.start + length ≤ now

variable {length : ℤ} {log : List Hit}

theorem Windows.nil : Windows length [] := ⟨.nil, by simp⟩

theorem Windows.cons_current (windows : Windows length log) {start now : ℤ} {count : ℕ}
    (current : Current length log start count) (begun : start ≤ now) :
    Windows length (⟨now, count + 1, start⟩ :: log) ∧
      Current length (⟨now, count + 1, start⟩ :: log) start (count + 1) := by
  refine ⟨⟨List.pairwise_cons.mpr ⟨fun h hh => ?_, windows.ordered⟩,
    List.forall_mem_cons.mpr ⟨⟨begun, by simp⟩, windows.started⟩⟩,
    List.forall_mem_cons.mpr ⟨.inl ⟨rfl, Nat.le_refl _⟩, fun h hh => ?_⟩⟩
  · exact (current h hh).imp (fun same => ⟨same.1, Nat.lt_succ_of_le same.2⟩) id
  · exact (current h hh).imp (fun same => ⟨same.1, Nat.le_succ_of_le same.2⟩) id

theorem Windows.cons_fresh (windows : Windows length log) {now : ℤ} (ended : Over length log now)
    (past : ∀ h ∈ log, h.time ≤ now) :
    Windows length (⟨now, 1, now⟩ :: log) ∧ Current length (⟨now, 1, now⟩ :: log) now 1 := by
  refine ⟨⟨List.pairwise_cons.mpr ⟨fun h hh => ?_, windows.ordered⟩,
    List.forall_mem_cons.mpr ⟨⟨Int.le_refl now, Nat.le_refl 1⟩, windows.started⟩⟩,
    List.forall_mem_cons.mpr ⟨.inl ⟨rfl, Nat.le_refl _⟩, fun h hh => ?_⟩⟩
  · exact .inr ⟨ended h hh, past h hh⟩
  · exact .inr ⟨ended h hh, past h hh⟩

theorem Current.ended {start now : ℤ} {count : ℕ} (current : Current length log start count)
    (begun : start ≤ now) (ended : start + length ≤ now) : Over length log now := by
  intro h hh
  obtain ⟨same, -⟩ | ⟨earlier, -⟩ := current h hh
  · omega
  · omega

theorem length_le_of_one_window {hits : List Hit} {limit : ℕ}
    (rising : hits.Pairwise fun later earlier => earlier.count < later.count)
    (numbered : ∀ h ∈ hits, 1 ≤ h.count ∧ h.count ≤ limit) : hits.length ≤ limit := by
  have distinct : (hits.map Hit.count).Nodup := by
    rw [List.Nodup, List.pairwise_map]
    exact rising.imp fun {_ _} lower => (Nat.ne_of_lt lower).symm
  have inside : hits.map Hit.count ⊆ List.range' 1 limit := by
    intro n hn
    obtain ⟨h, hh, rfl⟩ := List.mem_map.mp hn
    have := numbered h hh
    exact List.mem_range'_1.mpr ⟨by omega, by omega⟩
  simpa using (List.subperm_of_subset distinct inside).length_le

/-- An interval of the windows' length meets at most two of them: one that began before it and
one that begins in it. -/
theorem Windows.length_le (windows : Windows length log) {limit : ℕ} {a : ℤ} {hits : List Hit}
    (sub : hits.Sublist log)
    (chosen : ∀ h ∈ hits, h.count ≤ limit ∧ a ≤ h.time ∧ h.time < a + length) :
    hits.length ≤ 2 * limit := by
  -- hits that the same side of `a` holds the window start of are hits of one window
  have side (p : Hit → Bool) (one : ∀ earlier ∈ hits, ∀ later ∈ hits, p earlier = true →
      p later = true → Precedes length earlier later → earlier.count < later.count) :
      (hits.filter p).length ≤ limit := by
    have ordered := (windows.ordered.sublist sub).sublist (List.filter_sublist (p := p))
    refine length_le_of_one_window (ordered.imp_of_mem ?_) ?_
    · intro later earlier hl he precedes
      obtain ⟨hl, pl⟩ := List.mem_filter.mp hl
      obtain ⟨he, pe⟩ := List.mem_filter.mp he
      exact one earlier he later hl pe pl precedes
    · intro h hh
      have mem := List.mem_of_mem_filter hh
      exact ⟨(windows.started h (sub.subset mem)).2, (chosen h mem).1⟩
  have before := side (fun h => h.start < a) fun earlier he later hl _ inside precedes => by
    have := chosen earlier he
    have := of_decide_eq_true inside
    obtain ⟨-, higher⟩ | ⟨-, past⟩ := precedes
    · exact higher
    · omega
  have within := side (fun h => !decide (h.start < a))
    fun earlier he later hl inside _ precedes => by
    have := chosen later hl
    have := (windows.started later (sub.subset hl)).1
    simp only [Bool.not_eq_true', decide_eq_false_iff_not] at inside
    obtain ⟨-, higher⟩ | ⟨apart, -⟩ := precedes
    · exact higher
    · omega
  rw [List.length_eq_length_filter_add fun h => decide (h.start < a)]
  omega

end Hookubit.Data.FixedWindow
