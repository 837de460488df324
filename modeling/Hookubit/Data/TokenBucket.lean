/- digest: Token buckets in exact arithmetic: how they refill, and what can be drawn in a time. -/

import Mathlib.Algebra.Order.Field.Basic
import Mathlib.Algebra.Order.BigOperators.Group.List
import Mathlib.Tactic.Linarith

set_option autoImplicit false
set_option relaxedAutoImplicit false

namespace Hookubit.Data.TokenBucket

universe u

variable {K : Type u} [Field K] [LinearOrder K]
variable {cap rate x y a b s e : K}

/-- What a bucket that held `x` tokens holds `dt` later, if nothing is drawn. -/
def refill (cap rate x dt : K) : K := min cap (x + dt * rate)

theorem refill_le_cap (dt : K) : refill cap rate x dt ≤ cap := min_le_left ..

theorem refill_le (dt : K) : refill cap rate x dt ≤ x + dt * rate := min_le_right ..

theorem refill_eq_cap {dt : K} (full : cap ≤ x + dt * rate) : refill cap rate x dt = cap :=
  min_eq_left full

theorem refill_nonneg [IsStrictOrderedRing K] {dt : K} (hc : 0 ≤ cap) (hr : 0 ≤ rate) (hx : 0 ≤ x)
    (hd : 0 ≤ dt) :
    0 ≤ refill cap rate x dt :=
  le_min hc (add_nonneg hx (mul_nonneg hd hr))

/-- Draws from one bucket: each at a time no earlier than the last, of no more than there is. -/
inductive Draws (cap rate : K) : K → K → List (K × K) → K → K → Prop
  | nil (x a : K) : Draws cap rate x a [] x a
  | cons {x a t q y b : K} {l : List (K × K)} : a ≤ t → 0 ≤ q → q ≤ refill cap rate x (t - a) →
      Draws cap rate (refill cap rate x (t - a) - q) t l y b →
      Draws cap rate x a ((t, q) :: l) y b

namespace Draws

variable {l : List (K × K)}

def during (s e : K) (l : List (K × K)) : K :=
  ((l.filter fun d => decide (s ≤ d.1 ∧ d.1 ≤ e)).map Prod.snd).sum

theorem during_cons_in {t q : K} (hs : s ≤ t) (he : t ≤ e) :
    during s e ((t, q) :: l) = q + during s e l := by
  simp [during, hs, he]

theorem during_cons_out {t q : K} (outside : t < s ∨ e < t) :
    during s e ((t, q) :: l) = during s e l := by
  have missed : ¬ (s ≤ t ∧ t ≤ e) := by
    rintro ⟨hs, he⟩
    exact outside.elim hs.not_gt he.not_gt
  simp [during, missed]

theorem during_eq_zero (h : Draws cap rate x a l y b) (past : e < a) : during s e l = 0 := by
  induction h with
  | nil => rfl
  | cons later _ _ _ ih =>
    have past' := lt_of_lt_of_le past later
    rw [during_cons_out (.inr past'), ih past']

theorem during_cons_zero (s e t : K) : during s e ((t, 0) :: l) = during s e l := by
  by_cases inside : s ≤ t ∧ t ≤ e
  · rw [during_cons_in inside.1 inside.2, zero_add]
  · rw [during_cons_out ((not_and_or.mp inside).imp not_le.mp not_le.mp)]

variable [IsStrictOrderedRing K]

theorem during_nonneg (s e : K) (nonneg : ∀ d ∈ l, 0 ≤ d.2) : 0 ≤ during s e l := by
  refine List.sum_nonneg fun q hq => ?_
  obtain ⟨d, hd, rfl⟩ := List.mem_map.mp hq
  exact nonneg d (List.mem_of_mem_filter hd)

theorem during_le_cons (s e : K) {d : K × K} (nonneg : 0 ≤ d.2) :
    during s e l ≤ during s e (d :: l) := by
  by_cases inside : s ≤ d.1 ∧ d.1 ≤ e
  · rw [during_cons_in (t := d.1) (q := d.2) inside.1 inside.2]
    exact le_add_of_nonneg_left nonneg
  · rw [during_cons_out (t := d.1) (q := d.2) ((not_and_or.mp inside).imp not_le.mp not_le.mp)]

theorem during_le_of_started (hr : 0 ≤ rate) (h : Draws cap rate x a l y b) (hx : 0 ≤ x)
    (started : s ≤ a) (ends : a ≤ e) : during s e l ≤ x + (e - a) * rate := by
  induction h with
  | nil x a =>
    have inflow : 0 ≤ (e - a) * rate := mul_nonneg (sub_nonneg.mpr ends) hr
    simpa [during] using add_nonneg hx inflow
  | @cons x a t q y b l later hq enough rest ih =>
    have left : 0 ≤ refill cap rate x (t - a) - q := sub_nonneg.mpr enough
    rcases le_or_gt t e with inside | past
    · have tail := ih left (started.trans later) inside
      have filled : refill cap rate x (t - a) ≤ x + (t - a) * rate := refill_le _
      rw [during_cons_in (started.trans later) inside]
      linarith
    · have inflow : 0 ≤ (e - a) * rate := mul_nonneg (sub_nonneg.mpr ends) hr
      rw [during_cons_out (.inr past), rest.during_eq_zero past]
      exact add_nonneg hx inflow

/-- However full the bucket is, a time can draw no more than its capacity and what comes in. -/
theorem during_le (hc : 0 ≤ cap) (hr : 0 ≤ rate) (h : Draws cap rate x a l y b) (hx : 0 ≤ x)
    (below : x ≤ cap) (order : s ≤ e) : during s e l ≤ cap + (e - s) * rate := by
  have inflow : 0 ≤ (e - s) * rate := mul_nonneg (sub_nonneg.mpr order) hr
  induction h with
  | nil => simpa [during] using add_nonneg hc inflow
  | @cons x a t q y b l later hq enough rest ih =>
    have left : 0 ≤ refill cap rate x (t - a) - q := sub_nonneg.mpr enough
    have capped : refill cap rate x (t - a) ≤ cap := refill_le_cap _
    rcases lt_or_ge t s with early | hs
    · rw [during_cons_out (.inl early)]
      exact ih left (by linarith)
    rcases le_or_gt t e with inside | past
    · have tail := during_le_of_started hr rest left hs inside
      have shorter : (e - t) * rate ≤ (e - s) * rate := by
        apply mul_le_mul_of_nonneg_right _ hr
        linarith
      rw [during_cons_in hs inside]
      linarith
    · rw [during_cons_out (.inr past), rest.during_eq_zero past]
      exact add_nonneg hc inflow

end Draws

end Hookubit.Data.TokenBucket
