/- digest: Rounding of rationals to the 53 bits of a float64, ties to even. -/

import Mathlib.Data.Int.Log
import Mathlib.Data.Rat.Floor

/-!
Only values of the normal range are meant: no exponent here is too small or too large.
-/

set_option autoImplicit false
set_option relaxedAutoImplicit false

namespace Hookubit.Data.Binary64

/-- The nearest integer, and of two the even one. -/
def nearestEven (x : ℚ) : ℤ :=
  if x - ⌊x⌋ < 1 / 2 then ⌊x⌋
  else if 1 / 2 < x - ⌊x⌋ then ⌊x⌋ + 1
  else if ⌊x⌋ % 2 = 0 then ⌊x⌋
  else ⌊x⌋ + 1

theorem nearestEven_intCast (z : ℤ) : nearestEven z = z := by
  simp [nearestEven]

theorem sub_half_le_nearestEven (x : ℚ) : x - 1 / 2 ≤ nearestEven x := by
  have high := Int.lt_floor_add_one x
  unfold nearestEven
  split_ifs <;> push_cast <;> linarith

theorem nearestEven_le_add_half (x : ℚ) : nearestEven x ≤ x + 1 / 2 := by
  have low := Int.floor_le x
  unfold nearestEven
  split_ifs <;> push_cast <;> linarith

/-- The distance of neighbouring floats at `x`. -/
def ulp (x : ℚ) : ℚ := 2 ^ (Int.log 2 x - 52)

def round64 (x : ℚ) : ℚ := nearestEven (x / ulp x) * ulp x

theorem ulp_pos (x : ℚ) : 0 < ulp x := zpow_pos (by norm_num) _

theorem round64_eq_self {x : ℚ} {z p : ℤ} (h : x = z * 2 ^ p) (fits : Int.log 2 x ≤ p + 52) :
    round64 x = x := by
  obtain ⟨d, hd⟩ := Int.eq_ofNat_of_zero_le (show 0 ≤ p + 52 - Int.log 2 x by omega)
  have power : (2 : ℚ) ^ p = 2 ^ d * ulp x := by
    have sum : p = (d : ℤ) + (Int.log 2 x - 52) := by omega
    rw [ulp, ← zpow_natCast, ← zpow_add₀ (by norm_num), ← sum]
  have whole : x / ulp x = ((z * 2 ^ d : ℤ) : ℚ) := by
    rw [div_eq_iff (ulp_pos x).ne']
    push_cast
    rw [mul_assoc, ← power]
    exact h
  rw [round64, whole, nearestEven_intCast, ← whole, div_mul_cancel₀ x (ulp_pos x).ne']

theorem sub_half_ulp_le_round64 (x : ℚ) : x - ulp x / 2 ≤ round64 x := by
  have step := mul_le_mul_of_nonneg_right (sub_half_le_nearestEven (x / ulp x)) (ulp_pos x).le
  rw [sub_mul, div_mul_cancel₀ x (ulp_pos x).ne'] at step
  rw [round64]
  linarith

theorem round64_le_two_mul {x : ℚ} (positive : 0 < x) : round64 x ≤ 2 * x := by
  have step := mul_le_mul_of_nonneg_right (nearestEven_le_add_half (x / ulp x)) (ulp_pos x).le
  rw [add_mul, div_mul_cancel₀ x (ulp_pos x).ne'] at step
  have power : ulp x ≤ (2 : ℚ) ^ Int.log 2 x := zpow_le_zpow_right₀ (by norm_num) (by omega)
  have whole : (2 : ℚ) ^ Int.log 2 x ≤ x := Int.zpow_log_le_self (by decide) positive
  rw [round64]
  linarith

theorem round64_natCast {n : ℕ} (small : n ≤ 2 ^ 53) : round64 n = n := by
  obtain below | rfl := Nat.lt_or_eq_of_le small
  · apply round64_eq_self (z := n) (p := 0) (by simp)
    have bits : Nat.log 2 n < 53 := Nat.log_lt_of_lt_pow' (by decide) below
    rw [Int.log_natCast]
    omega
  · apply round64_eq_self (z := 2 ^ 52) (p := 1) (by norm_num)
    rw [Int.log_natCast, Nat.log_pow (by decide)]
    decide

theorem lt_round64_div {n k m : ℕ} (small : n ≤ 2 ^ 53) (positive : 0 < k) (h : m * k < n) :
    (m : ℚ) < round64 (n / k) := by
  have hk : (0 : ℚ) < k := by exact_mod_cast positive
  have hx : (0 : ℚ) < n / k := div_pos (by exact_mod_cast Nat.zero_lt_of_lt h) hk
  have below : (m : ℚ) < n / k := by
    rw [lt_div_iff₀ hk]
    exact_mod_cast h
  have power : (2 : ℚ) ^ Int.log 2 ((n : ℚ) / k) ≤ n / k := Int.zpow_log_le_self (by decide) hx
  obtain precise | above := power.eq_or_lt
  · -- A power of two is a float.
    rwa [round64_eq_self (z := 1) (by rw [Int.cast_one, one_mul, precise]) (by omega)]
  · -- Otherwise half a step is less than the k-th part that the quotient has over the integer.
    have gap : (m : ℚ) + 1 / k ≤ n / k := by
      rw [← sub_nonneg]
      have : (n : ℚ) / k - (m + 1 / k) = (n - (m * k + 1)) / k := by field_simp
      rw [this]
      apply div_nonneg _ hk.le
      rw [sub_nonneg]
      exact_mod_cast h
    have half : ulp ((n : ℚ) / k) / 2 < 1 / k := by
      have total : (2 : ℚ) ^ Int.log 2 ((n : ℚ) / k) * k < 2 ^ (53 : ℤ) := by
        rw [lt_div_iff₀ hk] at above
        refine above.trans_le ?_
        exact_mod_cast small
      rw [lt_div_iff₀ hk, ulp, zpow_sub₀ (by norm_num)]
      norm_num at total ⊢
      linarith
    linarith [sub_half_ulp_le_round64 ((n : ℚ) / k)]

theorem round64_two_pow_succ : round64 (2 ^ 53 + 1) = 2 ^ 53 := by
  have bits : Int.log 2 ((2 : ℚ) ^ 53 + 1) = 53 := by
    have cast : (2 : ℚ) ^ 53 + 1 = ((2 ^ 53 + 1 : ℕ) : ℚ) := by norm_num
    rw [cast, Int.log_natCast, Nat.log_eq_of_pow_le_of_lt_pow (m := 53) (by decide) (by decide)]
    rfl
  have step : ulp ((2 : ℚ) ^ 53 + 1) = 2 := by
    rw [ulp, bits]
    norm_num
  have middle : ((2 : ℚ) ^ 53 + 1) / 2 = ((2 ^ 52 : ℤ) : ℚ) + 1 / 2 := by norm_num
  have floor : ⌊((2 ^ 52 : ℤ) : ℚ) + 1 / 2⌋ = 2 ^ 52 := by
    rw [Int.floor_intCast_add]
    norm_num
  rw [round64, step, middle, nearestEven, floor]
  norm_num

end Hookubit.Data.Binary64
