/- digest: Runs of a step function with a bound on their length, up to a state it leaves alone. -/

import Mathlib.Logic.Function.Iterate

set_option autoImplicit false
set_option relaxedAutoImplicit false

namespace Hookubit.Automata.BoundedRun

universe u

variable {σ : Type u} (step : σ → σ)

/-- At most `k` steps lead from one state to the other. -/
def Within (k : ℕ) (s t : σ) : Prop := ∃ j, j ≤ k ∧ step^[j] s = t

variable {step} {k m : ℕ} {s t w : σ}

theorem Within.refl (s : σ) : Within step 0 s s := ⟨0, Nat.le_refl 0, rfl⟩

theorem Within.single (s : σ) : Within step 1 s (step s) := ⟨1, Nat.le_refl 1, rfl⟩

theorem Within.trans (first : Within step k s t) (second : Within step m t w) :
    Within step (k + m) s w := by
  obtain ⟨i, hi, rfl⟩ := first
  obtain ⟨j, hj, rfl⟩ := second
  exact ⟨j + i, by omega, Function.iterate_add_apply step j i s⟩

theorem Within.mono (h : Within step k s t) (le : k ≤ m) : Within step m s t := by
  obtain ⟨j, hj, same⟩ := h
  exact ⟨j, Nat.le_trans hj le, same⟩

theorem Within.iterate_eq (h : Within step k s t) (rest : step t = t) : step^[k] s = t := by
  obtain ⟨j, hj, rfl⟩ := h
  obtain ⟨i, rfl⟩ := Nat.exists_eq_add_of_le' hj
  rw [Function.iterate_add_apply, Function.iterate_fixed rest]

end Hookubit.Automata.BoundedRun
