/- digest: How many members of a list hold a slot under each key, and how one change moves that. -/

import Mathlib.Data.List.Basic

set_option autoImplicit false
set_option relaxedAutoImplicit false

namespace Hookubit.Data.SlotCount

universe u v

variable {α : Type u} {κ : Type v} [DecidableEq κ]

/-- How many members hold a slot under a key. Each holds at most one. -/
def holding (slot : α → Option κ) (l : List α) (k : κ) : ℕ :=
  l.countP fun c => decide (slot c = some k)

variable {slot : α → Option κ} {l : List α} {i : ℕ} {c c' : α} {k : κ}

theorem holding_pos (member : l[i]? = some c) (taken : slot c = some k) : 0 < holding slot l k :=
  List.countP_pos_iff.mpr ⟨c, List.mem_of_getElem? member, decide_eq_true taken⟩

theorem holding_set (member : l[i]? = some c) :
    holding slot (l.set i c') k =
      holding slot l k - (if slot c = some k then 1 else 0) +
        if slot c' = some k then 1 else 0 := by
  obtain ⟨bound, rfl⟩ := List.getElem?_eq_some_iff.mp member
  simp only [holding, List.countP_set bound, decide_eq_true_eq]

theorem holding_set_same (member : l[i]? = some c) (same : slot c' = slot c) :
    holding slot (l.set i c') = holding slot l := by
  funext k
  rw [holding_set member, same]
  split
  · have := holding_pos member ‹slot c = some k›
    omega
  · omega

theorem holding_set_gain (member : l[i]? = some c) (free : slot c = none)
    (taken : slot c' = some k) :
    holding slot (l.set i c') = Function.update (holding slot l) k (holding slot l k + 1) := by
  funext key
  rw [holding_set member, free, taken, Function.update_apply]
  by_cases here : key = k
  · subst here
    simp
  · simp [here, Ne.symm here]

theorem holding_set_loss (member : l[i]? = some c) (taken : slot c = some k)
    (free : slot c' = none) :
    holding slot (l.set i c') = Function.update (holding slot l) k (holding slot l k - 1) := by
  funext key
  rw [holding_set member, free, taken, Function.update_apply]
  by_cases here : key = k
  · subst here
    simp
  · simp [here, Ne.symm here]

theorem holding_append_free (free : slot c = none) :
    holding slot (l ++ [c]) = holding slot l := by
  funext k
  simp [holding, List.countP_append, free]

theorem holding_eq_zero (free : ∀ c ∈ l, slot c = none) : holding slot l = fun _ => 0 := by
  funext k
  refine List.countP_eq_zero.mpr fun c hc => ?_
  simp [free c hc]

theorem holding_eq_add {p q : α → Bool} (apart : ∀ c, p c = true → q c = false)
    (states : ∀ c, slot c = some k → p c = true ∨ q c = true) :
    holding slot l k = l.countP (fun c => p c && decide (slot c = some k)) +
      l.countP fun c => q c && decide (slot c = some k) := by
  induction l with
  | nil => rfl
  | cons c l ih =>
    simp only [holding, List.countP_cons] at ih ⊢
    by_cases holds : slot c = some k
    · rcases states c holds with hp | hq
      · simp [holds, hp, apart c hp]
        omega
      · have hp : p c = false := by
          by_contra h
          rw [apart c (by simpa using h)] at hq
          cases hq
        simp [holds, hq, hp]
        omega
    · simpa [holds] using ih

end Hookubit.Data.SlotCount
