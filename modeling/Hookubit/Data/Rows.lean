/- digest: Tables as lists of rows: guarded updates, their row counts, and ordered picks. -/

import Mathlib.Data.List.Sort

set_option autoImplicit false
set_option relaxedAutoImplicit false

namespace Hookubit.Data.Rows

universe u v

variable {α : Type u} {β : Type v} {rows : List α} {r : α} {le : α → α → Prop} {ready : α → Bool}
  {limit : ℕ}

/-- Keys are looked up by the equality test of their order. -/
instance lawfulKey {κ : Type v} [LinearOrder κ] : LawfulBEq κ := inferInstance

/-- `UPDATE … SET … WHERE …`: the rows that `f` maps are replaced in place. -/
def updateWhere (f : α → Option α) (rows : List α) : List α :=
  rows.map fun r => (f r).getD r

def rowsAffected (f : α → Option α) (rows : List α) : ℕ :=
  rows.countP fun r => (f r).isSome

variable {f : α → Option α}

theorem mem_updateWhere :
    r ∈ updateWhere f rows ↔ ∃ q ∈ rows, (f q).getD q = r :=
  List.mem_map

/-- The rows after an update are those it missed and the new forms of those it hit. -/
theorem mem_updateWhere_ite {hit : α → Prop} [DecidablePred hit] {f : α → α} :
    r ∈ updateWhere (fun q => if hit q then some (f q) else none) rows ↔
      (r ∈ rows ∧ ¬ hit r) ∨ ∃ q ∈ rows, hit q ∧ f q = r := by
  refine mem_updateWhere.trans ⟨?_, ?_⟩
  · rintro ⟨q, hq, rfl⟩
    by_cases h : hit q
    · exact .inr ⟨q, hq, h, by simp [h]⟩
    · exact .inl (by simp [h, hq])
  · rintro (⟨hr, missed⟩ | ⟨q, hq, h, rfl⟩)
    · exact ⟨r, hr, by simp [missed]⟩
    · exact ⟨q, hq, by simp [h]⟩

theorem mem_of_mem_updateWhere {p : α → Prop}
    (misses : ∀ r q, f r = some q → ¬ p q) : ∀ q ∈ updateWhere f rows, p q → q ∈ rows := by
  intro q hq hp
  obtain ⟨r, hr, rfl⟩ := mem_updateWhere.mp hq
  cases hf : f r with
  | none => exact hr
  | some q =>
    rw [hf] at hp
    exact absurd hp (misses r q hf)

theorem map_updateWhere {g : α → β} (keep : ∀ r ∈ rows, ∀ q, f r = some q → g q = g r) :
    (updateWhere f rows).map g = rows.map g := by
  rw [updateWhere, List.map_map]
  apply List.map_congr_left
  intro r hr
  cases hf : f r with
  | none => simp [hf]
  | some q => simp [hf, keep r hr q hf]

theorem filter_updateWhere {p : α → Bool} (keep : ∀ r ∈ rows, ∀ q, f r = some q → p q = p r) :
    (updateWhere f rows).filter p = updateWhere f (rows.filter p) := by
  rw [updateWhere, List.filter_map, updateWhere]
  congr 1
  apply List.filter_congr
  intro r hr
  cases hf : f r with
  | none => simp [hf]
  | some q => simp [hf, keep r hr q hf]

theorem find?_updateWhere {p : α → Bool}
    (misses : ∀ r q, f r = some q → p r = false ∧ p q = false) :
    (updateWhere f rows).find? p = rows.find? p := by
  induction rows with
  | nil => rfl
  | cons r rows ih =>
    have head : p ((f r).getD r) = p r := by
      cases hf : f r with
      | none => rfl
      | some q => exact (misses r q hf).2.trans (misses r q hf).1.symm
    have same : p r = true → (f r).getD r = r := by
      intro matched
      cases hf : f r with
      | none => rfl
      | some q => simp [(misses r q hf).1] at matched
    rw [updateWhere, List.map_cons, List.find?_cons, List.find?_cons, head]
    split
    · exact congrArg some (same ‹_›)
    · exact ih

theorem rowsAffected_pos :
    0 < rowsAffected f rows ↔ ∃ r ∈ rows, (f r).isSome = true :=
  List.countP_pos_iff

theorem updateWhere_of_rowsAffected_eq_zero
    (none_matched : rowsAffected f rows = 0) : updateWhere f rows = rows := by
  rw [rowsAffected, List.countP_eq_zero] at none_matched
  refine (List.map_congr_left fun r hr => ?_).trans (List.map_id _)
  have := none_matched r hr
  cases h : f r with
  | none => rfl
  | some q => simp [h] at this

/-- `SELECT … WHERE … ORDER BY … LIMIT`. -/
def pick (le : α → α → Prop) [DecidableRel le] (ready : α → Bool) (limit : ℕ) (rows : List α) :
    List α :=
  ((rows.filter ready).insertionSort le).take limit

theorem of_mem_pick [DecidableRel le] (h : r ∈ pick le ready limit rows) :
    r ∈ rows ∧ ready r = true := by
  have sorted := List.mem_of_mem_take h
  exact List.mem_filter.mp ((List.mem_insertionSort le).mp sorted)

theorem length_pick (le : α → α → Prop) [DecidableRel le] (ready : α → Bool) (limit : ℕ)
    (rows : List α) : (pick le ready limit rows).length = min limit (rows.countP ready) := by
  rw [pick, List.length_take, List.length_insertionSort, List.countP_eq_length_filter]

theorem nodup_pick [DecidableRel le] (nodup : rows.Nodup) : (pick le ready limit rows).Nodup :=
  ((List.perm_insertionSort le _).nodup_iff.mpr (nodup.filter ready)).sublist
    (List.take_sublist _ _)

theorem countP_key_mem {κ : Type v} [DecidableEq κ] {key : α → κ} {picked : List α}
    (keys : (rows.map key).Nodup) (sub : picked ⊆ rows) (nodup : picked.Nodup) :
    rows.countP (fun r => decide (key r ∈ picked.map key)) = picked.length := by
  rw [List.countP_eq_length_filter]
  apply List.Perm.length_eq
  refine (List.perm_ext_iff_of_nodup (keys.of_map.filter _) nodup).mpr fun r => ?_
  simp only [List.mem_filter, decide_eq_true_eq, List.mem_map]
  constructor
  · rintro ⟨hr, q, hq, same⟩
    rwa [← List.inj_on_of_nodup_map keys (sub hq) hr same]
  · intro hr
    exact ⟨sub hr, r, hr, rfl⟩

theorem mem_pick [DecidableRel le] (wide : rows.length ≤ limit) (hr : r ∈ rows)
    (is_ready : ready r = true) : r ∈ pick le ready limit rows := by
  have short : ((rows.filter ready).insertionSort le).length ≤ limit := by
    rw [List.length_insertionSort]
    exact (List.length_filter_le _ _).trans wide
  rw [pick, List.take_of_length_le short, List.mem_insertionSort]
  exact List.mem_filter.mpr ⟨hr, is_ready⟩

theorem mem_pick_of_length_lt [DecidableRel le] (short : (pick le ready limit rows).length < limit)
    (hr : r ∈ rows) (is_ready : ready r = true) : r ∈ pick le ready limit rows := by
  rw [pick, List.length_take] at short
  have whole : ((rows.filter ready).insertionSort le).length ≤ limit := by omega
  rw [pick, List.take_of_length_le whole, List.mem_insertionSort]
  exact List.mem_filter.mpr ⟨hr, is_ready⟩

section Orders

variable {p : α → Bool} {f : α → β} {l l' : List α}

theorem map_find?_perm (perm : l.Perm l')
    (same : ∀ a ∈ l, ∀ b ∈ l, p a = true → p b = true → f a = f b) :
    (l.find? p).map f = (l'.find? p).map f := by
  cases h : l.find? p with
  | none =>
    have none' : l'.find? p = none :=
      List.find?_eq_none.mpr fun a ha => List.find?_eq_none.mp h a (perm.mem_iff.mpr ha)
    rw [none']
  | some a =>
    have ha := List.mem_of_find?_eq_some h
    have matched := List.find?_some h
    cases h' : l'.find? p with
    | none => exact absurd matched (List.find?_eq_none.mp h' a (perm.mem_iff.mp ha))
    | some b =>
      have hb := perm.mem_iff.mpr (List.mem_of_find?_eq_some h')
      exact congrArg some (same a ha b hb matched (List.find?_some h'))

theorem same_of_map_find?_perm {c : Option β}
    (always : ∀ l' : List α, l'.Perm l → (l'.find? p).map f = c) :
    ∀ a ∈ l, p a = true → some (f a) = c := by
  intro a ha matched
  obtain ⟨before, after, rfl⟩ := List.append_of_mem ha
  have first := always (a :: (before ++ after)) List.perm_middle.symm
  rwa [List.find?_cons_of_pos matched] at first

end Orders

end Hookubit.Data.Rows
