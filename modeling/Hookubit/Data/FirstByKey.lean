/- digest: Keep the first element of each key, in one pass or in several. -/

import Mathlib.Data.List.Basic

set_option autoImplicit false
set_option relaxedAutoImplicit false

namespace Hookubit.Data.FirstByKey

universe u v

variable {α : Type u} {κ : Type v} [DecidableEq κ] (key : α → κ)

/-- One pass with the keys seen so far. -/
def firsts (seen : List κ) : List α → List α
  | [] => []
  | a :: l => if key a ∈ seen then firsts seen l else a :: firsts (key a :: seen) l

theorem firsts_congr {seen other : List κ} (same : ∀ k, k ∈ seen ↔ k ∈ other) (l : List α) :
    firsts key seen l = firsts key other l := by
  induction l generalizing seen other with
  | nil => rfl
  | cons a l ih =>
    simp only [firsts, same (key a)]
    split
    · exact ih same
    · have grown : ∀ k, k ∈ key a :: seen ↔ k ∈ key a :: other := fun k => by simp [same k]
      rw [ih grown]

theorem firsts_append (seen : List κ) (l m : List α) :
    firsts key seen (l ++ m) =
      firsts key seen l ++ firsts key (seen ++ (firsts key seen l).map key) m := by
  induction l generalizing seen with
  | nil => simp [firsts]
  | cons a l ih =>
    simp only [List.cons_append, firsts]
    split
    · exact ih seen
    · rw [ih, List.cons_append, List.map_cons]
      congr 2
      exact firsts_congr key (fun k => by simp only [List.mem_append, List.mem_cons]; tauto) m

theorem filter_firsts (seen known : List κ) (l : List α) :
    (firsts key seen l).filter (fun a => key a ∉ known) = firsts key (seen ++ known) l := by
  induction l generalizing seen with
  | nil => rfl
  | cons a l ih =>
    simp only [firsts, List.mem_append]
    by_cases hs : key a ∈ seen
    · rw [if_pos hs, if_pos (.inl hs), ih]
    · by_cases hk : key a ∈ known
      · rw [if_neg hs, if_pos (.inr hk), List.filter_cons_of_neg (by simpa using hk), ih]
        refine firsts_congr key (fun k => ?_) l
        simp only [List.cons_append, List.mem_cons, List.mem_append]
        constructor
        · rintro (rfl | h)
          · exact .inr hk
          · exact h
        · exact .inr
      · rw [if_neg hs, if_neg (by tauto), List.filter_cons_of_pos (by simpa using hk), ih]
        rfl

theorem firsts_map {β : Type u} (f : β → α) (seen : List κ) (l : List β) :
    firsts key seen (l.map f) = (firsts (fun b => key (f b)) seen l).map f := by
  induction l generalizing seen with
  | nil => rfl
  | cons b l ih =>
    simp only [List.map_cons, firsts]
    split
    · exact ih seen
    · rw [ih, List.map_cons]

theorem nodup_firsts (seen : List κ) (l : List α) :
    ((firsts key seen l).map key).Nodup ∧ ∀ a ∈ firsts key seen l, key a ∉ seen := by
  induction l generalizing seen with
  | nil => exact ⟨List.nodup_nil, nofun⟩
  | cons a l ih =>
    simp only [firsts]
    split
    · exact ih seen
    · rename_i fresh
      obtain ⟨nodup, outside⟩ := ih (key a :: seen)
      refine ⟨List.nodup_cons.mpr ⟨fun h => ?_, nodup⟩, ?_⟩
      · obtain ⟨b, hb, same⟩ := List.mem_map.mp h
        exact outside b hb (same ▸ List.mem_cons_self)
      · intro b hb
        rcases List.mem_cons.mp hb with rfl | hb
        · exact fresh
        · intro h
          exact outside b hb (List.mem_cons_of_mem _ h)

theorem firsts_sublist (seen : List κ) (l : List α) : (firsts key seen l).Sublist l := by
  induction l generalizing seen with
  | nil => exact List.Sublist.slnil
  | cons a l ih =>
    simp only [firsts]
    split
    · exact (ih seen).cons a
    · exact (ih _).cons_cons a

theorem filter_firsts_eq (seen : List κ) (l : List α) {k : κ} (fresh : k ∉ seen) :
    (firsts key seen l).filter (fun a => key a = k) = (l.find? fun a => key a = k).toList := by
  induction l generalizing seen with
  | nil => rfl
  | cons a l ih =>
    by_cases here : key a = k
    · have unseen : key a ∉ seen := here ▸ fresh
      have later : (firsts key (key a :: seen) l).filter (fun b => key b = k) = [] := by
        rw [List.filter_eq_nil_iff]
        intro b inside same
        have outside := (nodup_firsts key (key a :: seen) l).2 b inside
        rw [of_decide_eq_true same, here] at outside
        exact outside List.mem_cons_self
      rw [firsts, if_neg unseen, List.filter_cons_of_pos (by simpa using here), later,
        List.find?_cons_of_pos (by simpa using here)]
      rfl
    · rw [List.find?_cons_of_neg (by simpa using here), firsts]
      split
      · exact ih seen fresh
      · rw [List.filter_cons_of_neg (by simpa using here)]
        exact ih (key a :: seen) (by simpa using ⟨fun same => here same.symm, fresh⟩)

end Hookubit.Data.FirstByKey
