/- digest: Patterns over dotted names: everything, everything below a stem, or one name. -/

import Mathlib.Data.List.Infix

set_option autoImplicit false
set_option relaxedAutoImplicit false

namespace Hookubit.Data.DottedPattern

universe u v

section Meaning

variable {α : Type u} [DecidableEq α] (dot star : α)

/-- A pattern is the star alone, a stem with a dot and a star after it, or a name. -/
def selects (pattern name : List α) : Bool :=
  if pattern = [star] then true
  else if [dot, star].isSuffixOf pattern then
    (pattern.take (pattern.length - 2) ++ [dot]).isPrefixOf name
  else pattern == name

variable {dot star} {pattern stem name : List α}

omit [DecidableEq α] in
theorem intercalate_append (dot : α) {l m : List (List α)} (hl : l ≠ []) (hm : m ≠ []) :
    [dot].intercalate (l ++ m) = [dot].intercalate l ++ dot :: [dot].intercalate m := by
  obtain ⟨first, others, rfl⟩ := List.exists_cons_of_ne_nil hm
  induction l with
  | nil => exact absurd rfl hl
  | cons a l ih =>
    cases l with
    | nil => simp [List.intercalate_cons_cons]
    | cons b l =>
      have tail := ih (List.cons_ne_nil b l)
      rw [List.cons_append, List.cons_append, List.intercalate_cons_cons, ← List.cons_append, tail,
        List.intercalate_cons_cons]
      simp

theorem exists_segment_iff {a : α} : (∃ s ∈ name.splitOn dot, a ∈ s) ↔ a ∈ name ∧ a ≠ dot := by
  induction name with
  | nil => simp
  | cons b rest ih =>
    obtain ⟨first, more, pieces⟩ := List.exists_cons_of_ne_nil (List.splitOn_ne_nil dot rest)
    rw [List.splitOn_cons_eq_if_modifyHead]
    rw [pieces] at ih ⊢
    by_cases same : b = dot <;> simp [same] at ih ⊢ <;> grind

theorem forall_segments_iff {P : α → Prop} :
    (∀ s ∈ name.splitOn dot, ∀ a ∈ s, P a) ↔ ∀ a ∈ name, a ≠ dot → P a := by
  constructor
  · intro each a inside other
    obtain ⟨s, piece, here⟩ := exists_segment_iff.mpr ⟨inside, other⟩
    exact each s piece a here
  · intro each s piece a here
    obtain ⟨inside, other⟩ := exists_segment_iff.mp ⟨s, piece, here⟩
    exact each a inside other

theorem prefix_iff_segments : stem ++ [dot] <+: name ↔
    stem.splitOn dot <+: name.splitOn dot ∧ stem.splitOn dot ≠ name.splitOn dot := by
  constructor
  · rintro ⟨rest, rfl⟩
    have pieces : (stem ++ [dot] ++ rest).splitOn dot = stem.splitOn dot ++ rest.splitOn dot := by
      rw [List.append_assoc, List.singleton_append, List.splitOn_append_cons_self]
    rw [pieces]
    refine ⟨List.prefix_append _ _, fun same => List.splitOn_ne_nil dot rest ?_⟩
    exact List.append_cancel_left (same.symm.trans (List.append_nil _).symm)
  · rintro ⟨⟨more, pieces⟩, proper⟩
    have others : more ≠ [] := by
      rintro rfl
      exact proper ((List.append_nil _).symm.trans pieces)
    -- Joining the segments gives back the name, and the stem is the join of the first ones.
    have whole := intercalate_append dot (List.splitOn_ne_nil dot stem) others
    rw [pieces, List.intercalate_splitOn, List.intercalate_splitOn] at whole
    rw [whole]
    exact ⟨_, by rw [List.append_assoc, List.singleton_append]⟩

theorem selects_iff (plain : star ∉ name) : selects dot star pattern name = true ↔
    pattern = [star] ∨ pattern = name ∨
      ∃ stem, pattern = stem ++ [dot, star] ∧ stem ++ [dot] <+: name := by
  unfold selects
  split
  · rename_i all
    simp [all]
  · rename_i present
    split
    · rename_i wild
      obtain ⟨stem, rfl⟩ := List.isSuffixOf_iff_suffix.mp wild
      have cut : (stem ++ [dot, star]).take ((stem ++ [dot, star]).length - 2) = stem := by simp
      have other : stem ++ [dot, star] ≠ name := by
        rintro rfl
        exact plain (by simp)
      rw [cut, List.isPrefixOf_iff_prefix]
      constructor
      · intro below
        exact .inr (.inr ⟨stem, rfl, below⟩)
      · rintro (all | same | ⟨stem', same, below⟩)
        · exact absurd all present
        · exact absurd same other
        · rw [List.append_cancel_right same]
          exact below
    · rename_i verbatim
      rw [beq_iff_eq]
      constructor
      · intro same
        exact .inr (.inl same)
      · rintro (all | same | ⟨stem, rfl, -⟩)
        · exact absurd all present
        · exact same
        · exact absurd (List.isSuffixOf_iff_suffix.mpr (List.suffix_append stem _)) verbatim

end Meaning

section Spelling

variable {α : Type u} {β : Type v} [DecidableEq α] [DecidableEq β] {f : α → β}

theorem splitOn_map (injective : Function.Injective f) (dot : α) (name : List α) :
    (name.map f).splitOn (f dot) = (name.splitOn dot).map (List.map f) := by
  induction name with
  | nil => rfl
  | cons a rest ih =>
    obtain ⟨first, more, pieces⟩ := List.exists_cons_of_ne_nil (List.splitOn_ne_nil dot rest)
    rw [List.map_cons, List.splitOn_cons_eq_if_modifyHead, List.splitOn_cons_eq_if_modifyHead, ih,
      pieces]
    by_cases same : a = dot
    · simp [same]
    · simp [same, injective.ne same]

theorem selects_map (injective : Function.Injective f) (dot star : α) (pattern name : List α) :
    selects (f dot) (f star) (pattern.map f) (name.map f) = selects dot star pattern name := by
  have lists : ∀ {l m : List α}, l.map f = m.map f ↔ l = m :=
    (List.map_injective_iff.mpr injective).eq_iff
  have all : pattern.map f = [f star] ↔ pattern = [star] := lists (m := [star])
  have wild : [f dot, f star].isSuffixOf (pattern.map f) = [dot, star].isSuffixOf pattern := by
    rw [Bool.eq_iff_iff, List.isSuffixOf_iff_suffix, List.isSuffixOf_iff_suffix]
    change [dot, star].map f <:+ pattern.map f ↔ _
    exact List.suffix_map_iff_of_injective injective
  have below : ((pattern.map f).take ((pattern.map f).length - 2) ++ [f dot]).isPrefixOf
    (name.map f) =
      (pattern.take (pattern.length - 2) ++ [dot]).isPrefixOf name := by
    have front : (pattern.map f).take ((pattern.map f).length - 2) ++ [f dot] =
        (pattern.take (pattern.length - 2) ++ [dot]).map f := by simp [List.map_take]
    rw [front, Bool.eq_iff_iff, List.isPrefixOf_iff_prefix, List.isPrefixOf_iff_prefix]
    exact List.prefix_map_iff_of_injective injective
  have same : (pattern.map f == name.map f) = (pattern == name) := by
    rw [Bool.eq_iff_iff, beq_iff_eq, beq_iff_eq]
    exact lists
  unfold selects
  simp only [all, wild, below, same]

end Spelling

end Hookubit.Data.DottedPattern
