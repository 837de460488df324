/- digest: A strictly sorted list walked page by page behind a key cursor. -/

import Mathlib.Data.List.Sort

set_option autoImplicit false
set_option relaxedAutoImplicit false

namespace Hookubit.Data.KeysetPage

universe u v

variable {α : Type u} {κ : Type v} [LinearOrder κ] (key : α → κ) {rows : List α}

def ordered (rows : List α) : List α := rows.insertionSort fun a b => key a ≤ key b

def upTo (l : List α) (cursor : κ) : List α := l.filter fun a => key a ≤ cursor

def beyond (l : List α) (cursor : κ) : List α := l.filter fun a => cursor < key a

variable {key} {l : List α} {cursor : κ}

theorem mem_ordered {a : α} : a ∈ ordered key rows ↔ a ∈ rows :=
  List.mem_insertionSort _

theorem ordered_sorted (rows : List α) : (ordered key rows).Pairwise fun a b => key a ≤ key b := by
  have total : Std.Total fun a b : α => key a ≤ key b := ⟨fun a b => le_total _ _⟩
  have trans : IsTrans α fun a b => key a ≤ key b := ⟨fun _ _ _ => le_trans⟩
  exact List.pairwise_insertionSort (fun a b : α => key a ≤ key b) rows

theorem ordered_strict (nodup : (rows.map key).Nodup) :
    (ordered key rows).Pairwise fun a b => key a < key b := by
  have sorted : (ordered key rows).Pairwise fun a b => key a ≤ key b := ordered_sorted rows
  have distinct : (ordered key rows).Pairwise fun a b => key a ≠ key b := by
    apply List.pairwise_map.mp
    exact ((List.perm_insertionSort _ rows).map key).nodup_iff.mpr nodup
  exact (sorted.and distinct).imp fun h => lt_of_le_of_ne h.1 h.2

theorem eq_ordered (nodup : (rows.map key).Nodup) (perm : l.Perm rows)
    (sorted : l.Pairwise fun a b => key a ≤ key b) : l = ordered key rows := by
  have whole : l.Perm (ordered key rows) := perm.trans (List.perm_insertionSort _ rows).symm
  refine whole.eq_of_pairwise (fun a b ha hb le ge => ?_) sorted (ordered_sorted rows)
  have same : key a = key b := le_antisymm le ge
  exact List.inj_on_of_nodup_map nodup (perm.mem_iff.mp ha) (mem_ordered.mp hb) same

theorem ordered_filter (nodup : (rows.map key).Nodup) (q : α → Bool) :
    ordered key (rows.filter q) = (ordered key rows).filter q := by
  refine (eq_ordered ?_ ?_ ?_).symm
  · exact nodup.sublist (List.filter_sublist.map key)
  · exact (List.perm_insertionSort _ rows).filter q
  · exact (ordered_sorted rows).sublist List.filter_sublist

theorem head?_map_eq {keys : List κ} (sorted : rows.Pairwise fun a b => key a ≤ key b)
    (strict : keys.Pairwise (· < ·)) (members : ∀ k, k ∈ keys ↔ ∃ a ∈ rows, key a = k) :
    rows.head?.map key = keys.head? := by
  cases rows with
  | nil =>
    have absent : keys = [] := List.eq_nil_iff_forall_not_mem.mpr fun k hk => by
      obtain ⟨a, ha, -⟩ := (members k).mp hk
      cases ha
    rw [absent]
    rfl
  | cons a rows =>
    have inside : key a ∈ keys := (members _).mpr ⟨a, List.mem_cons_self, rfl⟩
    obtain ⟨k, rest, rfl⟩ := List.exists_cons_of_ne_nil (List.ne_nil_of_mem inside)
    obtain ⟨b, hb, same⟩ := (members k).mp List.mem_cons_self
    have least : key a ≤ k := by
      obtain rfl | later := List.mem_cons.mp hb
      · exact same.le
      · exact ((List.pairwise_cons.mp sorted).1 b later).trans_eq same
    have first : k ≤ key a := by
      obtain here | later := List.mem_cons.mp inside
      · exact here.ge
      · exact ((List.pairwise_cons.mp strict).1 _ later).le
    exact congrArg some (le_antisymm least first)

theorem upTo_append_beyond (strict : l.Pairwise fun a b => key a < key b) :
    upTo key l cursor ++ beyond key l cursor = l := by
  induction l with
  | nil => rfl
  | cons a l ih =>
    obtain ⟨head, tail⟩ := List.pairwise_cons.mp strict
    by_cases low : key a ≤ cursor
    · simp only [upTo, beyond, List.filter_cons, low, decide_true, if_true, not_lt.mpr low,
        decide_false, Bool.false_eq_true, if_false, List.cons_append]
      exact congrArg (a :: ·) (ih tail)
    · -- The cursor lies before the head, so nothing is up to it.
      have high := not_le.mp low
      have none_low : upTo key l cursor = [] := by
        apply List.filter_eq_nil_iff.mpr
        intro b hb
        simpa using high.trans (head b hb)
      have all_high : beyond key l cursor = l := by
        apply List.filter_eq_self.mpr
        intro b hb
        simpa using high.trans (head b hb)
      simp only [upTo, beyond] at none_low all_high
      simp [upTo, beyond, low, high, none_low, all_high]

theorem upTo_last (strict : l.Pairwise fun a b => key a < key b) {n : ℕ} {last : α}
    (ends : ((beyond key l cursor).take n).getLast? = some last) :
    upTo key l (key last) = upTo key l cursor ++ (beyond key l cursor).take n := by
  have member : last ∈ (beyond key l cursor).take n := List.mem_of_getLast? ends
  have ahead : cursor < key last := by
    have := (List.mem_filter.mp (List.mem_of_mem_take member)).2
    simpa using this
  obtain ⟨init, page⟩ := List.getLast?_eq_some_iff.mp ends
  have walked : (beyond key l cursor).Pairwise fun a b => key a < key b :=
    strict.sublist List.filter_sublist
  rw [← List.take_append_drop n (beyond key l cursor)] at walked
  obtain ⟨inside, _, apart⟩ := List.pairwise_append.mp walked
  have before : ∀ a ∈ (beyond key l cursor).take n, key a ≤ key last := by
    intro a ha
    rw [page] at ha inside
    rcases List.mem_append.mp ha with early | same
    · exact ((List.pairwise_append.mp inside).2.2 a early last (List.mem_singleton_self _)).le
    · rw [List.mem_singleton.mp same]
  have after : ∀ a ∈ (beyond key l cursor).drop n, key last < key a := apart last member
  have low : (upTo key l cursor).filter (fun a => key a ≤ key last) = upTo key l cursor := by
    apply List.filter_eq_self.mpr
    intro a ha
    have := (List.mem_filter.mp ha).2
    simpa using (of_decide_eq_true this).trans ahead.le
  have high : (beyond key l cursor).filter (fun a => key a ≤ key last) =
      (beyond key l cursor).take n := by
    nth_rewrite 1 [← List.take_append_drop n (beyond key l cursor)]
    rw [List.filter_append, List.filter_eq_self.mpr fun a ha => by simpa using before a ha,
      List.filter_eq_nil_iff.mpr fun a ha => by simpa using after a ha, List.append_nil]
  calc upTo key l (key last)
      = (upTo key l cursor ++ beyond key l cursor).filter fun a => key a ≤ key last := by
        rw [upTo_append_beyond strict, upTo]
    _ = upTo key l cursor ++ (beyond key l cursor).take n := by
        rw [List.filter_append, low, high]

theorem beyond_last (strict : l.Pairwise fun a b => key a < key b) {n : ℕ} {last : α}
    (ends : ((beyond key l cursor).take n).getLast? = some last) :
    beyond key l (key last) = (beyond key l cursor).drop n := by
  have whole : upTo key l (key last) ++ beyond key l (key last) =
      upTo key l (key last) ++ (beyond key l cursor).drop n := by
    rw [upTo_append_beyond strict, upTo_last strict ends, List.append_assoc, List.take_append_drop,
      upTo_append_beyond strict]
  exact List.append_cancel_left whole

theorem beyond_beyond {later : κ} (le : cursor ≤ later) :
    beyond key (beyond key l cursor) later = beyond key l later := by
  rw [beyond, beyond, List.filter_filter]
  apply List.filter_congr
  intro a _
  simpa using le.trans_lt

theorem beyond_filterMap {f : α → Option α} (keeps : ∀ a b, f a = some b → key b = key a)
    (fixed : ∀ a, cursor < key a → f a = some a) :
    beyond key (l.filterMap f) cursor = beyond key l cursor := by
  induction l with
  | nil => rfl
  | cons a l ih =>
    unfold beyond at ih ⊢
    by_cases ahead : cursor < key a
    · rw [List.filterMap_cons_some (fixed a ahead), List.filter_cons_of_pos (by simpa using ahead),
        List.filter_cons_of_pos (by simpa using ahead), ih]
    · rw [List.filter_cons_of_neg (by simpa using ahead), ← ih]
      cases image : f a with
      | none => rw [List.filterMap_cons_none image]
      | some b =>
        have low : ¬cursor < key b := by rwa [keeps a b image]
        rw [List.filterMap_cons_some image, List.filter_cons_of_neg (by simpa using low)]

end Hookubit.Data.KeysetPage
