/- digest: Rows grouped by a key, and a map filled from the groups. -/

import Mathlib.Algebra.GroupWithZero.Nat
import Mathlib.Data.List.Dedup
import Mathlib.Data.List.Sort

set_option autoImplicit false
set_option relaxedAutoImplicit false

namespace Hookubit.Data.GroupCounts

universe u v w x

structure Group (κ : Type u) (α : Type v) where
  key : κ
  rows : List α

def Group.count {κ : Type u} {α : Type v} (g : Group κ α) : ℕ := g.rows.length

variable {κ : Type u} {α : Type v} {ν : Type w} [DecidableEq κ]

def groupAt (key : α → κ) (rows : List α) (k : κ) : Group κ α :=
  ⟨k, rows.filter fun r => key r = k⟩

/-- One group for each key that occurs, in the order of the keys. -/
def groups (le : κ → κ → Prop) [DecidableRel le] (key : α → κ) (rows : List α) :
    List (Group κ α) :=
  ((rows.map key).dedup.insertionSort le).map (groupAt key rows)

def record {β : Type x} (key : β → κ) (f : β → ν) (m : κ → Option ν) (entries : List β) :
    κ → Option ν :=
  entries.foldl (fun m e => Function.update m (key e) (some (f e))) m

section Groups

variable {le : κ → κ → Prop} [DecidableRel le] {key : α → κ} {rows : List α}

@[simp]
theorem groupAt_key (k : κ) : (groupAt key rows k).key = k := rfl

theorem groupAt_count (k : κ) :
    (groupAt key rows k).count = rows.countP fun r => key r = k :=
  List.countP_eq_length_filter.symm

theorem mem_groups {g : Group κ α} :
    g ∈ groups le key rows ↔ (∃ r ∈ rows, key r = g.key) ∧ g = groupAt key rows g.key := by
  simp only [groups, List.mem_map, List.mem_insertionSort, List.mem_dedup]
  constructor
  · rintro ⟨k, occurs, rfl⟩
    exact ⟨occurs, rfl⟩
  · rintro ⟨occurs, here⟩
    exact ⟨g.key, occurs, here.symm⟩

theorem groups_keys :
    (groups le key rows).map Group.key = (rows.map key).dedup.insertionSort le := by
  simp [groups, Function.comp_def]

theorem groups_keys_nodup : ((groups le key rows).map Group.key).Nodup := by
  rw [groups_keys, (List.perm_insertionSort le _).nodup_iff]
  exact List.nodup_dedup _

theorem length_groups : (groups le key rows).length = (rows.map key).dedup.length := by
  rw [← List.length_map Group.key, groups_keys, List.length_insertionSort]

theorem length_groups_le_of_forall_mem {ks : List κ} (inside : ∀ r ∈ rows, key r ∈ ks) :
    (groups le key rows).length ≤ ks.length := by
  rw [length_groups]
  refine (List.subperm_of_subset (List.nodup_dedup _) fun k hk => ?_).length_le
  obtain ⟨r, hr, rfl⟩ := List.mem_map.mp (List.mem_dedup.mp hk)
  exact inside r hr

theorem length_groups_le : (groups le key rows).length ≤ rows.length := by
  rw [length_groups, ← List.length_map key]
  exact (List.dedup_sublist _).length_le

end Groups

section Record

variable {β : Type x} {key : β → κ} {f : β → ν} {entries : List β}

theorem record_of_not_mem (m : κ → Option ν) {k : κ} (absent : ∀ e ∈ entries, key e ≠ k) :
    record key f m entries k = m k := by
  induction entries generalizing m with
  | nil => rfl
  | cons head entries ih =>
    rw [List.forall_mem_cons] at absent
    exact (ih _ absent.2).trans (Function.update_of_ne absent.1.symm _ _)

theorem record_eq_some {m : κ → Option ν} {k : κ} {v : ν}
    (agree : ∀ e ∈ entries, key e = k → f e = v)
    (occurs : m k = some v ∨ ∃ e ∈ entries, key e = k) : record key f m entries k = some v := by
  induction entries generalizing m with
  | nil => exact occurs.resolve_right (by simp)
  | cons head entries ih =>
    rw [List.forall_mem_cons] at agree
    apply ih agree.2
    dsimp only
    by_cases here : key head = k
    · left
      rw [here, Function.update_self, agree.1 here]
    · rw [Function.update_of_ne (Ne.symm here)]
      refine occurs.imp_right ?_
      rintro ⟨e, he, same⟩
      obtain rfl | later := List.mem_cons.mp he
      · exact absurd same here
      · exact ⟨e, later, same⟩

end Record

variable {le : κ → κ → Prop}

theorem record_groups [DecidableRel le] {key : α → κ} {rows : List α}
    (f : Group κ α → ν) (m : κ → Option ν) (k : κ) :
    record Group.key f m (groups le key rows) k =
      if ∃ r ∈ rows, key r = k then some (f (groupAt key rows k)) else m k := by
  split
  · rename_i occurs
    refine record_eq_some ?_ (.inr ⟨groupAt key rows k, mem_groups.mpr ⟨occurs, rfl⟩, rfl⟩)
    rintro g hg rfl
    exact congrArg f (mem_groups.mp hg).2
  · rename_i absent
    apply record_of_not_mem
    rintro g hg rfl
    exact absent (mem_groups.mp hg).1

theorem record_filterMap_groups [DecidableRel le] {key : α → κ} {rows : List α}
    (f : Group κ α → Option ν) (k : κ) :
    record Prod.fst Prod.snd (fun _ => none)
        ((groups le key rows).filterMap fun g => (f g).map fun v => (g.key, v)) k =
      if ∃ r ∈ rows, key r = k then f (groupAt key rows k) else none := by
  have entry {e : κ × ν} (he : e ∈ (groups le key rows).filterMap fun g =>
      (f g).map fun v => (g.key, v)) :
      (∃ r ∈ rows, key r = e.1) ∧ f (groupAt key rows e.1) = some e.2 := by
    obtain ⟨g, hg, written⟩ := List.mem_filterMap.mp he
    obtain ⟨v, hv, rfl⟩ := Option.map_eq_some_iff.mp written
    obtain ⟨occurs, here⟩ := mem_groups.mp hg
    exact ⟨occurs, here ▸ hv⟩
  by_cases occurs : ∃ r ∈ rows, key r = k
  · rw [if_pos occurs]
    cases value : f (groupAt key rows k) with
    | none =>
      apply record_of_not_mem
      rintro e he rfl
      exact Option.some_ne_none _ ((entry he).2.symm.trans value)
    | some v =>
      apply record_eq_some
      · rintro e he rfl
        exact Option.some.inj ((entry he).2.symm.trans value)
      · refine .inr ⟨(k, v), List.mem_filterMap.mpr ⟨groupAt key rows k, ?_, ?_⟩, rfl⟩
        · exact mem_groups.mpr ⟨occurs, rfl⟩
        · rw [value]
          rfl
  · rw [if_neg occurs]
    apply record_of_not_mem
    rintro e he rfl
    exact occurs (entry he).1

theorem getD_record_count [DecidableRel le] {key : α → κ} {rows : List α} (k : κ) :
    (record Group.key Group.count (fun _ => none) (groups le key rows) k).getD 0 =
      rows.countP fun r => key r = k := by
  rw [record_groups]
  split
  · exact groupAt_count k
  · rename_i absent
    push Not at absent
    refine (List.countP_eq_zero.mpr fun r hr => ?_).symm
    simpa using absent r hr

section Prefix

variable {le : κ → κ → Prop} [DecidableRel le] {key : α → κ} {rows : List α}

theorem getD_record_take_le (n : ℕ) (k : κ) :
    (record Group.key Group.count (fun _ => none) ((groups le key rows).take n) k).getD 0 ≤
      rows.countP fun r => key r = k := by
  by_cases early : ∃ g ∈ (groups le key rows).take n, g.key = k
  · have written : record Group.key Group.count (fun _ => none) ((groups le key rows).take n) k =
        some (groupAt key rows k).count := by
      refine record_eq_some ?_ (.inr early)
      rintro g hg rfl
      exact congrArg Group.count (mem_groups.mp (List.mem_of_mem_take hg)).2
    rw [written, Option.getD_some, groupAt_count]
  · push Not at early
    rw [record_of_not_mem _ early]
    exact Nat.zero_le _

theorem record_take_of_mem_drop {n : ℕ} {g : Group κ α} (late : g ∈ (groups le key rows).drop n) :
    record Group.key Group.count (fun _ => none) ((groups le key rows).take n) g.key = none := by
  apply record_of_not_mem
  intro other early same
  have distinct : ((groups le key rows).map Group.key).Nodup := groups_keys_nodup
  rw [← List.take_append_drop n (groups le key rows), List.map_append] at distinct
  exact (List.nodup_append.mp distinct).2.2 _ (List.mem_map_of_mem early) _
    (List.mem_map_of_mem late) same

end Prefix

theorem sum_countP_key (key : α → κ) (rows : List α) {ks : List κ} (distinct : ks.Nodup) :
    (ks.map fun k => rows.countP fun r => key r = k).sum = rows.countP fun r => key r ∈ ks := by
  induction ks with
  | nil => simp
  | cons k ks ih =>
    obtain ⟨fresh, distinct⟩ := List.nodup_cons.mp distinct
    rw [List.map_cons, List.sum_cons, ih distinct]
    clear ih
    induction rows with
    | nil => rfl
    | cons r rows ih =>
      simp only [List.countP_cons, List.mem_cons] at ih ⊢
      by_cases here : key r = k
      · have apart : key r ∉ ks := here ▸ fresh
        simp only [here, decide_true, if_true, true_or, here ▸ apart, decide_false,
          Bool.false_eq_true, if_false]
        omega
      · simp only [here, decide_false, Bool.false_eq_true, if_false, false_or]
        omega

end Hookubit.Data.GroupCounts
