/- digest: Databases of nullable text columns whose tables keep their NOT NULL constraints. -/

import Mathlib.Data.List.Basic

set_option autoImplicit false
set_option relaxedAutoImplicit false

namespace Hookubit.Data.Relational

/-- A row: every column's value as text, or NULL. -/
abbrev Row := String → Option String

/-- What is declared of the tables: their primary keys and their NOT NULL columns. -/
structure Schema (T : Type) where
  idField : T → String
  required : T → List String

variable {T : Type} {S : Schema T}

/-- No required column of the row is NULL. -/
def Schema.Filled (S : Schema T) (t : T) (r : Row) : Prop := ∀ c ∈ S.required t, (r c).isSome = true

instance Schema.decidableFilled (S : Schema T) (t : T) (r : Row) : Decidable (S.Filled t r) :=
  inferInstanceAs (Decidable (∀ c ∈ S.required t, (r c).isSome = true))

structure Database (S : Schema T) where
  rows : T → List Row
  filled : ∀ t, ∀ r ∈ rows t, S.Filled t r

/-- A statement's new rows for one table, refused when a required column is NULL. -/
def Database.replace [DecidableEq T] (db : Database S) (t : T) (l : List Row) :
    Option (Database S) :=
  if h : ∀ r ∈ l, S.Filled t r then
    some
      { rows := Function.update db.rows t l
        filled := by
          intro u r hr
          by_cases same : u = t
          · subst same
            rw [Function.update_self] at hr
            exact h r hr
          · rw [Function.update_of_ne same] at hr
            exact db.filled u r hr }
  else none

variable {db : Database S} {t : T} {p : Row → Bool}

theorem Database.rows_replace [DecidableEq T] {db' : Database S} {l : List Row}
    (h : db.replace t l = some db') : db'.rows t = l ∧ ∀ u ≠ t, db'.rows u = db.rows u := by
  obtain ⟨_, ⟨⟩⟩ := Option.dite_none_right_eq_some.mp h
  exact ⟨Function.update_self .., fun u hu => Function.update_of_ne hu ..⟩

/-- The row is related, through the column, to a row of `t` with the property. -/
def Database.joins (db : Database S) (column : String) (t : T) (p : Row → Bool) (r : Row) : Bool :=
  (r column).isSome && (db.rows t).any fun parent => r column == parent (S.idField t) && p parent

theorem Database.joins_iff {column : String} {r : Row} : db.joins column t p r = true ↔
      (r column).isSome = true ∧ ∃ parent ∈ db.rows t, r column = parent (S.idField t) ∧
        p parent = true := by
  simp [Database.joins]

theorem Database.joins_congr {db' : Database S} {column : String} {p' : Row → Bool}
    (rows : db'.rows t = db.rows t) (same : p' = p) :
    db'.joins column t p' = db.joins column t p := by
  funext r
  rw [Database.joins, Database.joins, rows, same]

/-- The rows that a predicate fences off. -/
def outside (p : Row → Bool) (l : List Row) : List Row := l.filter fun r => !p r

theorem outside_map {q : Row → Bool} {f : Row → Row} {l : List Row}
    (le : ∀ r, q r = true → p r = true) (keep : ∀ r ∈ l, q r = true → p (f r) = true) :
    outside p (l.map fun r => if q r then f r else r) = outside p l := by
  induction l with
  | nil => rfl
  | cons r l ih =>
    have rest := ih fun r hr => keep r (List.mem_cons_of_mem _ hr)
    unfold outside at rest ⊢
    rw [List.map_cons, List.filter_cons, List.filter_cons, rest]
    cases hq : q r with
    | true => simp [keep r List.mem_cons_self hq, le r hq]
    | false => rfl

theorem outside_filter {q : Row → Bool} (le : ∀ r, q r = true → p r = true) (l : List Row) :
    outside p (l.filter fun r => !q r) = outside p l := by
  rw [outside, outside, List.filter_filter]
  apply List.filter_congr
  intro r _
  cases hq : q r with
  | true => simp [le r hq]
  | false => simp

theorem outside_append {r : Row} (h : p r = true) (l : List Row) :
    outside p (l ++ [r]) = outside p l := by
  simp [outside, h]

end Hookubit.Data.Relational
