/- sources: authz/tenant-scope.ts isEmptyPredicate, requirePredicate, updateMany, deleteMany
   digest: What the guard of the bulk writes promises, and the clauses for which it holds. -/

import Hookubit.Authz.TenantIsolation

/-!
A `where` is a Boolean formula over field conditions. The guard reads its shape only, so what it
lets through is compared with what the formula says of all possible rows.
-/

set_option autoImplicit false
set_option relaxedAutoImplicit false

namespace Hookubit.Authz.BulkPredicate

open Authz.ScopedRepository Authz.TenantScope Authz.TenantIsolation Data.Relational

def COMBINATORS : List String := ["AND", "OR", "NOT"]

section Meaning

/-- Which field conditions hold. -/
abbrev Valuation := String → Js → Bool

variable (holds : Valuation)

mutual

/-- Prisma's reading of a clause: an object or a list is the conjunction of what it has. -/
def satisfies : Js → Bool
  | .array items => satisfiesAll items
  | .object entries => satisfiesEntries entries
  | _ => true

def satisfiesAll : List Js → Bool
  | [] => true
  | item :: items => satisfies item && satisfiesAll items

def satisfiesAny : List Js → Bool
  | [] => false
  | item :: items => satisfies item || satisfiesAny items

def satisfiesEntries : List (String × Js) → Bool
  | [] => true
  | (key, value) :: entries => satisfiesEntry key value && satisfiesEntries entries

/-- An entry whose value is undefined is ignored, a combinator's as well as a field's. -/
def satisfiesEntry (key : String) : Js → Bool
  | .undefined => true
  | .array items =>
      if key = "AND" then satisfiesAll items
      else if key = "OR" then satisfiesAny items
      else if key = "NOT" then !satisfiesAll items
      else holds key (.array items)
  | .object entries =>
      if key = "AND" ∨ key = "OR" then satisfiesEntries entries
      else if key = "NOT" then !satisfiesEntries entries
      else holds key (.object entries)
  | value => holds key value

end

end Meaning

/-- Possible rows: every field condition with a value is satisfied by some and not by others. -/
structure Rows (ρ : Type) where
  holds : ρ → Valuation
  satisfied : ∀ name value, name ∉ COMBINATORS → value.isDefined = true →
    ∃ r, holds r name value = true
  violated : ∀ name value, name ∉ COMBINATORS → value.isDefined = true →
    ∃ r, holds r name value = false

/-- Whatever its field conditions mean, some possible row does not satisfy the clause. -/
def Selects (clause : Js) : Prop :=
  ∀ (ρ : Type) (rows : Rows ρ), ∃ r, satisfies (rows.holds r) clause = false

/-- The clause fixes a field condition: it holds in all that satisfy the clause, or in none. -/
def Pins (clause : Js) : Prop :=
  ∃ name value b, name ∉ COMBINATORS ∧ value.isDefined = true ∧
    ∀ holds, satisfies holds clause = true → holds name value = b

/-- At some depth the clause has a key other than the combinators, or a bare value. -/
inductive Mentions : Js → Prop
  | field {entries : List (String × Js)} {key : String} {value : Js}
      (mem : (key, value) ∈ entries) (plain : key ∉ COMBINATORS) : Mentions (.object entries)
  | nested {entries : List (String × Js)} {key : String} {value : Js}
      (mem : (key, value) ∈ entries) (inner : Mentions value) : Mentions (.object entries)
  | item {items : List Js} {value : Js} (mem : value ∈ items) (inner : Mentions value) :
      Mentions (.array items)
  | bool (b : Bool) : Mentions (.bool b)
  | number (q : ℚ) : Mentions (.number q)
  | string (s : String) : Mentions (.string s)

theorem mentions_array {items : List Js} : Mentions (.array items) ↔ ∃ v ∈ items, Mentions v := by
  constructor
  · rintro (_ | _ | ⟨mem, inner⟩)
    exact ⟨_, mem, inner⟩
  · rintro ⟨v, mem, inner⟩
    exact .item mem inner

theorem mentions_object {entries : List (String × Js)} :
    Mentions (.object entries) ↔ ∃ e ∈ entries, e.1 ∉ COMBINATORS ∨ Mentions e.2 := by
  constructor
  · rintro (⟨mem, plain⟩ | ⟨mem, inner⟩)
    · exact ⟨_, mem, .inl plain⟩
    · exact ⟨_, mem, .inr inner⟩
  · rintro ⟨⟨key, value⟩, mem, plain | inner⟩
    · exact .field mem plain
    · exact .nested mem inner

mutual

theorem isEmptyPredicate_eq_false : ∀ clause, isEmptyPredicate clause = false ↔ Mentions clause
  | .undefined => ⟨fun h => by simp [isEmptyPredicate] at h, fun h => by cases h⟩
  | .null => ⟨fun h => by simp [isEmptyPredicate] at h, fun h => by cases h⟩
  | .bool b => ⟨fun _ => .bool b, fun _ => by rw [isEmptyPredicate]; all_goals simp⟩
  | .number q => ⟨fun _ => .number q, fun _ => by rw [isEmptyPredicate]; all_goals simp⟩
  | .string s => ⟨fun _ => .string s, fun _ => by rw [isEmptyPredicate]; all_goals simp⟩
  | .array items => by rw [isEmptyPredicate, areEmptyPredicates_eq_false items, mentions_array]
  | .object entries => by rw [isEmptyPredicate, areEmptyEntries_eq_false entries, mentions_object]

theorem areEmptyPredicates_eq_false :
    ∀ items, areEmptyPredicates items = false ↔ ∃ v ∈ items, Mentions v
  | [] => by simp [areEmptyPredicates]
  | item :: items => by
    rw [areEmptyPredicates, Bool.and_eq_false_iff, isEmptyPredicate_eq_false item,
      areEmptyPredicates_eq_false items, List.exists_mem_cons_iff]

theorem areEmptyEntries_eq_false :
    ∀ entries, areEmptyEntries entries = false ↔ ∃ e ∈ entries, e.1 ∉ COMBINATORS ∨ Mentions e.2
  | [] => by simp [areEmptyEntries]
  | (key, value) :: entries => by
    have plain : ["AND", "OR", "NOT"].contains key = false ↔ key ∉ COMBINATORS := by
      rw [COMBINATORS, List.contains_eq_mem, decide_eq_false_iff_not]
    rw [areEmptyEntries, Bool.and_eq_false_iff, Bool.and_eq_false_iff, plain,
      isEmptyPredicate_eq_false value, areEmptyEntries_eq_false entries, List.exists_mem_cons_iff]

end

variable {clause : Js}

theorem requirePredicate_eq_ok {t : Table} {method : String} :
    requirePredicate t clause method = .ok () ↔ Mentions clause := by
  rw [← isEmptyPredicate_eq_false]
  cases empty : isEmptyPredicate clause <;> simp [requirePredicate, empty]

theorem Pins.selects (h : Pins clause) : Selects clause := by
  obtain ⟨name, value, b, plain, given, pinned⟩ := h
  intro ρ rows
  have opposite : ∃ r, rows.holds r name value = !b := by
    cases b with
    | true => exact rows.violated name value plain given
    | false => exact rows.satisfied name value plain given
  obtain ⟨r, other⟩ := opposite
  refine ⟨r, Bool.eq_false_iff.mpr fun inside => ?_⟩
  rw [pinned _ inside] at other
  exact Bool.self_ne_not b other

theorem exists_satisfying (free : ¬Pins clause) {name : String} {value : Js}
    (plain : name ∉ COMBINATORS) (given : value.isDefined = true) (b : Bool) :
    ∃ row : { holds : Valuation // satisfies holds clause = true }, row.val name value = b := by
  by_contra absent
  refine free ⟨name, value, !b, plain, given, fun holds inside => ?_⟩
  exact Bool.eq_not.mpr fun same => absent ⟨⟨holds, inside⟩, same⟩

/-- So they are possible rows, none of which the clause leaves out. -/
def satisfying {clause : Js} (free : ¬Pins clause) :
    Rows { holds : Valuation // satisfies holds clause = true } where
  holds := Subtype.val
  satisfied _ _ plain given := exists_satisfying free plain given true
  violated _ _ plain given := exists_satisfying free plain given false

theorem selects_iff : Selects clause ↔ Pins clause := by
  refine ⟨fun selects => ?_, Pins.selects⟩
  by_contra free
  obtain ⟨⟨holds, inside⟩, outside⟩ := selects _ (satisfying free)
  exact Bool.false_ne_true (outside.symm.trans inside)

/-- A bulk write selects exactly when its clause pins a field condition; the guard settles the
question only for a clause that mentions none. -/
theorem bulk_write_selects_iff (t : Table) (clause : Js) (method : String) :
    (requirePredicate t clause method = .ok () → Selects clause) ↔
      (¬Mentions clause ∨ Pins clause) := by
  rw [requirePredicate_eq_ok, selects_iff, imp_iff_not_or]

section Conjuncts

/-- The field condition is an entry of the clause, or of a clause under its `AND`s. -/
inductive Conjunct (name : String) (value : Js) : Js → Prop
  | entry {entries : List (String × Js)} (mem : (name, value) ∈ entries) :
      Conjunct name value (.object entries)
  | inner {entries : List (String × Js)} {clause : Js} (mem : ("AND", clause) ∈ entries)
      (h : Conjunct name value clause) : Conjunct name value (.object entries)
  | item {items : List Js} {clause : Js} (mem : clause ∈ items) (h : Conjunct name value clause) :
      Conjunct name value (.array items)

variable {holds : Valuation} {name : String} {value : Js}

theorem satisfiesEntry_field (plain : name ∉ COMBINATORS) (given : value.isDefined = true) :
    satisfiesEntry holds name value = holds name value := by
  simp only [COMBINATORS, List.mem_cons, List.not_mem_nil, or_false, not_or] at plain
  obtain ⟨notAnd, notOr, notNot⟩ := plain
  cases value with
  | undefined => cases given
  | array items => rw [satisfiesEntry, if_neg notAnd, if_neg notOr, if_neg notNot]
  | object entries => rw [satisfiesEntry, if_neg (not_or.mpr ⟨notAnd, notOr⟩), if_neg notNot]
  | null | bool | number | string => rw [satisfiesEntry] <;> simp

theorem satisfiesEntries_eq_true {entries : List (String × Js)}
    (h : satisfiesEntries holds entries = true) :
    ∀ e ∈ entries, satisfiesEntry holds e.1 e.2 = true := by
  induction entries with
  | nil => simp
  | cons e entries ih =>
    obtain ⟨first, rest⟩ := Bool.and_eq_true_iff.mp (by simpa only [satisfiesEntries] using h)
    exact List.forall_mem_cons.mpr ⟨first, ih rest⟩

theorem satisfiesAll_eq_true {items : List Js} (h : satisfiesAll holds items = true) :
    ∀ v ∈ items, satisfies holds v = true := by
  induction items with
  | nil => simp
  | cons v items ih =>
    obtain ⟨first, rest⟩ := Bool.and_eq_true_iff.mp (by simpa only [satisfiesAll] using h)
    exact List.forall_mem_cons.mpr ⟨first, ih rest⟩

theorem Conjunct.holds_of_satisfies (h : Conjunct name value clause)
    (plain : name ∉ COMBINATORS) (given : value.isDefined = true)
    (inside : satisfies holds clause = true) : holds name value = true := by
  induction h with
  | entry mem =>
    rw [satisfies] at inside
    have here := satisfiesEntries_eq_true inside _ mem
    rwa [satisfiesEntry_field plain given] at here
  | @inner entries clause mem h ih =>
    rw [satisfies] at inside
    have here := satisfiesEntries_eq_true inside _ mem
    apply ih
    -- Only an object or a list can hold a conjunct, and `AND` reads both as conjunctions.
    cases h with
    | entry | inner => simpa only [satisfiesEntry, satisfies, true_or, if_true] using here
    | item => simpa only [satisfiesEntry, satisfies, if_true] using here
  | item mem h ih =>
    rw [satisfies] at inside
    exact ih (satisfiesAll_eq_true inside _ mem)

theorem Conjunct.pins (h : Conjunct name value clause) (plain : name ∉ COMBINATORS)
    (given : value.isDefined = true) : Pins clause :=
  ⟨name, value, true, plain, given, fun _ inside => h.holds_of_satisfies plain given inside⟩

theorem Conjunct.mentions (h : Conjunct name value clause)
    (plain : name ∉ COMBINATORS) : Mentions clause := by
  induction h with
  | entry mem => exact .field mem plain
  | inner mem _ ih => exact .nested mem ih
  | item mem _ ih => exact .item mem ih

/-- Where a field condition with a value stands in the clause, at any depth of `AND`s and beside
whatever else, the guard lets the write through and the write does select. -/
theorem stated_condition_selects (t : Table) (method : String)
    (stated : Conjunct name value clause) (plain : name ∉ COMBINATORS)
    (given : value.isDefined = true) :
    requirePredicate t clause method = .ok () ∧ Selects clause :=
  ⟨requirePredicate_eq_ok.mpr (stated.mentions plain), (stated.pins plain given).selects⟩

/-- A filter without its value does no harm beside one that has it. -/
theorem stated_status_selects : Selects (.object [("id", .undefined),
    ("AND", .array [.object [("status", .string "disabled")]])]) :=
  (stated_condition_selects .endpoints "deleteMany"
    (.inner (List.mem_cons_of_mem _ List.mem_cons_self)
      (.item List.mem_cons_self (.entry List.mem_cons_self))) (by decide) rfl).2

end Conjuncts

/-- What a row has of the field conditions used here; any other is taken to hold. -/
def fieldHolds (r : Row) (name : String) : Js → Bool
  | .string value => column name value r
  | .null => (r name).isNone
  | .object [("gt", .string bound)] => (r name).any fun value => bound < value
  | _ => true

theorem satisfies_string (holds : Valuation) (name value : String) :
    satisfies holds (.object [(name, .string value)]) = holds name (.string value) := by
  simp [satisfies, satisfiesEntries, satisfiesEntry]

/-- The plain client, with clauses read as formulas. -/
def formulaClient : Prisma where
  shape := plainClient.shape
  eval clause _ r := satisfies (fieldHolds r) clause
  order := plainClient.order
  group := plainClient.group
  scalar := plainClient.scalar
  nested := plainClient.nested
  defaults := plainClient.defaults
  admits := plainClient.admits
  eval_field name value _ r := satisfies_string (fieldHolds r) name value
  mem_order := plainClient.mem_order
  mem_group := plainClient.mem_group
  defaults_key := plainClient.defaults_key

/-- Rows that have all conditions alike, one of them with and the other without. -/
def alike : Rows Bool where
  holds r _ _ := r
  satisfied _ _ _ _ := ⟨true, rfl⟩
  violated _ _ _ _ := ⟨false, rfl⟩

/-- A filter whose value was never filled in. -/
def forgottenFilter : Js := .object [("status", .undefined)]

/-- It passes for a predicate, leaves no row out, and takes every endpoint of the tenant. -/
theorem forgotten_filter_deletes_all :
    requirePredicate .endpoints forgottenFilter "deleteMany" = .ok () ∧
      ¬Selects forgottenFilter ∧
      (perform formulaClient contextA twoTenants .endpoints
        (.deleteMany forgottenFilter)).toOption.map
        (fun done => (done.2.rows .endpoints).map fun r => r "id") = some [some "ep_b"] := by
  refine ⟨by decide +kernel, fun selects => ?_, by decide +kernel⟩
  obtain ⟨r, outside⟩ := selects Bool alike
  simp [forgottenFilter, satisfies, satisfiesEntries, satisfiesEntry] at outside

end Hookubit.Authz.BulkPredicate
