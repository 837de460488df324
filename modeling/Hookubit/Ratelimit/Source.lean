/- sources: ratelimit/source.go (policiesSQL, maxPolicyRows), ratelimit/policy.go ResolveIngest,
     rate-limits/rate-limits.service.ts
   digest: Whether the buckets of a request depend on the order in which its policies are read. -/

import Hookubit.Automata.LabelledSystem
import Hookubit.Ratelimit.Policy

/-!
The policies of every project are written by its own calls and read together with the
organization's. The query has no ORDER BY, so its answer is any order of the rows it selects, cut
at the limit. A project's organization never changes.
-/

set_option autoImplicit false
set_option relaxedAutoImplicit false

namespace Hookubit.Ratelimit.Source

open Automata.LabelledSystem Common.Errors Data.Rows
open Data.Int64 (InRange wrap_of_inRange)
open Payloadstore.Keys (Text)
open RateLimits.Service Ratelimit.Policy

variable (organizationOf : Text → Option Text)

section Machine

inductive Op
  | create (ctx : Context organizationOf) (dir : Directory) (id : Text) (dto : CreateRateLimitDto)
  | update (ctx : Context organizationOf) (dir : Directory) (id : Text) (dto : UpdateRateLimitDto)
  | remove (ctx : Context organizationOf) (id : Text)

/-- A call that is refused is no step. -/
def next (t : PolicyTable) : Op organizationOf → Option PolicyTable
  | .create ctx dir id dto => (create ctx dir id dto t).toOption
  | .update ctx dir id dto => (update ctx dir id dto t).toOption
  | .remove ctx id => (remove ctx id t).toOption

def policies : System PolicyTable (Op organizationOf) :=
  .ofStep (fun t => t.rows = []) (next organizationOf)

variable {organizationOf} {ctx : Context organizationOf} {id : Text} {t t' : PolicyTable}

/-- The window that a check lets pass. -/
def Checked (settings : RateLimitSettings) : Prop :=
  1 ≤ settings.windowSeconds ∧ settings.windowSeconds ≤ 86400

theorem assertField_ok {wire : String} {bounds : Bounds} {given : Option ℤ} {value : ℤ}
    (h : assertField wire bounds given = .ok value) : bounds.min ≤ value ∧ value ≤ bounds.max := by
  unfold assertField at h
  split at h
  · cases h
  · split at h
    · cases h
    · rename_i inside
      cases h
      rwa [not_or, not_lt, not_lt] at inside

theorem checked_of_assert {limit windowSeconds burst : Option ℤ} {settings : RateLimitSettings}
    (h : assertRateLimitSettings limit windowSeconds burst = .ok settings) : Checked settings := by
  obtain ⟨_, _, h⟩ := bind_eq_ok.mp h
  obtain ⟨_, window, h⟩ := bind_eq_ok.mp h
  obtain ⟨_, _, h⟩ := bind_eq_ok.mp h
  cases h
  exact assertField_ok window

/-- What holds of the table between calls. -/
structure Good (t : PolicyTable) : Prop where
  unique : UniqueIdentities t.rows
  checked : ∀ p ∈ t.rows, Checked p.toRateLimitSettings

theorem Good.create {dir : Directory} {dto : CreateRateLimitDto} (good : Good t)
    (h : create ctx dir id dto t = .ok t') : Good t' := by
  obtain ⟨settings, asserted, h⟩ := bind_eq_ok.mp h
  obtain ⟨_, _, h⟩ := bind_eq_ok.mp h
  obtain ⟨resourceId, _, h⟩ := bind_eq_ok.mp h
  obtain ⟨_, _, h⟩ := bind_eq_ok.mp h
  unfold PolicyTable.insert at h
  split at h
  · obtain ⟨rfl, unique⟩ := PolicyTable.checkIndex_ok h
    refine ⟨unique, fun p hp => ?_⟩
    obtain rfl | hp := List.mem_cons.mp hp
    · exact checked_of_assert asserted
    · exact good.checked p hp
  · cases h

theorem Good.update {dir : Directory} {dto : UpdateRateLimitDto} (good : Good t)
    (h : update ctx dir id dto t = .ok t') : Good t' := by
  obtain ⟨current, _, h⟩ := bind_eq_ok.mp h
  obtain ⟨settings, asserted, h⟩ := bind_eq_ok.mp h
  obtain ⟨identity, _, h⟩ := bind_eq_ok.mp h
  have h : (t.rewrite ctx.projectId id settings identity.1 identity.2).checkIndex identity.1
      identity.2 = .ok t' := by
    split at h
    · obtain ⟨_, _, h⟩ := bind_eq_ok.mp h
      exact h
    · exact h
  obtain ⟨rfl, unique⟩ := PolicyTable.checkIndex_ok h
  refine ⟨unique, fun p hp => ?_⟩
  obtain ⟨hp, _⟩ | ⟨_, _, _, rfl⟩ := mem_updateWhere_ite.mp hp
  · exact good.checked p hp
  · exact checked_of_assert asserted

theorem Good.remove (good : Good t) (h : remove ctx id t = .ok t') : Good t' := by
  obtain ⟨_, _, h⟩ := bind_eq_ok.mp h
  cases h
  exact ⟨good.unique.sublist (List.filter_sublist.map _),
    fun p hp => good.checked p (List.mem_of_mem_filter hp)⟩

private theorem good_of_reachable (reach : Reachable (policies organizationOf) t) : Good t := by
  refine reach.invariant (I := Good) (fun t empty => ?_) fun t a t' good edge => ?_
  · have empty : t.rows = [] := empty
    exact ⟨by simp [UniqueIdentities, empty], by simp [empty]⟩
  · have edge : next organizationOf t a = some t' := edge
    cases a with
    | create ctx dir id dto => exact good.create (toOption_eq_some.mp edge)
    | update ctx dir id dto => exact good.update (toOption_eq_some.mp edge)
    | remove ctx id => exact good.remove (toOption_eq_some.mp edge)

end Machine

section Query

def maxPolicyRows : ℕ := 1000

def toRow (p : RateLimitPolicy) : Row :=
  ⟨p.scope, p.resourceId, p.limit, p.windowSeconds, p.burst⟩

/-- The WHERE clause: this project's rows, and the organization's whichever project holds them. -/
def Selects (t : Target) (p : RateLimitPolicy) : Prop :=
  organizationOf p.projectId = some t.OrganizationID ∧
    (p.projectId = t.ProjectID ∨ p.scope = .organization)

instance decidableSelects (t : Target) : DecidablePred (Selects organizationOf t) :=
  fun _ => inferInstanceAs (Decidable (_ ∧ _))

def selected (table : PolicyTable) (t : Target) : List Row :=
  (table.rows.filter fun p => decide (Selects organizationOf t p)).map toRow

/-- The row lists that `policiesSQL` may answer with. -/
def Answers (table : PolicyTable) (t : Target) (l : List Row) : Prop :=
  ∃ order : List Row, order.Perm (selected organizationOf table t) ∧ l = order.take maxPolicyRows

/-- The organization's rows that decide its bucket give the bucket one shape. -/
def Agree (rows : List Row) (organization : Text) : Prop :=
  organization = [] ∨
    ∀ a ∈ deciding rows .organization organization, ∀ b ∈ deciding rows .organization organization,
      a.Limit = b.Limit ∧ a.WindowSeconds = b.WindowSeconds ∧ a.capacity = b.capacity

variable {organizationOf} {table : PolicyTable} {t : Target}

private theorem answers_iff_perm {l : List Row}
    (few : (selected organizationOf table t).length ≤ maxPolicyRows) :
    Answers organizationOf table t l ↔ l.Perm (selected organizationOf table t) := by
  constructor
  · rintro ⟨order, perm, rfl⟩
    rwa [List.take_of_length_le (perm.length_eq.trans_le few)]
  · exact fun perm => ⟨l, perm, (List.take_of_length_le (perm.length_eq.trans_le few)).symm⟩

private theorem selected_unique (good : Good table) {scope : RateLimitScope}
      (inner : scope ≠ .organization) :
    ∀ a ∈ selected organizationOf table t, ∀ b ∈ selected organizationOf table t,
      a.Scope = scope → b.Scope = scope → a.ResourceID = b.ResourceID → a = b := by
  intro a ha b hb here here' resource
  obtain ⟨p, hp, rfl⟩ := List.mem_map.mp ha
  obtain ⟨q, hq, rfl⟩ := List.mem_map.mp hb
  obtain ⟨hp, chosen⟩ := List.mem_filter.mp hp
  obtain ⟨hq, chosen'⟩ := List.mem_filter.mp hq
  have project : p.projectId = t.ProjectID :=
    (of_decide_eq_true chosen).2.resolve_right fun h => inner (here.symm.trans h)
  have project' : q.projectId = t.ProjectID :=
    (of_decide_eq_true chosen').2.resolve_right fun h => inner (here'.symm.trans h)
  have identity : p.identity = q.identity :=
    Prod.ext (project.trans project'.symm) (Prod.ext (here.trans here'.symm) resource)
  exact congrArg toRow (List.inj_on_of_nodup_map good.unique hp hq identity)

private theorem window_of_mem_selected (good : Good table) {r : Row}
    (hr : r ∈ selected organizationOf table t) : r.window = r.WindowSeconds * second := by
  obtain ⟨p, hp, rfl⟩ := List.mem_map.mp hr
  obtain ⟨low, high⟩ := good.checked p (List.mem_of_mem_filter hp)
  refine wrap_of_inRange ?_
  simp only [InRange, toRow, second]
  omega

private theorem bucketOf_eq_iff (good : Good table) {a b : Row}
    (ha : a ∈ selected organizationOf table t)
    (hb : b ∈ selected organizationOf table t) (scope : a.Scope = b.Scope) (resource : Text) :
    bucketOf a resource = bucketOf b resource ↔
      a.Limit = b.Limit ∧ a.WindowSeconds = b.WindowSeconds ∧ a.capacity = b.capacity := by
  constructor
  · intro same
    have limit : a.Limit = b.Limit := congrArg Bucket.Limit same
    have capacity : (a.capacity : ℚ) = b.capacity := congrArg Bucket.Capacity same
    have window : a.window = b.window := congrArg Bucket.Window same
    rw [window_of_mem_selected good ha, window_of_mem_selected good hb] at window
    have positive : second ≠ 0 := by decide
    exact ⟨limit, mul_right_cancel₀ positive window, by exact_mod_cast capacity⟩
  · rintro ⟨limit, window, capacity⟩
    simp only [bucketOf, Row.window, scope, limit, window, capacity]

private theorem toList_inj {x y : Option Bucket} : x.toList = y.toList ↔ x = y := by
  cases x <;> cases y <;> simp

private theorem charge_organization_perm_iff (good : Good table) :
    (∀ l l', l.Perm (selected organizationOf table t) → l'.Perm (selected organizationOf table t) →
        charge l .organization t.OrganizationID = charge l' .organization t.OrganizationID) ↔
      Agree (selected organizationOf table t) t.OrganizationID := by
  by_cases named : t.OrganizationID = []
  · refine iff_of_true (fun l l' _ _ => ?_) (.inl named)
    have nothing : ∀ l, charge l .organization t.OrganizationID = [] := fun l => by
      unfold charge
      split
      · exact if_neg (not_not.mpr named)
      · rfl
    rw [nothing, nothing]
  · have options := pick_perm_iff (bucketOf · t.OrganizationID) (selected organizationOf table t)
      .organization t.OrganizationID
    simp only [charge_eq _ _ named, toList_inj, options, Agree, named, false_or]
    refine forall₂_congr fun a ha => forall₂_congr fun b hb => ?_
    obtain ⟨ha, scope⟩ := mem_of_mem_deciding ha
    obtain ⟨hb, scope'⟩ := mem_of_mem_deciding hb
    exact bucketOf_eq_iff good ha hb (scope.trans scope'.symm) t.OrganizationID

/-- The buckets of a request are the same in every order of the rows exactly when the
organization's deciding rows, whichever projects hold them, have one shape. -/
theorem resolution_order_irrelevant_iff {table : PolicyTable}
    (reach : Reachable (policies organizationOf) table) (t : Target) (d : Default)
    (few : (selected organizationOf table t).length ≤ maxPolicyRows) :
    (∀ l l', Answers organizationOf table t l → Answers organizationOf table t l' →
        ResolveIngest l t d = ResolveIngest l' t d) ↔
      Agree (selected organizationOf table t) t.OrganizationID := by
  have good := good_of_reachable reach
  rw [← charge_organization_perm_iff good]
  simp only [answers_iff_perm few]
  refine forall₂_congr fun l l' => forall₂_congr fun perm perm' => ?_
  -- the two inner scopes hold one row for each resource
  have ingest : chargeIngest l t d = chargeIngest l' t d := by
    unfold chargeIngest
    rw [pick_eq_of_unique perm perm' (selected_unique good (by decide))]
  have project : charge l .project t.ProjectID = charge l' .project t.ProjectID := by
    unfold charge
    rw [pick_eq_of_unique perm perm' (selected_unique good (by decide))]
  rw [ResolveIngest, ResolveIngest, ingest, project, List.append_right_inj]

end Query

def organizationOfTwo (project : Text) : Option Text :=
  if project = ['p'] ∨ project = ['q'] then some ['o'] else none

def contextP : Context organizationOfTwo := ⟨['o'], ['p'], rfl⟩

def contextQ : Context organizationOfTwo := ⟨['o'], ['q'], rfl⟩

def emptyDirectory : Directory := ⟨fun _ => none, fun _ => none⟩

def emptyTable : PolicyTable := ⟨[], List.nodup_nil⟩

/-- Each project sets a ceiling for the whole organization. -/
def twoCeilings (limitP limitQ : ℤ) : List (Op organizationOfTwo) :=
  [.create contextP emptyDirectory ['a'] { scope := .organization, limit := limitP },
    .create contextQ emptyDirectory ['b'] { scope := .organization, limit := limitQ }]

def targetP : Target := ⟨['o'], ['p'], ['k']⟩

def noDefault : Default := ⟨0, 0, 0⟩

def ceiling (limit : ℤ) : Row := ⟨.organization, none, limit, 1, none⟩

/-- The second call meets no conflict, since uniqueness is a project's own affair. -/
private theorem twoCeilings_reachable (limitP limitQ : ℤ)
    (run : (execute (next organizationOfTwo) emptyTable (twoCeilings limitP limitQ)).any
      (fun table => decide (selected organizationOfTwo table targetP =
        [ceiling limitQ, ceiling limitP])) = true) :
    ∃ table, Reachable (policies organizationOfTwo) table ∧
      selected organizationOfTwo table targetP = [ceiling limitQ, ceiling limitP] := by
  have empty : (policies organizationOfTwo).start emptyTable := rfl
  obtain ⟨table, reach, rows⟩ := exists_reachable_of_execute empty run
  exact ⟨table, reach, of_decide_eq_true rows⟩

theorem equal_ceilings_resolve_alike :
    ∃ table, Reachable (policies organizationOfTwo) table ∧
      ((∀ l l', Answers organizationOfTwo table targetP l →
        Answers organizationOfTwo table targetP l' →
          ResolveIngest l targetP noDefault = ResolveIngest l' targetP noDefault) ↔
        Agree [ceiling 5, ceiling 5] ['o']) := by
  obtain ⟨table, reach, rows⟩ := twoCeilings_reachable 5 5 (by decide +kernel)
  have few : (selected organizationOfTwo table targetP).length ≤ maxPolicyRows := by
    rw [rows]
    decide
  have alike := resolution_order_irrelevant_iff reach targetP noDefault few
  rw [rows] at alike
  exact ⟨table, reach, alike⟩

/-- Two projects set different ceilings, and the order of the rows says which one is charged. -/
theorem order_decides_ceiling :
    ∃ table, Reachable (policies organizationOfTwo) table ∧
      (selected organizationOfTwo table targetP).length ≤ maxPolicyRows ∧
        ∃ l l', Answers organizationOfTwo table targetP l ∧
          Answers organizationOfTwo table targetP l' ∧
            ResolveIngest l targetP noDefault ≠ ResolveIngest l' targetP noDefault := by
  obtain ⟨table, reach, rows⟩ := twoCeilings_reachable 5 9 (by decide +kernel)
  have few : (selected organizationOfTwo table targetP).length ≤ maxPolicyRows := by
    rw [rows]
    decide
  refine ⟨table, reach, few, [ceiling 9, ceiling 5], [ceiling 5, ceiling 9], ?_, ?_, ?_⟩
  · rw [answers_iff_perm few, rows]
  · rw [answers_iff_perm few, rows]
    exact List.Perm.swap _ _ _
  · intro same
    have limits := congrArg (List.map Bucket.Limit) same
    revert limits
    decide +kernel

end Hookubit.Ratelimit.Source
