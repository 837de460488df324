/- sources: ratelimit/policy.go (Row, Target, Bucket, Default, bucketOf, BucketFor, pick,
     ResolveIngest, ingestResource)
   digest: Which buckets an accepted event is charged against, and which rows decide them. -/

import Hookubit.Data.Int64
import Hookubit.RateLimits.Service
import Mathlib.Data.Rat.Cast.Order
import Mathlib.Tactic.Positivity

/-!
Capacities and rates are exact rationals where the source divides floats. A bucket also keeps the
limit and the window that its rate is computed from, so rounding makes no two buckets equal.
-/

set_option autoImplicit false
set_option relaxedAutoImplicit false

namespace Hookubit.Ratelimit.Policy

open Data.Int64 (wrap)
open Data.Rows
open Payloadstore.Keys (Text)
open RateLimits.Service (RateLimitScope)

structure Row where
  Scope : RateLimitScope
  ResourceID : Option Text
  Limit : ℤ
  WindowSeconds : ℤ
  Burst : Option ℤ
  deriving DecidableEq

/-- Whom a request is charged to. An empty text is an absent one. -/
structure Target where
  OrganizationID : Text
  ProjectID : Text
  APIKeyID : Text

structure Bucket where
  Scope : RateLimitScope
  Key : Text
  Capacity : ℚ
  RatePerSec : ℚ
  Limit : ℤ
  Window : ℤ
  deriving DecidableEq

structure Default where
  Limit : ℤ
  WindowSeconds : ℤ
  Burst : ℤ

def Default.row (d : Default) (scope : RateLimitScope) : Option Row :=
  if d.Limit ≤ 0 ∨ d.WindowSeconds ≤ 0 then none
  else some ⟨scope, none, d.Limit, d.WindowSeconds, if 0 < d.Burst then some d.Burst else none⟩

def second : ℤ := 1000000000

theorem rate_pos {limit window : ℤ} (on : 0 < limit) (wide : 0 < window) :
    0 < limit / (window / second : ℚ) := by
  have ns : (0 : ℚ) < second := by norm_num [second]
  have tokens : (0 : ℚ) < limit := Int.cast_pos.mpr on
  have time : (0 : ℚ) < window := Int.cast_pos.mpr wide
  positivity

/-- A duration in nanoseconds, as 64 bits hold it. -/
def Row.window (r : Row) : ℤ := wrap (r.WindowSeconds * second)

/-- The tokens a full bucket holds: the limit, or a burst above it. -/
def Row.capacity (r : Row) : ℤ :=
  match r.Burst with
  | some burst => if r.Limit < burst then burst else r.Limit
  | none => r.Limit

def formatInt : ℤ → Text
  | .ofNat n => Nat.toDigits 10 n
  | .negSucc n => '-' :: Nat.toDigits 10 (n + 1)

def bucketOf (r : Row) (resource : Text) : Bucket where
  Scope := r.Scope
  Key := "rl:".toList ++ r.Scope.name.toList ++ ":".toList ++ resource ++ ":".toList ++
    formatInt r.WindowSeconds ++ "s".toList
  Capacity := r.capacity
  RatePerSec := r.Limit / (r.window / second : ℚ)
  Limit := r.Limit
  Window := r.window

/-- `Duration.Round` to a whole second, half away from zero; the largest duration if it overflows. -/
def roundToSecond (window : ℤ) : ℤ :=
  let r := window % second
  if 2 * r < second then window - r
  else if window - r + second ≤ 9223372036854775807 then window - r + second
  else 9223372036854775807

/-- A bucket for a limit that no row holds. -/
def BucketFor (scope : RateLimitScope) (key : Text) (limit window : ℤ) : Bucket :=
  let window := if window ≤ 0 then second else window
  let windowSeconds := max 1 (roundToSecond window / second)
  let limit := max 0 limit
  { Scope := scope
    Key := "rl:delivery:".toList ++ key ++ ":".toList ++ formatInt windowSeconds ++ "s".toList
    Capacity := limit
    RatePerSec := limit / (window / second : ℚ)
    Limit := limit
    Window := window }

/-- The loop of `pick`, with the first row for every resource that it has seen. -/
def pickFrom (scope : RateLimitScope) (resource : Text) : Option Row → List Row → Option Row
  | wildcard, [] => wildcard
  | wildcard, r :: rows =>
      if r.Scope ≠ scope then pickFrom scope resource wildcard rows
      else match r.ResourceID with
        | some id =>
            if resource ≠ [] ∧ id = resource then some r
            else pickFrom scope resource wildcard rows
        | none => pickFrom scope resource (wildcard.or (some r)) rows

def pick (rows : List Row) (scope : RateLimitScope) (resource : Text) : Option Row :=
  pickFrom scope resource none rows

def ingestResource (r : Row) (t : Target) : Text :=
  match r.ResourceID with
  | some id => id
  | none => t.ProjectID

/-- The bucket of one of the outer scopes. -/
def charge (rows : List Row) (scope : RateLimitScope) (resource : Text) : List Bucket :=
  match pick rows scope resource with
  | some r => if resource ≠ [] then [bucketOf r resource] else []
  | none => []

/-- The bucket of the innermost scope, or the configured one. -/
def chargeIngest (rows : List Row) (t : Target) (d : Default) : List Bucket :=
  match pick rows .ingest t.APIKeyID with
  | some r => [bucketOf r (ingestResource r t)]
  | none =>
      match d.row .ingest with
      | some r => if t.APIKeyID ≠ [] then [bucketOf r t.APIKeyID] else []
      | none => []

def ResolveIngest (rows : List Row) (t : Target) (d : Default) : List Bucket :=
  chargeIngest rows t d ++ charge rows .project t.ProjectID ++
    charge rows .organization t.OrganizationID

/-- The row names the resource. -/
def Row.names (scope : RateLimitScope) (resource : Text) (r : Row) : Bool :=
  decide (r.Scope = scope ∧ resource ≠ [] ∧ r.ResourceID = some resource)

/-- The row stands for every resource of the scope. -/
def Row.isWildcard (scope : RateLimitScope) (r : Row) : Bool :=
  decide (r.Scope = scope ∧ r.ResourceID = none)

theorem pickFrom_eq (scope : RateLimitScope) (resource : Text) (wildcard : Option Row)
    (rows : List Row) :
    pickFrom scope resource wildcard rows =
      (rows.find? (Row.names scope resource)).or
        (wildcard.or (rows.find? (Row.isWildcard scope))) := by
  induction rows generalizing wildcard with
  | nil => simp [pickFrom]
  | cons r rows ih =>
    unfold pickFrom
    split
    · rename_i other
      rw [ih, List.find?_cons_of_neg (by simp [Row.names, other]),
        List.find?_cons_of_neg (by simp [Row.isWildcard, other])]
    · rename_i here
      rw [ne_eq, not_not] at here
      split
      · rename_i id named
        rw [List.find?_cons_of_neg (p := Row.isWildcard scope) (by simp [Row.isWildcard, named])]
        split
        · rename_i hit
          rw [List.find?_cons_of_pos (by simp [Row.names, here, named, hit]), Option.some_or]
        · rename_i miss
          have other : ¬Row.names scope resource r = true := by
            simpa [Row.names, here, named] using fun h => not_and.mp miss h
          rw [ih, List.find?_cons_of_neg other]
      · rename_i every
        rw [ih, List.find?_cons_of_neg (by simp [Row.names, every]),
          List.find?_cons_of_pos (p := Row.isWildcard scope)
            (by simp [Row.isWildcard, here, every])]
        cases wildcard <;> simp

theorem pick_eq (rows : List Row) (scope : RateLimitScope) (resource : Text) :
    pick rows scope resource =
      (rows.find? (Row.names scope resource)).or (rows.find? (Row.isWildcard scope)) := by
  rw [pick, pickFrom_eq, Option.none_or]

/-- What one scope's choice looks for: the resource if some row names it. -/
def decider (rows : List Row) (scope : RateLimitScope) (resource : Text) : Row → Bool :=
  if rows.any (Row.names scope resource) then Row.names scope resource else Row.isWildcard scope

def deciding (rows : List Row) (scope : RateLimitScope) (resource : Text) : List Row :=
  rows.filter (decider rows scope resource)

theorem pick_of_perm {l rows : List Row} (perm : l.Perm rows) (scope : RateLimitScope)
    (resource : Text) : pick l scope resource = l.find? (decider rows scope resource) := by
  rw [pick_eq, decider, ← perm.any_eq]
  split
  · rename_i named
    obtain ⟨r, hr, names⟩ := List.any_eq_true.mp named
    cases h : l.find? (Row.names scope resource) with
    | none => exact absurd names (List.find?_eq_none.mp h r hr)
    | some q => rw [Option.some_or]
  · rename_i unnamed
    have none' : l.find? (Row.names scope resource) = none :=
      List.find?_eq_none.mpr fun r hr names => unnamed (List.any_eq_true.mpr ⟨r, hr, names⟩)
    rw [none', Option.none_or]

theorem pick_perm_iff {β : Type} (f : Row → β) (rows : List Row) (scope : RateLimitScope)
    (resource : Text) :
    (∀ l l', l.Perm rows → l'.Perm rows →
        (pick l scope resource).map f = (pick l' scope resource).map f) ↔
      ∀ a ∈ deciding rows scope resource, ∀ b ∈ deciding rows scope resource, f a = f b := by
  simp only [deciding, List.mem_filter]
  constructor
  · rintro always a ⟨ha, chosen⟩ b ⟨hb, chosen'⟩
    have fixed := same_of_map_find?_perm
      (c := (rows.find? (decider rows scope resource)).map f) (l := rows) fun l perm => by
        rw [← pick_of_perm perm, ← pick_of_perm (List.Perm.refl rows)]
        exact always l rows perm (.refl rows)
    exact Option.some.inj ((fixed a ha chosen).trans (fixed b hb chosen').symm)
  · intro same l l' perm perm'
    rw [pick_of_perm perm, pick_of_perm perm']
    refine map_find?_perm (perm.trans perm'.symm) fun a ha b hb chosen chosen' => ?_
    exact same a ⟨perm.mem_iff.mp ha, chosen⟩ b ⟨perm.mem_iff.mp hb, chosen'⟩

theorem pick_eq_of_unique {l l' rows : List Row} (perm : l.Perm rows) (perm' : l'.Perm rows)
    {scope : RateLimitScope} {resource : Text}
    (unique : ∀ a ∈ rows, ∀ b ∈ rows, a.Scope = scope → b.Scope = scope →
      a.ResourceID = b.ResourceID → a = b) :
    pick l scope resource = pick l' scope resource := by
  have same := (pick_perm_iff id rows scope resource).mpr fun a ha b hb => ?_
  · simpa using same l l' perm perm'
  · obtain ⟨ha, chosen⟩ := List.mem_filter.mp ha
    obtain ⟨hb, chosen'⟩ := List.mem_filter.mp hb
    unfold decider at chosen chosen'
    split at chosen
    · rename_i named
      rw [if_pos named] at chosen'
      obtain ⟨here, -, names⟩ := of_decide_eq_true chosen
      obtain ⟨here', -, names'⟩ := of_decide_eq_true chosen'
      exact unique a ha b hb here here' (names.trans names'.symm)
    · rename_i unnamed
      rw [if_neg unnamed] at chosen'
      obtain ⟨here, every⟩ := of_decide_eq_true chosen
      obtain ⟨here', every'⟩ := of_decide_eq_true chosen'
      exact unique a ha b hb here here' (every.trans every'.symm)

theorem mem_of_mem_deciding {rows : List Row} {scope : RateLimitScope} {resource : Text} {r : Row}
    (h : r ∈ deciding rows scope resource) : r ∈ rows ∧ r.Scope = scope := by
  obtain ⟨hr, chosen⟩ := List.mem_filter.mp h
  refine ⟨hr, ?_⟩
  unfold decider at chosen
  split at chosen
  · exact (of_decide_eq_true chosen).1
  · exact (of_decide_eq_true chosen).1

theorem charge_eq (rows : List Row) (scope : RateLimitScope) {resource : Text}
    (named : resource ≠ []) :
    charge rows scope resource = ((pick rows scope resource).map (bucketOf · resource)).toList := by
  unfold charge
  cases pick rows scope resource with
  | none => rfl
  | some r => exact if_pos named

end Hookubit.Ratelimit.Policy
