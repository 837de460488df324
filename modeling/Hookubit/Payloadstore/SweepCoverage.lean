/- sources: payloadstore/reconcile.go Reconcile, payloadstore/keys.go ParseKey
   digest: Sweep after sweep of one bucket, and which orphans they ever come to. -/

import Hookubit.Payloadstore.SweepRun
import Mathlib.Data.Int.ConditionallyCompleteOrder
import Mathlib.Order.ConditionallyCompleteLattice.Basic

set_option autoImplicit false
set_option relaxedAutoImplicit false

namespace Hookubit.Payloadstore.SweepCoverage

open Data.BoundedScan Payloadstore.Keys Payloadstore.Reconcile Payloadstore.SweepRun
open Postgres.Clock (hour)

section Passes

variable (cfg : Config) (referenced : Text → Bool) (opts : ReconcileOptions) (now : ℕ → ℤ)
  (objects : List Object)

/-- The bucket after a number of sweeps, the n-th of which starts at `now n`. -/
def bucketAfter : ℕ → List Object
  | 0 => objects
  | n + 1 => (Reconcile cfg referenced opts (now n) (bucketAfter n)).2

/-- Of this package's layout, older than the age bound, and claimed by no event. -/
def Orphan (time : ℤ) (o : Object) : Prop :=
  o.bucket = cfg.bucket ∧ ∃ parsed, ParseKey cfg.keyPrefix o.key = some parsed ∧
    opts.effectiveMinAge < time - age parsed.createdAt o.lastModified ∧
    referenced parsed.eventID = false

/-- Whether the n-th sweep deletes the object once it gets to it. -/
def deletableAt (n : ℕ) : Object → Bool :=
  deletable cfg referenced (now n - opts.effectiveMinAge)

/-- How many keys one sweep looks at. -/
def sweepReach : ℕ := reach (Pass.start opts 0).maxKeys

variable {cfg referenced opts now objects}

theorem bucketAfter_step
    (distinct : ∀ n, Distinct (bucketAfter cfg referenced opts now objects n)) (n : ℕ) :
    bucketAfter cfg referenced opts now objects (n + 1) =
      (bucketAfter cfg referenced opts now objects n).filter
        (· ∉ taken (deletableAt cfg referenced opts now n) (sweepReach opts)
          (Pass.start opts 0).maxDeletes
          (listing cfg (bucketAfter cfg referenced opts now objects n))) :=
  (reconcile_finished (distinct n) opts (now n)).2

theorem distinct_bucketAfter (distinct : Distinct objects) (n : ℕ) :
    Distinct (bucketAfter cfg referenced opts now objects n) := by
  induction n with
  | zero => exact distinct
  | succ n ih =>
    rw [bucketAfter, (reconcile_finished ih opts (now n)).2]
    exact ih.filter _

theorem listing_step (distinct : Distinct objects) (n : ℕ) :
    listing cfg (bucketAfter cfg referenced opts now objects (n + 1)) =
      scan (deletableAt cfg referenced opts now n) (sweepReach opts) (Pass.start opts 0).maxDeletes
        (listing cfg (bucketAfter cfg referenced opts now objects n)) := by
  rw [bucketAfter_step (distinct_bucketAfter distinct),
    listing_filter (distinct_bucketAfter distinct n)]
  rfl

theorem deletableAt_mono (mono : Monotone now) (m n : ℕ) (o : Object) (le : m ≤ n)
    (h : deletableAt cfg referenced opts now m o = true) :
    deletableAt cfg referenced opts now n o = true := by
  have later := mono le
  simp only [deletableAt, deletable] at h ⊢
  split at h
  · cases h
  · simp only [Bool.and_eq_true, decide_eq_true_eq] at h ⊢
    exact ⟨by omega, h.2⟩

theorem Orphan.mono {s t : ℤ} (le : s ≤ t) {o : Object} (h : Orphan cfg referenced opts s o) :
    Orphan cfg referenced opts t o := by
  obtain ⟨here, parsed, parse, old, free⟩ := h
  exact ⟨here, parsed, parse, by omega, free⟩

theorem Orphan.deletableAt {n : ℕ} {o : Object} (h : Orphan cfg referenced opts (now n) o) :
    deletableAt cfg referenced opts now n o = true := by
  obtain ⟨-, parsed, parse, old, free⟩ := h
  simp only [SweepCoverage.deletableAt, deletable, parse, free, Bool.not_false, Bool.and_true,
    decide_eq_true_eq]
  omega

theorem mem_of_mem_bucketAfter (distinct : Distinct objects) {n : ℕ} {o : Object}
    (h : o ∈ bucketAfter cfg referenced opts now objects n) : o ∈ objects := by
  induction n with
  | zero => exact h
  | succ n ih =>
    rw [bucketAfter_step (distinct_bucketAfter distinct)] at h
    exact ih (List.mem_filter.mp h).1

theorem mem_bucketAfter_of_not_listed (distinct : Distinct objects) {o : Object}
    (inside : o ∈ objects)
    (hidden : ¬isListed cfg o = true)
    (n : ℕ) : o ∈ bucketAfter cfg referenced opts now objects n := by
  induction n with
  | zero => exact inside
  | succ n ih =>
    rw [bucketAfter_step (distinct_bucketAfter distinct), List.mem_filter]
    refine ⟨ih, decide_eq_true fun gone => hidden ?_⟩
    exact (mem_listing.mp (List.mem_of_mem_take (of_mem_taken gone).1)).2

theorem keptBefore_listing (o : Object) :
    keptBefore Object.key (deletableAt cfg referenced opts now) (listing cfg objects) o =
      keptBefore Object.key (deletableAt cfg referenced opts now)
        (objects.filter (isListed cfg)) o :=
  (List.perm_insertionSort _ _).countP_eq _

/-- Every sweep returns. From some sweep on no orphan is left exactly when each object that is
ever one is listed, with fewer listed objects before it that no sweep deletes than a sweep looks
at keys. -/
theorem sweeps_cover_iff (distinct : Distinct objects) (mono : Monotone now) :
    (∀ n, (Reconcile cfg referenced opts (now n)
        (bucketAfter cfg referenced opts now objects n)).1.stage = .returned) ∧
    ((∃ N, ∀ n, N ≤ n → ∀ o ∈ bucketAfter cfg referenced opts now objects n,
        ¬Orphan cfg referenced opts (now n) o) ↔
      ∀ o ∈ objects, (∃ n, Orphan cfg referenced opts (now n) o) → isListed cfg o = true ∧
        keptBefore Object.key (deletableAt cfg referenced opts now)
          (objects.filter (isListed cfg)) o <
          sweepReach opts) := by
  refine ⟨fun n => (reconcile_finished (distinct_bucketAfter distinct n) opts (now n)).1, ?_⟩
  have strict : (listing cfg objects).Pairwise fun a b => a.key < b.key := listing_strict distinct
  constructor
  · rintro ⟨N, covered⟩ o inside ⟨m, orphan⟩
    have late : Orphan cfg referenced opts (now (max N m)) o :=
      orphan.mono (mono (le_max_right N m))
    have gone : o ∉ bucketAfter cfg referenced opts now objects (max N m) := fun there =>
      covered _ (le_max_left N m) o there late
    have listed : isListed cfg o = true := by
      by_contra hidden
      exact gone (mem_bucketAfter_of_not_listed distinct inside hidden _)
    refine ⟨listed, not_le.mp fun far => gone ?_⟩
    rw [← keptBefore_listing] at far
    have there := mem_of_le_keptBefore
      (L := fun n => listing cfg (bucketAfter cfg referenced opts now objects n))
      (listing_step distinct) strict
      (mem_listing.mpr ⟨inside, listed⟩) far (max N m)
    exact (mem_listing.mp there).1
  · intro near
    have quota : 0 < (Pass.start opts 0).maxDeletes := by
      simp only [Pass.start]
      split <;> omega
    obtain ⟨N, far⟩ := eventually_le_keptBefore
      (L := fun n => listing cfg (bucketAfter cfg referenced opts now objects n))
      (listing_step distinct) strict (deletableAt_mono mono) quota
    refine ⟨N, fun n later o there orphan => ?_⟩
    obtain ⟨listed, close⟩ := near o (mem_of_mem_bucketAfter distinct there) ⟨n, orphan⟩
    have still := far n later o (mem_listing.mpr ⟨there, listed⟩) n orphan.deletableAt
    exact absurd close (not_lt.mpr (still.trans_eq (keptBefore_listing o)))

end Passes

def store : Config := ⟨"b".toList, DefaultPrefix, by decide, by decide⟩

/-- A bound of one hour, one deletion and one key. -/
def timid : ReconcileOptions := ⟨hour, 1, 1⟩

def stray : Object where
  bucket := store.bucket
  key := "events/proj_00000000000000000000000000/evt_00000000000000000000000000".toList
  body := []
  lastModified := none

/-- Objects of another layout, all before the stray one. -/
def filler (i : ℕ) : Object where
  bucket := store.bucket
  key := "events/".toList ++ List.replicate (i + 1) '!'
  body := []
  lastModified := none

def crowd : List Object := (List.range 1000).map filler

theorem parseKey_filler (i : ℕ) : ParseKey store.keyPrefix (filler i).key = none := by
  have front : trimSlashes store.keyPrefix ++ ['/'] = "events/".toList := by decide
  have whole : (List.replicate (i + 1) '!').splitOn '/' = [List.replicate (i + 1) '!'] :=
    List.splitOn_eq_singleton (by simp [List.mem_replicate])
  rw [ParseKey, front, filler, cutPrefix_append, Option.bind_some, whole]

theorem filler_before (i : ℕ) : (filler i).key < stray.key := by
  have spelled : stray.key = "events/".toList ++
      'p' :: "roj_00000000000000000000000000/evt_00000000000000000000000000".toList := by decide
  have earlier : '!' < 'p' := by decide
  rw [spelled, filler, List.replicate_succ]
  exact List.Lex.append_left _ (List.Lex.rel earlier) _

theorem orphan_stray : Orphan store (fun _ => false) timid (2 * hour) stray :=
  ⟨rfl, ⟨"proj_00000000000000000000000000".toList, "evt_00000000000000000000000000".toList, 0⟩,
    by decide +kernel, by decide +kernel, rfl⟩

theorem distinct_crowd : Distinct (stray :: crowd) := by
  have other : ∀ i, (⟨(filler i).bucket, (filler i).key⟩ : Ref) ≠ ⟨stray.bucket, stray.key⟩ := by
    intro i same
    exact (filler_before i).ne (congrArg Ref.key same)
  rw [Distinct, List.map_cons, List.nodup_cons]
  refine ⟨?_, ?_⟩
  · simp only [crowd, List.map_map, List.mem_map]
    rintro ⟨i, -, same⟩
    exact other i same
  · rw [crowd, List.map_map]
    refine List.nodup_range.map fun i j same => ?_
    have lengths := congrArg (fun r : Ref => r.key.length) same
    simpa [filler] using lengths

theorem listed_filler (i : ℕ) : isListed store (filler i) = true := by
  have front : store.keyPrefix ++ ['/'] = "events/".toList := by decide
  rw [isListed, front, filler]
  simp

theorem keptBefore_stray : sweepReach timid ≤
    keptBefore Object.key (deletableAt store (fun _ => false) timid fun _ => 2 * hour)
      ((stray :: crowd).filter (isListed store)) stray := by
  classical
  have listed : crowd.filter (isListed store) = crowd := by
    apply List.filter_eq_self.mpr
    simp only [crowd, List.mem_map]
    rintro - ⟨i, -, rfl⟩
    exact listed_filler i
  have stays (i n : ℕ) :
      deletableAt store (fun _ => false) timid (fun _ => 2 * hour) n (filler i) = false := by
    rw [deletableAt, deletable, parseKey_filler]
  have sub : crowd.Sublist ((stray :: crowd).filter (isListed store)) := by
    have whole := (List.sublist_cons_self stray crowd).filter (isListed store)
    rwa [listed] at whole
  have size : sweepReach timid = crowd.length := by
    rw [crowd, List.length_map, List.length_range]
    decide
  rw [size, keptBefore]
  refine le_trans (le_of_eq (List.countP_eq_length.mpr ?_).symm) sub.countP_le
  simp only [crowd, List.mem_map]
  rintro - ⟨i, -, rfl⟩
  simp [stays i, filler_before i]

/-- Beside one object of another layout the orphan is swept, behind a thousand it never is. -/
theorem sweeps_cover_stray_unless_crowded :
    (∃ N, ∀ n, N ≤ n → ∀ o ∈ bucketAfter store (fun _ => false) timid (fun _ => 2 * hour)
        [stray, filler 0] n, ¬Orphan store (fun _ => false) timid (2 * hour) o) ∧
      ¬∃ N, ∀ n, N ≤ n → ∀ o ∈ bucketAfter store (fun _ => false) timid (fun _ => 2 * hour)
        (stray :: crowd) n, ¬Orphan store (fun _ => false) timid (2 * hour) o := by
  constructor
  · refine (sweeps_cover_iff (by unfold Distinct; decide) monotone_const).2.mpr
      fun o inside _ => ⟨?_, ?_⟩
    · rcases List.mem_pair.mp inside with rfl | rfl
      · decide
      · exact listed_filler 0
    · refine lt_of_le_of_lt (List.countP_le_length.trans (List.length_filter_le _ _)) ?_
      decide
  · intro covered
    have near := (sweeps_cover_iff distinct_crowd monotone_const).2.mp covered stray
      List.mem_cons_self ⟨0, orphan_stray⟩
    exact absurd near.2 (not_lt.mpr keptBefore_stray)

/-- A thousand objects that are none of its business keep every sweep from the orphan. -/
theorem orphan_never_reached :
    Distinct (stray :: crowd) ∧ Orphan store (fun _ => false) timid (2 * hour) stray ∧
      ∀ n, stray ∈ bucketAfter store (fun _ => false) timid (fun _ => 2 * hour)
        (stray :: crowd) n := by
  refine ⟨distinct_crowd, orphan_stray, fun n => ?_⟩
  have inside : stray ∈ listing store (stray :: crowd) :=
    mem_listing.mpr ⟨List.mem_cons_self, by decide⟩
  have far := keptBefore_stray
  rw [← keptBefore_listing] at far
  have there := mem_of_le_keptBefore
    (L := fun n => listing store
      (bucketAfter store (fun _ => false) timid (fun _ => 2 * hour) (stray :: crowd) n))
    (listing_step distinct_crowd) (listing_strict distinct_crowd) inside far n
  exact (mem_listing.mp there).1

end Hookubit.Payloadstore.SweepCoverage
