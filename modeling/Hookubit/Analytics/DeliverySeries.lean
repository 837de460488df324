/- sources: analytics/delivery-series.ts
   digest: The buckets of a delivery series tile its window, wherever the clock stands. -/

import Hookubit.Analytics.Window
import Mathlib.Data.List.Range

/-!
Instants and widths are in nanoseconds, as in the window. The division of a `Date`'s
milliseconds by a width is exact in the source's numbers: both are below `2 ^ 53`.
-/

set_option autoImplicit false
set_option relaxedAutoImplicit false

namespace Hookubit.Analytics.DeliverySeries

open Analytics.Window
open Authz.ScopedRepository (invalidRequest)
open Common.Errors Postgres.Clock

inductive BucketUnit
  | m5 | m15 | m30 | h1 | h2 | h3 | h6 | h12 | d1
  deriving DecidableEq

def BUCKET_UNITS : List BucketUnit := [.m5, .m15, .m30, .h1, .h2, .h3, .h6, .h12, .d1]

def BucketUnit.text : BucketUnit → String
  | .m5 => "5m" | .m15 => "15m" | .m30 => "30m" | .h1 => "1h" | .h2 => "2h" | .h3 => "3h"
  | .h6 => "6h" | .h12 => "12h" | .d1 => "1d"

def BUCKET_WIDTHS : BucketUnit → ℤ
  | .m5 => 5 * 60000 | .m15 => 15 * 60000 | .m30 => 30 * 60000
  | .h1 => 3600000 | .h2 => 2 * 3600000 | .h3 => 3 * 3600000 | .h6 => 6 * 3600000
  | .h12 => 12 * 3600000 | .d1 => 24 * 3600000

def MAX_BUCKETS : ℤ := 32

structure SeriesBucket where
  start : ℤ
  stop : ℤ
  deriving DecidableEq

structure SeriesPlan where
  unit : BucketUnit
  width : ℤ
  buckets : List SeriesBucket
  leadingPartial : Bool
  deriving DecidableEq

/-- `Math.ceil(a / b)`. -/
def ceilDiv (a b : ℤ) : ℤ := -(-a / b)

def fits (spanMs : ℤ) (unit : BucketUnit) : Bool :=
  ceilDiv spanMs (BUCKET_WIDTHS unit) + 1 ≤ MAX_BUCKETS

def defaultBucket (windowHours : ℤ) : BucketUnit :=
  (BUCKET_UNITS.find? (fits (windowHours * 3600000))).getD .d1

def bucketsFrom (firstStart width : ℤ) (count : ℕ) : List SeriesBucket :=
  (List.range count).map fun index : ℕ =>
    ⟨firstStart + index * width, firstStart + index * width + width⟩

def planSeries (window : AnalyticsWindow) (unit : Option BucketUnit) :
    Except AppError SeriesPlan :=
  let resolved := unit.getD (defaultBucket window.hours)
  let width := BUCKET_WIDTHS resolved * millisecond
  let firstStart := window.windowFrom / width * width
  let lastStart := window.windowTo / width * width
  let count := (lastStart - firstStart) / width + 1
  if MAX_BUCKETS < count then
    .error (invalidRequest ("A " ++ toString window.hours ++ "-hour window in '" ++
      resolved.text ++ "' buckets is " ++ toString count ++ " buckets, and 32 is the ceiling: " ++
      "every bucket is its own grouped count, so the bucket count is the query count. Ask for a " ++
      "coarser bucket — '" ++ (defaultBucket window.hours).text ++ "' fits this window — or a " ++
      "shorter window. The request is refused rather than coarsened, so a response is never " ++
      "labelled with a finer resolution than it actually has."))
  else
    .ok {
      unit := resolved
      width := width
      buckets := bucketsFrom firstStart width count.toNat
      leadingPartial := decide (firstStart < window.windowFrom) }

/-- The buckets of a plan lie end to end on multiples of their width and cover the window. -/
structure Tiles (window : AnalyticsWindow) (plan : SeriesPlan) : Prop where
  width : plan.width = BUCKET_WIDTHS plan.unit * millisecond
  few : plan.buckets.length ≤ 32
  equal : ∀ b ∈ plan.buckets, b.stop = b.start + plan.width
  aligned : ∀ b ∈ plan.buckets, plan.width ∣ b.start
  contiguous : plan.buckets.IsChain fun a b => a.stop = b.start
  covers : ∀ t, window.windowFrom ≤ t → t < window.windowTo →
    ∃! b, b ∈ plan.buckets ∧ b.start ≤ t ∧ t < b.stop

theorem BUCKET_WIDTHS_pos (unit : BucketUnit) : 0 < BUCKET_WIDTHS unit := by
  cases unit <;> decide

theorem le_ceilDiv_mul {b : ℤ} (positive : 0 < b) (a : ℤ) : a ≤ ceilDiv a b * b := by
  have := Int.ediv_mul_le (-a) positive.ne'
  rw [ceilDiv, Int.neg_mul]
  omega

theorem ediv_sub_ediv_le {w : ℤ} (positive : 0 < w) (stop span : ℤ) :
    stop / w - (stop - span) / w ≤ ceilDiv span w := by
  have rounded := le_ceilDiv_mul positive span
  have moved : stop / w ≤ (stop - span + ceilDiv span w * w) / w :=
    Int.ediv_le_ediv positive (by omega)
  rw [Int.add_mul_ediv_right _ _ positive.ne'] at moved
  omega

theorem ceilDiv_mul_right {m : ℤ} (positive : 0 < m) (a b : ℤ) :
    ceilDiv (a * m) (b * m) = ceilDiv a b := by
  rw [ceilDiv, ← Int.neg_mul, Int.mul_ediv_mul_of_pos_left _ _ positive, ceilDiv]

theorem defaultBucket_fits {hours : ℤ} (bounded : hours ≤ 720) :
    ceilDiv (hours * 3600000) (BUCKET_WIDTHS (defaultBucket hours)) + 1 ≤ 32 := by
  unfold defaultBucket
  cases found : BUCKET_UNITS.find? (fits (hours * 3600000)) with
  | some unit =>
    have chosen : fits (hours * 3600000) unit = true := List.find?_some found
    exact of_decide_eq_true chosen
  | none =>
    -- a day is wide enough for the longest window
    simp only [Option.getD_none, BUCKET_WIDTHS, ceilDiv]
    omega

section Buckets

variable {w : ℤ} (positive : 0 < w) (first : ℤ)

theorem mem_bucketsFrom_iff {n : ℕ} {b : SeriesBucket} :
    b ∈ bucketsFrom (first * w) w n ↔
      ∃ i : ℤ, first ≤ i ∧ i < first + n ∧ b = ⟨i * w, i * w + w⟩ := by
  simp only [bucketsFrom, List.mem_map, List.mem_range]
  constructor
  · rintro ⟨index, inside, rfl⟩
    exact ⟨first + index, by omega, by omega, by rw [Int.add_mul]⟩
  · rintro ⟨i, low, high, rfl⟩
    refine ⟨(i - first).toNat, by omega, ?_⟩
    rw [← Int.add_mul, Int.toNat_of_nonneg (by omega), Int.add_comm, Int.sub_add_cancel]

theorem isChain_bucketsFrom (n : ℕ) :
    (bucketsFrom (first * w) w n).IsChain fun a b => a.stop = b.start := by
  rw [bucketsFrom, List.isChain_map, List.isChain_range]
  intro m _
  simp only [Nat.cast_succ, Int.add_mul, Int.one_mul, Int.add_assoc]

include positive in
theorem existsUnique_bucket {n : ℕ} {t : ℤ} (low : first ≤ t / w) (high : t / w < first + n) :
    ∃! b, b ∈ bucketsFrom (first * w) w n ∧ b.start ≤ t ∧ t < b.stop := by
  have below := Int.ediv_mul_le t positive.ne'
  have above := Int.lt_ediv_add_one_mul_self t positive
  refine ⟨⟨t / w * w, t / w * w + w⟩, ⟨?_, below, ?_⟩, ?_⟩
  · exact (mem_bucketsFrom_iff first).mpr ⟨t / w, low, high, rfl⟩
  · rwa [Int.add_mul, Int.one_mul] at above
  · rintro b ⟨member, starts, stops⟩
    obtain ⟨i, -, -, rfl⟩ := (mem_bucketsFrom_iff first).mp member
    have least : i ≤ t / w := (Int.le_ediv_iff_mul_le positive).mpr starts
    have most : t / w < i + 1 := by
      rw [Int.ediv_lt_iff_lt_mul positive, Int.add_mul, Int.one_mul]
      exact stops
    rw [show t / w = i by omega]

end Buckets

theorem planSeries_cases (window : AnalyticsWindow) (unit : Option BucketUnit)
    (ordered : window.windowFrom ≤ window.windowTo) :
    let resolved := unit.getD (defaultBucket window.hours)
    let w := BUCKET_WIDTHS resolved * millisecond
    (32 < window.windowTo / w - window.windowFrom / w + 1 ∧
      ∃ e, planSeries window unit = .error e) ∨
      ∃ plan, planSeries window unit = .ok plan ∧ plan.unit = resolved ∧ Tiles window plan := by
  intro resolved w
  have positive : 0 < w := Int.mul_pos (BUCKET_WIDTHS_pos resolved) (by decide)
  have count : (window.windowTo / w * w - window.windowFrom / w * w) / w =
      window.windowTo / w - window.windowFrom / w := by
    rw [← Int.sub_mul, Int.mul_ediv_cancel _ positive.ne']
  by_cases many : 32 < window.windowTo / w - window.windowFrom / w + 1
  · left
    refine ⟨many, _, if_pos ?_⟩
    rwa [count]
  · right
    have span := Int.ediv_le_ediv positive ordered
    refine ⟨_, if_neg ?_, rfl, ?_⟩
    · rwa [count]
    · rw [count]
      have member := fun b => mem_bucketsFrom_iff (w := w) (window.windowFrom / w)
        (n := (window.windowTo / w - window.windowFrom / w + 1).toNat) (b := b)
      constructor
      · rfl
      · simp only [bucketsFrom, List.length_map, List.length_range]
        omega
      · intro b hb
        obtain ⟨i, -, -, rfl⟩ := (member b).mp hb
        rfl
      · intro b hb
        obtain ⟨i, -, -, rfl⟩ := (member b).mp hb
        exact Int.dvd_mul_left i w
      · exact isChain_bucketsFrom (window.windowFrom / w) _
      · intro t low high
        have := Int.ediv_le_ediv positive low
        have := Int.ediv_le_ediv positive high.le
        exact existsUnique_bucket positive (window.windowFrom / w) (by omega) (by omega)

/-- For every window that may be asked for and wherever the clock stands: the default plan is
not refused and tiles the window, and a plan for a unit of the caller's is refused or does. -/
theorem planSeries_tiles (hours now : ℤ) (least : 1 ≤ hours) (most : hours ≤ 720) :
    ∃ window, resolveWindow (some hours) now = .ok window ∧ window.windowTo = now ∧
      window.windowFrom = now - hours * HOUR_MS * millisecond ∧
      (∃ plan, planSeries window none = .ok plan ∧ Tiles window plan) ∧
      ∀ unit, (∃ e, planSeries window (some unit) = .error e) ∨
        ∃ plan, planSeries window (some unit) = .ok plan ∧ plan.unit = unit ∧
          Tiles window plan := by
  let window : AnalyticsWindow := ⟨hours, now - hours * HOUR_MS * millisecond, now,
    now - hours * HOUR_MS * millisecond - hours * HOUR_MS * millisecond,
    now - hours * HOUR_MS * millisecond⟩
  have ordered : window.windowFrom ≤ window.windowTo := by
    simp only [window, HOUR_MS, millisecond]
    omega
  refine ⟨window, resolveWindow_of_le least most now, rfl, rfl, ?_, ?_⟩
  · obtain ⟨many, -⟩ | ⟨plan, planned, -, tiles⟩ := planSeries_cases window none ordered
    · have fit := defaultBucket_fits most
      have crossed := ediv_sub_ediv_le
        (Int.mul_pos (BUCKET_WIDTHS_pos (defaultBucket hours)) (by decide : 0 < millisecond)) now
        (hours * HOUR_MS * millisecond)
      rw [ceilDiv_mul_right (by decide)] at crossed
      simp only [Option.getD_none, window] at many
      rw [HOUR_MS] at crossed many
      omega
    · exact ⟨plan, planned, tiles⟩
  · intro unit
    exact (planSeries_cases window (some unit) ordered).imp And.right id

/-- The longest window, opened in the middle of an hour, takes one daily bucket more than its
thirty days. -/
theorem month_at_half_past_tiles :
    ∃ window, resolveWindow (some 720) (1800000 * millisecond) = .ok window ∧
      ∃ plan, planSeries window none = .ok plan ∧ plan.buckets.length = 31 ∧
        Tiles window plan := by
  obtain ⟨window, resolved, -, -, ⟨plan, planned, tiles⟩, -⟩ :=
    planSeries_tiles 720 (1800000 * millisecond) (by decide) (by decide)
  refine ⟨window, resolved, plan, planned, ?_, tiles⟩
  obtain rfl := Except.ok.inj resolved
  obtain rfl := Except.ok.inj planned
  decide +kernel

end Hookubit.Analytics.DeliverySeries
