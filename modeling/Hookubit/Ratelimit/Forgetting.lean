/- sources: ratelimit/bucket.go (Local.Allow, sweepLocked), ratelimit/redis.go (takeScript, ttlFor),
     worker/ratelimit.go (TokenBucket.Allow), rate-limits/rate-limit-limits.ts,
     endpoints/endpoint-limits.ts
   digest: For which policies it makes no difference that idle buckets are forgotten. -/

import Hookubit.Ratelimit.Redis
import Hookubit.Ratelimit.Source
import Hookubit.Worker.TokenBucket

set_option autoImplicit false
set_option relaxedAutoImplicit false

namespace Hookubit.Ratelimit.Forgetting

open Data.ForgetfulBucket
open Data.TokenBucket (refill)
open Payloadstore.Keys (Text)
open Ratelimit.Bucket
open Ratelimit.Policy (rate_pos second)
open Ratelimit.Redis

/-- A bucket in the process's memory, called at one time after the other. -/
def localCall (order : AgeOrder Text) (b : Policy.Bucket) (l : Local Text) (now : ℚ) :
    Local Text × Bool :=
  let (l, answer) := l.Allow order b.Key now b.Capacity b.RatePerSec 1
  (l, answer.allowed)

/-- The same bucket when its state is kept. -/
def keptCall (b : Policy.Bucket) (s : State) (now : ℚ) : State × Bool :=
  let (s, answer) := Take s now b.Capacity b.RatePerSec 1
  (s, answer.allowed)

/-- A key of the store and the instant it expires. -/
structure Entry where
  hash : Hash
  expiresAt : ℚ

/-- What the script reads. -/
def readAt (now : ℚ) : Option Entry → Hash
  | none => .empty
  | some e => if e.expiresAt ≤ now then .empty else e.hash

/-- In seconds. -/
def lifetime (b : Policy.Bucket) : ℚ := (expiryMs (ttlFor b) : ℚ) / 1000

/-- A bucket in the store. Every call sets its expiry anew. -/
def redisCall (b : Policy.Bucket) (stored : Option Entry) (now : ℚ) : Option Entry × Bool :=
  let (hash, reply) := takeScript (readAt now stored) now b.Capacity b.RatePerSec 1
  (some ⟨hash, now + lifetime b⟩, reply.allowed)

def redisKeptCall (b : Policy.Bucket) (hash : Hash) (now : ℚ) : Hash × Bool :=
  let (hash, reply) := takeScript hash now b.Capacity b.RatePerSec 1
  (hash, reply.allowed)

section Simulations

variable {capacity rate last now : ℚ} {b : Policy.Bucket} {ts : List ℚ}

theorem Take_spends {s : State} {b : Option (ℚ × ℚ)} (hc : 0 < capacity) (hr : 0 < rate)
    (same : s.available now capacity rate = held capacity rate now b) :
    (Take s now capacity rate 1).2.allowed = (spend capacity rate b now).2 ∧
      ∃ x, (Take s now capacity rate 1).1 = ⟨x, some now⟩ ∧
        (spend capacity rate b now).1 = some (x, now) := by
  rw [Take_eq hc hr one_pos, same, spend]
  split
  · exact ⟨rfl, _, rfl, rfl⟩
  · exact ⟨rfl, _, rfl, rfl⟩

theorem takeScript_spends {h : Hash} {b : Option (ℚ × ℚ)}
    (same : h.available now capacity rate = held capacity rate now b) :
    (takeScript h now capacity rate 1).2.allowed = (spend capacity rate b now).2 ∧
      ∃ x, (takeScript h now capacity rate 1).1 = ⟨some x, some now⟩ ∧
        (spend capacity rate b now).1 = some (x, now) := by
  unfold takeScript
  dsimp only
  rw [same, spend]
  split
  · exact ⟨rfl, _, rfl, rfl⟩
  · exact ⟨rfl, _, rfl, rfl⟩

theorem available_eq_held {x : ℚ} (later : last ≤ now) :
    (⟨x, some last⟩ : State).available now capacity rate =
      held capacity rate now (some (x, last)) :=
  available_of_le rfl later

theorem keptCall_eq_spend (hc : 0 < b.Capacity) (hr : 0 < b.RatePerSec)
    (order : ts.Pairwise (· ≤ ·)) :
    decisions (keptCall b) State.zero ts = decisions (spend b.Capacity b.RatePerSec) none ts := by
  refine decisions_eq (R := fun last s a => (s = State.zero ∧ a = none) ∨
    ∃ x, s = ⟨x, some last⟩ ∧ a = some (x, last)) ?_ (fun _ => .inl ⟨rfl, rfl⟩) order
  intro last s a now h later
  have same : s.available now b.Capacity b.RatePerSec = held b.Capacity b.RatePerSec now a := by
    rcases h with ⟨rfl, rfl⟩ | ⟨x, rfl, rfl⟩
    · exact available_of_none rfl
    · exact available_eq_held later
  obtain ⟨decided, x, left, left'⟩ := Take_spends hc hr same
  exact ⟨decided, .inr ⟨x, left, left'⟩⟩

theorem redisKeptCall_eq_spend (order : ts.Pairwise (· ≤ ·)) :
    decisions (redisKeptCall b) Hash.empty ts =
      decisions (spend b.Capacity b.RatePerSec) none ts := by
  refine decisions_eq (R := fun last h a => (h = Hash.empty ∧ a = none) ∨
    ∃ x, h = ⟨some x, some last⟩ ∧ a = some (x, last)) ?_ (fun _ => .inl ⟨rfl, rfl⟩) order
  intro last h a now holding later
  have same : h.available now b.Capacity b.RatePerSec = held b.Capacity b.RatePerSec now a := by
    rcases holding with ⟨rfl, rfl⟩ | ⟨x, rfl, rfl⟩
    · rw [(Holds.unseen 0).available_eq]
      exact available_of_none rfl
    · rw [(Holds.seen x last).available_eq]
      exact available_eq_held later
  obtain ⟨decided, x, left, left'⟩ := takeScript_spends same
  exact ⟨decided, .inr ⟨x, left, left'⟩⟩

def localDrops (gap : ℚ) : Bool := decide (localIdleTTL < gap)

theorem sweepLocked_soon {l : Local Text} (later : last ≤ now)
    (soon : ∀ due ∈ l.sweepAfter, due ≤ last + 60) :
    ∀ due ∈ (l.sweepLocked now).sweepAfter, due ≤ now + 60 := by
  unfold Local.sweepLocked
  split
  · exact fun due h => (soon due h).trans (by linarith)
  · rintro due ⟨⟩
    exact le_rfl

theorem due_of_idle {l : Local Text} (soon : ∀ due ∈ l.sweepAfter, due ≤ last + 60)
    (idle : localIdleTTL < now - last) : before now l.sweepAfter = false := by
  cases stamped : l.sweepAfter with
  | none => rfl
  | some due =>
    have early := soon due stamped
    have idle' : 600 < now - last := idle
    exact decide_eq_false (by linarith)

theorem localCall_eq_forgetful {order : AgeOrder Text} {max : ℤ} (hc : 0 < b.Capacity)
    (hr : 0 < b.RatePerSec) (sorted : ts.Pairwise (· ≤ ·)) :
    decisions (localCall order b) (NewLocal max) ts =
      decisions (forgetful b.Capacity b.RatePerSec localDrops) none ts := by
  -- the next sweep is never more than a minute after the last call
  refine decisions_eq (R := fun last l a => (∀ due ∈ l.sweepAfter, due ≤ last + 60) ∧
    ((l.buckets.lookup b.Key = none ∧ a = none) ∨
      ∃ x, l.buckets.lookup b.Key = some ⟨⟨x, some last⟩, last⟩ ∧ a = some (x, last)))
    ?_ ?_ sorted
  · rintro last l a now ⟨soon, h⟩ later
    have same : (l.found b.Key now).available now b.Capacity b.RatePerSec =
        held b.Capacity b.RatePerSec now (a.filter fun s => !localDrops (now - s.2)) := by
      rcases h with ⟨absent, rfl⟩ | ⟨x, stored, rfl⟩
      · rw [found_of_absent absent]
        exact available_of_none rfl
      · rw [Option.filter_some]
        by_cases idle : localIdleTTL < now - last
        · rw [found_of_idle (due_of_idle soon idle) stored idle, if_neg
            (by simp [localDrops, idle])]
          exact available_of_none rfl
        · rw [found_of_live stored (not_lt.mp idle), if_pos (by simp [localDrops, idle])]
          exact available_eq_held later
    obtain ⟨decided, x, left, left'⟩ := Take_spends hc hr same
    refine ⟨?_, ?_, .inr ⟨x, ?_, left'⟩⟩
    · exact (congrArg Answer.allowed Allow_answer).trans decided
    · intro due h
      refine sweepLocked_soon later soon due ?_
      rwa [← Allow_sweepAfter]
    · rw [← left]
      exact Allow_lookup
  · exact fun since => ⟨fun due h => absurd h (Option.not_mem_none due),
      .inl ⟨AList.lookup_empty _, rfl⟩⟩

def redisDrops (b : Policy.Bucket) (gap : ℚ) : Bool := decide (lifetime b ≤ gap)

theorem redisCall_eq_forgetful (sorted : ts.Pairwise (· ≤ ·)) : decisions (redisCall b) none ts =
      decisions (forgetful b.Capacity b.RatePerSec (redisDrops b)) none ts := by
  refine decisions_eq (R := fun last stored a => (stored = none ∧ a = none) ∨
    ∃ x, stored = some ⟨⟨some x, some last⟩, last + lifetime b⟩ ∧ a = some (x, last))
    ?_ (fun _ => .inl ⟨rfl, rfl⟩) sorted
  intro last stored a now h later
  have unseen : Hash.empty.available now b.Capacity b.RatePerSec =
      held b.Capacity b.RatePerSec now none := by
    rw [(Holds.unseen 0).available_eq]
    exact available_of_none rfl
  have same : (readAt now stored).available now b.Capacity b.RatePerSec =
      held b.Capacity b.RatePerSec now (a.filter fun s => !redisDrops b (now - s.2)) := by
    rcases h with ⟨rfl, rfl⟩ | ⟨x, rfl, rfl⟩
    · exact unseen
    · rw [Option.filter_some, readAt]
      by_cases expired : last + lifetime b ≤ now
      · rw [if_pos expired, if_neg (by simpa [redisDrops] using le_sub_iff_add_le'.mpr expired)]
        exact unseen
      · have live : now - last < lifetime b := by linarith
        rw [if_neg expired, if_pos (by simpa [redisDrops] using live),
          (Holds.seen x last).available_eq]
        exact available_eq_held later
  obtain ⟨decided, x, left, left'⟩ := takeScript_spends same
  refine ⟨decided, .inr ⟨x, ?_, left'⟩⟩
  rw [← left]
  rfl

end Simulations

section Retention

variable {b : Policy.Bucket}

theorem forall_lt_le_mul_iff {ttl c r : ℚ} (hr : 0 < r) :
    (∀ gap, ttl < gap → c ≤ gap * r) ↔ c ≤ ttl * r := by
  constructor
  · intro always
    by_contra short
    rw [not_le] at short
    have sooner : ttl < (ttl + c / r) / 2 := by
      have : ttl < c / r := (lt_div_iff₀ hr).mpr short
      linarith
    have half : (ttl + c / r) / 2 * r = (ttl * r + c) / 2 := by field_simp
    have full := always _ sooner
    linarith
  · intro full gap longer
    exact full.trans (mul_le_mul_of_nonneg_right longer.le hr.le)

theorem ttlFor_eq (hr : 0 < b.RatePerSec) : ttlFor b =
    min (48 * 3600 * second) (max (10 * second)
      (Data.Int64.wrap (2 * durationOf (b.Capacity / b.RatePerSec * second)))) := by
  rw [ttlFor, if_neg hr.not_ge]
  dsimp only
  rw [min_def_lt, max_comm, max_def_lt]

theorem ttlFor_bounds (hr : 0 < b.RatePerSec) :
    10 * second ≤ ttlFor b ∧ ttlFor b ≤ 48 * 3600 * second := by
  rw [ttlFor_eq hr]
  exact ⟨le_min (by decide) (le_max_left _ _), min_le_left _ _⟩

theorem expiryMs_eq (hr : 0 < b.RatePerSec) : expiryMs (ttlFor b) = ttlFor b / 1000000 := by
  have bounds := (ttlFor_bounds hr).1
  unfold second at bounds
  have whole : (ttlFor b).tdiv millisecond = ttlFor b / 1000000 :=
    Int.tdiv_eq_ediv_of_nonneg (by omega)
  rw [expiryMs, whole, if_neg (by omega)]

theorem lifetime_le (hr : 0 < b.RatePerSec) : lifetime b ≤ 172800 := by
  have bound := (ttlFor_bounds hr).2
  unfold second at bound
  have ms : expiryMs (ttlFor b) ≤ 172800000 := by
    rw [expiryMs_eq hr]
    omega
  have ms' : (expiryMs (ttlFor b) : ℚ) ≤ 172800000 := by exact_mod_cast ms
  unfold lifetime
  linarith

theorem refill_le_lifetime (hc : 0 < b.Capacity) (hr : 0 < b.RatePerSec)
    (fits : b.Capacity / b.RatePerSec ≤ 172800) : b.Capacity / b.RatePerSec ≤ lifetime b := by
  have positive : 0 < b.Capacity / b.RatePerSec := div_pos hc hr
  have ns : ((second : ℤ) : ℚ) = 1000000000 := by norm_num [second]
  set n := ⌊b.Capacity / b.RatePerSec * second⌋ with hn
  have nonneg : 0 ≤ n := Int.floor_nonneg.mpr (by rw [ns]; positivity)
  have below : n ≤ 172800000000000 := by
    have : (n : ℚ) ≤ 172800000000000 := (Int.floor_le _).trans (by rw [ns]; linarith)
    exact_mod_cast this
  have above : b.Capacity / b.RatePerSec * 1000000000 < n + 1 := by
    rw [← ns]
    exact Int.lt_floor_add_one _
  have whole : durationOf (b.Capacity / b.RatePerSec * second) = n := by
    have up : ¬b.Capacity / b.RatePerSec * second < 0 := by
      rw [ns]
      exact not_lt.mpr (by positivity)
    have inside : Data.Int64.InRange n := ⟨by omega, by omega⟩
    rw [durationOf, if_neg up]
    exact if_pos inside
  have twice : Data.Int64.wrap (2 * n) = 2 * n :=
    Data.Int64.wrap_of_inRange ⟨by omega, by omega⟩
  have ms : n + 1 ≤ expiryMs (ttlFor b) * 1000000 ∨ expiryMs (ttlFor b) = 172800000 := by
    rw [expiryMs_eq hr, ttlFor_eq hr, whole, twice]
    unfold second
    omega
  unfold lifetime
  rcases ms with enough | longest
  · have enough' : (n : ℚ) + 1 ≤ expiryMs (ttlFor b) * 1000000 := by exact_mod_cast enough
    linarith
  · rw [longest]
    norm_num
    exact fits

theorem le_lifetime_iff (hc : 0 < b.Capacity) (hr : 0 < b.RatePerSec) :
    b.Capacity ≤ lifetime b * b.RatePerSec ↔ b.Capacity ≤ 172800 * b.RatePerSec := by
  constructor
  · intro full
    exact full.trans (mul_le_mul_of_nonneg_right (lifetime_le hr) hr.le)
  · intro fits
    rw [← div_le_iff₀ hr] at fits ⊢
    exact refill_le_lifetime hc hr fits

end Retention

section Rate

variable {c t limit window : ℤ}

theorem le_mul_rate_iff (wide : 0 < window) :
    (c : ℚ) ≤ t * (limit / (window / second : ℚ)) ↔ c * window ≤ t * limit * second := by
  have time : (0 : ℚ) < window := Int.cast_pos.mpr wide
  have earned : (t : ℚ) * (limit / (window / second : ℚ)) = t * limit * second / window := by
    field_simp
  rw [earned, le_div_iff₀ time]
  exact_mod_cast Iff.rfl

end Rate

section Agreement

/-- In memory, the bucket decides every call as if it were never swept. -/
def LocalAgrees (b : Policy.Bucket) : Prop :=
  ∀ (order : AgeOrder Text) (max : ℤ) (ts : List ℚ), ts.Pairwise (· ≤ ·) →
    decisions (localCall order b) (NewLocal max) ts = decisions (keptCall b) State.zero ts

/-- In the store, it decides them as if its key never expired. -/
def RedisAgrees (b : Policy.Bucket) : Prop :=
  ∀ ts : List ℚ, ts.Pairwise (· ≤ ·) →
    decisions (redisCall b) none ts = decisions (redisKeptCall b) Hash.empty ts

/-- In a worker, it decides them as if it were never swept. -/
def WorkerAgrees (key : Text) (limit window : ℤ) : Prop :=
  ∀ ts : List ℚ, ts.Pairwise (· ≤ ·) →
    decisions (Worker.TokenBucket.call key limit window) Worker.TokenBucket.NewTokenBucket ts =
      decisions (Worker.TokenBucket.keepCall limit window) none ts

variable {b : Policy.Bucket} {n : ℕ}

theorem localAgrees_iff (hn : 1 ≤ n) (size : b.Capacity = n) (hr : 0 < b.RatePerSec) :
    LocalAgrees b ↔ b.Capacity ≤ 600 * b.RatePerSec := by
  have hc : 0 < b.Capacity := size ▸ Nat.cast_pos.mpr hn
  have unnoticed := forgetful_agrees_iff localDrops hn hr fun gap idle => by
    have longer : (600 : ℚ) < gap := of_decide_eq_true idle
    linarith
  simp only [← size, localDrops, decide_eq_true_eq, forall_lt_le_mul_iff hr] at unnoticed
  refine Iff.trans ?_ unnoticed
  constructor
  · intro agrees ts sorted
    rw [← keptCall_eq_spend hc hr sorted, ← agrees (.stable Text) 0 ts sorted,
      localCall_eq_forgetful hc hr sorted]
  · intro agrees order max ts sorted
    rw [localCall_eq_forgetful hc hr sorted, keptCall_eq_spend hc hr sorted]
    exact agrees ts sorted

theorem redisAgrees_iff (hn : 1 ≤ n) (size : b.Capacity = n) (hr : 0 < b.RatePerSec) :
    RedisAgrees b ↔ b.Capacity ≤ 172800 * b.RatePerSec := by
  have hc : 0 < b.Capacity := size ▸ Nat.cast_pos.mpr hn
  have alive : 0 ≤ lifetime b := by
    have bounds := (ttlFor_bounds hr).1
    unfold second at bounds
    rw [lifetime, expiryMs_eq hr]
    have : (0 : ℚ) ≤ ((ttlFor b / 1000000 : ℤ) : ℚ) := by exact_mod_cast (by omega)
    linarith
  have unnoticed := forgetful_agrees_iff (redisDrops b) hn hr fun gap expired =>
    alive.trans (of_decide_eq_true expired)
  have earliest : (∀ gap, redisDrops b gap = true → b.Capacity ≤ gap * b.RatePerSec) ↔
      b.Capacity ≤ lifetime b * b.RatePerSec := by
    simp only [redisDrops, decide_eq_true_eq]
    refine ⟨fun always => always _ le_rfl, fun full gap longer => ?_⟩
    exact full.trans (mul_le_mul_of_nonneg_right longer hr.le)
  rw [← le_lifetime_iff hc hr, ← earliest]
  simp only [← size] at unnoticed
  rw [← unnoticed]
  refine forall₂_congr fun ts sorted => ?_
  rw [redisCall_eq_forgetful sorted, redisKeptCall_eq_spend sorted]

theorem workerAgrees_iff {key : Text} {limit window : ℤ} (on : 0 < limit) (wide : 0 < window) :
    WorkerAgrees key limit window ↔ window ≤ 600 * second := by
  obtain ⟨n, rfl⟩ := Int.eq_ofNat_of_zero_le on.le
  have hn : 1 ≤ n := by omega
  have hr : 0 < Worker.TokenBucket.rateOf n window := rate_pos on wide
  have unnoticed := forgetful_agrees_iff Worker.TokenBucket.drops hn hr fun gap idle => by
    have longer : (600 : ℚ) < gap := of_decide_eq_true idle
    linarith
  simp only [Worker.TokenBucket.drops, decide_eq_true_eq, forall_lt_le_mul_iff hr] at unnoticed
  have time : ((n : ℕ) : ℚ) ≤ Worker.TokenBucket.bucketIdleTTL *
      Worker.TokenBucket.rateOf n window ↔ window ≤ 600 * second := by
    refine (le_mul_rate_iff (c := n) (t := 600) wide).trans ?_
    rw [show 600 * (n : ℤ) * second = n * (600 * second) by ring]
    exact mul_le_mul_iff_right₀ on
  rw [← time, ← unnoticed]
  refine forall₂_congr fun ts sorted => ?_
  rw [Worker.TokenBucket.call_eq_forgetful on wide sorted,
    Worker.TokenBucket.keepCall_eq_spend on wide sorted]
  rfl

end Agreement

section Policies

open Data.Int64 (wrap)
open RateLimits.Service

def bucketOfSettings (scope : RateLimitScope) (resourceId : Option Text) (resource : Text)
    (s : RateLimitSettings) : Policy.Bucket :=
  Policy.bucketOf ⟨scope, resourceId, s.limit, s.windowSeconds, s.burst⟩ resource

def capacityOf (s : RateLimitSettings) : ℤ := max s.limit (s.burst.getD s.limit)

/-- The bounds on an endpoint's own limit and on its window. -/
def rateLimitBounds : Bounds := ⟨1, 100000⟩

def rateLimitWindowSecondsBounds : Bounds := ⟨1, 3600⟩

structure Accepted (s : RateLimitSettings) : Prop where
  limit : 1 ≤ s.limit
  window : 1 ≤ s.windowSeconds ∧ s.windowSeconds ≤ 86400

theorem accepted_of_assert {limit windowSeconds burst : Option ℤ} {s : RateLimitSettings}
    (h : assertRateLimitSettings limit windowSeconds burst = .ok s) : Accepted s := by
  refine ⟨?_, Source.checked_of_assert h⟩
  obtain ⟨_, checked, h⟩ := Common.Errors.bind_eq_ok.mp h
  obtain ⟨_, _, h⟩ := Common.Errors.bind_eq_ok.mp h
  obtain ⟨_, _, h⟩ := Common.Errors.bind_eq_ok.mp h
  cases h
  exact (Source.assertField_ok checked).1

variable {scope : RateLimitScope} {resourceId : Option Text} {resource : Text}
  {s : RateLimitSettings}

theorem capacity_bucketOfSettings :
    (bucketOfSettings scope resourceId resource s).Capacity = (capacityOf s : ℚ) := by
  simp only [bucketOfSettings, Policy.bucketOf, Policy.Row.capacity, capacityOf]
  cases s.burst with
  | none => simp
  | some burst => rw [Option.getD_some, max_def_lt]

theorem window_bucketOfSettings (accepted : Accepted s) :
    wrap (s.windowSeconds * second) = s.windowSeconds * second := by
  obtain ⟨low, high⟩ := accepted.window
  unfold second
  exact Data.Int64.wrap_of_inRange ⟨by omega, by omega⟩

theorem rate_bucketOfSettings (scope : RateLimitScope) (resourceId : Option Text)
    (resource : Text) (accepted : Accepted s) :
    (bucketOfSettings scope resourceId resource s).RatePerSec =
      s.limit / ((s.windowSeconds * second : ℤ) / second : ℚ) := by
  simp only [bucketOfSettings, Policy.bucketOf, Policy.Row.window,
    window_bucketOfSettings accepted]

theorem policyAgrees_iff (accepted : Accepted s) :
    LocalAgrees (bucketOfSettings scope resourceId resource s) ∧
        RedisAgrees (bucketOfSettings scope resourceId resource s) ↔
      capacityOf s * s.windowSeconds ≤ 600 * s.limit := by
  have positive := accepted.limit
  have longer := accepted.window.1
  obtain ⟨n, size⟩ := Int.eq_ofNat_of_zero_le
    (show 0 ≤ capacityOf s from (by unfold capacityOf; omega))
  have hn : 1 ≤ n := by unfold capacityOf at size; omega
  have window : 0 < s.windowSeconds * second := mul_pos (by omega) (by decide)
  have hr := rate_pos positive window
  rw [← rate_bucketOfSettings scope resourceId resource accepted] at hr
  have hc : (bucketOfSettings scope resourceId resource s).Capacity = n := by
    rw [capacity_bucketOfSettings, size, Int.cast_natCast]
  have whole : ∀ t : ℤ, (capacityOf s : ℚ) ≤
      t * (s.limit / ((s.windowSeconds * second : ℤ) / second : ℚ)) ↔
        capacityOf s * s.windowSeconds ≤ t * s.limit := by
    intro t
    rw [le_mul_rate_iff window, ← mul_assoc]
    exact mul_le_mul_iff_left₀ (by decide)
  have soon := whole 600
  have late := whole 172800
  rw [localAgrees_iff hn hc hr, redisAgrees_iff hn hc hr, capacity_bucketOfSettings,
    rate_bucketOfSettings scope resourceId resource accepted]
  push_cast at soon late ⊢
  rw [soon, late]
  omega

theorem capacity_BucketFor {key : Text} {limit window : ℤ} (on : 1 ≤ limit) :
    (Policy.BucketFor scope key limit window).Capacity = (limit : ℚ) := by
  have same : max 0 limit = limit := by omega
  rw [Policy.BucketFor, same]

theorem rate_BucketFor (scope : RateLimitScope) (key : Text) {limit window : ℤ} (on : 1 ≤ limit)
    (wide : 0 < window) :
    (Policy.BucketFor scope key limit window).RatePerSec = limit / (window / second : ℚ) := by
  have same : max 0 limit = limit := by omega
  rw [Policy.BucketFor, same, if_neg wide.not_ge]

theorem endpointAgrees_iff {key : Text} {limit windowSeconds : ℤ} (on : 1 ≤ limit)
    (wide : 1 ≤ windowSeconds) (short : windowSeconds ≤ 3600) :
    (WorkerAgrees key limit (windowSeconds * second) ∧
        LocalAgrees (Policy.BucketFor scope key limit (windowSeconds * second)) ∧
        RedisAgrees (Policy.BucketFor scope key limit (windowSeconds * second))) ↔
      windowSeconds ≤ 600 := by
  have window : 0 < windowSeconds * second := mul_pos (by omega) (by decide)
  obtain ⟨n, rfl⟩ := Int.eq_ofNat_of_zero_le (show 0 ≤ limit by omega)
  have hr : 0 < ((n : ℤ) : ℚ) / (((windowSeconds * second : ℤ) : ℚ) / second) := rate_pos on window
  rw [← rate_BucketFor scope key on window] at hr
  have hc : (Policy.BucketFor scope key n (windowSeconds * second)).Capacity = (n : ℚ) := by
    rw [capacity_BucketFor on, Int.cast_natCast]
  have whole : ∀ t : ℤ, ((n : ℤ) : ℚ) ≤
      t * (((n : ℤ) : ℚ) / ((windowSeconds * second : ℤ) / second : ℚ)) ↔ windowSeconds ≤ t := by
    intro t
    rw [le_mul_rate_iff window, ← mul_assoc, mul_le_mul_iff_left₀ (by decide), mul_comm t]
    exact mul_le_mul_iff_right₀ (by omega)
  have soon := whole 600
  have late := whole 172800
  rw [workerAgrees_iff (by omega) window, localAgrees_iff (by omega) hc hr,
    redisAgrees_iff (by omega) hc hr, capacity_BucketFor on, rate_BucketFor scope key on window]
  push_cast at soon late ⊢
  rw [soon, late]
  unfold second
  omega

end Policies

/-- Forgetting idle buckets is never noticed exactly for those policies whose bucket fills within
the ten minutes that the shortest-lived copy of it is kept. -/
theorem forgetting_unnoticed_iff (scope : RateLimits.Service.RateLimitScope)
    (resourceId : Option Text) (resource key : Text) :
    (∀ (limit windowSeconds burst : Option ℤ) (s : RateLimits.Service.RateLimitSettings),
      RateLimits.Service.assertRateLimitSettings limit windowSeconds burst = .ok s →
        (LocalAgrees (bucketOfSettings scope resourceId resource s) ∧
            RedisAgrees (bucketOfSettings scope resourceId resource s) ↔
          capacityOf s * s.windowSeconds ≤ 600 * s.limit)) ∧
      ∀ limit windowSeconds : ℤ,
        rateLimitBounds.min ≤ limit → limit ≤ rateLimitBounds.max →
        rateLimitWindowSecondsBounds.min ≤ windowSeconds →
        windowSeconds ≤ rateLimitWindowSecondsBounds.max →
          (WorkerAgrees key limit (windowSeconds * second) ∧
              LocalAgrees (Policy.BucketFor scope key limit (windowSeconds * second)) ∧
              RedisAgrees (Policy.BucketFor scope key limit (windowSeconds * second)) ↔
            windowSeconds ≤ 600) := by
  refine ⟨?_, ?_⟩
  · intro limit windowSeconds burst s asserted
    exact policyAgrees_iff (accepted_of_assert asserted)
  · intro limit windowSeconds low _ short long
    exact endpointAgrees_iff low short long

/-- One call a day and room for three: forgotten in memory after ten minutes, and in the store
after two days, when only two tokens have come back. -/
def daily : RateLimits.Service.RateLimitSettings := ⟨1, 86400, some 3⟩

theorem idle_bucket_grants_burst :
    RateLimits.Service.assertRateLimitSettings (some 1) (some 86400) (some 3) = .ok daily ∧
      decisions (localCall (.stable Text) (bucketOfSettings .project none [] daily)) (NewLocal 0)
          [0, 0, 0, 601] = [true, true, true, true] ∧
      decisions (keptCall (bucketOfSettings .project none [] daily)) State.zero
          [0, 0, 0, 601] = [true, true, true, false] ∧
      decisions (redisCall (bucketOfSettings .project none [] daily)) none
          [0, 0, 0, 172800, 172800, 172800] = [true, true, true, true, true, true] ∧
      decisions (redisKeptCall (bucketOfSettings .project none [] daily)) Hash.empty
          [0, 0, 0, 172800, 172800, 172800] = [true, true, true, true, true, false] ∧
      RateLimits.Service.assertRateLimitSettings (some 1) (some 86400) (some 10000000) =
        .ok ⟨1, 86400, some 10000000⟩ ∧
      ttlFor (bucketOfSettings .project none [] ⟨1, 86400, some 10000000⟩) = 10 * second ∧
      decisions (Worker.TokenBucket.call ([] : Text) 1 (3600 * second))
          Worker.TokenBucket.NewTokenBucket [0, 601] = [true, true] ∧
      decisions (Worker.TokenBucket.keepCall 1 (3600 * second)) none [0, 601] = [true, false] := by
  refine ⟨rfl, ?_, ?_, ?_, ?_, rfl, ?_, ?_, ?_⟩
  all_goals decide +kernel

/-- A hundred a second with a burst of two hundred fills in two seconds. -/
theorem forgetting_unnoticed_iff_hundred :
    LocalAgrees (bucketOfSettings .project none [] ⟨100, 1, some 200⟩) ∧
      RedisAgrees (bucketOfSettings .project none [] ⟨100, 1, some 200⟩) :=
  ((forgetting_unnoticed_iff .project none [] []).1 (some 100) (some 1) (some 200)
    ⟨100, 1, some 200⟩ rfl).mpr (by decide)

end Hookubit.Ratelimit.Forgetting
