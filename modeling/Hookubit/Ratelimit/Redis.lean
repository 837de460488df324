/- sources: ratelimit/redis.go (takeScript, RedisScripter.Take, ttlFor); ratelimit/bucket.go (Take)
   digest: The bucket that every process shares, step by step the one that a process keeps. -/

import Hookubit.Ratelimit.Bucket
import Hookubit.Ratelimit.Policy

set_option autoImplicit false
set_option relaxedAutoImplicit false

namespace Hookubit.Ratelimit.Redis

open Data.TokenBucket Ratelimit.Bucket

/-- The two fields that the script keeps under a key. -/
structure Hash where
  n : Option ℚ
  t : Option ℚ
  deriving DecidableEq

def Hash.empty : Hash := ⟨none, none⟩

structure Reply where
  allowed : Bool
  wait_ms : ℤ
  deriving DecidableEq

/-- The tokens now. A key without both fields is a full bucket of this instant. -/
def Hash.available (stored : Hash) (now capacity rate : ℚ) : ℚ :=
  match stored.n, stored.t with
  | some tokens, some ts =>
      let elapsed := if now - ts < 0 then 0 else now - ts
      min capacity (tokens + elapsed * rate)
  | _, _ => min capacity (capacity + (now - now) * rate)

def waitMs (deficit rate : ℚ) : ℤ :=
  let wait_ms := ⌈deficit / rate * 1000⌉
  if wait_ms < 1 then 1 else wait_ms

/-- `now` is the server's clock. -/
def takeScript (stored : Hash) (now capacity rate cost : ℚ) : Hash × Reply :=
  let tokens := stored.available now capacity rate
  if cost ≤ tokens then (⟨some (tokens - cost), some now⟩, ⟨true, 0⟩)
  else (⟨some tokens, some now⟩, ⟨false, waitMs (cost - tokens) rate⟩)

/-- What `RedisScripter.Take` makes of the reply. -/
def Reply.answer (r : Reply) : Answer :=
  if r.allowed then ⟨true, 0⟩ else ⟨false, r.wait_ms * millisecond⟩

section Expiry

open Data.Int64 (InRange wrap)
open Ratelimit.Policy (second)

/-- A float cut to a duration; one that does not fit becomes the least 64-bit integer. -/
def durationOf (x : ℚ) : ℤ :=
  let whole := if x < 0 then ⌈x⌉ else ⌊x⌋
  if InRange whole then whole else -9223372036854775808

/-- How long the state of an idle bucket is kept, in nanoseconds. -/
def ttlFor (b : Policy.Bucket) : ℤ :=
  if b.RatePerSec ≤ 0 then 60 * second
  else
    let refill := durationOf (b.Capacity / b.RatePerSec * second)
    let ttl := wrap (2 * refill)
    let ttl := if ttl < 10 * second then 10 * second else ttl
    if 48 * 3600 * second < ttl then 48 * 3600 * second else ttl

/-- What `RedisScripter.Take` passes on, in milliseconds. -/
def expiryMs (ttl : ℤ) : ℤ :=
  let ms := ttl.tdiv millisecond
  if ms < 1000 then 1000 else ms

end Expiry

/-- One call, with the parameters that its policy has at the time. -/
structure Call where
  now : ℚ
  capacity : ℚ
  rate : ℚ
  cost : ℚ

structure Call.Positive (c : Call) : Prop where
  capacity : 0 < c.capacity
  rate : 0 < c.rate
  cost : 0 < c.cost

def Call.take (c : Call) (s : State) : State × Answer := Take s c.now c.capacity c.rate c.cost

def Call.script (c : Call) (h : Hash) : Hash × Answer :=
  let (h', reply) := takeScript h c.now c.capacity c.rate c.cost
  (h', reply.answer)

theorem script_allowed (c : Call) (h : Hash) :
    (c.script h).2.allowed = (takeScript h c.now c.capacity c.rate c.cost).2.allowed := by
  simp only [Call.script, Reply.answer]
  split
  · rename_i allowed
    exact allowed.symm
  · rename_i refused
    exact (Bool.eq_false_iff.mpr refused).symm

def trace {σ : Type} (call : Call → σ → σ × Answer) : σ → List Call → List (σ × Bool)
  | _, [] => []
  | s, c :: calls => ((call c s).1, (call c s).2.allowed) :: trace call (call c s).1 calls

/-- The hash holds the bucket's state. -/
inductive Holds : Hash → State → Prop
  | unseen (tokens : ℚ) : Holds Hash.empty ⟨tokens, none⟩
  | seen (tokens stamped : ℚ) : Holds ⟨some tokens, some stamped⟩ ⟨tokens, some stamped⟩

variable {h : Hash} {s : State}

theorem Holds.available_eq (held : Holds h s) (now capacity rate : ℚ) :
    h.available now capacity rate = s.available now capacity rate := by
  cases held with
  | unseen => simp [Hash.available, Hash.empty, available_of_none]
  | seen tokens stamped =>
    simp only [Hash.available]
    rcases le_or_gt stamped now with later | stale
    · rw [available_of_le rfl later, if_neg (sub_nonneg.mpr later).not_gt, refill]
    -- a clock that went back earns nothing in either
    · rw [if_pos (sub_neg.mpr stale), State.available, State.refilled, min_def_lt]
      simp [stale.not_gt]

theorem Holds.call {c : Call} (held : Holds h s) (positive : c.Positive) :
    Holds (c.script h).1 (c.take s).1 ∧ (c.script h).2.allowed = (c.take s).2.allowed := by
  unfold Call.script Call.take takeScript
  rw [Take_eq positive.capacity positive.rate positive.cost, ← held.available_eq]
  dsimp only
  split
  · exact ⟨.seen .., rfl⟩
  · exact ⟨.seen .., rfl⟩

theorem Holds.tokens {c : Call} (held : Holds h (c.take s).1) : h.n = some (c.take s).1.Tokens := by
  cases stamped : (c.take s).1 with
  | mk tokens at' =>
    have stored : (c.take s).1.At = some c.now := Take_At
    rw [stamped] at held stored
    cases held with
    | unseen => cases stored
    | seen => rfl

theorem trace_eq {calls : List Call} (held : Holds h s) (positive : ∀ c ∈ calls, c.Positive) :
    (trace Call.script h calls).map (fun p => (p.1.n, p.2)) =
      (trace Call.take s calls).map fun p => (some p.1.Tokens, p.2) := by
  induction calls generalizing h s with
  | nil => rfl
  | cons c calls ih =>
    obtain ⟨held', decided⟩ := held.call (positive c List.mem_cons_self)
    have rest := ih held' fun c hc => positive c (List.mem_cons_of_mem _ hc)
    simp only [trace, List.map_cons, rest, decided, held'.tokens]

section Wait

variable {now later capacity rate cost : ℚ}

theorem deficit_le_waitMs {deficit : ℚ} (hr : 0 < rate) (hd : 0 < deficit) :
    deficit ≤ (waitMs deficit rate / 1000) * rate := by
  have up : 0 < ⌈deficit / rate * 1000⌉ := Int.ceil_pos.mpr (by positivity)
  have precise : waitMs deficit rate = ⌈deficit / rate * 1000⌉ := if_neg (by omega)
  calc deficit = deficit / rate * 1000 / 1000 * rate := by field_simp
    _ ≤ _ := by
        rw [precise]
        gcongr
        exact Int.le_ceil _

theorem cost_le_available {s : State} {wait : ℚ} (stamped : s.At = some now) (hr : 0 < rate)
    (fits : cost ≤ capacity) (nonneg : 0 ≤ wait) (earned : cost - s.Tokens ≤ wait * rate)
    (waited : now + wait ≤ later) : cost ≤ s.available later capacity rate := by
  rw [available_of_le stamped (by linarith)]
  refine le_min fits ?_
  have longer : wait * rate ≤ (later - now) * rate := by
    apply mul_le_mul_of_nonneg_right _ hr.le
    linarith
  linarith

theorem Take_after_wait {s : State} (hc : 0 < capacity) (hr : 0 < rate) (hq : 0 < cost)
    (fits : cost ≤ capacity) (refused : (Take s now capacity rate cost).2.allowed = false)
    (waited : now + (Take s now capacity rate cost).2.wait / nanoseconds ≤ later) :
    (Take (Take s now capacity rate cost).1 later capacity rate cost).2.allowed = true := by
  rw [Take_allowed_iff hc hr hq]
  rw [Take_eq hc hr hq] at refused waited ⊢
  split at refused
  · cases refused
  rename_i short
  rw [if_neg short] at waited ⊢
  have ns : (0 : ℚ) < nanoseconds := by norm_num [nanoseconds]
  refine cost_le_available rfl hr fits ?_ (deficit_le_waitFor hr (by linarith)) waited
  exact div_nonneg (Int.cast_nonneg waitFor_pos.le) ns.le

theorem takeScript_after_wait {h : Hash} (hr : 0 < rate)
    (fits : cost ≤ capacity) (refused : (takeScript h now capacity rate cost).2.allowed = false)
    (waited : now + (takeScript h now capacity rate cost).2.answer.wait / nanoseconds ≤ later) :
    (takeScript (takeScript h now capacity rate cost).1 later capacity rate cost).2.allowed =
      true := by
  unfold takeScript at refused
  dsimp only at refused
  split at refused
  · cases refused
  rename_i short
  have left : takeScript h now capacity rate cost =
      (⟨some (h.available now capacity rate), some now⟩,
        ⟨false, waitMs (cost - h.available now capacity rate) rate⟩) := if_neg short
  rw [left] at waited ⊢
  have ms : ((waitMs (cost - h.available now capacity rate) rate * millisecond : ℤ) : ℚ) /
      nanoseconds = waitMs (cost - h.available now capacity rate) rate / 1000 := by
    norm_num [millisecond, nanoseconds]
    ring
  simp only [Reply.answer, Bool.false_eq_true, if_false, ms] at waited
  have positive : 0 ≤ waitMs (cost - h.available now capacity rate) rate := by
    unfold waitMs
    dsimp only
    split <;> omega
  have covered := cost_le_available (s := ⟨h.available now capacity rate, some now⟩)
    rfl hr fits (div_nonneg (Int.cast_nonneg positive) (by norm_num))
    (deficit_le_waitMs hr (by linarith)) waited
  rw [← (Holds.seen _ _).available_eq] at covered
  unfold takeScript
  dsimp only
  rw [if_pos covered]

end Wait

/-- The script and `Take` decide every call alike and hold the same tokens after it, and a client
that waits as long as either tells it to is served. -/
theorem takeScript_refines_Take :
    (∀ calls : List Call, (∀ c ∈ calls, c.Positive) →
        (trace Call.script Hash.empty calls).map (fun p => (p.1.n, p.2)) =
          (trace Call.take State.zero calls).map fun p => (some p.1.Tokens, p.2)) ∧
      (∀ (c : Call) (s : State) (later : ℚ), c.Positive → c.cost ≤ c.capacity →
        (c.take s).2.allowed = false → c.now + (c.take s).2.wait / nanoseconds ≤ later →
          ((⟨later, c.capacity, c.rate, c.cost⟩ : Call).take (c.take s).1).2.allowed = true) ∧
      ∀ (c : Call) (h : Hash) (later : ℚ), c.Positive → c.cost ≤ c.capacity →
        (c.script h).2.allowed = false → c.now + (c.script h).2.wait / nanoseconds ≤ later →
          ((⟨later, c.capacity, c.rate, c.cost⟩ : Call).script (c.script h).1).2.allowed =
            true := by
  refine ⟨fun calls positive => ?_, fun c s later positive fits refused waited => ?_,
    fun c h later positive fits refused waited => ?_⟩
  · exact trace_eq (.unseen 0) positive
  · exact Take_after_wait positive.capacity positive.rate positive.cost fits refused waited
  · rw [script_allowed] at refused ⊢
    exact takeScript_after_wait positive.rate fits refused waited

/-- A bucket of two that is one short. -/
theorem takeScript_refines_Take_one_short :
    ((⟨0, 2, 1, 2⟩ : Call).take ⟨1, some 0⟩).2 = ⟨false, 1000000000⟩ ∧
      ((⟨1, 2, 1, 2⟩ : Call).take ((⟨0, 2, 1, 2⟩ : Call).take ⟨1, some 0⟩).1).2.allowed = true ∧
      (trace Call.script Hash.empty [⟨0, 2, 1, 1⟩, ⟨0, 2, 1, 2⟩]).map (fun p => (p.1.n, p.2)) =
        [(some 1, true), (some 1, false)] := by
  obtain ⟨same, served, -⟩ := takeScript_refines_Take
  have positive : ∀ now cost : ℚ, 0 < cost → (⟨now, 2, 1, cost⟩ : Call).Positive :=
    fun now cost hq => ⟨by norm_num, by norm_num, hq⟩
  refine ⟨by decide +kernel, served ⟨0, 2, 1, 2⟩ ⟨1, some 0⟩ 1 (positive 0 2 (by norm_num)) le_rfl
    (by decide +kernel) (by decide +kernel), ?_⟩
  rw [same [⟨0, 2, 1, 1⟩, ⟨0, 2, 1, 2⟩]
    (by simp [positive 0 1 (by norm_num), positive 0 2 (by norm_num)])]
  decide +kernel

end Hookubit.Ratelimit.Redis
