/- sources: ratelimit/bucket.go (State, Take, localIdleTTL, DefaultLocalCapacity, Local, localEntry,
     NewLocal, Allow, sweepLocked, evictLocked)
   digest: One token bucket, and the bounded set of them that a process keeps in memory. -/

import Hookubit.Data.AssocMap
import Hookubit.Data.TokenBucket
import Mathlib.Data.Rat.Floor

/-!
Tokens, rates and instants are exact rationals, instants and durations in seconds. A wait is a whole
number of nanoseconds. The zero time, which no clock reads, is `none`.
-/

set_option autoImplicit false
set_option relaxedAutoImplicit false

namespace Hookubit.Ratelimit.Bucket

open Data.AssocMap Data.TokenBucket

/-- How many tokens a bucket held, and when. -/
structure State where
  Tokens : ℚ
  At : Option ℚ
  deriving DecidableEq

def State.zero : State := ⟨0, none⟩

def millisecond : ℤ := 1000000

def nanoseconds : ℚ := 1000000000

/-- The tokens before they are capped. A bucket seen for the first time starts full. -/
def State.refilled (s : State) (now capacity ratePerSec : ℚ) : ℚ :=
  match s.At with
  | none => capacity
  | some stamped => if 0 < now - stamped then s.Tokens + (now - stamped) * ratePerSec else s.Tokens

def State.available (s : State) (now capacity ratePerSec : ℚ) : ℚ :=
  if capacity < s.refilled now capacity ratePerSec then capacity
  else s.refilled now capacity ratePerSec

/-- The pause after a refusal, never zero. -/
def waitFor (deficit ratePerSec : ℚ) : ℤ :=
  let wait := ⌈deficit / ratePerSec * nanoseconds⌉
  if wait ≤ 0 then millisecond else wait

structure Answer where
  allowed : Bool
  wait : ℤ
  deriving DecidableEq

def Take (s : State) (now capacity ratePerSec cost : ℚ) : State × Answer :=
  if capacity ≤ 0 ∨ ratePerSec ≤ 0 then (⟨0, some now⟩, ⟨true, 0⟩)
  else
    let cost := if cost ≤ 0 then 1 else cost
    let tokens := s.available now capacity ratePerSec
    if cost ≤ tokens then (⟨tokens - cost, some now⟩, ⟨true, 0⟩)
    -- a refused request is charged nothing
    else (⟨tokens, some now⟩, ⟨false, waitFor (cost - tokens) ratePerSec⟩)

section Take

variable {s : State} {now capacity ratePerSec cost : ℚ}

theorem available_of_none (first : s.At = none) :
    s.available now capacity ratePerSec = capacity := by
  simp [State.available, State.refilled, first]

theorem available_of_le {stamped : ℚ} (stored : s.At = some stamped) (later : stamped ≤ now) :
    s.available now capacity ratePerSec = refill capacity ratePerSec s.Tokens (now - stamped) := by
  have elapsed : s.refilled now capacity ratePerSec = s.Tokens + (now - stamped) * ratePerSec := by
    rw [State.refilled, stored]
    dsimp only
    split
    · rfl
    · rename_i absent
      have same : now - stamped = 0 := le_antisymm (not_lt.mp absent) (sub_nonneg.mpr later)
      rw [same, zero_mul, add_zero]
  rw [State.available, elapsed, refill, min_def_lt]

theorem Take_eq (hc : 0 < capacity) (hr : 0 < ratePerSec) (hq : 0 < cost) :
    Take s now capacity ratePerSec cost =
      if cost ≤ s.available now capacity ratePerSec then
        (⟨s.available now capacity ratePerSec - cost, some now⟩, ⟨true, 0⟩)
      else (⟨s.available now capacity ratePerSec, some now⟩,
        ⟨false, waitFor (cost - s.available now capacity ratePerSec) ratePerSec⟩) := by
  simp only [Take, hc.not_ge, hr.not_ge, hq.not_ge, or_self, if_false]

theorem Take_allowed_iff (hc : 0 < capacity) (hr : 0 < ratePerSec) (hq : 0 < cost) :
    (Take s now capacity ratePerSec cost).2.allowed = true ↔
      cost ≤ s.available now capacity ratePerSec := by
  rw [Take_eq hc hr hq]
  split
  · simpa
  · rename_i short
    simpa using short

def Answer.charged (a : Answer) (cost : ℚ) : ℚ := if a.allowed then cost else 0

theorem Take_state (hc : 0 < capacity) (hr : 0 < ratePerSec) (hq : 0 < cost) :
    (Take s now capacity ratePerSec cost).1 =
      ⟨s.available now capacity ratePerSec -
        (Take s now capacity ratePerSec cost).2.charged cost, some now⟩ := by
  rw [Take_eq hc hr hq]
  split
  · rfl
  · simp [Answer.charged]

theorem charged_le_available (hc : 0 < capacity) (hr : 0 < ratePerSec) (hq : 0 < cost)
    (nonneg : 0 ≤ s.available now capacity ratePerSec) :
    (Take s now capacity ratePerSec cost).2.charged cost ≤
      s.available now capacity ratePerSec := by
  unfold Answer.charged
  split
  · exact (Take_allowed_iff hc hr hq).mp ‹_›
  · exact nonneg

theorem Take_At : (Take s now capacity ratePerSec cost).1.At = some now := by
  unfold Take
  split
  · rfl
  · dsimp only
    split <;> split <;> rfl

theorem waitFor_pos {deficit : ℚ} : 0 < waitFor deficit ratePerSec := by
  unfold waitFor
  dsimp only
  split
  · decide
  · exact not_le.mp ‹_›

theorem deficit_le_waitFor {deficit : ℚ} (hr : 0 < ratePerSec) (hd : 0 < deficit) :
    deficit ≤ (waitFor deficit ratePerSec / nanoseconds) * ratePerSec := by
  have ns : (0 : ℚ) < nanoseconds := by norm_num [nanoseconds]
  have up : 0 < ⌈deficit / ratePerSec * nanoseconds⌉ := Int.ceil_pos.mpr (by positivity)
  have precise : waitFor deficit ratePerSec = ⌈deficit / ratePerSec * nanoseconds⌉ :=
    if_neg (not_le.mpr up)
  calc deficit = deficit / ratePerSec * nanoseconds / nanoseconds * ratePerSec := by
        field_simp
    _ ≤ _ := by
        rw [precise]
        gcongr
        exact Int.le_ceil _

end Take

section Local

/-- How long an unused bucket is kept before a sweep may drop it, in seconds. -/
def localIdleTTL : ℚ := 600

def DefaultLocalCapacity : ℤ := 100000

structure LocalEntry where
  state : State
  lastUsed : ℚ

/-- The buckets one process keeps, and when idle ones are next looked for. -/
structure Local (Key : Type) where
  max : ℤ
  positive : 0 < max
  buckets : AList fun _ : Key => LocalEntry
  sweepAfter : Option ℚ

/-- Entries by the time of their last use, oldest first. Equal times have no order of their own. -/
structure AgeOrder (Key : Type) where
  sort : List (Key × ℚ) → List (Key × ℚ)
  perm : ∀ all, (sort all).Perm all
  sorted : ∀ all, (sort all).Pairwise fun a b => a.2 ≤ b.2

def notNewer {Key : Type} (a b : Key × ℚ) : Bool := decide (a.2 ≤ b.2)

theorem notNewer_trans {Key : Type} (a b c : Key × ℚ) (ab : notNewer a b = true)
    (bc : notNewer b c = true) : notNewer a c = true :=
  decide_eq_true (le_trans (of_decide_eq_true ab) (of_decide_eq_true bc))

theorem notNewer_total {Key : Type} (a b : Key × ℚ) : (notNewer a b || notNewer b a) = true := by
  simpa [notNewer] using le_total a.2 b.2

/-- An order that keeps equal times as they come. -/
def AgeOrder.stable (Key : Type) : AgeOrder Key where
  sort all := all.mergeSort notNewer
  perm all := List.mergeSort_perm all _
  sorted all := (List.pairwise_mergeSort notNewer_trans notNewer_total all).imp of_decide_eq_true

variable {Key : Type} {entry : LocalEntry}

def effectiveMax (max : ℤ) : ℤ := if max ≤ 0 then DefaultLocalCapacity else max

theorem effectiveMax_pos (max : ℤ) : 0 < effectiveMax max := by
  unfold effectiveMax
  split
  · decide
  · exact not_le.mp ‹_›

def NewLocal (max : ℤ) : Local Key := ⟨effectiveMax max, effectiveMax_pos max, ∅, none⟩

/-- The zero time comes before every instant. -/
def before (now : ℚ) : Option ℚ → Bool
  | none => false
  | some stamped => decide (now < stamped)

def LocalEntry.live (now : ℚ) (entry : LocalEntry) : Bool :=
  !decide (localIdleTTL < now - entry.lastUsed)

def Local.sweepLocked (l : Local Key) (now : ℚ) : Local Key :=
  if before now l.sweepAfter then l
  else { l with sweepAfter := some (now + 60), buckets := retain (LocalEntry.live now) l.buckets }

variable [DecidableEq Key]

/-- Makes room: idle entries go first, then the least recently used quarter. -/
def Local.evictLocked (order : AgeOrder Key) (l : Local Key) (now : ℚ) : Local Key :=
  let kept := retain (LocalEntry.live now) l.buckets
  if kept.entries.length < l.max then { l with buckets := kept }
  else
    let all := order.sort (kept.entries.map fun e => (e.1, e.2.lastUsed))
    { l with
      buckets := (all.take (all.length / 4 + 1)).foldl (fun m aged => m.erase aged.1) kept }

/-- Room for a key that has no entry. -/
def Local.makeRoom (order : AgeOrder Key) (l : Local Key) (now : ℚ) : Local Key :=
  if l.max ≤ l.buckets.entries.length then l.evictLocked order now else l

def Local.put (l : Local Key) (key : Key) (state : State) (now : ℚ) : Local Key :=
  { l with buckets := l.buckets.insert key ⟨state, now⟩ }

/-- `now` is the clock as it was read before the lock was taken. -/
def Local.Allow (order : AgeOrder Key) (l : Local Key) (key : Key)
    (now capacity ratePerSec cost : ℚ) : Local Key × Answer :=
  let swept := l.sweepLocked now
  match swept.buckets.lookup key with
  | some entry =>
      let (state, answer) := Take entry.state now capacity ratePerSec cost
      (swept.put key state now, answer)
  | none =>
      let (state, answer) := Take State.zero now capacity ratePerSec cost
      ((swept.makeRoom order now).put key state now, answer)

/-- The bucket that a call finds under its key, new if there is none. -/
def Local.found (l : Local Key) (key : Key) (now : ℚ) : State :=
  (((l.sweepLocked now).buckets.lookup key).map LocalEntry.state).getD State.zero

variable {order : AgeOrder Key} {l : Local Key} {key : Key} {now capacity ratePerSec cost : ℚ}

theorem Allow_answer : (l.Allow order key now capacity ratePerSec cost).2 =
    (Take (l.found key now) now capacity ratePerSec cost).2 := by
  unfold Local.Allow Local.found
  dsimp only
  cases (l.sweepLocked now).buckets.lookup key <;> rfl

/-- Whatever else is swept or evicted, the caller's own bucket is kept. -/
theorem Allow_lookup : (l.Allow order key now capacity ratePerSec cost).1.buckets.lookup key =
    some ⟨(Take (l.found key now) now capacity ratePerSec cost).1, now⟩ := by
  unfold Local.Allow Local.found
  dsimp only
  cases (l.sweepLocked now).buckets.lookup key with
  | none => exact AList.lookup_insert _
  | some entry => exact AList.lookup_insert _

theorem Allow_sweepAfter : (l.Allow order key now capacity ratePerSec cost).1.sweepAfter =
    (l.sweepLocked now).sweepAfter := by
  unfold Local.Allow
  dsimp only
  cases (l.sweepLocked now).buckets.lookup key with
  | some entry => rfl
  | none =>
    change (Local.makeRoom order (l.sweepLocked now) now).sweepAfter = _
    unfold Local.makeRoom Local.evictLocked
    dsimp only
    split
    · split <;> rfl
    · rfl

theorem found_eq (now : ℚ) (known : l.buckets.lookup key = some entry) :
    l.found key now = entry.state ∨
      l.found key now = State.zero ∧ localIdleTTL < now - entry.lastUsed := by
  unfold Local.found Local.sweepLocked
  split
  · left
    rw [known]
    rfl
  · dsimp only
    rw [lookup_retain, known, Option.filter_some]
    unfold LocalEntry.live
    by_cases idle : localIdleTTL < now - entry.lastUsed
    · right
      simp [idle]
    · left
      simp [idle]

theorem found_of_idle (due : before now l.sweepAfter = false)
    (known : l.buckets.lookup key = some entry) (idle : localIdleTTL < now - entry.lastUsed) :
    l.found key now = State.zero := by
  rw [Local.found, Local.sweepLocked, if_neg (by simp [due])]
  dsimp only
  rw [lookup_retain, known, Option.filter_some]
  simp [LocalEntry.live, idle]

theorem found_of_live (known : l.buckets.lookup key = some entry)
    (live : now - entry.lastUsed ≤ localIdleTTL) : l.found key now = entry.state :=
  (found_eq now known).resolve_right fun swept => live.not_gt swept.2

theorem available_found (known : l.buckets.lookup key = some entry)
    (rested : localIdleTTL < now - entry.lastUsed →
      entry.state.available now capacity ratePerSec = capacity) :
    (l.found key now).available now capacity ratePerSec =
      entry.state.available now capacity ratePerSec := by
  rcases found_eq now known with kept | ⟨forgotten, idle⟩
  · rw [kept]
  · rw [forgotten, rested idle, available_of_none rfl]

theorem found_of_absent (unknown : l.buckets.lookup key = none) :
    l.found key now = State.zero := by
  unfold Local.found Local.sweepLocked
  split
  · rw [unknown]
    rfl
  · dsimp only
    rw [lookup_retain, unknown]
    rfl

/-- Calls one after the other, each with its key, instant, capacity, rate and cost. -/
def Local.serve (order : AgeOrder Key) (l : Local Key) (calls : List (Key × ℚ × ℚ × ℚ × ℚ)) :
    Local Key :=
  calls.foldl (fun l (key, now, capacity, rate, cost) =>
    (l.Allow order key now capacity rate cost).1) l

def Local.Len (l : Local Key) : ℤ := l.buckets.keys.length

omit [DecidableEq Key] in
theorem Len_sweepLocked (l : Local Key) (now : ℚ) :
    (l.sweepLocked now).Len ≤ l.Len ∧ (l.sweepLocked now).max = l.max := by
  unfold Local.sweepLocked
  split
  · exact ⟨le_rfl, rfl⟩
  · refine ⟨?_, rfl⟩
    simpa [Local.Len, AList.keys, List.keys, retain] using List.length_filter_le _ _

theorem length_keys_foldl_erase (aged : List (Key × ℚ)) (m : AList fun _ : Key => LocalEntry) :
    (aged.foldl (fun m a => m.erase a.1) m).keys.length ≤ m.keys.length := by
  induction aged generalizing m with
  | nil => exact le_rfl
  | cons a rest ih =>
    refine (ih _).trans ?_
    rw [AList.keys_erase]
    exact List.length_erase_le

theorem Len_evictLocked (within : l.Len ≤ l.max) : (l.evictLocked order now).Len < l.max := by
  have kept_le : (retain (LocalEntry.live now) l.buckets).keys.length ≤ l.buckets.keys.length := by
    simpa [AList.keys, List.keys, retain] using List.length_filter_le _ _
  have positive := l.positive
  unfold Local.evictLocked Local.Len at *
  generalize retain (LocalEntry.live now) l.buckets = kept at *
  have length_eq : kept.keys.length = kept.entries.length := List.length_map _
  dsimp only
  split
  · dsimp only
    omega
  · -- the oldest entry is there, so at least one goes
    cases sorted : order.sort (kept.entries.map fun e => (e.1, e.2.lastUsed)) with
    | nil =>
      have none_kept := (order.perm (kept.entries.map fun e => (e.1, e.2.lastUsed))).length_eq
      rw [sorted, List.length_map, List.length_nil] at none_kept
      omega
    | cons oldest rest =>
      have mem := (order.perm _).mem_iff.mp (sorted ▸ List.mem_cons_self)
      obtain ⟨e, he, rfl⟩ := List.mem_map.mp mem
      have here : e.1 ∈ kept.keys := List.mem_map_of_mem he
      have fewer := length_keys_foldl_erase (rest.take ((rest.length + 1) / 4)) (kept.erase e.1)
      rw [AList.keys_erase, List.length_erase_of_mem here] at fewer
      have some_kept := List.length_pos_of_mem here
      rw [List.length_cons, List.take_succ_cons, List.foldl_cons]
      dsimp only
      omega

theorem Len_makeRoom (order : AgeOrder Key) (now : ℚ) (within : l.Len ≤ l.max) :
    (l.makeRoom order now).Len < l.max ∧ (l.makeRoom order now).max = l.max := by
  unfold Local.makeRoom
  split
  · refine ⟨Len_evictLocked within, ?_⟩
    unfold Local.evictLocked
    dsimp only
    split <;> rfl
  · rename_i room
    exact ⟨by simpa [Local.Len, AList.keys, List.keys] using room, rfl⟩

theorem Len_Allow (within : l.Len ≤ l.max) :
    (l.Allow order key now capacity ratePerSec cost).1.Len ≤ l.max ∧
      (l.Allow order key now capacity ratePerSec cost).1.max = l.max := by
  obtain ⟨fewer, same⟩ := Len_sweepLocked l now
  have swept : (l.sweepLocked now).Len ≤ (l.sweepLocked now).max := by omega
  unfold Local.Allow
  dsimp only
  cases found : (l.sweepLocked now).buckets.lookup key with
  | some entry =>
    have here : key ∈ (l.sweepLocked now).buckets.keys :=
      AList.mem_keys.mp (AList.lookup_isSome.mp (by rw [found]; rfl))
    have counted := List.length_erase_add_one here
    simp only [Local.Len, Local.put, AList.keys_insert, List.length_cons] at swept ⊢
    omega
  | none =>
    obtain ⟨room, kept⟩ := Len_makeRoom order now swept
    have counted : (((l.sweepLocked now).makeRoom order now).buckets.keys.erase key).length ≤ _ :=
      List.length_erase_le
    simp only [Local.Len, Local.put, AList.keys_insert, List.length_cons] at room ⊢
    omega

/-- However many keys are asked about, at whatever times and in whatever order, a process keeps no
more buckets than its capacity. -/
theorem buckets_stay_bounded (order : AgeOrder Key) (max : ℤ)
    (calls : List (Key × ℚ × ℚ × ℚ × ℚ)) :
    ((NewLocal max).serve order calls).Len ≤ effectiveMax max := by
  have run : ∀ (l : Local Key), l.Len ≤ l.max →
      (l.serve order calls).Len ≤ l.max := by
    induction calls with
    | nil => exact fun l within => within
    | cons call rest ih =>
      intro l within
      obtain ⟨bounded, same⟩ := Len_Allow within
      exact (ih _ (bounded.trans_eq same.symm)).trans_eq same
  exact run (NewLocal max) (effectiveMax_pos max).le

end Local

end Hookubit.Ratelimit.Bucket
