/- sources: worker/ratelimit.go (TokenBucket, bucket, bucketIdleTTL, NewTokenBucket, Allow,
     sweepLocked)
   digest: The worker's own bucket for an endpoint, and what its sweep of idle ones makes of it. -/

import Hookubit.Data.ForgetfulBucket
import Hookubit.Ratelimit.Bucket
import Hookubit.Ratelimit.Policy

set_option autoImplicit false
set_option relaxedAutoImplicit false

namespace Hookubit.Worker.TokenBucket

open Data.AssocMap Data.ForgetfulBucket
open Data.TokenBucket (refill)
open Ratelimit.Bucket (Answer before millisecond nanoseconds)
open Ratelimit.Policy (second)

structure Bucket where
  tokens : ℚ
  capacity : ℚ
  ratePerSec : ℚ
  updatedAt : ℚ
  lastUsed : ℚ
  deriving DecidableEq

/-- The buckets of one worker, and when idle ones are next pruned. -/
structure Buckets (Key : Type) where
  buckets : AList fun _ : Key => Bucket
  sweepAfter : Option ℚ

/-- In seconds. -/
def bucketIdleTTL : ℚ := 600

variable {Key : Type}

def NewTokenBucket : Buckets Key := ⟨∅, none⟩

def Bucket.live (now : ℚ) (b : Bucket) : Bool := !decide (bucketIdleTTL < now - b.lastUsed)

def Buckets.sweepLocked (t : Buckets Key) (now : ℚ) : Buckets Key :=
  if before now t.sweepAfter then t
  else ⟨retain (Bucket.live now) t.buckets, some (now + 60)⟩

theorem sweepLocked_sweepAfter {last now : ℚ} {t : Buckets Key} (later : last ≤ now)
    (soon : ∀ due ∈ t.sweepAfter, due ≤ last + 60) :
    ∀ due ∈ (t.sweepLocked now).sweepAfter, due ≤ now + 60 := by
  unfold Buckets.sweepLocked
  split
  · exact fun due h => (soon due h).trans (by linarith)
  · rintro due ⟨⟩
    exact le_rfl

/-- A policy that was edited caps the bucket and does not reset it. -/
def Bucket.recap (b : Bucket) (limit rate : ℚ) : Bucket :=
  if b.capacity ≠ limit ∨ b.ratePerSec ≠ rate then
    { b with
      capacity := limit
      ratePerSec := rate
      tokens := if limit < b.tokens then limit else b.tokens }
  else b

def Bucket.refilled (b : Bucket) (now : ℚ) : Bucket :=
  if 0 < now - b.updatedAt then
    let tokens := b.tokens + (now - b.updatedAt) * b.ratePerSec
    { b with tokens := if b.capacity < tokens then b.capacity else tokens, updatedAt := now }
  else b

def Bucket.wait (b : Bucket) : ℤ :=
  let wait := ⌊(1 - b.tokens) / b.ratePerSec * nanoseconds⌋
  if wait ≤ 0 then millisecond else wait

def Bucket.take (b : Bucket) (now : ℚ) : Bucket × Answer :=
  let b := { b with lastUsed := now }
  if 1 ≤ b.tokens then ({ b with tokens := b.tokens - 1 }, ⟨true, 0⟩)
  else (b, ⟨false, b.wait⟩)

/-- One call on the bucket under its key, if there is one. -/
def charge (found : Option Bucket) (limit rate now : ℚ) : Bucket × Answer :=
  let b := found.getD ⟨limit, limit, rate, now, now⟩
  ((b.recap limit rate).refilled now).take now

variable [DecidableEq Key]

/-- The window is a duration in nanoseconds. -/
def Buckets.Allow (t : Buckets Key) (key : Key) (limit window : ℤ) (now : ℚ) :
    Buckets Key × Answer :=
  if limit ≤ 0 ∨ window ≤ 0 then (t, ⟨true, 0⟩)
  else
    let swept := t.sweepLocked now
    let (b, answer) := charge (swept.buckets.lookup key) limit (limit / (window / second : ℚ)) now
    ({ swept with buckets := swept.buckets.insert key b }, answer)

/-- The same bucket when nothing is ever swept. -/
def keep (limit window : ℤ) (b : Option Bucket) (now : ℚ) : Option Bucket × Answer :=
  if limit ≤ 0 ∨ window ≤ 0 then (b, ⟨true, 0⟩)
  else
    let (b, answer) := charge b limit (limit / (window / second : ℚ)) now
    (some b, answer)

section Spend

variable {limit rate x last used now : ℚ}

theorem recap_self : (⟨x, limit, rate, last, used⟩ : Bucket).recap limit rate =
    ⟨x, limit, rate, last, used⟩ := if_neg (by simp)

theorem refilled_eq (below : x ≤ limit) (later : last ≤ now) :
    (⟨x, limit, rate, last, used⟩ : Bucket).refilled now =
      ⟨refill limit rate x (now - last), limit, rate, now, used⟩ := by
  unfold Bucket.refilled
  dsimp only
  split
  · rw [refill, min_def_lt]
  · rename_i missing
    obtain rfl : now = last := by linarith
    rw [refill, sub_self, zero_mul, add_zero, min_eq_right below]

/-- The bucket is one of this policy and was last used at `last`. -/
def Holds (limit rate : ℚ) (last : ℚ) (found : Option Bucket) (b : Option (ℚ × ℚ)) : Prop :=
  (found = none ∧ b = none) ∨
    ∃ x, x ≤ limit ∧ found = some ⟨x, limit, rate, last, last⟩ ∧ b = some (x, last)

variable {b : Option (ℚ × ℚ)}

theorem take_spends (holds : held limit rate now b = x) (below : x ≤ limit) :
    ((⟨x, limit, rate, now, used⟩ : Bucket).take now).2.allowed = (spend limit rate b now).2 ∧
      Holds limit rate now (some ((⟨x, limit, rate, now, used⟩ : Bucket).take now).1)
        (spend limit rate b now).1 := by
  unfold Bucket.take spend
  rw [holds]
  dsimp only
  split
  · exact ⟨rfl, .inr ⟨x - 1, by linarith, rfl, rfl⟩⟩
  · exact ⟨rfl, .inr ⟨x, below, rfl, rfl⟩⟩

theorem Holds.charge {found : Option Bucket}
    (h : Holds limit rate last found b) (later : last ≤ now) :
    (charge found limit rate now).2.allowed = (spend limit rate b now).2 ∧
      Holds limit rate now (some (charge found limit rate now).1) (spend limit rate b now).1 := by
  unfold TokenBucket.charge
  rcases h with ⟨rfl, rfl⟩ | ⟨x, below, rfl, rfl⟩
  · dsimp only [Option.getD_none]
    rw [recap_self, refilled_eq le_rfl le_rfl, sub_self, refill, zero_mul, add_zero, min_self]
    exact take_spends rfl le_rfl
  · dsimp only [Option.getD_some]
    rw [recap_self, refilled_eq below later]
    exact take_spends rfl (Data.TokenBucket.refill_le_cap _)

end Spend

section Forgetting

variable {limit window : ℤ} {key : Key}

theorem sweepLocked_lookup (t : Buckets Key) (now : ℚ) :
    (t.sweepLocked now).buckets.lookup key =
      if before now t.sweepAfter then t.buckets.lookup key
      else (t.buckets.lookup key).filter (Bucket.live now) := by
  unfold Buckets.sweepLocked
  split
  · rfl
  · exact lookup_retain ..

def rateOf (limit window : ℤ) : ℚ := limit / (window / second : ℚ)

/-- The limiter as a process that is called at one time after the other. -/
def call (key : Key) (limit window : ℤ) (t : Buckets Key) (now : ℚ) : Buckets Key × Bool :=
  let (t, answer) := t.Allow key limit window now
  (t, answer.allowed)

/-- The same when nothing is ever swept. -/
def keepCall (limit window : ℤ) (b : Option Bucket) (now : ℚ) : Option Bucket × Bool :=
  let (b, answer) := keep limit window b now
  (b, answer.allowed)

def drops (gap : ℚ) : Bool := decide (bucketIdleTTL < gap)

variable {b : Option (ℚ × ℚ)}

/-- A bucket idle for longer than the limit is always swept: the next sweep is due by then. -/
theorem Holds.sweep {l r last : ℚ} (now : ℚ) {t : Buckets Key}
    (h : Holds l r last (t.buckets.lookup key) b) (soon : ∀ due ∈ t.sweepAfter, due ≤ last + 60) :
    Holds l r last ((t.sweepLocked now).buckets.lookup key)
      (b.filter fun s => !drops (now - s.2)) := by
  rw [sweepLocked_lookup]
  rcases h with ⟨absent, rfl⟩ | ⟨x, below, stored, rfl⟩
  · exact .inl ⟨by simp [absent], rfl⟩
  · rw [stored, Option.filter_some, Option.filter_some]
    by_cases idle : bucketIdleTTL < now - last
    · have due : before now t.sweepAfter = false := by
        cases stamped : t.sweepAfter with
        | none => rfl
        | some due =>
          have := soon due stamped
          have idle' : 600 < now - last := idle
          exact decide_eq_false (by linarith)
      exact .inl ⟨by simp [due, Bucket.live, idle], by simp [drops, idle]⟩
    · exact .inr ⟨x, below, by simp [Bucket.live, idle], by simp [drops, idle]⟩

theorem keepCall_eq_spend (on : 0 < limit) (wide : 0 < window) {ts : List ℚ}
    (order : ts.Pairwise (· ≤ ·)) :
    decisions (keepCall limit window) none ts =
      decisions (spend (limit : ℚ) (rateOf limit window)) none ts := by
  refine decisions_eq (R := Holds limit (rateOf limit window)) ?_ (fun _ => .inl ⟨rfl, rfl⟩) order
  intro last found b now h later
  have step : keepCall limit window found now =
      (some (charge found limit (rateOf limit window) now).1,
        (charge found limit (rateOf limit window) now).2.allowed) := by
    rw [keepCall, keep, if_neg (by omega)]
    rfl
  rw [step]
  exact h.charge later

theorem call_eq_forgetful (on : 0 < limit) (wide : 0 < window) {ts : List ℚ}
    (order : ts.Pairwise (· ≤ ·)) :
    decisions (call key limit window) NewTokenBucket ts =
      decisions (forgetful (limit : ℚ) (rateOf limit window) drops) none ts := by
  -- the next sweep is never more than a minute after the last call
  refine decisions_eq (R := fun last t b => (∀ due ∈ t.sweepAfter, due ≤ last + 60) ∧
    Holds limit (rateOf limit window) last (t.buckets.lookup key) b) ?_ ?_ order
  · rintro last t b now ⟨soon, h⟩ later
    have step : call key limit window t now =
        ({ t.sweepLocked now with
            buckets := (t.sweepLocked now).buckets.insert key
              (charge ((t.sweepLocked now).buckets.lookup key) limit (rateOf limit window) now).1 },
          (charge ((t.sweepLocked now).buckets.lookup key) limit
            (rateOf limit window) now).2.allowed) := by
      rw [call, Buckets.Allow, if_neg (by omega)]
      rfl
    obtain ⟨same, h'⟩ := (h.sweep now soon).charge later
    rw [step]
    refine ⟨same, sweepLocked_sweepAfter later soon, ?_⟩
    rwa [AList.lookup_insert]
  · exact fun since => ⟨fun due h => absurd h (Option.not_mem_none due),
      .inl ⟨AList.lookup_empty _, rfl⟩⟩

end Forgetting

end Hookubit.Worker.TokenBucket
