/- sources: ingest/source.go (SourceLimiter, SourceLimits, NewSourceLimiter, Allow, Penalise);
     ingest/handler.go (accept)
   digest: What requests with a bad credential cost the address they come from. -/

import Hookubit.Ratelimit.Bucket
import Hookubit.Ratelimit.Policy

set_option autoImplicit false
set_option relaxedAutoImplicit false

namespace Hookubit.Ingest.SourceLimit

open Data.TokenBucket Ratelimit.Bucket
open Ratelimit.Policy (second)

variable {Key : Type}

structure SourceLimiter (Key : Type) where
  buckets : Local Key
  capacity : ℚ
  rate : ℚ
  /-- Charged in addition when a request fails authentication. -/
  penalty : ℚ

/-- The window is a duration in nanoseconds. -/
structure SourceLimits where
  Limit : ℤ
  Window : ℤ
  Burst : ℤ
  Penalty : ℤ

def SourceLimits.capacity (limits : SourceLimits) : ℤ :=
  if limits.Limit < limits.Burst then limits.Burst else limits.Limit

def SourceLimits.rate (limits : SourceLimits) : ℚ := limits.Limit / (limits.Window / second : ℚ)

/-- A limit that is switched off has no limiter. -/
def NewSourceLimiter (limits : SourceLimits) : Option (SourceLimiter Key) :=
  if limits.Limit ≤ 0 ∨ limits.Window ≤ 0 then none
  else some {
    buckets := NewLocal 0
    capacity := limits.capacity
    rate := limits.rate
    penalty := if limits.Penalty < 0 then 0 else limits.Penalty }

variable {limits : SourceLimits}

theorem SourceLimits.capacity_pos (on : 0 < limits.Limit) : 0 < limits.capacity := by
  unfold SourceLimits.capacity
  split
  · omega
  · exact on

theorem SourceLimits.rate_pos (on : 0 < limits.Limit) (window : 0 < limits.Window) :
    0 < limits.rate :=
  Hookubit.Ratelimit.Policy.rate_pos on window

theorem NewSourceLimiter_eq (on : 0 < limits.Limit) (window : 0 < limits.Window)
    (penalty : 0 ≤ limits.Penalty) : (NewSourceLimiter limits : Option (SourceLimiter Key)) =
      some ⟨NewLocal 0, limits.capacity, limits.rate, limits.Penalty⟩ := by
  unfold NewSourceLimiter
  rw [if_neg (by omega), if_neg penalty.not_gt]

variable [DecidableEq Key]

def SourceLimiter.charge (order : AgeOrder Key) (s : SourceLimiter Key) (addr : Key)
    (now cost : ℚ) : SourceLimiter Key × Answer :=
  let (buckets, answer) := s.buckets.Allow order addr now s.capacity s.rate cost
  ({ s with buckets := buckets }, answer)

def Allow (order : AgeOrder Key) (addr : Key) (now : ℚ) :
    Option (SourceLimiter Key) → Option (SourceLimiter Key) × Answer
  | none => (none, ⟨true, 0⟩)
  | some s =>
      let (s, answer) := s.charge order addr now 1
      (some s, answer)

/-- The answer is dropped: the request is being refused anyway. -/
def Penalise (order : AgeOrder Key) (addr : Key) (now : ℚ) :
    Option (SourceLimiter Key) → Option (SourceLimiter Key)
  | none => none
  | some s => if s.penalty ≤ 0 then some s else some (s.charge order addr now s.penalty).1

/-- A request with a credential that turns out to be bad, and when that is known. -/
structure Attempt where
  arrives : ℚ
  failed : ℚ

/-- What `accept` does for it: the ceiling, then the failed authentication's penalty. -/
def attempt (order : AgeOrder Key) (addr : Key) (s : Option (SourceLimiter Key)) (a : Attempt) :
    Option (SourceLimiter Key) × Bool :=
  let (s, answer) := Allow order addr a.arrives s
  if answer.allowed then (Penalise order addr a.failed s, true) else (s, false)

/-- Each attempt and whether it was admitted. -/
def attempts (order : AgeOrder Key) (addr : Key) :
    Option (SourceLimiter Key) → List Attempt → List (Attempt × Bool)
  | _, [] => []
  | s, a :: l =>
      let (s, admitted) := attempt order addr s a
      (a, admitted) :: attempts order addr s l

/-- The attempts come one after the other. -/
def InTime : ℚ → List Attempt → Prop
  | _, [] => True
  | since, a :: l => since ≤ a.arrives ∧ a.arrives ≤ a.failed ∧ InTime a.failed l

/-- How many attempts were admitted from one instant to another. -/
def admittedDuring (s e : ℚ) (log : List (Attempt × Bool)) : ℕ :=
  log.countP fun d => d.2 && decide (s ≤ d.1.arrives ∧ d.1.arrives ≤ e)

/-- An address that was away for longer than its bucket is kept has a full one. -/
def SourceLimiter.Rested (s : SourceLimiter Key) (addr : Key) (now : ℚ) : Prop :=
  ∀ entry ∈ s.buckets.buckets.lookup addr, localIdleTTL < now - entry.lastUsed →
    entry.state.available now s.capacity s.rate = s.capacity

/-- The bucket holds the penalty when it is due. -/
def SourceLimiter.Solvent (s : SourceLimiter Key) (addr : Key) (now : ℚ) : Prop :=
  ∀ entry ∈ s.buckets.buckets.lookup addr, s.penalty ≤ entry.state.available now s.capacity s.rate

/-- Every penalty is covered when it is charged, and only full buckets are forgotten. -/
def Covered (order : AgeOrder Key) (addr : Key) : Option (SourceLimiter Key) → List Attempt → Prop
  | _, [] => True
  | none, _ => True
  | some s, a :: l =>
      s.Rested addr a.arrives ∧
        ((s.charge order addr a.arrives 1).2.allowed = true →
          (s.charge order addr a.arrives 1).1.Rested addr a.failed ∧
          (s.charge order addr a.arrives 1).1.Solvent addr a.failed) ∧
        Covered order addr (attempt order addr (some s) a).1 l

instance SourceLimiter.decidableRested (s : SourceLimiter Key) (addr : Key) (now : ℚ) :
    Decidable (s.Rested addr now) :=
  inferInstanceAs (Decidable (∀ entry ∈ s.buckets.buckets.lookup addr,
    localIdleTTL < now - entry.lastUsed →
      entry.state.available now s.capacity s.rate = s.capacity))

instance SourceLimiter.decidableSolvent (s : SourceLimiter Key) (addr : Key) (now : ℚ) :
    Decidable (s.Solvent addr now) :=
  inferInstanceAs (Decidable (∀ entry ∈ s.buckets.buckets.lookup addr,
    s.penalty ≤ entry.state.available now s.capacity s.rate))

instance decidableCovered (order : AgeOrder Key) (addr : Key) : (s : Option (SourceLimiter Key)) →
    (l : List Attempt) → Decidable (Covered order addr s l)
  | none, [] => inferInstanceAs (Decidable True)
  | some _, [] => inferInstanceAs (Decidable True)
  | none, _ :: _ => inferInstanceAs (Decidable True)
  | some s, a :: l =>
      haveI := decidableCovered order addr (attempt order addr (some s) a).1 l
      inferInstanceAs (Decidable (s.Rested addr a.arrives ∧
        ((s.charge order addr a.arrives 1).2.allowed = true →
          (s.charge order addr a.arrives 1).1.Rested addr a.failed ∧
          (s.charge order addr a.arrives 1).1.Solvent addr a.failed) ∧
        Covered order addr (attempt order addr (some s) a).1 l))

/-- What the admitted attempts are to be charged, and when. -/
def charges (penalty : ℚ) : List (Attempt × Bool) → List (ℚ × ℚ)
  | [] => []
  | (a, true) :: log => (a.arrives, 1) :: (a.failed, penalty) :: charges penalty log
  | (a, false) :: log => (a.arrives, 0) :: charges penalty log

section Draws

variable {order : AgeOrder Key} {addr : Key} {s : SourceLimiter Key} {x last now cost : ℚ}

/-- The address has `x` tokens at `last`. One without a bucket has a full one. -/
structure Level (s : SourceLimiter Key) (addr : Key) (x last : ℚ) : Prop where
  nonneg : 0 ≤ x
  stored : s.buckets.buckets.lookup addr = some ⟨⟨x, some last⟩, last⟩ ∨
    s.buckets.buckets.lookup addr = none ∧ x = s.capacity

theorem Level.available_eq (h : Level s addr x last) (hr : 0 < s.rate) (later : last ≤ now)
    (rested : s.Rested addr now) :
    (s.buckets.found addr now).available now s.capacity s.rate =
      refill s.capacity s.rate x (now - last) := by
  rcases h.stored with known | ⟨unknown, rfl⟩
  · rw [available_found known (rested _ known), available_of_le rfl later]
  · have earned : 0 ≤ (now - last) * s.rate := mul_nonneg (sub_nonneg.mpr later) hr.le
    rw [found_of_absent unknown, available_of_none rfl, refill_eq_cap (by linarith)]

theorem Level.of_stored (nonneg : 0 ≤ x)
    (stored : s.buckets.buckets.lookup addr = some ⟨⟨x, some last⟩, last⟩) : Level s addr x last :=
  ⟨nonneg, .inl stored⟩

theorem Level.charge (h : Level s addr x last) (order : AgeOrder Key) (hc : 0 < s.capacity)
    (hr : 0 < s.rate)
    (hq : 0 < cost) (later : last ≤ now) (rested : s.Rested addr now) :
    (s.charge order addr now cost).2.charged cost ≤ refill s.capacity s.rate x (now - last) ∧
      (s.charge order addr now cost).1.buckets.buckets.lookup addr =
        some ⟨⟨refill s.capacity s.rate x (now - last) -
          (s.charge order addr now cost).2.charged cost, some now⟩, now⟩ ∧
      ((s.charge order addr now cost).2.allowed = true ↔
        cost ≤ refill s.capacity s.rate x (now - last)) := by
  have found := h.available_eq hr later rested
  have answer : (s.charge order addr now cost).2 =
      (Take (s.buckets.found addr now) now s.capacity s.rate cost).2 := Allow_answer
  have enough := refill_nonneg hc.le hr.le h.nonneg (sub_nonneg.mpr later)
  have paid := charged_le_available hc hr hq (found ▸ enough)
  rw [found] at paid
  rw [answer]
  refine ⟨paid, ?_, ?_⟩
  · refine Allow_lookup.trans ?_
    rw [Take_state hc hr hq, found]
  · rw [Take_allowed_iff hc hr hq, found]

theorem InTime.mono {l : List Attempt} {since : ℚ} (h : InTime last l) (earlier : since ≤ last) :
    InTime since l := by
  cases l with
  | nil => trivial
  | cons a l => exact ⟨earlier.trans h.1, h.2⟩

theorem draws_of_covered {l : List Attempt} (hc : 0 < s.capacity) (hr : 0 < s.rate)
    (hp : 0 < s.penalty) (level : Level s addr x last) (times : InTime last l)
    (covered : Covered order addr (some s) l) :
    ∃ y b, Draws s.capacity s.rate x last (charges s.penalty (attempts order addr (some s) l))
      y b := by
  induction l generalizing s x last with
  | nil => exact ⟨x, last, .nil ..⟩
  | cons a l ih =>
    obtain ⟨since, wait, times⟩ := times
    obtain ⟨rested, penalty, covered⟩ := covered
    obtain ⟨paid, stored, -⟩ := level.charge order hc hr one_pos since rested
    have level' := Level.of_stored (sub_nonneg.mpr paid) stored
    cases answer : (s.charge order addr a.arrives 1).2.allowed with
    | false =>
      have step : attempt order addr (some s) a =
          (some (s.charge order addr a.arrives 1).1, false) := by
        simp [attempt, Allow, answer]
      rw [Answer.charged, answer, if_neg Bool.false_ne_true] at paid level'
      rw [step] at covered
      obtain ⟨y, b, rest⟩ := ih (s := (s.charge order addr a.arrives 1).1) hc hr hp level'
        (times.mono wait) covered
      refine ⟨y, b, ?_⟩
      rw [attempts, step]
      exact .cons since le_rfl paid rest
    | true =>
      obtain ⟨rested', solvent⟩ := penalty answer
      rw [Answer.charged, answer, if_pos rfl] at paid stored level'
      obtain ⟨owed, stored', allowed⟩ := level'.charge order
        (s := (s.charge order addr a.arrives 1).1) hc hr hp wait rested'
      -- what is held when the penalty is due covers it, so it is paid in full
      have enough := solvent _ stored
      rw [available_of_le rfl wait] at enough
      have full := allowed.mpr enough
      have level'' := Level.of_stored (sub_nonneg.mpr owed) stored'
      rw [Answer.charged, if_pos full] at owed level''
      have step : attempt order addr (some s) a = (some ((s.charge order addr a.arrives 1).1.charge
          order addr a.failed s.penalty).1, true) := by
        simp only [attempt, Allow, answer, if_true, Penalise]
        rw [if_neg]
        · rfl
        · exact hp.not_ge
      rw [step] at covered
      obtain ⟨y, b, rest⟩ := ih (s := ((s.charge order addr a.arrives 1).1.charge
        order addr a.failed s.penalty).1) hc hr hp level'' times covered
      refine ⟨y, b, ?_⟩
      rw [attempts, step]
      exact .cons since zero_le_one paid (.cons wait hp.le owed rest)

end Draws

section Count

variable {s e since p : ℚ} {log : List (Attempt × Bool)}

theorem attempts_fst (order : AgeOrder Key) (addr : Key) (limiter : Option (SourceLimiter Key))
    (l : List Attempt) : (attempts order addr limiter l).map Prod.fst = l := by
  induction l generalizing limiter with
  | nil => rfl
  | cons a l ih => simp only [attempts, List.map_cons, ih]

theorem charges_nonneg (log : List (Attempt × Bool)) (hp : 0 ≤ p) :
    ∀ d ∈ charges p log, 0 ≤ d.2 := by
  fun_induction charges p log with
  | case1 => simp
  | case2 a log ih => simpa [hp] using ih
  | case3 a log ih => simpa using ih

theorem admittedDuring_cons (a : Attempt) (admitted : Bool) :
    admittedDuring s e ((a, admitted) :: log) = admittedDuring s e log +
      if admitted = true ∧ s ≤ a.arrives ∧ a.arrives ≤ e then 1 else 0 := by
  simp [admittedDuring, List.countP_cons]

theorem admittedDuring_eq_zero (times : InTime since (log.map Prod.fst)) (past : e < since) :
    admittedDuring s e log = 0 := by
  induction log generalizing since with
  | nil => rfl
  | cons d log ih =>
    obtain ⟨later, wait, times⟩ := times
    have past' : e < d.1.arrives := lt_of_lt_of_le past later
    rw [admittedDuring_cons d.1 d.2, ih times (lt_of_lt_of_le past' wait),
      if_neg fun h => past'.not_ge h.2.2]

theorem admittedDuring_mul_le (hp : 0 ≤ p) (times : InTime since (log.map Prod.fst)) :
    (1 + p) * admittedDuring s e log ≤ Draws.during s e (charges p log) + p := by
  induction log generalizing since with
  | nil => simpa [admittedDuring, charges, Draws.during] using hp
  | cons d log ih =>
    obtain ⟨a, admitted⟩ := d
    obtain ⟨-, wait, times⟩ := times
    have rest := ih times
    have charged := Draws.during_nonneg s e (charges_nonneg log hp)
    rw [admittedDuring_cons]
    cases admitted with
    | false =>
      simpa [charges, Draws.during_cons_zero] using rest
    | true =>
      rw [charges]
      by_cases inside : s ≤ a.arrives ∧ a.arrives ≤ e
      · rw [if_pos ⟨rfl, inside⟩, Draws.during_cons_in inside.1 inside.2]
        rcases le_or_gt a.failed e with paid | late
        · rw [Draws.during_cons_in (inside.1.trans wait) paid]
          push_cast
          linarith
        · rw [admittedDuring_eq_zero times late, Draws.during_cons_out (.inr late)]
          push_cast
          linarith
      · rw [if_neg fun h => inside h.2, add_zero]
        have more := Draws.during_le_cons s e (l := charges p log) (d := (a.failed, p)) hp
        have more' := Draws.during_le_cons s e (l := (a.failed, p) :: charges p log)
          (d := (a.arrives, (1 : ℚ))) zero_le_one
        linarith

end Count

/-- As long as every penalty is covered when it falls due, and only a full bucket is forgotten, the
penalty bounds how many bad credentials an address can try in any time. -/
theorem admitted_le_of_covered (order : AgeOrder Key) (addr : Key) (limits : SourceLimits)
    (on : 0 < limits.Limit) (window : 0 < limits.Window) (penalty : 1 ≤ limits.Penalty)
    (l : List Attempt) (since : ℚ) (times : InTime since l)
    (covered : Covered order addr (NewSourceLimiter limits) l) (start T : ℚ) (hT : 0 ≤ T) :
    (admittedDuring start (start + T) (attempts order addr (NewSourceLimiter limits) l) : ℚ) ≤
      (limits.capacity + limits.rate * T) / (1 + limits.Penalty) + 1 := by
  have hp : (1 : ℚ) ≤ limits.Penalty := by exact_mod_cast penalty
  have hc : (0 : ℚ) < limits.capacity := Int.cast_pos.mpr (SourceLimits.capacity_pos on)
  have hr := SourceLimits.rate_pos on window
  rw [NewSourceLimiter_eq on window (by omega)] at covered ⊢
  have level : Level ⟨NewLocal 0, limits.capacity, limits.rate, limits.Penalty⟩ addr
      limits.capacity since := ⟨hc.le, .inr ⟨AList.lookup_empty _, rfl⟩⟩
  obtain ⟨y, b, draws⟩ := draws_of_covered hc hr (zero_lt_one.trans_le hp) level times covered
  have drawn := draws.during_le (s := start) (e := start + T) hc.le hr.le hc.le le_rfl (by linarith)
  have times' : InTime since ((attempts order addr (some ⟨NewLocal 0, limits.capacity, limits.rate,
      limits.Penalty⟩) l).map Prod.fst) := by
    rwa [attempts_fst]
  have count := admittedDuring_mul_le (s := start) (e := start + T) (zero_le_one.trans hp) times'
  dsimp only at drawn
  rw [← sub_le_iff_le_add, le_div_iff₀ (by linarith)]
  linarith

/-- Two requests a second, room for two, and a penalty of one. -/
def tight : SourceLimits := ⟨2, second, 2, 1⟩

/-- One attempt every half second. -/
def spray : List Attempt := [⟨0, 0⟩, ⟨1 / 2, 1 / 2⟩, ⟨1, 1⟩, ⟨3 / 2, 3 / 2⟩, ⟨2, 2⟩]

/-- Once the bucket holds less than request and penalty together, the request is paid and the
penalty is not: five attempts in two seconds, where four are allowed for. -/
theorem spray_outruns_penalty :
    0 < tight.Limit ∧ 0 < tight.Window ∧ 1 ≤ tight.Penalty ∧ 1 + tight.Penalty ≤ tight.capacity ∧
      InTime 0 spray ∧
      admittedDuring 0 2 (attempts (.stable Unit) () (NewSourceLimiter tight) spray) = 5 ∧
      (tight.capacity + tight.rate * 2) / (1 + tight.Penalty) + 1 = 4 := by
  refine ⟨by decide, by decide, by decide, by decide, ?_, by decide +kernel, ?_⟩
  · norm_num [InTime, spray]
  · norm_num [tight, SourceLimits.capacity, SourceLimits.rate, second]

/-- The first two attempts of the same address a second apart find the penalty covered. -/
theorem admitted_le_of_covered_two :
    (admittedDuring 0 (0 + 1) (attempts (.stable Unit) () (NewSourceLimiter tight)
      [⟨0, 0⟩, ⟨1, 1⟩]) : ℚ) ≤ (tight.capacity + tight.rate * 1) / (1 + tight.Penalty) + 1 :=
  admitted_le_of_covered (.stable Unit) () tight (by decide) (by decide) (by decide)
    [⟨0, 0⟩, ⟨1, 1⟩] 0 (by norm_num [InTime]) (by decide +kernel) 0 1 zero_le_one

end Hookubit.Ingest.SourceLimit
