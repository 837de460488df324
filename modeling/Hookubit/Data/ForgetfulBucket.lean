/- digest: A token bucket whose state is dropped after a pause, against one that is kept. -/

import Hookubit.Data.TokenBucket

set_option autoImplicit false
set_option relaxedAutoImplicit false

namespace Hookubit.Data.ForgetfulBucket

open Data.TokenBucket

universe u v w

section Decisions

variable {τ : Type u} {σ : Type v} {φ : Type w}

def decisions (call : σ → τ → σ × Bool) : σ → List τ → List Bool
  | _, [] => []
  | s, t :: ts => (call s t).2 :: decisions call (call s t).1 ts

def after (call : σ → τ → σ × Bool) (s : σ) (ts : List τ) : σ :=
  ts.foldl (fun s t => (call s t).1) s

theorem decisions_append (call : σ → τ → σ × Bool) (s : σ) (l m : List τ) :
    decisions call s (l ++ m) = decisions call s l ++ decisions call (after call s l) m := by
  induction l generalizing s with
  | nil => rfl
  | cons t l ih => simp only [List.cons_append, decisions, ih, after, List.foldl_cons]

variable [Preorder τ]

theorem decisions_eq {R : τ → φ → σ → Prop} {f : φ → τ → φ × Bool} {g : σ → τ → σ × Bool}
    (step : ∀ last x y now, R last x y → last ≤ now →
      (f x now).2 = (g y now).2 ∧ R now (f x now).1 (g y now).1)
    {x : φ} {y : σ} (start : ∀ since, R since x y) {ts : List τ} (order : ts.Pairwise (· ≤ ·)) :
    decisions f x ts = decisions g y ts := by
  have later : ∀ since x y, R since x y → (∀ t ∈ ts, since ≤ t) →
      decisions f x ts = decisions g y ts := by
    clear start
    induction order with
    | nil => exact fun _ _ _ _ _ => rfl
    | @cons t ts first _ ih =>
      intro since x y related late
      obtain ⟨same, related'⟩ := step since x y t related (late t List.mem_cons_self)
      rw [decisions, decisions, same, ih t _ _ related' first]
  cases ts with
  | nil => rfl
  | cons t ts =>
    refine later t x y (start t) fun t' ht' => ?_
    rcases List.mem_cons.mp ht' with rfl | ht'
    · exact le_rfl
    · exact List.rel_of_pairwise_cons order ht'

end Decisions

variable {K : Type u} [Field K] [LinearOrder K] {n : ℕ} {b : Option (K × K)} {gap : K}

/-- The tokens held, and since when. A bucket that is not there is full. -/
def held (cap rate : K) (now : K) : Option (K × K) → K
  | none => cap
  | some (x, a) => refill cap rate x (now - a)

/-- One call takes one token or none. -/
def spend (cap rate : K) (b : Option (K × K)) (now : K) : Option (K × K) × Bool :=
  if 1 ≤ held cap rate now b then (some (held cap rate now b - 1, now), true)
  else (some (held cap rate now b, now), false)

def forgetful (cap rate : K) (drops : K → Bool) (b : Option (K × K)) (now : K) :
    Option (K × K) × Bool :=
  spend cap rate (b.filter fun s => !drops (now - s.2)) now

variable [IsStrictOrderedRing K] {cap rate : K} {drops : K → Bool}

theorem count_spend_le (hr : 0 ≤ rate) {x a e : K} {ts : List K} (hx : 0 ≤ x)
    (hc : 0 ≤ cap) (ha : a ≤ e) (order : (a :: ts).Pairwise (· ≤ ·)) (last : ∀ t ∈ ts, t ≤ e) :
    ((decisions (spend cap rate) (some (x, a)) ts).count true : K) ≤ x + (e - a) * rate := by
  induction ts generalizing x a with
  | nil =>
    have earned : 0 ≤ (e - a) * rate := mul_nonneg (sub_nonneg.mpr ha) hr
    simpa [decisions] using add_nonneg hx earned
  | cons t ts ih =>
    have later : a ≤ t := List.rel_of_pairwise_cons order List.mem_cons_self
    have late : t ≤ e := last t List.mem_cons_self
    have enough : 0 ≤ refill cap rate x (t - a) := refill_nonneg hc hr hx (sub_nonneg.mpr later)
    have filled : refill cap rate x (t - a) ≤ x + (t - a) * rate := refill_le _
    have rest := fun y (hy : 0 ≤ y) =>
      ih (x := y) hy late (List.Pairwise.of_cons order) fun t' ht' =>
        last t' (List.mem_cons_of_mem _ ht')
    rw [decisions]
    by_cases covered : 1 ≤ refill cap rate x (t - a)
    · have tail := rest _ (sub_nonneg.mpr covered)
      simp only [spend, held, covered, if_true, List.count_cons_self]
      push_cast
      linarith
    · have tail := rest _ enough
      simp only [spend, held, covered, if_false]
      rw [List.count_cons_of_ne Bool.false_ne_true]
      linarith

theorem forgetful_serves (rate : K) (drops : K → Bool) {m : ℕ} (hm : m ≤ n) (now : K)
    (enough : (m : K) ≤ held (n : K) rate now (b.filter fun s => !drops (now - s.2))) :
    decisions (forgetful (n : K) rate drops) b (List.replicate m now) = List.replicate m true ∧
      (0 < m → ∃ x, after (forgetful (n : K) rate drops) b (List.replicate m now) =
        some (x, now)) := by
  induction m generalizing b with
  | zero => exact ⟨rfl, fun h => absurd h (lt_irrefl 0)⟩
  | succ m ih =>
    have one : 1 ≤ held (n : K) rate now (b.filter fun s => !drops (now - s.2)) := by
      refine le_trans ?_ enough
      exact_mod_cast Nat.succ_le_succ (Nat.zero_le m)
    have call : forgetful (n : K) rate drops b now =
        (some (held (n : K) rate now (b.filter fun s => !drops (now - s.2)) - 1, now), true) := by
      rw [forgetful, spend, if_pos one]
    have left : (m : K) ≤ held (n : K) rate now ((some (held (n : K) rate now
        (b.filter fun s => !drops (now - s.2)) - 1, now)).filter fun s => !drops (now - s.2)) := by
      have small : (m : K) ≤ n := by exact_mod_cast (Nat.le_succ m).trans hm
      push_cast at enough
      rw [Option.filter_some]
      split
      · refine le_min small ?_
        simp only [sub_self, zero_mul, add_zero]
        linarith
      · exact small
    obtain ⟨served, kept⟩ := ih ((Nat.le_succ m).trans hm) left
    rw [List.replicate_succ, decisions, call, served]
    refine ⟨rfl, fun _ => ?_⟩
    rw [after, List.foldl_cons, call]
    rcases Nat.eq_zero_or_pos m with rfl | some_left
    · exact ⟨_, rfl⟩
    · exact kept some_left

omit [IsStrictOrderedRing K] in
theorem spend_congr {b' : Option (K × K)} {now : K}
    (same : held cap rate now b = held cap rate now b') :
    spend cap rate b now = spend cap rate b' now := by
  rw [spend, same, spend]

theorem spend_nonneg (hc : 0 ≤ cap) (hr : 0 ≤ rate) {now : K} (known : ∀ s ∈ b, 0 ≤ s.1 ∧
      s.2 ≤ now) :
    ∀ s ∈ (spend cap rate b now).1, 0 ≤ s.1 ∧ s.2 ≤ now := by
  have enough : 0 ≤ held cap rate now b := by
    cases b with
    | none => exact hc
    | some s =>
      obtain ⟨hx, ha⟩ := known s rfl
      exact refill_nonneg hc hr hx (sub_nonneg.mpr ha)
  unfold spend
  split
  · rename_i covered
    rintro s ⟨⟩
    exact ⟨sub_nonneg.mpr covered, le_rfl⟩
  · rintro s ⟨⟩
    exact ⟨enough, le_rfl⟩

theorem forgetful_eq_spend (hc : 0 ≤ cap) (hr : 0 ≤ rate)
    (filled : ∀ gap, drops gap = true → cap ≤ gap * rate) {ts : List K}
    (order : ts.Pairwise (· ≤ ·)) :
    decisions (forgetful cap rate drops) none ts = decisions (spend cap rate) none ts := by
  refine decisions_eq
    (R := fun last b b' => b = b' ∧ ∀ s ∈ b, 0 ≤ s.1 ∧ s.2 ≤ last) ?_ ?_ order
  · rintro last b _ now ⟨rfl, known⟩ later
    have known' : ∀ s ∈ b, 0 ≤ s.1 ∧ s.2 ≤ now :=
      fun s hs => ⟨(known s hs).1, (known s hs).2.trans later⟩
    have call : forgetful cap rate drops b now = spend cap rate b now := by
      cases b with
      | none => rfl
      | some s =>
        refine spend_congr ?_
        rw [Option.filter_some]
        split
        · rfl
        · rename_i dropped
          have full := filled (now - s.2) (by simpa using dropped)
          have full' : cap ≤ s.1 + (now - s.2) * rate := full.trans
            (le_add_of_nonneg_left (known s rfl).1)
          exact (refill_eq_cap full').symm
    rw [call]
    exact ⟨rfl, rfl, spend_nonneg hc hr known'⟩
  · exact fun since => ⟨rfl, fun s hs => absurd hs (Option.not_mem_none s)⟩

def bursts (n : ℕ) (gap : K) : List K := List.replicate n 0 ++ List.replicate n gap

omit [IsStrictOrderedRing K] in
theorem le_of_mem_bursts {t : K} (pause : 0 ≤ gap) (ht : t ∈ bursts n gap) : 0 ≤ t ∧ t ≤ gap := by
  simp only [bursts, List.mem_append, List.mem_replicate] at ht
  rcases ht with ⟨-, rfl⟩ | ⟨-, rfl⟩
  · exact ⟨le_rfl, pause⟩
  · exact ⟨pause, le_rfl⟩

omit [IsStrictOrderedRing K] in
theorem bursts_order (n : ℕ) (pause : 0 ≤ gap) : (bursts n gap).Pairwise (· ≤ ·) := by
  rw [bursts, List.pairwise_append]
  simp only [List.mem_replicate, List.pairwise_replicate]
  refine ⟨.inr le_rfl, .inr le_rfl, ?_⟩
  rintro a ⟨-, rfl⟩ b ⟨-, rfl⟩
  exact pause

theorem forgetful_serves_twice (hn : 1 ≤ n) (dropped : drops gap = true) :
    decisions (forgetful (n : K) rate drops) none (bursts n gap) =
      List.replicate (n + n) true := by
  obtain ⟨first, kept⟩ := forgetful_serves rate drops (le_refl n) (0 : K)
    (b := none) le_rfl
  obtain ⟨x, stored⟩ := kept hn
  have empty : (some (x, (0 : K))).filter (fun s => !drops (gap - s.2)) = none := by
    rw [Option.filter_some, sub_zero, dropped]
    rfl
  obtain ⟨second, -⟩ := forgetful_serves rate drops (le_refl n) gap
    (b := some (x, 0)) (by rw [empty]; exact le_rfl)
  rw [bursts, decisions_append, first, stored, second, List.replicate_append_replicate]

theorem count_spend_twice_le (hn : 1 ≤ n) (hr : 0 ≤ rate) (pause : 0 ≤ gap) :
    ((decisions (spend (n : K) rate) none (bursts n gap)).count true : K) ≤ n + gap * rate := by
  obtain ⟨m, rfl⟩ : ∃ m, n = m + 1 := ⟨n - 1, by omega⟩
  have full : held ((m + 1 : ℕ) : K) rate 0 none =
      held ((m + 1 : ℕ) : K) rate 0 (some (((m + 1 : ℕ) : K), 0)) := by
    simp [held, refill]
  have start : decisions (spend ((m + 1 : ℕ) : K) rate) none (bursts (m + 1) gap) =
      decisions (spend ((m + 1 : ℕ) : K) rate) (some (((m + 1 : ℕ) : K), 0))
        (bursts (m + 1) gap) := by
    rw [bursts, List.replicate_succ, List.cons_append, decisions, decisions, spend_congr full]
  have room : (0 : K) ≤ (m + 1 : ℕ) := Nat.cast_nonneg _
  have order : (0 :: bursts (m + 1) gap).Pairwise (· ≤ ·) :=
    List.pairwise_cons.mpr ⟨fun t ht => (le_of_mem_bursts pause ht).1, bursts_order _ pause⟩
  have paid := count_spend_le hr room room pause order fun t ht => (le_of_mem_bursts pause ht).2
  rw [sub_zero] at paid
  rwa [start]

/-- Dropping a bucket goes unnoticed exactly if no pause after which it is dropped is too short to
fill it. -/
theorem forgetful_agrees_iff (drops : K → Bool) (hn : 1 ≤ n) (hr : 0 < rate)
    (pauses : ∀ gap, drops gap = true → 0 ≤ gap) : (∀ ts : List K, ts.Pairwise (· ≤ ·) →
        decisions (forgetful (n : K) rate drops) none ts = decisions (spend (n : K) rate) none ts) ↔
      ∀ gap, drops gap = true → (n : K) ≤ gap * rate := by
  constructor
  · intro agrees gap dropped
    have pause := pauses gap dropped
    have paid := count_spend_twice_le hn hr.le pause
    rw [← agrees _ (bursts_order n pause), forgetful_serves_twice hn dropped,
      List.count_replicate_self] at paid
    push_cast at paid
    linarith
  · exact fun filled ts order => forgetful_eq_spend (Nat.cast_nonneg n) hr.le filled order

end Hookubit.Data.ForgetfulBucket
