/- sources: ratelimit/bucket.go (Local.Allow, Take)
   digest: How many calls one bucket admits when they read the clock before they take the lock. -/

import Hookubit.Automata.LabelledSystem
import Hookubit.Ratelimit.Bucket

set_option autoImplicit false
set_option relaxedAutoImplicit false

namespace Hookubit.Ratelimit.Admission

open Automata.LabelledSystem Data.TokenBucket Ratelimit.Bucket

variable {Key : Type} [DecidableEq Key]

/-- The bucket that every call is for. -/
structure Shared (Key : Type) where
  order : AgeOrder Key
  max : ℤ
  key : Key
  capacity : ℚ
  rate : ℚ
  capacity_pos : 0 < capacity
  rate_pos : 0 < rate

/-- Calls that have read the clock and wait for the lock, and those that have been answered. -/
structure Calls (Key : Type) where
  clock : ℚ
  waiting : List ℚ
  buckets : Local Key
  answered : List (ℚ × Bool)

inductive Op
  | tick (elapsed : ℚ)
  | read
  | lock (i : ℕ)

/-- The call with this reading runs to its end under the lock. -/
def Calls.serve (p : Shared Key) (s : Calls Key) (now : ℚ) : Calls Key :=
  let (buckets, answer) := s.buckets.Allow p.order p.key now p.capacity p.rate 1
  { s with buckets := buckets, answered := (now, answer.allowed) :: s.answered }

def next (p : Shared Key) (s : Calls Key) : Op → Option (Calls Key)
  | .tick elapsed => if 0 ≤ elapsed then some { s with clock := s.clock + elapsed } else none
  | .read => some { s with waiting := s.clock :: s.waiting }
  | .lock i => s.waiting[i]?.map fun now =>
      { s.serve p now with waiting := s.waiting.eraseIdx i }

def Starts (p : Shared Key) (s : Calls Key) : Prop :=
  s.waiting = [] ∧ s.buckets = NewLocal p.max ∧ s.answered = []

def system (p : Shared Key) : System (Calls Key) Op := .ofStep (Starts p) (next p)

/-- The clock readings of the calls that have been answered, latest answer first. -/
def Calls.readings (s : Calls Key) : List ℚ := s.answered.map Prod.fst

def Calls.admitted (s : Calls Key) : ℕ := s.answered.countP Prod.snd

/-- From the earliest reading to the latest one. -/
def Calls.spread (s : Calls Key) : ℚ := s.readings.max?.getD 0 - s.readings.min?.getD 0

/-- No two readings are further apart than an idle bucket is kept. -/
def Calls.Close (s : Calls Key) : Prop :=
  ∀ a ∈ s.readings, ∀ b ∈ s.readings, a - b ≤ localIdleTTL

/-- No more calls were admitted than a full bucket and what it earned can pay for. -/
def Calls.Bounded (p : Shared Key) (s : Calls Key) : Prop :=
  s.admitted ≤ p.capacity + p.rate * s.spread

/-- The call about to run read the clock no earlier than the one that ran before it. -/
def InOrder (p : Shared Key) (s : Calls Key) : Op → Prop
  | .lock i => ∀ now ∈ s.waiting[i]?, ∀ entry ∈ s.buckets.buckets.lookup p.key,
      ∀ last ∈ entry.state.At, last ≤ now
  | _ => True

instance decidableInOrder (p : Shared Key) (s : Calls Key) : (op : Op) → Decidable (InOrder p s op)
  | .lock i => inferInstanceAs (Decidable (∀ now ∈ s.waiting[i]?,
      ∀ entry ∈ s.buckets.buckets.lookup p.key, ∀ last ∈ entry.state.At, last ≤ now))
  | .tick _ => inferInstanceAs (Decidable True)
  | .read => inferInstanceAs (Decidable True)

section Accounts

variable {p : Shared Key} {s t : Calls Key}

theorem next_cases {op : Op} (h : next p s op = some t) :
    (t.buckets = s.buckets ∧ t.answered = s.answered) ∨
      ∃ i now, op = .lock i ∧ s.waiting[i]? = some now ∧
        t.buckets = (s.serve p now).buckets ∧ t.answered = (s.serve p now).answered := by
  cases op with
  | tick elapsed =>
    simp only [next] at h
    split at h
    · cases h
      exact .inl ⟨rfl, rfl⟩
    · cases h
  | read =>
    cases h
    exact .inl ⟨rfl, rfl⟩
  | lock i =>
    obtain ⟨now, reads, rfl⟩ := Option.map_eq_some_iff.mp h
    exact .inr ⟨i, now, rfl, reads, rfl, rfl⟩

/-- What is left in the bucket and what was admitted, against what it started with and earned. -/
inductive Accounted (p : Shared Key) (s : Calls Key) : Prop
  | unseen (nothing : s.answered = []) (absent : s.buckets.buckets.lookup p.key = none)
  | seen (first last tokens : ℚ)
      (stored : s.buckets.buckets.lookup p.key = some ⟨⟨tokens, some last⟩, last⟩)
      (nonneg : 0 ≤ tokens)
      (paid : tokens + s.admitted ≤ p.capacity + p.rate * (last - first))
      (first_mem : first ∈ s.readings) (last_mem : last ∈ s.readings)
      (between : ∀ r ∈ s.readings, first ≤ r ∧ r ≤ last)

theorem serve_readings {now : ℚ} : (s.serve p now).readings = now :: s.readings := rfl

theorem admit_accounts {now tokens : ℚ} {state : State}
    (found : s.buckets.found p.key now = state)
    (holds : state.available now p.capacity p.rate = tokens) (nonneg : 0 ≤ tokens) :
    ∃ left : ℚ, 0 ≤ left ∧
      (s.serve p now).buckets.buckets.lookup p.key = some ⟨⟨left, some now⟩, now⟩ ∧
      left + (s.serve p now).admitted = tokens + s.admitted := by
  subst found holds
  have hq : (0 : ℚ) < 1 := one_pos
  refine ⟨_, sub_nonneg.mpr (charged_le_available p.capacity_pos p.rate_pos hq nonneg), ?_, ?_⟩
  · exact Allow_lookup.trans (by rw [Take_state p.capacity_pos p.rate_pos hq])
  · have answer : (s.serve p now).answered =
        (now, (Take (s.buckets.found p.key now) now p.capacity p.rate 1).2.allowed) ::
          s.answered := by
      rw [← Allow_answer]
      rfl
    rw [Calls.admitted, answer, List.countP_cons, Calls.admitted, Answer.charged]
    dsimp only
    split <;> simp

theorem Accounted.serve {now : ℚ} (h : Accounted p s) (close : (s.serve p now).Close)
    (ordered : ∀ entry ∈ s.buckets.buckets.lookup p.key, ∀ last ∈ entry.state.At, last ≤ now) :
    Accounted p (s.serve p now) := by
  cases h with
  | unseen nothing absent =>
    obtain ⟨left, hl, stored, paid⟩ := admit_accounts (found_of_absent absent)
      (available_of_none rfl) p.capacity_pos.le
    have only : (s.serve p now).readings = [now] := by
      rw [serve_readings, Calls.readings, nothing, List.map_nil]
    refine .seen now now left stored hl ?_ ?_ ?_ ?_
    · rw [paid, Calls.admitted, nothing]
      simp
    all_goals simp [only]
  | seen first last tokens stored nonneg paid first_mem last_mem between =>
    have later : last ≤ now := ordered _ stored last rfl
    have recent : now - last ≤ localIdleTTL := by
      refine close now ?_ last ?_
      · exact List.mem_cons_self
      · exact List.mem_cons_of_mem _ last_mem
    have elapsed : 0 ≤ now - last := sub_nonneg.mpr later
    obtain ⟨left, hl, stored', paid'⟩ := admit_accounts (found_of_live stored recent)
      (available_of_le rfl later)
      (refill_nonneg p.capacity_pos.le p.rate_pos.le nonneg elapsed)
    refine .seen first now left stored' hl ?_ (List.mem_cons_of_mem _ first_mem)
      List.mem_cons_self ?_
    · have earned : refill p.capacity p.rate tokens (now - last) ≤
          tokens + (now - last) * p.rate := refill_le _
      rw [paid']
      linarith
    · intro r hr
      rcases List.mem_cons.mp hr with rfl | hr
      · exact ⟨(between last last_mem).1.trans later, le_rfl⟩
      · exact ⟨(between r hr).1, (between r hr).2.trans later⟩

theorem Accounted.bounded (h : Accounted p s) : s.Bounded p := by
  unfold Calls.Bounded Calls.spread
  cases h with
  | unseen nothing _ =>
    rw [Calls.admitted, Calls.readings, nothing]
    simpa using p.capacity_pos.le
  | seen first last tokens _ nonneg paid first_mem last_mem between =>
    have latest : s.readings.max? = some last :=
      List.max?_eq_some_iff.mpr ⟨last_mem, fun r hr => (between r hr).2⟩
    have earliest : s.readings.min? = some first :=
      List.min?_eq_some_iff.mpr ⟨first_mem, fun r hr => (between r hr).1⟩
    rw [latest, earliest]
    simp only [Option.getD_some]
    linarith

theorem Accounted.congr (h : Accounted p s) (buckets : t.buckets = s.buckets)
    (answered : t.answered = s.answered) : Accounted p t := by
  cases h with
  | unseen nothing absent => exact .unseen (answered ▸ nothing) (buckets ▸ absent)
  | seen first last tokens stored nonneg paid first_mem last_mem between =>
    have readings : t.readings = s.readings := by rw [Calls.readings, answered, Calls.readings]
    have admitted : t.admitted = s.admitted := by rw [Calls.admitted, answered, Calls.admitted]
    exact .seen first last tokens (buckets ▸ stored) nonneg (admitted ▸ paid)
      (readings ▸ first_mem) (readings ▸ last_mem) (readings ▸ between)

end Accounts

/-- As long as each call under the lock read the clock no earlier than the one before it, the
bucket never admits more than its capacity and what it earns between the readings. -/
theorem admitted_le_of_in_order (p : Shared Key) {s : Calls Key}
    (reach : Reachable ((system p).constrain fun s op _ => InOrder p s op) s) (close : s.Close) :
    s.Bounded p := by
  -- closeness of later readings is closeness of earlier ones, so it stands inside the invariant
  have accounts : s.Close → Accounted p s := by
    refine reach.invariant (I := fun s => s.Close → Accounted p s) ?_ ?_
    · rintro s ⟨-, fresh, nothing⟩ -
      exact .unseen nothing (by rw [fresh]; exact AList.lookup_empty _)
    · rintro s op t ih ⟨step, ordered⟩ close
      rcases next_cases step with ⟨buckets, answered⟩ | ⟨i, now, rfl, reads, buckets, answered⟩
      · refine (ih ?_).congr buckets answered
        simpa only [Calls.Close, Calls.readings, answered] using close
      · have close' : (s.serve p now).Close := by
          simpa only [Calls.Close, Calls.readings, answered] using close
        refine ((ih fun a ha b hb => ?_).serve close' (ordered now reads)).congr buckets answered
        exact close' a (List.mem_cons_of_mem _ ha) b (List.mem_cons_of_mem _ hb)
  exact (accounts close).bounded

/-- One token a second and room for one. -/
def single : Shared Unit := ⟨.stable Unit, 0, (), 1, 1, one_pos, one_pos⟩

def idle : Calls Unit := ⟨0, [], NewLocal 0, []⟩

theorem starts_idle : Starts single idle := ⟨rfl, rfl, rfl⟩

/-- Two calls read the clock and three more a second later. Under the lock the early readings come
in between, each sets the bucket's instant back, and the next call earns the second again. -/
theorem stale_readings_earn_twice : ∃ s : Calls Unit, Reachable (system single) s ∧ s.Close ∧
    s.readings = [1, 0, 1, 0, 1] ∧ s.admitted = 3 ∧ single.capacity + single.rate * s.spread = 2 ∧
    ¬s.Bounded single := by
  have run : (execute (next single) idle
      [.read, .read, .tick 1, .read, .read, .read, .lock 0, .lock 2, .lock 0, .lock 1, .lock 0]).any
        (fun s : Calls Unit => decide (s.readings = [1, 0, 1, 0, 1] ∧ s.admitted = 3)) = true := by
    decide +kernel
  obtain ⟨s, reach, seen⟩ := exists_reachable_of_execute starts_idle run
  obtain ⟨readings, admitted⟩ := of_decide_eq_true seen
  have earned : single.capacity + single.rate * s.spread = 2 := by
    rw [Calls.spread, readings]
    decide +kernel
  refine ⟨s, reach, ?_, readings, admitted, earned, ?_⟩
  · rw [Calls.Close, readings]
    decide +kernel
  · rw [Calls.Bounded, earned, admitted]
    norm_num

/-- Two calls in order, a second apart. -/
theorem admitted_le_of_in_order_two : ∃ s : Calls Unit,
    s.readings = [1, 0] ∧ s.admitted = 2 ∧ s.Bounded single := by
  have ran : ((execute (fun s op => (next single s op).filter fun _ => InOrder single s op) idle
      [.read, .tick 1, .read, .lock 1, .lock 0]).any fun s =>
        decide (s.readings = [1, 0] ∧ s.admitted = 2)) = true := by
    decide +kernel
  obtain ⟨s, run, seen⟩ := (Option.any_eq_true _ _).mp ran
  obtain ⟨readings, admitted⟩ := of_decide_eq_true seen
  have reach : Reachable ((system single).constrain fun s op _ => InOrder single s op) s :=
    reachable_constrain_of_execute starts_idle run
  refine ⟨s, readings, admitted, admitted_le_of_in_order single reach ?_⟩
  rw [Calls.Close, readings]
  decide +kernel

end Hookubit.Ratelimit.Admission
