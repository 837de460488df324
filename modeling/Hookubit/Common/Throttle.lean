/- sources: common/throttle.store.ts (InMemoryThrottleStore, RedisThrottleStore hit),
     common/throttle.guard.ts canActivate
   digest: The login throttle over both stores lets at most twice its limit through in any
     window. -/

import Hookubit.Automata.LabelledSystem
import Hookubit.Data.FixedWindow

set_option autoImplicit false
set_option relaxedAutoImplicit false

namespace Hookubit.Common.Throttle

open Automata.LabelledSystem Data.FixedWindow

structure ThrottleHit where
  count : ℕ
  resetAt : ℤ
  deriving DecidableEq

/-- The hits of one request, each with whether its bucket is enforced. A refusal carries the
seconds of its `Retry-After`. -/
def canActivate (limit : ℕ) (now : ℤ) (hits : List (ThrottleHit × Bool)) : Except ℤ Unit :=
  match hits.filter fun hit => hit.2 && decide (limit < hit.1.count) with
  | [] => .ok ()
  | first :: exceeded =>
    let resetAt := exceeded.foldl (fun latest hit => max latest hit.1.resetAt) first.1.resetAt
    .error (max 1 (-(-(resetAt - now) / 1000)))

/-- A request whose enforced bucket counted to `count` may have been let through. -/
def LetThrough (limit count : ℕ) : Prop :=
  ∃ resetAt now before after,
    canActivate limit now (before ++ (⟨count, resetAt⟩, true) :: after) = .ok ()

theorem LetThrough.count_le {limit count : ℕ} (through : LetThrough limit count) :
    count ≤ limit := by
  obtain ⟨resetAt, now, before, after, accepted⟩ := through
  unfold canActivate at accepted
  split at accepted
  · rename_i none_exceeded
    have := List.filter_eq_nil_iff.mp none_exceeded (⟨count, resetAt⟩, true) (by simp)
    simpa using this
  · cases accepted

/-- In every half-open interval of length `windowMs`, at most twice the limit is let through. -/
def Bounds (windowMs : ℤ) (limit : ℕ) (log : List Hit) : Prop :=
  ∀ (a : ℤ) (requests : List Hit), requests.Sublist log →
    (∀ h ∈ requests, LetThrough limit h.count ∧ a ≤ h.time ∧ h.time < a + windowMs) →
    requests.length ≤ 2 * limit

theorem bounds_of_windows {windowMs : ℤ} {log : List Hit} (windows : Windows windowMs log)
    (limit : ℕ) : Bounds windowMs limit log := by
  intro a requests sub chosen
  exact windows.length_le sub fun h hh => ⟨(chosen h hh).1.count_le, (chosen h hh).2⟩

section InMemory

variable {K : Type} [DecidableEq K]

structure InMemoryThrottleStore (K : Type) where
  windows : K → Option ThrottleHit
  sweepCountdown : ℤ

def InMemoryThrottleStore.new : InMemoryThrottleStore K := ⟨fun _ => none, 1000⟩

def maybeSweep (s : InMemoryThrottleStore K) (now : ℤ) : InMemoryThrottleStore K :=
  if 0 < s.sweepCountdown - 1 then { s with sweepCountdown := s.sweepCountdown - 1 }
  else ⟨fun key => (s.windows key).filter fun window => !decide (window.resetAt ≤ now), 1000⟩

/-- The window that a hit leaves: a fresh one, or the current one with one hit more. -/
def counted (windowMs now : ℤ) : Option ThrottleHit → ThrottleHit
  | none => ⟨1, now + windowMs⟩
  | some current =>
    if current.resetAt ≤ now then ⟨1, now + windowMs⟩
    else { current with count := current.count + 1 }

def hit (s : InMemoryThrottleStore K) (key : K) (windowMs now : ℤ) :
    ThrottleHit × InMemoryThrottleStore K :=
  let swept := maybeSweep s now
  let result := counted windowMs now (swept.windows key)
  (result, { swept with windows := Function.update swept.windows key (some result) })

structure Charge (K : Type) where
  key : K
  now : ℤ

/-- The store after a sequence of charges, newest first. A route's name is part of its keys, so
the window of a key is always the same. -/
def storeAfter (windowMs : K → ℤ) : List (Charge K) → InMemoryThrottleStore K
  | [] => .new
  | c :: older => (hit (storeAfter windowMs older) c.key (windowMs c.key) c.now).2

def hitsOn (windowMs : K → ℤ) (key : K) : List (Charge K) → List Hit
  | [] => []
  | c :: older =>
    let result := (hit (storeAfter windowMs older) c.key (windowMs c.key) c.now).1
    if c.key = key then
      ⟨c.now, result.count, result.resetAt - windowMs key⟩ :: hitsOn windowMs key older
    else hitsOn windowMs key older

/-- What the store holds for a key, against the hits on it up to `now`. -/
structure Holds (windowMs : ℤ) (window : Option ThrottleHit) (log : List Hit) (now : ℤ) : Prop where
  windows : Windows windowMs log
  past : ∀ h ∈ log, h.time ≤ now
  ended : window = none → Over windowMs log now
  current : ∀ w ∈ window, w.resetAt - windowMs ≤ now ∧
    Current windowMs log (w.resetAt - windowMs) w.count

variable {windowMs : ℤ} {window : Option ThrottleHit} {log : List Hit} {now later : ℤ}

theorem Holds.mono (holds : Holds windowMs window log now) (passed : now ≤ later) :
    Holds windowMs window log later where
  windows := holds.windows
  past h hh := Int.le_trans (holds.past h hh) passed
  ended absent h hh := Int.le_trans (holds.ended absent h hh) passed
  current w hw := ⟨Int.le_trans (holds.current w hw).1 passed, (holds.current w hw).2⟩

theorem Holds.sweep (holds : Holds windowMs window log now) (countdown : ℤ) :
    Holds windowMs (if 0 < countdown - 1 then window
      else window.filter fun w => !decide (w.resetAt ≤ now)) log now := by
  split
  · exact holds
  · cases window with
    | none => exact holds
    | some w =>
      by_cases expired : w.resetAt ≤ now
      · have ended := (holds.current w rfl).2.ended (holds.current w rfl).1 (by omega)
        rw [Option.filter_some_neg (by simpa using expired)]
        exact ⟨holds.windows, holds.past, fun _ => ended, by simp⟩
      · rwa [Option.filter_some_pos (by simpa using expired)]

omit [DecidableEq K] in
theorem windows_maybeSweep (s : InMemoryThrottleStore K) (now : ℤ) (key : K) :
    (maybeSweep s now).windows key = if 0 < s.sweepCountdown - 1 then s.windows key
      else (s.windows key).filter fun w => !decide (w.resetAt ≤ now) := by
  unfold maybeSweep
  split <;> rfl

theorem Holds.count (holds : Holds windowMs window log now) {result : ThrottleHit}
    (same : counted windowMs now window = result) :
    Holds windowMs (some result) (⟨now, result.count, result.resetAt - windowMs⟩ :: log) now := by
  have past : ∀ h ∈ (⟨now, result.count, result.resetAt - windowMs⟩ : Hit) :: log,
      h.time ≤ now := List.forall_mem_cons.mpr ⟨Int.le_refl now, holds.past⟩
  have fresh (ended : Over windowMs log now) (new : ⟨1, now + windowMs⟩ = result) :
      Holds windowMs (some result)
        (⟨now, result.count, result.resetAt - windowMs⟩ :: log) now := by
    subst new
    rw [Int.add_sub_cancel] at past ⊢
    obtain ⟨windows, current⟩ := holds.windows.cons_fresh ended holds.past
    refine ⟨windows, past, by simp, ?_⟩
    rintro w ⟨⟩
    rw [Int.add_sub_cancel]
    exact ⟨Int.le_refl now, current⟩
  cases window with
  | none => exact fresh (holds.ended rfl) same
  | some w =>
    obtain ⟨begun, current⟩ := holds.current w rfl
    by_cases expired : w.resetAt ≤ now
    · exact fresh (current.ended begun (by omega)) ((if_pos expired).symm.trans same)
    · obtain rfl := (if_neg expired).symm.trans same
      obtain ⟨windows, current⟩ := holds.windows.cons_current current begun
      refine ⟨windows, past, by simp, ?_⟩
      rintro w ⟨⟩
      exact ⟨begun, current⟩

theorem holds_storeAfter (windowMs : K → ℤ) (key : K) (charges : List (Charge K))
    (ordered : charges.Pairwise fun newer older => older.now ≤ newer.now) (now : ℤ)
    (past : ∀ c ∈ charges, c.now ≤ now) :
    Holds (windowMs key) ((storeAfter windowMs charges).windows key)
      (hitsOn windowMs key charges) now := by
  induction charges generalizing now with
  | nil => exact ⟨.nil, by simp [hitsOn], by simp [hitsOn, Over], by
    simp [storeAfter, InMemoryThrottleStore.new]⟩
  | cons c older ih =>
    obtain ⟨before, ordered⟩ := List.pairwise_cons.mp ordered
    have swept := (ih ordered c.now before).sweep (storeAfter windowMs older).sweepCountdown
    rw [← windows_maybeSweep] at swept
    refine Holds.mono ?_ (past c List.mem_cons_self)
    rw [storeAfter, hitsOn]
    by_cases same : c.key = key
    · subst same
      rw [if_pos rfl]
      simpa [hit] using swept.count rfl
    · rw [if_neg same]
      simpa [hit, Function.update_of_ne (Ne.symm same)] using swept

end InMemory

section Redis

/-- A key's value and expiry. When it came into being is known to nobody. -/
structure Entry where
  count : ℕ
  expiry : Option ℤ
  created : ℤ
  deriving DecidableEq

/-- How far a call of `hit` has come. -/
inductive Phase
  | counted (count : ℕ)
  | unexpiring (count : ℕ)
  | returned (result : ThrottleHit)
  deriving DecidableEq

/-- One key with the calls on it, and its increments, newest first. Commands on other keys do not
touch it. -/
structure RedisThrottleStore where
  now : ℤ
  entry : Option Entry
  calls : ℕ → Option Phase
  log : List Hit

inductive Command
  | wait (ms : ℕ)
  | incr (call : ℕ)
  | pttl (call : ℕ)
  | pexpire (call : ℕ)

/-- The entry unless its expiry has passed. -/
def RedisThrottleStore.live (s : RedisThrottleStore) : Option Entry :=
  s.entry.filter fun e => e.expiry.all fun expiry => decide (s.now < expiry)

def RedisThrottleStore.ttl (s : RedisThrottleStore) : ℤ :=
  match s.live with
  | none => -2
  | some e => (e.expiry.map (· - s.now)).getD (-1)

/-- A call is the sequence `INCR`, `PTTL` and, if that is negative, `PEXPIRE`. -/
def next (windowMs : ℤ) (s : RedisThrottleStore) : Command → Option RedisThrottleStore
  | .wait ms => some { s with now := s.now + ms }
  | .incr call =>
    match s.calls call with
    | some _ => none
    | none =>
      let e := match s.live with
        | none => ⟨1, none, s.now⟩
        | some e => { e with count := e.count + 1 }
      some { s with
        entry := some e
        calls := Function.update s.calls call (some (.counted e.count))
        log := ⟨s.now, e.count, e.created⟩ :: s.log }
  | .pttl call =>
    match s.calls call with
    | some (.counted count) =>
      let phase := if s.ttl < 0 then .unexpiring count else .returned ⟨count, s.now + s.ttl⟩
      some { s with calls := Function.update s.calls call (some phase) }
    | _ => none
  | .pexpire call =>
    match s.calls call with
    | some (.unexpiring count) =>
      some { s with
        entry := s.live.map ({ · with expiry := some (s.now + windowMs) })
        calls := Function.update s.calls call (some (.returned ⟨count, s.now + windowMs⟩)) }
    | _ => none

def redis (windowMs : ℤ) : System RedisThrottleStore Command :=
  .ofStep (fun s => s.entry = none ∧ s.log = [] ∧ ∀ call, s.calls call = none) (next windowMs)

/-- A key lives for a window at least, however late its expiry is set or set again. -/
structure Lives (windowMs : ℤ) (s : RedisThrottleStore) : Prop where
  windows : Windows windowMs s.log
  past : ∀ h ∈ s.log, h.time ≤ s.now
  ended : s.entry = none → Over windowMs s.log s.now
  current : ∀ e ∈ s.entry, e.created ≤ s.now ∧ Current windowMs s.log e.created e.count ∧
    ∀ expiry ∈ e.expiry, e.created + windowMs ≤ expiry

variable {windowMs : ℤ} {s : RedisThrottleStore}

theorem live_eq_none (h : s.live = none) :
    s.entry = none ∨ ∃ e expiry, s.entry = some e ∧ e.expiry = some expiry ∧ expiry ≤ s.now := by
  unfold RedisThrottleStore.live at h
  cases present : s.entry with
  | none => exact .inl rfl
  | some e =>
    right
    cases bounded : e.expiry with
    | none => simp [present, bounded] at h
    | some expiry =>
      refine ⟨e, expiry, rfl, bounded, ?_⟩
      simpa [present, bounded] using h

theorem entry_of_live {e : Entry} (h : s.live = some e) : s.entry = some e :=
  (Option.filter_eq_some_iff.mp h).1

theorem Lives.over_of_not_live (lives : Lives windowMs s) (gone : s.live = none) :
    Over windowMs s.log s.now := by
  obtain absent | ⟨e, expiry, present, bounded, passed⟩ := live_eq_none gone
  · exact lives.ended absent
  · obtain ⟨begun, current, lasting⟩ := lives.current e present
    exact current.ended begun (Int.le_trans (lasting expiry bounded) passed)

theorem Lives.incr (lives : Lives windowMs s) (calls : ℕ → Option Phase) {e : Entry}
    (written : e = match s.live with
      | none => ⟨1, none, s.now⟩
      | some e => { e with count := e.count + 1 }) :
    Lives windowMs ⟨s.now, some e, calls, ⟨s.now, e.count, e.created⟩ :: s.log⟩ := by
  have past : ∀ h ∈ (⟨s.now, e.count, e.created⟩ : Hit) :: s.log, h.time ≤ s.now :=
    List.forall_mem_cons.mpr ⟨Int.le_refl s.now, lives.past⟩
  cases before : s.live with
  | none =>
    rw [before] at written
    subst written
    obtain ⟨windows, current⟩ :=
      lives.windows.cons_fresh (lives.over_of_not_live before) lives.past
    refine ⟨windows, past, by simp, ?_⟩
    rintro e ⟨⟩
    exact ⟨Int.le_refl s.now, current, by simp⟩
  | some old =>
    rw [before] at written
    subst written
    obtain ⟨begun, current, lasting⟩ := lives.current old (entry_of_live before)
    obtain ⟨windows, current⟩ := lives.windows.cons_current current begun
    refine ⟨windows, past, by simp, ?_⟩
    rintro e ⟨⟩
    exact ⟨begun, current, lasting⟩

theorem Lives.pexpire (lives : Lives windowMs s) (calls : ℕ → Option Phase) :
    Lives windowMs ⟨s.now, s.live.map ({ · with expiry := some (s.now + windowMs) }), calls,
      s.log⟩ := by
  refine ⟨lives.windows, lives.past, ?_, ?_⟩
  · intro gone
    exact lives.over_of_not_live (Option.map_eq_none_iff.mp gone)
  · intro e written
    obtain ⟨old, before, rfl⟩ := Option.map_eq_some_iff.mp written
    obtain ⟨begun, current, -⟩ := lives.current old (entry_of_live before)
    refine ⟨begun, current, ?_⟩
    rintro expiry ⟨⟩
    exact Int.add_le_add_right begun windowMs

theorem Lives.step {t : RedisThrottleStore} (command : Command) (lives : Lives windowMs s)
    (edge : next windowMs s command = some t) : Lives windowMs t := by
  cases command with
  | wait ms =>
    obtain rfl := Option.some.inj edge
    have passed : s.now ≤ s.now + ms := by omega
    exact ⟨lives.windows, fun h hh => Int.le_trans (lives.past h hh) passed,
      fun absent h hh => Int.le_trans (lives.ended absent h hh) passed,
      fun e he => ⟨Int.le_trans (lives.current e he).1 passed, (lives.current e he).2⟩⟩
  | incr call =>
    simp only [next] at edge
    split at edge
    · cases edge
    · obtain rfl := Option.some.inj edge
      exact lives.incr _ rfl
  | pttl call =>
    simp only [next] at edge
    split at edge
    · obtain rfl := Option.some.inj edge
      exact ⟨lives.windows, lives.past, lives.ended, lives.current⟩
    · cases edge
  | pexpire call =>
    simp only [next] at edge
    split at edge
    · obtain rfl := Option.some.inj edge
      exact lives.pexpire _
    · cases edge

theorem lives_of_reachable (reached : Reachable (redis windowMs) s) : Lives windowMs s := by
  refine reached.invariant (fun s start => ?_)
    (fun s command t lives edge => lives.step command edge)
  obtain ⟨absent, empty, -⟩ := start
  exact ⟨empty ▸ .nil, by simp [empty], by simp [empty, Over], by simp [absent]⟩

end Redis

/-- With either store, over any interleaving, in every half-open interval of a window's length at
most twice the limit of the requests charged to an enforced key is let through. -/
theorem throttle_bounds_attempts {K : Type} [DecidableEq K] (limit : ℕ) (windowMs : K → ℤ)
    (key : K) :
    (∀ charges : List (Charge K), (charges.Pairwise fun newer older => older.now ≤ newer.now) →
        Bounds (windowMs key) limit (hitsOn windowMs key charges)) ∧
      ∀ s, Reachable (redis (windowMs key)) s → Bounds (windowMs key) limit s.log := by
  constructor
  · intro charges ordered
    obtain ⟨now, past⟩ : ∃ now, ∀ c ∈ charges, c.now ≤ now := by
      cases charges with
      | nil => exact ⟨0, by simp⟩
      | cons c older =>
        exact ⟨c.now, List.forall_mem_cons.mpr ⟨Int.le_refl _, (List.pairwise_cons.mp ordered).1⟩⟩
    exact bounds_of_windows (holds_storeAfter windowMs key charges ordered now past).windows limit
  · intro s reached
    exact bounds_of_windows (lives_of_reachable reached).windows limit

/-- A burst on both sides of a boundary; and in Redis two calls that both find the key without
an expiry and both set it, the second a second late, with a third call after the window. -/
theorem racing_bursts_bounded :
    Bounds 60000 1 (hitsOn (fun _ : Unit => 60000) () [⟨(), 60000⟩, ⟨(), 59999⟩, ⟨(), 0⟩]) ∧
      ∃ s, Reachable (redis 60000) s ∧ s.log.map Hit.count = [1, 2, 1] ∧ Bounds 60000 1 s.log := by
  obtain ⟨inMemory, inRedis⟩ := throttle_bounds_attempts 1 (fun _ : Unit => 60000) ()
  have run : (execute (next 60000) ⟨0, none, fun _ => none, []⟩ [.incr 1, .incr 2, .pttl 1, .pttl 2,
      .pexpire 1, .wait 1000, .pexpire 2, .wait 60000, .incr 3]).any
        (fun s => decide (s.log.map Hit.count = [1, 2, 1])) = true := by
    decide
  obtain ⟨s, reach, counts⟩ : ∃ s, Reachable (redis 60000) s ∧ _ :=
    exists_reachable_of_execute ⟨rfl, rfl, fun _ => rfl⟩ run
  exact ⟨inMemory _ (by decide), s, reach, of_decide_eq_true counts, inRedis s reach⟩

end Hookubit.Common.Throttle
