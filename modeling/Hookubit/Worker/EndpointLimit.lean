/- sources: worker/gate.go (AcquireEndpoint, keyedCounter.tryAcquire)
   digest: Which limit an endpoint's slots are counted against while calls bring different ones. -/

import Hookubit.Worker.Concurrency

/-!
The limit of an endpoint comes with each call, and its entry keeps the one that came with the call
that found the endpoint idle. That call is recorded in a history variable, which no step reads.
-/

set_option autoImplicit false
set_option relaxedAutoImplicit false

namespace Hookubit.Worker.EndpointLimit

open Automata.LabelledSystem Data.SlotCount Worker.Concurrency

section History

variable {Key : Type} [DecidableEq Key]

/-- For each endpoint the last call that was served while nobody held a slot of it. -/
abbrev Openings (Key : Type) := Key → Option (EndpointCall Key)

def held (s : Calls Key) (endpointID : Key) : ℕ := holding EndpointCall.slot s.endpoints endpointID

def noteOpening (s : Calls Key) (op : Op Key) (opened : Openings Key) : Openings Key :=
  match op with
  | .stepEndpoint i =>
      match s.endpoints[i]? with
      | some c =>
          if c.phase = .start ∧ held s c.endpointID = 0 then
            Function.update opened c.endpointID (some c)
          else opened
      | none => opened
  | _ => opened

def history (limits : GateLimits) : System (Calls Key × Openings Key) (Op Key) :=
  (system limits).observe noteOpening fun _ => none

/-- Every entry has the limit of the call that opened it. -/
def Opened (k : KeyedCounter Key) (opened : Openings Key) : Prop :=
  ∀ key, ∀ e ∈ k.entries.lookup key, ∃ c ∈ opened key, e.limit = c.limit

end History

section Steps

variable {Key : Type} [DecidableEq Key] {k : KeyedCounter Key} {n : Key → ℕ}
  {opened : Openings Key} {c : EndpointCall Key}

omit [DecidableEq Key] in
theorem one_le_limit (c : EndpointCall Key) : 1 ≤ c.limit := by
  have ceiling := one_le_atLeastOne c.ceiling
  unfold EndpointCall.limit
  split <;> omega

/-- What an acquire compares is the number of holders and, if there are any, the limit that the
entry was opened with. -/
theorem entryFor_limit (tally : Tally k n) (known : Opened k opened) (key : Key) (limit : ℤ) :
    (n key = 0 ∧ (k.entryFor key limit).limit = limit) ∨
      (0 < n key ∧ ∃ c ∈ opened key, (k.entryFor key limit).limit = c.limit) := by
  have here := tally key
  unfold KeyedCounter.entryFor
  cases found : k.entries.lookup key with
  | none =>
    rw [found] at here
    exact .inl ⟨here, rfl⟩
  | some e =>
    rw [found] at here
    obtain ⟨count, pos⟩ := here
    obtain ⟨c, first, same⟩ := known key e found
    have taken : ¬e.held = 0 := by omega
    simp only [taken, if_false]
    exact .inr ⟨pos, c, first, same⟩

theorem tryAcquire_granted (tally : Tally k n) (key : Key) {limit : ℤ} (positive : 1 ≤ limit) :
    (k.tryAcquire key limit).2 = true ↔ (n key : ℤ) < (k.entryFor key limit).limit := by
  have normal : (if limit < 1 then 1 else limit) = limit := if_neg (by omega)
  have count := (tally.entryFor key limit).1
  simp only [KeyedCounter.tryAcquire, normal]
  split
  · simp only [Bool.false_eq_true, false_iff]
    omega
  · simp only [true_iff]
    omega

theorem Opened.insert (known : Opened k opened) {key : Key} {e : Entry}
    (first : ∃ c ∈ opened key, e.limit = c.limit) : Opened ⟨k.entries.insert key e⟩ opened := by
  intro other e' found
  by_cases here : other = key
  · subst here
    rw [AList.lookup_insert, Option.mem_some_iff] at found
    exact found ▸ first
  · rw [AList.lookup_insert_ne here] at found
    exact known other e' found

theorem Opened.tryAcquire (tally : Tally k n) (known : Opened k opened) :
    Opened (k.tryAcquire c.endpointID c.limit).1
      (if n c.endpointID = 0 then Function.update opened c.endpointID (some c) else opened) := by
  have normal : (if c.limit < 1 then 1 else c.limit) = c.limit :=
    if_neg (by have := one_le_limit c; omega)
  have entry : ∀ e : Entry, e.limit = (k.entryFor c.endpointID c.limit).limit →
      Opened ⟨k.entries.insert c.endpointID e⟩
        (if n c.endpointID = 0 then Function.update opened c.endpointID (some c) else opened) := by
    intro e same
    obtain ⟨idle, limit⟩ | ⟨busy, first, listed, limit⟩ :=
      entryFor_limit tally known c.endpointID c.limit
    · rw [if_pos idle]
      intro other e' found
      by_cases here : other = c.endpointID
      · subst here
        rw [AList.lookup_insert, Option.mem_some_iff] at found
        refine ⟨c, by rw [Function.update_self]; rfl, ?_⟩
        rw [← found, same, limit]
      · rw [AList.lookup_insert_ne here] at found
        rw [Function.update_of_ne here]
        exact known other e' found
    · rw [if_neg (by omega)]
      exact known.insert ⟨first, listed, same.trans limit⟩
  simp only [KeyedCounter.tryAcquire, normal]
  split
  · exact entry _ rfl
  · exact entry _ rfl

theorem Opened.release (known : Opened k opened) (key : Key) : Opened (k.release key) opened := by
  unfold KeyedCounter.release
  cases found : k.entries.lookup key with
  | none => exact known
  | some e =>
    dsimp only
    split
    · intro other e' found'
      by_cases here : other = key
      · subst here
        rw [AList.lookup_erase] at found'
        cases found'
      · rw [AList.lookup_erase_ne here] at found'
        exact known other e' found'
    · exact known.insert (known key e found)

end Steps

section Runs

variable {Key : Type} [DecidableEq Key] {limits : GateLimits} {s t : Calls Key} {op : Op Key}
  {opened : Openings Key}

theorem opened_next (accounts : Accounts limits s) (known : Opened s.gate.endpoint opened)
    (step : next s op = some t) : Opened t.gate.endpoint (noteOpening s op opened) := by
  cases op with
  | acquireTenant | acquireEndpoint =>
    cases step
    exact known
  | stepTenant i =>
    obtain ⟨c, -, step⟩ := Option.bind_eq_some_iff.mp step
    obtain ⟨⟨g, phase⟩, moved, rfl⟩ := Option.map_eq_some_iff.mp step
    have same : g.endpoint = s.gate.endpoint := TenantCall.next_endpoint moved
    exact same ▸ known
  | releaseTenant i =>
    obtain ⟨c, -, step⟩ := Option.bind_eq_some_iff.mp step
    obtain ⟨phase, -, rfl⟩ := Option.map_eq_some_iff.mp step
    exact known
  | releaseEndpoint i =>
    obtain ⟨e, -, step⟩ := Option.bind_eq_some_iff.mp step
    obtain ⟨phase, -, rfl⟩ := Option.map_eq_some_iff.mp step
    exact known
  | stepEndpoint i =>
    obtain ⟨c, member, step⟩ := Option.bind_eq_some_iff.mp step
    obtain ⟨⟨g, phase⟩, moved, rfl⟩ := Option.map_eq_some_iff.mp step
    simp only [noteOpening, member]
    unfold EndpointCall.next at moved
    cases stands : c.phase with
    | start =>
      simp only [stands, Option.some.injEq, Prod.mk.injEq] at moved
      obtain ⟨rfl, -⟩ := moved
      simp only [true_and]
      exact Opened.tryAcquire accounts.endpoints known
    | releasing =>
      simp only [stands, Option.some.injEq, Prod.mk.injEq] at moved
      obtain ⟨rfl, -⟩ := moved
      rw [if_neg (by simp)]
      exact known.release c.endpointID
    | granted => simp [stands] at moved
    | refused => simp [stands] at moved
    | released => simp [stands] at moved

theorem opened_of_reachable (reach : Reachable (history limits) (s, opened)) :
    Accounts limits s ∧ Opened s.gate.endpoint opened := by
  refine reach.invariant (I := fun p => Accounts limits p.1 ∧ Opened p.1.gate.endpoint p.2) ?_ ?_
  · rintro ⟨s, opened⟩ ⟨start, empty⟩
    have start : s = ⟨NewGate limits, [], []⟩ := start
    subst start
    refine ⟨accounts_start limits, fun key e found => ?_⟩
    have absent : (∅ : AList fun _ : Key => Entry).lookup key = some e := found
    rw [AList.lookup_empty] at absent
    cases absent
  · rintro ⟨s, opened⟩ op ⟨t, opened'⟩ ⟨accounts, known⟩ ⟨step, noted⟩
    have noted : opened' = noteOpening s op opened := noted
    subst noted
    exact ⟨accounts.next step, opened_next accounts known step⟩

end Runs

section Results

variable {Key : Type} [DecidableEq Key]

omit [DecidableEq Key] in
def AcquireEndpoint (endpointID : Key) (capacity ceiling : ℤ) : EndpointCall Key :=
  ⟨endpointID, capacity, ceiling, .start⟩

omit [DecidableEq Key] in
theorem limit_AcquireEndpoint (endpointID : Key) (capacity ceiling : ℤ) :
    (AcquireEndpoint endpointID capacity ceiling).limit =
      if 0 < capacity ∧ capacity < max 1 ceiling then capacity else max 1 ceiling := by
  have bound : max 1 ceiling = atLeastOne ceiling := by
    unfold atLeastOne
    split <;> omega
  rw [bound]
  rfl

def Succeeds (g : Gate Key) (c : EndpointCall Key) : Prop := ∃ g', c.next g = some (g', .granted)

theorem succeeds_iff {limits : GateLimits} {s : Calls Key} (accounts : Accounts limits s)
    {c : EndpointCall Key} (new : c.phase = .start) :
    Succeeds s.gate c ↔
      (held s c.endpointID : ℤ) < (s.gate.endpoint.entryFor c.endpointID c.limit).limit := by
  rw [held, ← tryAcquire_granted accounts.endpoints c.endpointID (one_le_limit c)]
  simp only [Succeeds, EndpointCall.next, new, Option.some.injEq, Prod.mk.injEq]
  cases (s.gate.endpoint.tryAcquire c.endpointID c.limit).2 <;> simp

end Results

/-- At every point of every history: a call is answered by its own limit if it finds the endpoint
idle, or if the slots held are below, or not below, both its limit and the limit of the call that
found the endpoint idle; and in no other case. -/
theorem endpoint_limit_followed_iff {Key : Type} [DecidableEq Key] (limits : GateLimits)
    (s : Calls Key) (opened : Openings Key) (reach : Reachable (history limits) (s, opened))
    (endpointID : Key) (capacity ceiling : ℤ) :
    (Succeeds s.gate (AcquireEndpoint endpointID capacity ceiling) ↔
        held s endpointID <
          if 0 < capacity ∧ capacity < max 1 ceiling then capacity else max 1 ceiling) ↔
      (held s endpointID = 0 ∨ ∃ first ∈ opened endpointID,
        (held s endpointID < first.limit ∧
            held s endpointID < (AcquireEndpoint endpointID capacity ceiling).limit) ∨
          (first.limit ≤ held s endpointID ∧
            (AcquireEndpoint endpointID capacity ceiling).limit ≤ held s endpointID)) := by
  obtain ⟨accounts, known⟩ := opened_of_reachable reach
  have answer := succeeds_iff accounts (c := AcquireEndpoint endpointID capacity ceiling) rfl
  rw [← limit_AcquireEndpoint endpointID, answer]
  have positive := one_le_limit (AcquireEndpoint endpointID capacity ceiling)
  change ((held s endpointID : ℤ) < (s.gate.endpoint.entryFor endpointID _).limit ↔ _) ↔ _
  generalize (AcquireEndpoint endpointID capacity ceiling).limit = own at positive ⊢
  obtain ⟨idle, limit⟩ | ⟨busy, first, listed, limit⟩ :=
    entryFor_limit accounts.endpoints known endpointID own
  · have idle : held s endpointID = 0 := idle
    rw [limit]
    simp [idle]
  · have busy : 0 < held s endpointID := busy
    have only : ∀ d ∈ opened endpointID, d = first := fun d hd => Option.mem_unique hd listed
    rw [limit]
    constructor
    · intro same
      refine .inr ⟨first, listed, ?_⟩
      by_cases below : (held s endpointID : ℤ) < first.limit
      · exact .inl ⟨below, same.mp below⟩
      · have above : ¬(held s endpointID : ℤ) < own := fun other => below (same.mpr other)
        exact .inr ⟨by omega, by omega⟩
    · rintro (absent | ⟨d, hd, both⟩)
      · omega
      · rw [only d hd] at both
        constructor
        · intro below
          omega
        · intro below
          omega

/-- While the limit stays at five, one slot held leaves room for a second call. -/
theorem endpoint_limit_followed_unchanged : ∃ s : Calls ℕ, held s 0 = 1 ∧
    Succeeds s.gate (AcquireEndpoint 0 5 10) := by
  have run : (execute (observeNext next noteOpening)
      (⟨NewGate ⟨10, 10, 10, 10⟩, [], []⟩, fun _ => none)
      [.acquireEndpoint 0 5 10, .stepEndpoint 0]).any (fun p : Calls ℕ × Openings ℕ =>
        decide (held p.1 0 = 1) && (p.2 0).any fun c => decide (c.limit = 5)) = true := by
    decide +kernel
  obtain ⟨⟨s, opened⟩, reach, seen⟩ : ∃ p : Calls ℕ × Openings ℕ,
      Reachable (history ⟨10, 10, 10, 10⟩) p ∧
        (decide (held p.1 0 = 1) && (p.2 0).any fun c => decide (c.limit = 5)) = true := by
    rw [history, system, ofStep_observe]
    exact exists_reachable_of_execute ⟨rfl, rfl⟩ run
  obtain ⟨one, five⟩ := (Bool.and_eq_true _ _).mp seen
  have one : held s 0 = 1 := of_decide_eq_true one
  obtain ⟨first, listed, limit⟩ := (Option.any_eq_true _ _).mp five
  have limit : first.limit = 5 := of_decide_eq_true limit
  have own : (AcquireEndpoint 0 5 10 : EndpointCall ℕ).limit = 5 := by decide
  have below := (endpoint_limit_followed_iff ⟨10, 10, 10, 10⟩ s opened reach 0 5 10).mpr
    (.inr ⟨first, listed, .inl (by rw [one, limit, own]; decide)⟩)
  exact ⟨s, one, below.mpr (by rw [one]; decide)⟩

/-- The endpoint's limit is raised from one to five while its one slot is held, and the next call is
refused; it is lowered from five to one while two are held, and the next call gets a third. -/
theorem endpoint_limit_not_followed :
    (∃ s : Calls ℕ, Reachable (system ⟨10, 10, 10, 10⟩) s ∧ held s 0 = 1 ∧
        (AcquireEndpoint 0 5 10).limit = 5 ∧ ¬Succeeds s.gate (AcquireEndpoint 0 5 10)) ∧
      ∃ s : Calls ℕ, Reachable (system ⟨10, 10, 10, 10⟩) s ∧ held s 0 = 2 ∧
        (AcquireEndpoint 0 1 10).limit = 1 ∧ Succeeds s.gate (AcquireEndpoint 0 1 10) := by
  have granted (g : Gate ℕ) (c : EndpointCall ℕ) :
      Succeeds g c ↔ (c.next g).any (fun p => decide (p.2 = .granted)) = true := by
    rw [Option.any_eq_true]
    constructor
    · rintro ⟨g', served⟩
      exact ⟨_, served, by simp⟩
    · rintro ⟨⟨g', phase⟩, served, ok⟩
      obtain rfl : phase = .granted := of_decide_eq_true ok
      exact ⟨g', served⟩
  constructor
  · have run : (execute next ⟨NewGate ⟨10, 10, 10, 10⟩, [], []⟩
        [.acquireEndpoint 0 1 10, .stepEndpoint 0]).any (fun s : Calls ℕ =>
          decide (held s 0 = 1) && !((AcquireEndpoint 0 5 10).next s.gate).any
            (fun p => decide (p.2 = .granted))) = true := by
      decide +kernel
    obtain ⟨s, reach, seen⟩ : ∃ s, Reachable (system ⟨10, 10, 10, 10⟩) s ∧ _ :=
      exists_reachable_of_execute rfl run
    obtain ⟨one, refused⟩ := (Bool.and_eq_true _ _).mp seen
    exact ⟨s, reach, of_decide_eq_true one, by decide, by rw [granted]; simpa using refused⟩
  · have run : (execute next ⟨NewGate ⟨10, 10, 10, 10⟩, [], []⟩
        [.acquireEndpoint 0 5 10, .stepEndpoint 0, .acquireEndpoint 0 5 10,
          .stepEndpoint 1]).any (fun s : Calls ℕ =>
          decide (held s 0 = 2) && ((AcquireEndpoint 0 1 10).next s.gate).any
            (fun p => decide (p.2 = .granted))) = true := by
      decide +kernel
    obtain ⟨s, reach, seen⟩ : ∃ s, Reachable (system ⟨10, 10, 10, 10⟩) s ∧ _ :=
      exists_reachable_of_execute rfl run
    obtain ⟨two, served⟩ := (Bool.and_eq_true _ _).mp seen
    exact ⟨s, reach, of_decide_eq_true two, by decide, (granted _ _).mpr served⟩

end Hookubit.Worker.EndpointLimit
