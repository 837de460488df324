/- sources: worker/gate.go (Gate, GateLimits, NewGate, AcquireTenant, AcquireEndpoint, Release,
     atLeastOne, counter, keyedCounter)
   digest: The four ceilings of a worker, under every interleaving of acquires and releases. -/

import Hookubit.Automata.LabelledSystem
import Hookubit.Data.SlotCount
import Mathlib.Data.List.AList

/-!
Every counter has a lock of its own, and what runs under it is one step. Between two steps of a
call any other call may take any of its own. A release runs its body once, however often it is
called; a call that comes while the body runs waits for it and changes nothing.
-/

set_option autoImplicit false
set_option relaxedAutoImplicit false

namespace Hookubit.Worker.Concurrency

open Automata.LabelledSystem Data.SlotCount

section Counters

def atLeastOne (n : ℤ) : ℤ := if n < 1 then 1 else n

structure Counter where
  held : ℤ
  limit : ℤ

def Counter.tryAcquireOwnLimit (c : Counter) : Counter × Bool :=
  if c.limit ≤ c.held then (c, false) else ({ c with held := c.held + 1 }, true)

def Counter.release (c : Counter) : Counter :=
  if 0 < c.held then { c with held := c.held - 1 } else c

structure Entry where
  held : ℤ
  limit : ℤ

/-- One semaphore for each key that holds a slot. -/
structure KeyedCounter (Key : Type) where
  entries : AList fun _ : Key => Entry

variable {Key : Type} [DecidableEq Key]

def newKeyedCounter : KeyedCounter Key := ⟨∅⟩

/-- The entry that an acquire works on. One without holders takes the caller's limit. -/
def KeyedCounter.entryFor (k : KeyedCounter Key) (key : Key) (limit : ℤ) : Entry :=
  match k.entries.lookup key with
  | none => ⟨0, limit⟩
  | some e => if e.held = 0 then { e with limit := limit } else e

def KeyedCounter.tryAcquire (k : KeyedCounter Key) (key : Key) (limit : ℤ) :
    KeyedCounter Key × Bool :=
  let limit := if limit < 1 then 1 else limit
  let e := k.entryFor key limit
  if e.limit ≤ e.held then (⟨k.entries.insert key e⟩, false)
  else (⟨k.entries.insert key { e with held := e.held + 1 }⟩, true)

def KeyedCounter.release (k : KeyedCounter Key) (key : Key) : KeyedCounter Key :=
  match k.entries.lookup key with
  | none => k
  | some e =>
      if e.held - 1 ≤ 0 then ⟨k.entries.erase key⟩
      else ⟨k.entries.insert key { e with held := e.held - 1 }⟩

def KeyedCounter.inFlight (k : KeyedCounter Key) (key : Key) : ℤ :=
  match k.entries.lookup key with
  | none => 0
  | some e => e.held

end Counters

section Tally

variable {Key : Type} [DecidableEq Key] {k : KeyedCounter Key} {n : Key → ℕ} {key : Key} {limit : ℤ}

/-- The entries are the keys with holders, each with as many as it has. -/
def Tally (k : KeyedCounter Key) (n : Key → ℕ) : Prop :=
  ∀ key, match k.entries.lookup key with
    | none => n key = 0
    | some e => e.held = n key ∧ 0 < n key

/-- Every entry has this limit and keeps to it. -/
def Capped (k : KeyedCounter Key) (limit : ℤ) : Prop :=
  ∀ key, ∀ e ∈ k.entries.lookup key, e.limit = limit ∧ e.held ≤ limit

theorem tally_new : Tally (newKeyedCounter : KeyedCounter Key) fun _ => 0 := by
  intro key
  rw [newKeyedCounter, AList.lookup_empty]

theorem capped_new : Capped (newKeyedCounter : KeyedCounter Key) limit :=
  fun key e h => absurd h (AList.lookup_empty key ▸ Option.not_mem_none e)

theorem Tally.inFlight (h : Tally k n) (key : Key) : k.inFlight key = n key := by
  have here := h key
  unfold KeyedCounter.inFlight
  cases found : k.entries.lookup key with
  | none =>
    rw [found] at here
    simp [here]
  | some e =>
    rw [found] at here
    exact here.1

theorem Tally.insert (h : Tally k n) (key : Key) {e : Entry} {m : ℕ} (held : e.held = m)
    (pos : 0 < m) :
    Tally ⟨k.entries.insert key e⟩ (Function.update n key m) := by
  intro other
  by_cases here : other = key
  · subst here
    rw [AList.lookup_insert, Function.update_self]
    exact ⟨held, pos⟩
  · rw [AList.lookup_insert_ne here, Function.update_of_ne here]
    exact h other

theorem Tally.erase (h : Tally k n) : Tally ⟨k.entries.erase key⟩ (Function.update n key 0) := by
  intro other
  by_cases here : other = key
  · subst here
    rw [AList.lookup_erase, Function.update_self]
  · rw [AList.lookup_erase_ne here, Function.update_of_ne here]
    exact h other

theorem Tally.entryFor (h : Tally k n) (key : Key) (limit : ℤ) :
    (k.entryFor key limit).held = n key ∧
      (n key = 0 → (k.entryFor key limit).limit = limit) := by
  have here := h key
  unfold KeyedCounter.entryFor
  cases found : k.entries.lookup key with
  | none =>
    rw [found] at here
    exact ⟨by simp [here], fun _ => rfl⟩
  | some e =>
    rw [found] at here
    obtain ⟨held, pos⟩ := here
    have taken : ¬e.held = 0 := by omega
    simp only [taken, if_false]
    exact ⟨held, by omega⟩

/-- Nothing is refused that has no holder yet, so a refusal leaves no entry behind. -/
theorem Tally.tryAcquire (h : Tally k n) (key : Key) (limit : ℤ) :
    ((k.tryAcquire key limit).2 = true →
        Tally (k.tryAcquire key limit).1 (Function.update n key (n key + 1))) ∧
      ((k.tryAcquire key limit).2 = false → Tally (k.tryAcquire key limit).1 n) := by
  unfold KeyedCounter.tryAcquire
  have positive : 1 ≤ if limit < 1 then 1 else limit := by split <;> omega
  generalize (if limit < 1 then 1 else limit) = lim at positive ⊢
  obtain ⟨held, fresh⟩ := h.entryFor key lim
  dsimp only
  split
  · have pos : 0 < n key := by
      by_contra missing
      have := fresh (by omega)
      omega
    have same := h.insert key held pos
    rw [Function.update_eq_self] at same
    exact ⟨Bool.noConfusion, fun _ => same⟩
  · refine ⟨fun _ => h.insert key ?_ (Nat.succ_pos _), Bool.noConfusion⟩
    push_cast
    rw [held]

theorem Tally.release (h : Tally k n) (pos : 0 < n key) :
    Tally (k.release key) (Function.update n key (n key - 1)) := by
  have here := h key
  unfold KeyedCounter.release
  cases found : k.entries.lookup key with
  | none =>
    rw [found] at here
    dsimp only at here
    omega
  | some e =>
    rw [found] at here
    obtain ⟨held, -⟩ := here
    dsimp only
    split
    · have last : n key - 1 = 0 := by omega
      rw [last]
      exact h.erase
    · exact h.insert key (by push_cast; omega) (by omega)

theorem Capped.insert (h : Capped k limit) {e : Entry} (entry : e.limit = limit ∧ e.held ≤ limit) :
    Capped ⟨k.entries.insert key e⟩ limit := by
  intro other e' found
  by_cases here : other = key
  · subst here
    rw [AList.lookup_insert, Option.mem_some_iff] at found
    exact found ▸ entry
  · rw [AList.lookup_insert_ne here] at found
    exact h other e' found

theorem Capped.tryAcquire (h : Capped k limit) (positive : 1 ≤ limit) :
    Capped (k.tryAcquire key limit).1 limit := by
  have entry : (k.entryFor key limit).limit = limit ∧ (k.entryFor key limit).held ≤ limit := by
    unfold KeyedCounter.entryFor
    cases found : k.entries.lookup key with
    | none => exact ⟨rfl, by dsimp only; omega⟩
    | some e =>
      have known := h key e found
      dsimp only
      split
      · exact ⟨rfl, known.2⟩
      · exact known
  have normal : (if limit < 1 then 1 else limit) = limit := if_neg (by omega)
  simp only [KeyedCounter.tryAcquire, normal]
  split
  · exact h.insert entry
  · refine h.insert ⟨entry.1, ?_⟩
    dsimp only
    omega

theorem Capped.release (h : Capped k limit) : Capped (k.release key) limit := by
  unfold KeyedCounter.release
  cases found : k.entries.lookup key with
  | none => exact h
  | some e =>
    have known := h key e found
    dsimp only
    split
    · intro other e' found'
      by_cases here : other = key
      · subst here
        rw [AList.lookup_erase] at found'
        cases found'
      · rw [AList.lookup_erase_ne here] at found'
        exact h other e' found'
    · refine h.insert ⟨known.1, ?_⟩
      dsimp only
      omega

theorem Capped.inFlight_le (h : Capped k limit) (positive : 1 ≤ limit) (key : Key) :
    k.inFlight key ≤ limit := by
  unfold KeyedCounter.inFlight
  cases found : k.entries.lookup key with
  | none =>
    dsimp only
    omega
  | some e => exact (h key e found).2

end Tally

section Calls

variable (Key : Type)

structure GateLimits where
  Global : ℤ
  Org : ℤ
  Project : ℤ
  Endpoint : ℤ

/-- The ceiling for endpoints comes with each call. -/
structure Gate where
  global : Counter
  org : KeyedCounter Key
  project : KeyedCounter Key
  endpoint : KeyedCounter Key
  orgLimit : ℤ
  projectLimit : ℤ

variable {Key} [DecidableEq Key]

def NewGate (l : GateLimits) : Gate Key where
  global := ⟨0, atLeastOne l.Global⟩
  org := newKeyedCounter
  project := newKeyedCounter
  endpoint := newKeyedCounter
  orgLimit := atLeastOne l.Org
  projectLimit := atLeastOne l.Project

inductive Scope
  | global | organization | project
  deriving DecidableEq

/-- How far a call of `AcquireTenant` or of its release has come. -/
inductive Phase
  | start
  | gotGlobal
  | gotOrg
  /-- Returned with a release that nobody has called. -/
  | granted
  | rollbackOrg
  | rollbackGlobal (scope : Scope)
  | refused (scope : Scope)
  | releasing
  | releasingOrg
  | releasingGlobal
  | released
  deriving DecidableEq

structure TenantCall (Key : Type) where
  orgID : Key
  projectID : Key
  phase : Phase

def TenantCall.next (c : TenantCall Key) (g : Gate Key) : Option (Gate Key × Phase) :=
  match c.phase with
  | .start =>
      let (global, ok) := g.global.tryAcquireOwnLimit
      some ({ g with global := global }, if ok then .gotGlobal else .refused .global)
  | .gotGlobal =>
      let (org, ok) := g.org.tryAcquire c.orgID g.orgLimit
      some ({ g with org := org }, if ok then .gotOrg else .rollbackGlobal .organization)
  | .gotOrg =>
      let (project, ok) := g.project.tryAcquire c.projectID g.projectLimit
      some ({ g with project := project }, if ok then .granted else .rollbackOrg)
  | .rollbackOrg => some ({ g with org := g.org.release c.orgID }, .rollbackGlobal .project)
  | .rollbackGlobal scope => some ({ g with global := g.global.release }, .refused scope)
  | .releasing => some ({ g with project := g.project.release c.projectID }, .releasingOrg)
  | .releasingOrg => some ({ g with org := g.org.release c.orgID }, .releasingGlobal)
  | .releasingGlobal => some ({ g with global := g.global.release }, .released)
  | .granted | .refused _ | .released => none

/-- The release is called: the first time its body starts, and no other time. -/
def Phase.release : Phase → Option Phase
  | .granted => some .releasing
  | .releasing => some .releasing
  | .releasingOrg => some .releasingOrg
  | .releasingGlobal => some .releasingGlobal
  | .released => some .released
  | _ => none

inductive EndpointPhase
  | start
  | granted
  | refused
  | releasing
  | released
  deriving DecidableEq

structure EndpointCall (Key : Type) where
  endpointID : Key
  capacity : ℤ
  ceiling : ℤ
  phase : EndpointPhase

/-- The endpoint's own limit, where it is set and below the ceiling. -/
def EndpointCall.limit (c : EndpointCall Key) : ℤ :=
  if 0 < c.capacity ∧ c.capacity < atLeastOne c.ceiling then c.capacity else atLeastOne c.ceiling

def EndpointCall.next (c : EndpointCall Key) (g : Gate Key) : Option (Gate Key × EndpointPhase) :=
  match c.phase with
  | .start =>
      let (endpoint, ok) := g.endpoint.tryAcquire c.endpointID c.limit
      some ({ g with endpoint := endpoint }, if ok then .granted else .refused)
  | .releasing => some ({ g with endpoint := g.endpoint.release c.endpointID }, .released)
  | .granted | .refused | .released => none

def EndpointPhase.release : EndpointPhase → Option EndpointPhase
  | .granted => some .releasing
  | .releasing => some .releasing
  | .released => some .released
  | _ => none

structure Calls (Key : Type) where
  gate : Gate Key
  tenants : List (TenantCall Key)
  endpoints : List (EndpointCall Key)

inductive Op (Key : Type)
  | acquireTenant (orgID projectID : Key)
  | stepTenant (i : ℕ)
  | releaseTenant (i : ℕ)
  | acquireEndpoint (endpointID : Key) (capacity ceiling : ℤ)
  | stepEndpoint (i : ℕ)
  | releaseEndpoint (i : ℕ)

def Calls.setTenant (s : Calls Key) (i : ℕ) (c : TenantCall Key) (phase : Phase) : Calls Key :=
  { s with tenants := s.tenants.set i { c with phase := phase } }

def Calls.setEndpoint (s : Calls Key) (i : ℕ) (c : EndpointCall Key) (phase : EndpointPhase) :
    Calls Key :=
  { s with endpoints := s.endpoints.set i { c with phase := phase } }

def next (s : Calls Key) : Op Key → Option (Calls Key)
  | .acquireTenant orgID projectID =>
      some { s with tenants := s.tenants ++ [⟨orgID, projectID, .start⟩] }
  | .stepTenant i =>
      s.tenants[i]?.bind fun c => (c.next s.gate).map fun (g, phase) =>
        { s.setTenant i c phase with gate := g }
  | .releaseTenant i =>
      s.tenants[i]?.bind fun c => c.phase.release.map fun phase => s.setTenant i c phase
  | .acquireEndpoint endpointID capacity ceiling =>
      some { s with endpoints := s.endpoints ++ [⟨endpointID, capacity, ceiling, .start⟩] }
  | .stepEndpoint i =>
      s.endpoints[i]?.bind fun c => (c.next s.gate).map fun (g, phase) =>
        { s.setEndpoint i c phase with gate := g }
  | .releaseEndpoint i =>
      s.endpoints[i]?.bind fun c => c.phase.release.map fun phase => s.setEndpoint i c phase

def system (limits : GateLimits) : System (Calls Key) (Op Key) :=
  .ofStep (fun s => s = ⟨NewGate limits, [], []⟩) next

end Calls

section Slots

variable {Key : Type}

@[simp]
def Phase.holdsGlobal : Phase → Bool
  | .start | .refused _ | .released => false
  | _ => true

@[simp]
def Phase.holdsOrg : Phase → Bool
  | .gotOrg | .granted | .rollbackOrg | .releasing | .releasingOrg => true
  | _ => false

@[simp]
def Phase.holdsProject : Phase → Bool
  | .granted | .releasing => true
  | _ => false

@[simp]
def TenantCall.globalSlot (c : TenantCall Key) : Option Unit :=
  if c.phase.holdsGlobal then some () else none

@[simp]
def TenantCall.orgSlot (c : TenantCall Key) : Option Key :=
  if c.phase.holdsOrg then some c.orgID else none

@[simp]
def TenantCall.projectSlot (c : TenantCall Key) : Option Key :=
  if c.phase.holdsProject then some c.projectID else none

@[simp]
def EndpointCall.slot (c : EndpointCall Key) : Option Key :=
  if c.phase = .granted ∨ c.phase = .releasing then some c.endpointID else none

end Slots

section Accounts

variable {Key : Type} [DecidableEq Key] {limits : GateLimits} {g g' : Gate Key}
  {l : List (TenantCall Key)} {i : ℕ} {c c' : TenantCall Key} {phase : Phase} {e : EndpointCall Key}

/-- The counts of the three tenant scopes, and their limits. -/
structure TenantAccounts (limits : GateLimits) (g : Gate Key) (l : List (TenantCall Key)) :
    Prop where
  global : g.global.held = holding TenantCall.globalSlot l ()
  org : Tally g.org (holding TenantCall.orgSlot l)
  project : Tally g.project (holding TenantCall.projectSlot l)
  globalCap : g.global.held ≤ g.global.limit
  orgCap : Capped g.org g.orgLimit
  projectCap : Capped g.project g.projectLimit
  globalLimit : g.global.limit = atLeastOne limits.Global
  orgLimit : g.orgLimit = atLeastOne limits.Org
  projectLimit : g.projectLimit = atLeastOne limits.Project

theorem one_le_atLeastOne (n : ℤ) : 1 ≤ atLeastOne n := by
  unfold atLeastOne
  split <;> omega

theorem TenantAccounts.onGlobal (h : TenantAccounts limits g l) (member : l[i]? = some c)
    {global : Counter} (held : global.held = holding TenantCall.globalSlot (l.set i c') ())
    (cap : global.held ≤ global.limit) (limit : global.limit = g.global.limit)
    (org : c'.orgSlot = c.orgSlot) (project : c'.projectSlot = c.projectSlot) :
    TenantAccounts limits { g with global := global } (l.set i c') :=
  { h with
    global := held
    globalCap := cap
    globalLimit := limit.trans h.globalLimit
    org := holding_set_same member org ▸ h.org
    project := holding_set_same member project ▸ h.project }

theorem TenantAccounts.onOrg (h : TenantAccounts limits g l) (member : l[i]? = some c)
    {org : KeyedCounter Key} (tally : Tally org (holding TenantCall.orgSlot (l.set i c')))
    (cap : Capped org g.orgLimit) (global : c'.globalSlot = c.globalSlot)
    (project : c'.projectSlot = c.projectSlot) :
    TenantAccounts limits { g with org := org } (l.set i c') :=
  { h with
    org := tally
    orgCap := cap
    global := holding_set_same member global ▸ h.global
    project := holding_set_same member project ▸ h.project }

theorem TenantAccounts.onProject (h : TenantAccounts limits g l) (member : l[i]? = some c)
    {project : KeyedCounter Key}
    (tally : Tally project (holding TenantCall.projectSlot (l.set i c')))
    (cap : Capped project g.projectLimit) (global : c'.globalSlot = c.globalSlot)
    (org : c'.orgSlot = c.orgSlot) :
    TenantAccounts limits { g with project := project } (l.set i c') :=
  { h with
    project := tally
    projectCap := cap
    global := holding_set_same member global ▸ h.global
    org := holding_set_same member org ▸ h.org }

theorem TenantAccounts.releaseGlobal (h : TenantAccounts limits g l) (member : l[i]? = some c)
    (taken : c.globalSlot = some ()) (free : c'.globalSlot = none)
    (org : c'.orgSlot = c.orgSlot) (project : c'.projectSlot = c.projectSlot) :
    TenantAccounts limits { g with global := g.global.release } (l.set i c') := by
  have counted := holding_pos member taken
  have held := h.global
  have released : g.global.release = { g.global with held := g.global.held - 1 } :=
    if_pos (by omega)
  have cap := h.globalCap
  rw [released]
  refine h.onGlobal member ?_ ?_ rfl org project
  · rw [holding_set_loss member taken free, Function.update_self]
    push_cast [counted]
    omega
  · dsimp only
    omega

theorem TenantAccounts.acquireGlobal (h : TenantAccounts limits g l) (member : l[i]? = some c)
    (free : c.globalSlot = none)
    (slot : c'.globalSlot = if g.global.tryAcquireOwnLimit.2 then some () else none)
    (org : c'.orgSlot = c.orgSlot) (project : c'.projectSlot = c.projectSlot) :
    TenantAccounts limits { g with global := g.global.tryAcquireOwnLimit.1 } (l.set i c') := by
  have held := h.global
  have cap := h.globalCap
  by_cases full : g.global.limit ≤ g.global.held
  · have refused : g.global.tryAcquireOwnLimit = (g.global, false) := if_pos full
    rw [refused] at slot ⊢
    refine h.onGlobal member ?_ cap rfl org project
    rw [held, holding_set_same member (slot.trans free.symm)]
  · have taken : g.global.tryAcquireOwnLimit =
        ({ g.global with held := g.global.held + 1 }, true) := if_neg full
    rw [taken] at slot ⊢
    refine h.onGlobal member ?_ ?_ rfl org project
    · rw [holding_set_gain member free slot, Function.update_self]
      push_cast
      omega
    · dsimp only
      omega

theorem Tally.acquire {α : Type} {calls : List α} {a a' : α} {slot : α → Option Key}
    {k : KeyedCounter Key} {key : Key} {limit : ℤ} (h : Tally k (holding slot calls))
    (member : calls[i]? = some a) (free : slot a = none)
    (outcome : slot a' = if (k.tryAcquire key limit).2 then some key else none) :
    Tally (k.tryAcquire key limit).1 (holding slot (calls.set i a')) := by
  obtain ⟨granted, refused⟩ := h.tryAcquire key limit
  cases ok : (k.tryAcquire key limit).2 with
  | true =>
    rw [ok, if_pos rfl] at outcome
    rw [holding_set_gain member free outcome]
    exact granted ok
  | false =>
    rw [ok, if_neg Bool.false_ne_true] at outcome
    rw [holding_set_same member (outcome.trans free.symm)]
    exact refused ok

theorem Tally.giveBack {α : Type} {calls : List α} {a a' : α} {slot : α → Option Key}
    {k : KeyedCounter Key} {key : Key} (h : Tally k (holding slot calls))
    (member : calls[i]? = some a) (taken : slot a = some key) (free : slot a' = none) :
    Tally (k.release key) (holding slot (calls.set i a')) := by
  rw [holding_set_loss member taken free]
  exact h.release (holding_pos member taken)

theorem TenantAccounts.next (h : TenantAccounts limits g l) (member : l[i]? = some c)
    (step : c.next g = some (g', phase)) :
    TenantAccounts limits g' (l.set i { c with phase := phase }) := by
  have orgMin : 1 ≤ g.orgLimit := h.orgLimit ▸ one_le_atLeastOne _
  have projectMin : 1 ≤ g.projectLimit := h.projectLimit ▸ one_le_atLeastOne _
  unfold TenantCall.next at step
  cases stands : c.phase
  all_goals simp only [stands, Option.some.injEq, Prod.mk.injEq, reduceCtorEq] at step
  all_goals obtain ⟨rfl, rfl⟩ := step
  case start =>
    refine h.acquireGlobal member ?_ ?_ ?_ ?_
    all_goals cases g.global.tryAcquireOwnLimit.2 <;> simp [stands]
  case gotGlobal =>
    refine h.onOrg member (h.org.acquire member ?_ ?_) (h.orgCap.tryAcquire orgMin) ?_ ?_
    all_goals cases (g.org.tryAcquire c.orgID g.orgLimit).2 <;> simp [stands]
  case gotOrg =>
    refine h.onProject member (h.project.acquire member ?_ ?_)
      (h.projectCap.tryAcquire projectMin) ?_ ?_
    all_goals cases (g.project.tryAcquire c.projectID g.projectLimit).2 <;> simp [stands]
  case rollbackOrg | releasingOrg =>
    refine h.onOrg member (h.org.giveBack member ?_ ?_) h.orgCap.release ?_ ?_
    all_goals simp [stands]
  case rollbackGlobal | releasingGlobal =>
    refine h.releaseGlobal member ?_ ?_ ?_ ?_
    all_goals simp [stands]
  case releasing =>
    refine h.onProject member (h.project.giveBack member ?_ ?_) h.projectCap.release ?_ ?_
    all_goals simp [stands]

theorem TenantAccounts.release (h : TenantAccounts limits g l) (member : l[i]? = some c)
    (called : c.phase.release = some phase) :
    TenantAccounts limits g (l.set i { c with phase := phase }) := by
  have same : ({ c with phase := phase } : TenantCall Key).globalSlot = c.globalSlot ∧
      ({ c with phase := phase } : TenantCall Key).orgSlot = c.orgSlot ∧
      ({ c with phase := phase } : TenantCall Key).projectSlot = c.projectSlot := by
    cases stands : c.phase <;> rw [stands] at called <;> cases called <;> simp [stands]
  obtain ⟨global, org, project⟩ := same
  exact { h with
    global := holding_set_same member global ▸ h.global
    org := holding_set_same member org ▸ h.org
    project := holding_set_same member project ▸ h.project }

theorem TenantAccounts.begin (h : TenantAccounts limits g l) (orgID projectID : Key) :
    TenantAccounts limits g (l ++ [⟨orgID, projectID, .start⟩]) := by
  have free : ∀ {κ : Type} [DecidableEq κ] (slot : TenantCall Key → Option κ),
      slot ⟨orgID, projectID, .start⟩ = none →
        holding slot (l ++ [⟨orgID, projectID, .start⟩]) = holding slot l :=
    fun _ missing => holding_append_free missing
  exact { h with
    global := (free TenantCall.globalSlot rfl).symm ▸ h.global
    org := (free TenantCall.orgSlot rfl).symm ▸ h.org
    project := (free TenantCall.projectSlot rfl).symm ▸ h.project }

/-- The counts of all four scopes. -/
structure Accounts (limits : GateLimits) (s : Calls Key) : Prop where
  tenants : TenantAccounts limits s.gate s.tenants
  endpoints : Tally s.gate.endpoint (holding EndpointCall.slot s.endpoints)

theorem TenantCall.next_endpoint (step : c.next g = some (g', phase)) :
    g'.endpoint = g.endpoint := by
  unfold TenantCall.next at step
  cases stands : c.phase <;> rw [stands] at step <;> cases step <;> rfl

theorem EndpointCall.next_gate {phase : EndpointPhase} (step : e.next g = some (g', phase)) :
    g' = { g with endpoint := g'.endpoint } := by
  unfold EndpointCall.next at step
  cases stands : e.phase <;> rw [stands] at step <;> cases step <;> rfl

theorem endpoint_next {phase : EndpointPhase} {calls : List (EndpointCall Key)}
    (h : Tally g.endpoint (holding EndpointCall.slot calls)) (member : calls[i]? = some e)
    (step : e.next g = some (g', phase)) :
    Tally g'.endpoint (holding EndpointCall.slot (calls.set i { e with phase := phase })) := by
  unfold EndpointCall.next at step
  cases stands : e.phase
  all_goals simp only [stands, Option.some.injEq, Prod.mk.injEq, reduceCtorEq] at step
  all_goals obtain ⟨rfl, rfl⟩ := step
  case start =>
    refine h.acquire member ?_ ?_
    all_goals cases (g.endpoint.tryAcquire e.endpointID e.limit).2 <;> simp [stands]
  case releasing =>
    refine h.giveBack member ?_ ?_
    all_goals simp [stands]

theorem endpoint_release {phase : EndpointPhase} {calls : List (EndpointCall Key)}
    (member : calls[i]? = some e) (called : e.phase.release = some phase) :
    holding EndpointCall.slot (calls.set i { e with phase := phase }) =
      holding EndpointCall.slot calls := by
  refine holding_set_same member ?_
  unfold EndpointCall.slot
  cases stands : e.phase <;> rw [stands] at called <;> cases called <;> simp

theorem Accounts.next {s t : Calls Key} {op : Op Key} (h : Accounts limits s)
    (step : next s op = some t) : Accounts limits t := by
  cases op with
  | acquireTenant orgID projectID =>
    cases step
    exact ⟨h.tenants.begin orgID projectID, h.endpoints⟩
  | stepTenant i =>
    obtain ⟨c, member, step⟩ := Option.bind_eq_some_iff.mp step
    obtain ⟨⟨g, phase⟩, moved, rfl⟩ := Option.map_eq_some_iff.mp step
    exact ⟨h.tenants.next member moved, TenantCall.next_endpoint moved ▸ h.endpoints⟩
  | releaseTenant i =>
    obtain ⟨c, member, step⟩ := Option.bind_eq_some_iff.mp step
    obtain ⟨phase, called, rfl⟩ := Option.map_eq_some_iff.mp step
    exact ⟨h.tenants.release member called, h.endpoints⟩
  | acquireEndpoint endpointID capacity ceiling =>
    cases step
    have free : EndpointCall.slot (⟨endpointID, capacity, ceiling, .start⟩ : EndpointCall Key) =
        none := rfl
    exact ⟨h.tenants, (holding_append_free free).symm ▸ h.endpoints⟩
  | stepEndpoint i =>
    obtain ⟨e, member, step⟩ := Option.bind_eq_some_iff.mp step
    obtain ⟨⟨g, phase⟩, moved, rfl⟩ := Option.map_eq_some_iff.mp step
    refine ⟨?_, endpoint_next h.endpoints member moved⟩
    have same := EndpointCall.next_gate moved
    change TenantAccounts limits g s.tenants
    rw [same]
    exact { h.tenants with }
  | releaseEndpoint i =>
    obtain ⟨e, member, step⟩ := Option.bind_eq_some_iff.mp step
    obtain ⟨phase, called, rfl⟩ := Option.map_eq_some_iff.mp step
    exact ⟨h.tenants, endpoint_release member called ▸ h.endpoints⟩

theorem accounts_start (limits : GateLimits) :
    Accounts limits (⟨NewGate limits, [], []⟩ : Calls Key) where
  tenants := {
    global := rfl
    org := tally_new
    project := tally_new
    globalCap := Int.le_trans Int.one_nonneg (one_le_atLeastOne limits.Global)
    orgCap := capped_new
    projectCap := capped_new
    globalLimit := rfl
    orgLimit := rfl
    projectLimit := rfl }
  endpoints := tally_new

theorem accounts_of_reachable {s : Calls Key} (reach : Reachable (system limits) s) :
    Accounts limits s :=
  reach.invariant (I := Accounts limits) (fun _ start => start ▸ accounts_start limits)
    fun _ _ _ h step => h.next step

end Accounts

section Results

variable {Key : Type}

/-- Granted, and its release not yet called. -/
def TenantCall.isGranted (c : TenantCall Key) : Bool := decide (c.phase = .granted)

/-- Neither granted nor at its end: an acquire, a rollback or a release is under way. -/
def TenantCall.inProgress (c : TenantCall Key) : Bool :=
  match c.phase with
  | .granted | .refused _ | .released => false
  | _ => true

def EndpointCall.isGranted (c : EndpointCall Key) : Bool := decide (c.phase = .granted)

def EndpointCall.inProgress (c : EndpointCall Key) : Bool :=
  match c.phase with
  | .granted | .refused | .released => false
  | _ => true

/-- Refused, or granted and released again. -/
def TenantCall.Settled (c : TenantCall Key) : Prop := ¬c.isGranted ∧ ¬c.inProgress

def EndpointCall.Settled (c : EndpointCall Key) : Prop := ¬c.isGranted ∧ ¬c.inProgress

theorem TenantCall.granted_apart (c : TenantCall Key) (granted : c.isGranted = true) :
    c.inProgress = false := by
  unfold TenantCall.inProgress
  rw [of_decide_eq_true granted]

theorem TenantCall.settled_free {c : TenantCall Key} (settled : c.Settled) :
    c.globalSlot = none ∧ c.orgSlot = none ∧ c.projectSlot = none := by
  obtain ⟨granted, moving⟩ := settled
  unfold TenantCall.isGranted at granted
  unfold TenantCall.inProgress at moving
  unfold TenantCall.globalSlot TenantCall.orgSlot TenantCall.projectSlot
  cases stands : c.phase <;> simp_all

theorem EndpointCall.settled_free {c : EndpointCall Key} (settled : c.Settled) :
    c.slot = none := by
  obtain ⟨granted, moving⟩ := settled
  unfold EndpointCall.isGranted at granted
  unfold EndpointCall.inProgress at moving
  unfold EndpointCall.slot
  cases stands : c.phase <;> simp_all

/-- The granted calls that hold a slot under the key, and those still in progress that do. -/
def tenantHolders {κ : Type} [DecidableEq κ] (slot : TenantCall Key → Option κ)
    (l : List (TenantCall Key)) (k : κ) : ℕ :=
  l.countP (fun c => c.isGranted && decide (slot c = some k)) +
    l.countP fun c => c.inProgress && decide (slot c = some k)

def endpointHolders [DecidableEq Key] (l : List (EndpointCall Key)) (k : Key) : ℕ :=
  l.countP (fun c => c.isGranted && decide (c.slot = some k)) +
    l.countP fun c => c.inProgress && decide (c.slot = some k)

theorem holding_eq_tenantHolders {κ : Type} [DecidableEq κ] {slot : TenantCall Key → Option κ}
    (free : ∀ c : TenantCall Key, c.Settled → slot c = none) (l : List (TenantCall Key)) (k : κ) :
    holding slot l k = tenantHolders slot l k := by
  refine holding_eq_add TenantCall.granted_apart fun c taken => ?_
  by_contra settled
  rw [not_or] at settled
  rw [free c settled] at taken
  cases taken

variable [DecidableEq Key]

theorem holding_eq_endpointHolders (l : List (EndpointCall Key)) (k : Key) :
    holding EndpointCall.slot l k = endpointHolders l k := by
  refine holding_eq_add (fun c granted => ?_) fun c taken => ?_
  · unfold EndpointCall.inProgress
    rw [of_decide_eq_true granted]
  · by_contra settled
    rw [not_or] at settled
    rw [EndpointCall.settled_free settled] at taken
    cases taken

theorem Tally.empty {k : KeyedCounter Key} (h : Tally k fun _ => 0) : k.entries = ∅ := by
  have absent : ∀ key, k.entries.lookup key = none := by
    intro key
    have here := h key
    cases found : k.entries.lookup key with
    | none => rfl
    | some e =>
      rw [found] at here
      exact absurd here.2 (lt_irrefl 0)
  apply AList.ext
  refine List.eq_nil_iff_forall_not_mem.mpr fun ⟨key, e⟩ member => ?_
  have found := AList.mem_lookup_iff.mpr member
  rw [absent key] at found
  cases found

end Results

/-- At every point of every interleaving: each count is the number of granted calls and of calls in
progress that hold a slot there, no tenant ceiling is exceeded, a refused call holds nothing, and
when all calls have come to their end nothing is left behind. -/
theorem gate_accounts {Key : Type} [DecidableEq Key] (limits : GateLimits) (s : Calls Key)
    (reach : Reachable (system limits) s) :
    (s.gate.global.held = tenantHolders TenantCall.globalSlot s.tenants () ∧
        (∀ org, s.gate.org.inFlight org = tenantHolders TenantCall.orgSlot s.tenants org) ∧
        (∀ project, s.gate.project.inFlight project =
          tenantHolders TenantCall.projectSlot s.tenants project) ∧
        ∀ endpoint, s.gate.endpoint.inFlight endpoint = endpointHolders s.endpoints endpoint) ∧
      (s.gate.global.held ≤ atLeastOne limits.Global ∧
        (∀ org, s.gate.org.inFlight org ≤ atLeastOne limits.Org) ∧
        ∀ project, s.gate.project.inFlight project ≤ atLeastOne limits.Project) ∧
      (∀ c ∈ s.tenants, ∀ scope, c.phase = .refused scope →
        c.globalSlot = none ∧ c.orgSlot = none ∧ c.projectSlot = none) ∧
      ((∀ c ∈ s.tenants, c.Settled) → (∀ c ∈ s.endpoints, c.Settled) →
        s.gate.global.held = 0 ∧ s.gate.org.entries = ∅ ∧ s.gate.project.entries = ∅ ∧
          s.gate.endpoint.entries = ∅) := by
  obtain ⟨tenants, endpoints⟩ := accounts_of_reachable reach
  have orgMin : 1 ≤ s.gate.orgLimit := tenants.orgLimit ▸ one_le_atLeastOne _
  have projectMin : 1 ≤ s.gate.projectLimit := tenants.projectLimit ▸ one_le_atLeastOne _
  refine ⟨⟨?_, ?_, ?_, ?_⟩, ⟨?_, ?_, ?_⟩, ?_, ?_⟩
  · rw [tenants.global, holding_eq_tenantHolders fun c settled => (c.settled_free settled).1]
  · intro org
    rw [tenants.org.inFlight,
      holding_eq_tenantHolders fun c settled => (c.settled_free settled).2.1]
  · intro project
    rw [tenants.project.inFlight,
      holding_eq_tenantHolders fun c settled => (c.settled_free settled).2.2]
  · intro endpoint
    rw [endpoints.inFlight, holding_eq_endpointHolders]
  · exact tenants.globalLimit ▸ tenants.globalCap
  · intro org
    exact tenants.orgLimit ▸ tenants.orgCap.inFlight_le orgMin org
  · intro project
    exact tenants.projectLimit ▸ tenants.projectCap.inFlight_le projectMin project
  · intro c _ scope refused
    refine TenantCall.settled_free ⟨?_, ?_⟩
    · simp [TenantCall.isGranted, refused]
    · simp [TenantCall.inProgress, refused]
  · intro settled settled'
    have free := fun c hc => TenantCall.settled_free (settled c hc)
    have global := tenants.global
    have org := tenants.org
    have project := tenants.project
    rw [holding_eq_zero fun c hc => (free c hc).1] at global
    rw [holding_eq_zero fun c hc => (free c hc).2.1] at org
    rw [holding_eq_zero fun c hc => (free c hc).2.2] at project
    rw [holding_eq_zero fun c hc => EndpointCall.settled_free (settled' c hc)] at endpoints
    exact ⟨global, org.empty, project.empty, endpoints.empty⟩

/-- One slot at every scope: the first call gets it, the second is refused, and the first one's
release, called twice, gives it back once. -/
theorem gate_accounts_released : ∃ s : Calls ℕ,
    s.tenants.map TenantCall.phase = [.released, .refused .global] ∧ s.endpoints = [] ∧
      s.gate.global.held = 0 ∧ s.gate.org.entries = ∅ ∧ s.gate.project.entries = ∅ := by
  have run : (execute next ⟨NewGate ⟨1, 1, 1, 1⟩, [], []⟩
      [.acquireTenant 0 0, .stepTenant 0, .stepTenant 0, .stepTenant 0, .acquireTenant 0 1,
        .stepTenant 1, .releaseTenant 0, .stepTenant 0, .releaseTenant 0, .stepTenant 0,
        .stepTenant 0]).any (fun s : Calls ℕ => decide (s.tenants.map TenantCall.phase =
          [.released, .refused .global]) && s.endpoints.isEmpty) = true := by
    decide +kernel
  obtain ⟨s, reach, seen⟩ : ∃ s, Reachable (system ⟨1, 1, 1, 1⟩) s ∧ _ :=
    exists_reachable_of_execute rfl run
  obtain ⟨phases, missing⟩ := (Bool.and_eq_true _ _).mp seen
  replace phases := of_decide_eq_true phases
  have empty : s.endpoints = [] := List.isEmpty_iff.mp missing
  obtain ⟨-, -, -, cleared⟩ := gate_accounts ⟨1, 1, 1, 1⟩ s reach
  have settled : ∀ c ∈ s.tenants, c.Settled := by
    intro c hc
    have phase : c.phase ∈ s.tenants.map TenantCall.phase := List.mem_map_of_mem hc
    rw [phases] at phase
    unfold TenantCall.Settled TenantCall.isGranted TenantCall.inProgress
    rcases List.mem_pair.mp phase with stands | stands
    · rw [stands]
      decide
    · rw [stands]
      decide
  obtain ⟨global, org, project, -⟩ := cleared settled (by simp [empty])
  exact ⟨s, phases, empty, global, org, project⟩

end Hookubit.Worker.Concurrency
