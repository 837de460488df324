/- sources: egress/dial.go DialContext, partialDeadline
   digest: One connect budget shared by the addresses of a name, and the error when none answers. -/

import Hookubit.Data.IpText
import Hookubit.Egress.Client

/-!
Instants are integers that count nanoseconds, and the zero `time.Time` is the absent instant.
What a dial does, how long it takes and whether the caller's context has ended by then is the
network's business.
-/

set_option autoImplicit false
set_option relaxedAutoImplicit false

namespace Hookubit.Egress.Dial

open Data.Int64 Data.IpAddress Data.IpText Egress.Client Postgres.Clock Retry.Backoff
open Data.Utf8 (Bytes encode)

universe u

def maxDialAddresses : ℕ := 4

def Sub (t s : ℤ) : ℤ := saturate (t - s)

def errDeadlineExceeded : DeliveryError := { plainError with timeout := true }

/-- The `*net.DNSError` of an empty answer. -/
def noAddressesError : DeliveryError := { plainError with dns := true }

def saneMinimum : ℤ := 2 * second

def partialDeadline (now deadline : ℤ) (addrsRemaining : ℕ) : Except DeliveryError ℤ :=
  let timeRemaining := Sub deadline now
  if timeRemaining ≤ 0 then .error errDeadlineExceeded
  else
    let timeout := timeRemaining.tdiv addrsRemaining
    let timeout :=
      if timeout < saneMinimum then
        if timeRemaining < saneMinimum then timeRemaining else saneMinimum
      else timeout
    .ok (now + timeout)

/-- How one dial ends: after how long, with what, and with the caller's context done or not. -/
structure Dialed (κ : Type u) where
  took : ℤ
  result : Except DeliveryError κ
  ended : Bool

/-- What the dialer makes of the `i`-th address at some instant, with some deadline. It does not
overrun the deadline. -/
structure Network (κ : Type u) where
  dial : ℕ → Bytes → ℤ → Option ℤ → Dialed κ
  took_nonneg : ∀ i address now deadline, 0 ≤ (dial i address now deadline).took
  took_le : ∀ i address now deadline, now ≤ deadline →
    now + (dial i address now (some deadline)).took ≤ deadline

structure BoundedDialer where
  dnsTimeout : ℤ
  connectTimeout : ℤ

/-- What the resolver answers for a host. -/
abbrev Lookup := Bytes → Except DeliveryError (List Bytes)

def JoinHostPort (host port : Bytes) : Bytes :=
  if colon ∈ host then openBracket :: (host ++ closeBracket :: colon :: port)
  else host ++ colon :: port

structure Try where
  ip : Bytes
  started : ℤ
  deadline : Option ℤ
  refused : Bool
  ended : Bool

section Connect

variable {κ : Type u} (net : Network κ) (port : Bytes) (deadline caller : Option ℤ)

/-- The deadline of the next dial. A context never outlives the one it is made from. -/
def dialDeadline (now : ℤ) (addrsRemaining : ℕ) : Except DeliveryError (Option ℤ) :=
  match deadline with
  | none => .ok caller
  | some deadline =>
      match partialDeadline now deadline addrsRemaining with
      | .error err => .error err
      | .ok share => .ok (some ((caller.map (min share)).getD share))

/-- The error kept as the first refusal of the guard. -/
def noteBlocked (firstBlocked : Option DeliveryError) (err : DeliveryError) :
    Option DeliveryError :=
  firstBlocked.or (if err.blockedTarget then some err else none)

/-- The error when every address has failed. -/
def verdict (firstErr firstBlocked : Option DeliveryError) : DeliveryError :=
  match firstBlocked, firstErr with
  | some blocked, _ => blocked
  | none, some err => err
  | none, none => noAddressesError

/-- The loop over the addresses, from the `i`-th on. -/
def dialEach (i : ℕ) (now : ℤ) (firstErr firstBlocked : Option DeliveryError) :
    List Bytes → List Try × Except DeliveryError κ
  | [] => ([], .error (verdict firstErr firstBlocked))
  | ip :: rest =>
      match dialDeadline deadline caller now (rest.length + 1) with
      | .error err => ([], .error (verdict (firstErr.or (some err)) firstBlocked))
      | .ok dialBy =>
          let dialed := net.dial i (JoinHostPort ip port) now dialBy
          match dialed.result with
          | .ok conn => ([⟨ip, now, dialBy, false, dialed.ended⟩], .ok conn)
          | .error err =>
              let this : Try := ⟨ip, now, dialBy, err.blockedTarget, dialed.ended⟩
              let blocked := noteBlocked firstBlocked err
              let first := firstErr.or (some err)
              if dialed.ended then ([this], .error (verdict first blocked))
              else
                let later := dialEach (i + 1) (now + dialed.took) first blocked rest
                (this :: later.1, later.2)

end Connect

/-- One deadline for the whole connect phase: the budget's or the caller's, whichever is first. -/
def overallDeadline (connectTimeout : ℤ) (caller : Option ℤ) (now : ℤ) : Option ℤ :=
  let deadline := if 0 < connectTimeout then some (now + connectTimeout) else none
  match caller, deadline with
  | none, deadline => deadline
  | some caller, none => some caller
  | some caller, some deadline => some (if caller < deadline then caller else deadline)

def capped (addrs : List Bytes) : List Bytes :=
  if maxDialAddresses < addrs.length then addrs.take maxDialAddresses else addrs

/-- What comes of an address before anything is dialled: it is handed to the dialer as it is,
its name cannot be resolved, or it can. -/
inductive Target
  | whole
  | unresolved (err : DeliveryError)
  | resolved (port : Bytes) (addrs : List Bytes)

def target (d : BoundedDialer) (lookup : Lookup) (address : Bytes) : Target :=
  if d.dnsTimeout ≤ 0 then .whole
  else
    match SplitHostPort address with
    | none => .whole
    | some (host, port) =>
        if (ParseIP host).isSome then .whole
        else
          match lookup host with
          | .error err => .unresolved err
          | .ok addrs => .resolved port addrs

/-- `DialContext`, from the end of the lookup: the addresses dialled, and what is returned. -/
def DialContext {κ : Type u} (d : BoundedDialer) (lookup : Lookup) (net : Network κ)
    (caller : Option ℤ) (now : ℤ) (address : Bytes) : List Try × Except DeliveryError κ :=
  match target d lookup address with
  | .whole =>
      let dialed := net.dial 0 address now caller
      let refused := match dialed.result with
        | .ok _ => false
        | .error err => err.blockedTarget
      ([⟨address, now, caller, refused, dialed.ended⟩], dialed.result)
  | .unresolved err => ([], .error err)
  | .resolved port addrs =>
      dialEach net port (overallDeadline d.connectTimeout caller now) caller 0 now none none
        (capped addrs)

section Shares

variable {now D B k share : ℤ}

theorem sub_le_of_pos {t s : ℤ} (h : 0 < Sub t s) : Sub t s ≤ t - s := by
  unfold Sub saturate at *
  split_ifs at * <;> omega

theorem le_sub_of_le {t s x y : ℤ} (le : x ≤ t - s) (below : x ≤ y) (small : InRange y) :
    x ≤ Sub t s := by
  unfold InRange at small
  unfold Sub saturate
  split_ifs <;> omega

theorem share_le {addrs : ℕ} (h : partialDeadline now D addrs = .ok share) :
    now ≤ share ∧ share ≤ D := by
  unfold partialDeadline at h
  dsimp only at h
  split_ifs at h with spent floor scarce
  all_goals
    have some_left : 0 < Sub D now := by omega
    have within := sub_le_of_pos some_left
    have := Except.ok.inj h
  · omega
  · unfold saneMinimum second at *
    omega
  · have le : (Sub D now).tdiv addrs ≤ Sub D now := by
      rw [Int.tdiv_eq_ediv_of_nonneg some_left.le]
      exact Int.ediv_le_self _ some_left.le
    have nonneg : 0 ≤ (Sub D now).tdiv addrs := by
      unfold saneMinimum second at floor
      omega
    omega

/-- What is left for `n` of `k` addresses is still their part of the budget. Then the next one
gets at least an equal part of it, and leaves the others theirs. -/
theorem fair_share {addrs : ℕ} (positive : 0 < addrs) (kpos : 0 < k) (small : InRange B)
    (ample : saneMinimum * k ≤ B) (fits : (addrs : ℤ) ≤ k) (left : B * addrs ≤ k * (D - now)) :
    ∃ share, partialDeadline now D addrs = .ok share ∧ saneMinimum ≤ share - now ∧
      B / k ≤ share - now ∧ B * (addrs - 1) ≤ k * (D - share) := by
  have minimum : 0 < saneMinimum := by decide
  have npos : (0 : ℤ) < addrs := by exact_mod_cast positive
  have Bpos : 0 < B := lt_of_lt_of_le (Int.mul_pos minimum kpos) ample
  have part : B / k * addrs ≤ D - now := by
    refine le_of_mul_le_mul_left ?_ kpos
    calc k * (B / k * addrs) = B / k * k * addrs := by ring
      _ ≤ B * addrs := Int.mul_le_mul_of_nonneg_right (Int.ediv_mul_le B kpos.ne') npos.le
      _ ≤ k * (D - now) := left
  have floor : saneMinimum ≤ B / k := (Int.le_ediv_iff_mul_le kpos).mpr ample
  have below : B / k * addrs ≤ B := by
    calc B / k * addrs ≤ B / k * k :=
          Int.mul_le_mul_of_nonneg_left fits (minimum.le.trans floor)
      _ ≤ B := Int.ediv_mul_le B kpos.ne'
  have covered : B / k * addrs ≤ Sub D now := le_sub_of_le part below small
  have some_left : 0 < Sub D now :=
    lt_of_lt_of_le (Int.mul_pos (lt_of_lt_of_le minimum floor) npos) covered
  have equal : B / k ≤ Sub D now / addrs := (Int.le_ediv_iff_mul_le npos).mpr covered
  refine ⟨now + Sub D now / addrs, ?_, by omega, by omega, ?_⟩
  · unfold partialDeadline
    dsimp only
    rw [if_neg (by omega), Int.tdiv_eq_ediv_of_nonneg some_left.le, if_neg (by omega)]
  · have within := sub_le_of_pos some_left
    have spent : addrs * (Sub D now / addrs) ≤ D - now :=
      (Int.mul_ediv_self_le npos.ne').trans within
    refine le_of_mul_le_mul_left ?_ npos
    calc addrs * (B * (addrs - 1)) = B * addrs * (addrs - 1) := by ring
      _ ≤ k * (D - now) * (addrs - 1) := Int.mul_le_mul_of_nonneg_right left (by omega)
      _ = k * (addrs * (D - now) - (D - now)) := by ring
      _ ≤ k * (addrs * (D - now) - addrs * (Sub D now / addrs)) :=
          Int.mul_le_mul_of_nonneg_left (by omega) kpos.le
      _ = addrs * (k * (D - (now + Sub D now / addrs))) := by ring

end Shares

section Loop

variable {κ : Type u} (deadline caller : Option ℤ)

/-- The runs of the loop: how it may end, and how it goes on. -/
inductive Loop : ℤ → Option DeliveryError → Option DeliveryError → List Bytes → List Try →
    Except DeliveryError κ → Prop
  | exhausted (now : ℤ) (firstErr firstBlocked : Option DeliveryError) :
      Loop now firstErr firstBlocked [] [] (.error (verdict firstErr firstBlocked))
  | spent {now : ℤ} {firstErr firstBlocked : Option DeliveryError} {ip : Bytes}
      {rest : List Bytes} {err : DeliveryError} :
      dialDeadline deadline caller now (rest.length + 1) = .error err →
      Loop now firstErr firstBlocked (ip :: rest) []
        (.error (verdict (firstErr.or (some err)) firstBlocked))
  | connected {now : ℤ} {firstErr firstBlocked : Option DeliveryError} {ip : Bytes}
      {rest : List Bytes} {dialBy : Option ℤ} (ended : Bool) (conn : κ) :
      dialDeadline deadline caller now (rest.length + 1) = .ok dialBy →
      Loop now firstErr firstBlocked (ip :: rest) [⟨ip, now, dialBy, false, ended⟩] (.ok conn)
  | gaveUp {now : ℤ} {firstErr firstBlocked : Option DeliveryError} {ip : Bytes}
      {rest : List Bytes} {dialBy : Option ℤ} (err : DeliveryError) :
      dialDeadline deadline caller now (rest.length + 1) = .ok dialBy →
      Loop now firstErr firstBlocked (ip :: rest) [⟨ip, now, dialBy, err.blockedTarget, true⟩]
        (.error (verdict (firstErr.or (some err)) (noteBlocked firstBlocked err)))
  | next {now later : ℤ} {firstErr firstBlocked : Option DeliveryError} {ip : Bytes}
      {rest : List Bytes} {dialBy : Option ℤ} {tries : List Try} {out : Except DeliveryError κ}
      (err : DeliveryError) :
      dialDeadline deadline caller now (rest.length + 1) = .ok dialBy →
      (∀ d, dialBy = some d → now ≤ d → later ≤ d) →
      Loop later (firstErr.or (some err)) (noteBlocked firstBlocked err) rest tries out →
      Loop now firstErr firstBlocked (ip :: rest)
        (⟨ip, now, dialBy, err.blockedTarget, false⟩ :: tries) out

variable {deadline caller}

theorem loop_dialEach (net : Network κ) (port : Bytes) (i : ℕ) (now : ℤ)
    (firstErr firstBlocked : Option DeliveryError) (addrs : List Bytes) :
    Loop deadline caller now firstErr firstBlocked addrs
      (dialEach net port deadline caller i now firstErr firstBlocked addrs).1
      (dialEach net port deadline caller i now firstErr firstBlocked addrs).2 := by
  induction addrs generalizing i now firstErr firstBlocked with
  | nil => exact .exhausted now firstErr firstBlocked
  | cons ip rest ih =>
    rw [dialEach]
    cases due : dialDeadline deadline caller now (rest.length + 1) with
    | error err => exact .spent due
    | ok dialBy =>
      dsimp only
      cases result : (net.dial i (JoinHostPort ip port) now dialBy).result with
      | ok conn => exact .connected _ conn due
      | error err =>
        dsimp only
        cases ended : (net.dial i (JoinHostPort ip port) now dialBy).ended with
        | true => exact .gaveUp err due
        | false =>
          refine .next err due ?_ (ih _ _ _ _)
          rintro d rfl early
          exact net.took_le i _ now d early

variable {now : ℤ} {firstErr firstBlocked : Option DeliveryError} {addrs : List Bytes}
  {tries : List Try} {out : Except DeliveryError κ}

theorem Loop.prefix_tried (run : Loop deadline caller now firstErr firstBlocked addrs tries out) :
    tries.map Try.ip <+: addrs := by
  induction run with
  | exhausted => exact List.nil_prefix
  | spent _ => exact List.nil_prefix
  | connected ended conn _ => simp
  | gaveUp err _ => simp
  | next err _ _ _ ih => simpa using ih

theorem dialDeadline_some {D : ℤ} {remaining : ℕ} {dialBy : Option ℤ}
    (h : dialDeadline (some D) caller now remaining = .ok dialBy) :
    ∃ share, partialDeadline now D remaining = .ok share ∧
      dialBy = some ((caller.map (min share)).getD share) := by
  rw [dialDeadline] at h
  cases given : partialDeadline now D remaining with
  | error err =>
    rw [given] at h
    cases h
  | ok share =>
    rw [given] at h
    exact ⟨share, rfl, (Except.ok.inj h).symm⟩

theorem Loop.deadline_le {D : ℤ}
    (run : Loop (some D) caller now firstErr firstBlocked addrs tries out) :
    ∀ t ∈ tries, ∃ d, t.deadline = some d ∧ d ≤ D := by
  have bound : ∀ {now remaining dialBy}, dialDeadline (some D) caller now remaining = .ok dialBy →
      ∃ d, dialBy = some d ∧ d ≤ D := by
    intro now remaining dialBy due
    obtain ⟨share, given, rfl⟩ := dialDeadline_some due
    refine ⟨_, rfl, ?_⟩
    cases caller with
    | none => exact (share_le given).2
    | some c => exact (min_le_left _ _).trans (share_le given).2
  induction run with
  | exhausted => exact List.forall_mem_nil _
  | spent _ => exact List.forall_mem_nil _
  | connected ended conn due => exact fun t ht => List.mem_singleton.mp ht ▸ bound due
  | gaveUp err due => exact fun t ht => List.mem_singleton.mp ht ▸ bound due
  | next err due _ _ ih => exact List.forall_mem_cons.mpr ⟨bound due, ih⟩

/-- Nothing but a connection or the end of the caller's context keeps the loop from an address. -/
def Completed (addrs : List Bytes) (tries : List Try) (out : Except DeliveryError κ) : Prop :=
  tries.map Try.ip = addrs ∨ (∃ conn, out = .ok conn) ∨ ∃ t ∈ tries, t.ended = true

theorem Completed.cons (this : Try) {rest : List Bytes} (h : Completed rest tries out) :
    Completed (this.ip :: rest) (this :: tries) out := by
  obtain all | connected | ⟨t, ht, ended⟩ := h
  · exact .inl (congrArg (this.ip :: ·) all)
  · exact .inr (.inl connected)
  · exact .inr (.inr ⟨t, List.mem_cons_of_mem _ ht, ended⟩)

/-- With two seconds for each address, every one that is reached gets those and an equal part
of the budget, and every one is reached. -/
theorem Loop.fair {D B : ℤ} {k : ℕ} (small : InRange B) (ample : saneMinimum * k ≤ B)
    (within : ∀ c, caller = some c → D ≤ c)
    (run : Loop (some D) caller now firstErr firstBlocked addrs tries out)
    (fits : addrs.length ≤ k) (left : B * addrs.length ≤ k * (D - now)) :
    (∀ t ∈ tries, ∃ d, t.deadline = some d ∧ saneMinimum ≤ d - t.started ∧ B / k ≤ d - t.started) ∧
      Completed addrs tries out := by
  -- a turn with `rest` still to come, in its share of the budget
  have turn : ∀ {now : ℤ} {rest : List Bytes}, rest.length + 1 ≤ k →
      B * (rest.length + 1 : ℕ) ≤ k * (D - now) →
      ∃ d, dialDeadline (some D) caller now (rest.length + 1) = .ok (some d) ∧
        saneMinimum ≤ d - now ∧ B / k ≤ d - now ∧ B * rest.length ≤ k * (D - d) := by
    intro now rest fits left
    obtain ⟨share, given, floor, part, others⟩ := fair_share (Nat.succ_pos rest.length)
      (by omega) small ample (by exact_mod_cast fits) left
    have mine : (caller.map (min share)).getD share = share := by
      cases caller with
      | none => rfl
      | some c => exact min_eq_left ((share_le given).2.trans (within c rfl))
    have due : dialDeadline (some D) caller now (rest.length + 1) = .ok (some share) := by
      rw [dialDeadline, given]
      exact congrArg (fun d => Except.ok (some d)) mine
    exact ⟨share, due, floor, part, by simpa using others⟩
  induction run with
  | exhausted => exact ⟨List.forall_mem_nil _, .inl rfl⟩
  | spent due =>
    obtain ⟨d, given, -⟩ := turn fits left
    cases due.symm.trans given
  | connected ended conn due =>
    obtain ⟨d, given, floor, part, -⟩ := turn fits left
    obtain rfl := Except.ok.inj (due.symm.trans given)
    refine ⟨?_, .inr (.inl ⟨conn, rfl⟩)⟩
    intro t ht
    rw [List.mem_singleton.mp ht]
    exact ⟨d, rfl, floor, part⟩
  | gaveUp err due =>
    obtain ⟨d, given, floor, part, -⟩ := turn fits left
    obtain rfl := Except.ok.inj (due.symm.trans given)
    refine ⟨?_, .inr (.inr ⟨_, List.mem_singleton_self _, rfl⟩)⟩
    intro t ht
    rw [List.mem_singleton.mp ht]
    exact ⟨d, rfl, floor, part⟩
  | next err due ends _ ih =>
    obtain ⟨d, given, floor, part, others⟩ := turn fits left
    obtain rfl := Except.ok.inj (due.symm.trans given)
    have minimum : 0 < saneMinimum := by decide
    have later := ends d rfl (by omega)
    obtain ⟨served, completed⟩ := ih (Nat.le_of_succ_le fits)
      (others.trans (Int.mul_le_mul_of_nonneg_left (by omega) (by omega)))
    exact ⟨List.forall_mem_cons.mpr ⟨⟨d, rfl, floor, part⟩, served⟩, completed.cons _⟩

theorem Loop.untimed (run : Loop none caller now firstErr firstBlocked addrs tries out) :
    (∀ t ∈ tries, t.deadline = caller) ∧ Completed addrs tries out := by
  induction run with
  | exhausted => exact ⟨List.forall_mem_nil _, .inl rfl⟩
  | spent due => cases due
  | connected ended conn due =>
    refine ⟨?_, .inr (.inl ⟨conn, rfl⟩)⟩
    intro t ht
    rw [List.mem_singleton.mp ht]
    exact (Except.ok.inj due).symm
  | gaveUp err due =>
    refine ⟨?_, .inr (.inr ⟨_, List.mem_singleton_self _, rfl⟩)⟩
    intro t ht
    rw [List.mem_singleton.mp ht]
    exact (Except.ok.inj due).symm
  | next err due _ _ ih =>
    exact ⟨List.forall_mem_cons.mpr ⟨(Except.ok.inj due).symm, ih.1⟩, ih.2.cons _⟩

/-- What is kept of the errors so far: a refusal if there was one, else none. -/
structure Kept (firstErr firstBlocked : Option DeliveryError) : Prop where
  blocked : ∀ b, firstBlocked = some b → b.blockedTarget = true
  other : firstBlocked = none → ∀ e, firstErr = some e → e.blockedTarget = false

theorem kept_none : Kept none none where
  blocked := fun _ absent => absurd absent.symm (Option.some_ne_none _)
  other := fun _ _ absent => absurd absent.symm (Option.some_ne_none _)

theorem Kept.blockedTarget_verdict (kept : Kept firstErr firstBlocked) :
    (verdict firstErr firstBlocked).blockedTarget = firstBlocked.isSome := by
  cases firstBlocked with
  | some b => exact kept.blocked b rfl
  | none =>
    cases firstErr with
    | some e => exact kept.other rfl e rfl
    | none => rfl

theorem Kept.note (kept : Kept firstErr firstBlocked) (err : DeliveryError) :
    Kept (firstErr.or (some err)) (noteBlocked firstBlocked err) := by
  cases firstBlocked with
  | some b => exact ⟨kept.blocked, fun absent => absurd absent (Option.some_ne_none _)⟩
  | none =>
    cases refused : err.blockedTarget with
    | true =>
      have noted : noteBlocked none err = some err := by simp [noteBlocked, refused]
      rw [noted]
      exact ⟨fun b same => Option.some_injective _ same ▸ refused,
        fun absent => absurd absent (Option.some_ne_none _)⟩
    | false =>
      have noted : noteBlocked none err = none := by simp [noteBlocked, refused]
      rw [noted]
      refine ⟨fun b absent => absurd absent.symm (Option.some_ne_none _), fun _ e first => ?_⟩
      cases firstErr with
      | some f => exact kept.other rfl e first
      | none => exact Option.some_injective _ first ▸ refused

theorem isSome_noteBlocked (firstBlocked : Option DeliveryError) (err : DeliveryError) :
    (noteBlocked firstBlocked err).isSome = (firstBlocked.isSome || err.blockedTarget) := by
  cases firstBlocked with
  | some b => rfl
  | none => cases refused : err.blockedTarget <;> simp [noteBlocked, refused]

theorem Loop.blocked_iff (run : Loop deadline caller now firstErr firstBlocked addrs tries out)
    (kept : Kept firstErr firstBlocked) {e : DeliveryError} (failed : out = .error e) :
    e.blockedTarget = (firstBlocked.isSome || tries.any Try.refused) := by
  induction run with
  | exhausted now firstErr firstBlocked =>
    obtain rfl := Except.error.inj failed
    rw [kept.blockedTarget_verdict, List.any_nil, Bool.or_false]
  | @spent now firstErr firstBlocked ip rest err due =>
    obtain rfl := Except.error.inj failed
    have late : err.blockedTarget = false := by
      cases deadline with
      | none => cases due
      | some D =>
        rw [dialDeadline, partialDeadline] at due
        split at due
        · rename_i given
          dsimp only at given
          split_ifs at given
          cases given
          cases due
          rfl
        · cases due
    have same : noteBlocked firstBlocked err = firstBlocked := by
      simp [noteBlocked, late]
    have still := kept.note err
    rw [same] at still
    rw [still.blockedTarget_verdict, List.any_nil, Bool.or_false]
  | connected ended conn due => cases failed
  | gaveUp err due =>
    obtain rfl := Except.error.inj failed
    rw [(kept.note err).blockedTarget_verdict, isSome_noteBlocked, List.any_cons, List.any_nil,
      Bool.or_false]
  | next err due ends _ ih =>
    rw [ih (kept.note err) failed, isSome_noteBlocked, List.any_cons, Bool.or_assoc]

end Loop

section Budget

variable {κ : Type u} {d : BoundedDialer} {lookup : Lookup} {address port : Bytes}
  {addrs : List Bytes}

theorem overallDeadline_le_caller {caller : Option ℤ} {now D c : ℤ} (given : caller = some c)
    (overall : overallDeadline d.connectTimeout caller now = some D) : D ≤ c := by
  subst given
  unfold overallDeadline at overall
  dsimp only at overall
  split_ifs at overall with timed
  · rw [Option.some.injEq] at overall
    split_ifs at overall <;> omega
  · exact (Option.some_injective _ overall).ge

theorem capped_eq_take (addrs : List Bytes) : capped addrs = addrs.take maxDialAddresses := by
  unfold capped
  split_ifs with many
  · rfl
  · exact (List.take_of_length_le (not_lt.mp many)).symm

/-- The addresses of a name share one connect budget, and the guard's refusal of any of them is
the error that is returned. -/
theorem connect_budget_shared (net : Network κ) (caller : Option ℤ) (now : ℤ)
    (resolved : target d lookup address = .resolved port addrs) :
    let tried := addrs.take maxDialAddresses
    let run := DialContext d lookup net caller now address
    let overall := overallDeadline d.connectTimeout caller now
    (run.1.length ≤ maxDialAddresses ∧ run.1.map Try.ip <+: tried) ∧
    (∀ D, overall = some D → ∀ t ∈ run.1, ∃ dialBy, t.deadline = some dialBy ∧ dialBy ≤ D) ∧
    (∀ D, overall = some D → saneMinimum * tried.length ≤ Sub D now →
      (∀ t ∈ run.1, ∃ dialBy, t.deadline = some dialBy ∧ saneMinimum ≤ dialBy - t.started ∧
        Sub D now / tried.length ≤ dialBy - t.started) ∧
      (run.1.map Try.ip = tried ∨ (∃ conn, run.2 = .ok conn) ∨ ∃ t ∈ run.1, t.ended = true)) ∧
    (overall = none →
      run.1.map Try.ip = tried ∨ (∃ conn, run.2 = .ok conn) ∨ ∃ t ∈ run.1, t.ended = true) ∧
    (∀ err, run.2 = .error err →
      (err.blockedTarget = true ↔ ∃ t ∈ run.1, t.refused = true)) := by
  intro tried run overall
  have loop : Loop overall caller now none none tried run.1 run.2 := by
    have same : run = dialEach net port overall caller 0 now none none tried := by
      show DialContext d lookup net caller now address = _
      rw [DialContext, resolved]
      exact congrArg (dialEach net port overall caller 0 now none none) (capped_eq_take addrs)
    rw [same]
    exact loop_dialEach net port 0 now none none tried
  have few : run.1.length ≤ maxDialAddresses := by
    have shorter := loop.prefix_tried.length_le
    rw [List.length_map] at shorter
    exact shorter.trans (List.length_take_le _ _)
  refine ⟨⟨few, loop.prefix_tried⟩, ?_, ?_, ?_, ?_⟩
  · intro D timed
    rw [timed] at loop
    exact loop.deadline_le
  · intro D timed ample
    have within : ∀ c, caller = some c → D ≤ c :=
      fun c given => overallDeadline_le_caller given timed
    rw [timed] at loop
    refine loop.fair (saturate_inRange (D - now)) ample within (le_refl _) ?_
    obtain none_tried | some_tried := tried.length.eq_zero_or_pos
    · simp [none_tried]
    · have some_left : 0 < Sub D now :=
        lt_of_lt_of_le (Int.mul_pos (by decide) (by exact_mod_cast some_tried)) ample
      rw [Int.mul_comm]
      exact Int.mul_le_mul_of_nonneg_left (sub_le_of_pos some_left) (Int.natCast_nonneg _)
  · intro untimed
    rw [untimed] at loop
    exact loop.untimed.2
  · intro err failed
    rw [loop.blocked_iff kept_none failed, Option.isSome_none, Bool.false_or, List.any_eq_true]

/-- Two addresses behind one name, and a network that lets every dial run into its deadline. -/
def twoAddresses : Lookup := fun _ =>
  .ok [encode "192.0.2.1".toList, encode "192.0.2.2".toList]

def silentNetwork : Network Unit where
  dial := fun _ _ now deadline =>
    ⟨max 0 ((deadline.getD now) - now), .error errDeadlineExceeded, false⟩
  took_nonneg := fun _ _ _ _ => le_max_left _ _
  took_le := fun _ _ now deadline early => by
    show now + max 0 (deadline - now) ≤ deadline
    omega

theorem silent_addresses_get_half :
    let run := DialContext ⟨second, 10 * second⟩ twoAddresses silentNetwork none 0
      (encode "hooks.example:443".toList)
    run.1.length = 2 ∧ ∀ t ∈ run.1, ∃ dialBy, t.deadline = some dialBy ∧
      5 * second ≤ dialBy - t.started := by
  refine ⟨by decide, fun t ht => ?_⟩
  have resolved : target ⟨second, 10 * second⟩ twoAddresses (encode "hooks.example:443".toList) =
      .resolved (encode "443".toList)
        [encode "192.0.2.1".toList, encode "192.0.2.2".toList] := by
    rfl
  have shares := (connect_budget_shared silentNetwork none 0 resolved).2.2.1 (10 * second) rfl
    (by decide)
  obtain ⟨dialBy, given, -, part⟩ := shares.1 t ht
  exact ⟨dialBy, given, part⟩

end Budget

end Hookubit.Egress.Dial
