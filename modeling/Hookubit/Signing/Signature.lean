/- sources: signing/signing.go
   digest: The Webhook-Signature header: how it is built, and what verifying one establishes. -/

import Hookubit.Common.Errors
import Hookubit.Data.ByteText
import Hookubit.Data.Int64
import Mathlib.Algebra.Order.Group.Abs
import Mathlib.Tactic.Ring

/-!
HMAC-SHA256 is a parameter, a function of the key and the message. A `time.Time` is kept as Go
keeps it, in 64-bit seconds since the year 1 and nanoseconds, because a header may name any
64-bit number of seconds.
-/

set_option autoImplicit false
set_option relaxedAutoImplicit false

namespace Hookubit.Signing.Signature

open Common.Errors (bind_eq_ok)
open Data.Utf8 (Bytes)
open Data.ByteText Data.Int64

structure Time where
  sec : ℤ
  nsec : ℤ
  sec_inRange : InRange sec
  nsec_bounds : 0 ≤ nsec ∧ nsec < 1000000000

/-- The seconds from the year 1 to the Unix epoch. -/
def unixToInternal : ℤ := 62135596800

/-- The instant in nanoseconds from the Unix epoch, as an integer. -/
def Time.nanos (t : Time) : ℤ := (t.sec - unixToInternal) * 1000000000 + t.nsec

def timeUnix (secs : ℤ) : Time where
  sec := wrap (secs + unixToInternal)
  nsec := 0
  sec_inRange := wrap_inRange _
  nsec_bounds := by decide

def Time.Unix (t : Time) : ℤ := wrap (t.sec - unixToInternal)

/-- `t.Sub(u)`, which stops at the limits of a `time.Duration`. -/
def Time.Sub (t u : Time) : ℤ := saturate (t.nanos - u.nanos)

def Time.wholeSeconds (t : Time) : Time := ⟨t.sec, 0, t.sec_inRange, by decide⟩

def hexDigit (n : ℕ) : UInt8 := if n < 10 then UInt8.ofNat (48 + n) else UInt8.ofNat (87 + n)

def hexEncode (b : Bytes) : Bytes :=
  b.flatMap fun x => [hexDigit (x.toNat / 16), hexDigit (x.toNat % 16)]

section

variable (hmac : Bytes → Bytes → Bytes)

/-- The v1 signature of a payload: over the timestamp, a dot and the exact bytes. -/
def Sign (secret payload : Bytes) (ts : Time) : Bytes :=
  hexEncode (hmac secret (FormatInt ts.Unix ++ [0x2E] ++ payload))

inductive HeaderError
  | noSecrets | emptySecret
  deriving DecidableEq

def timestampKey : Bytes := [0x74]

def signatureKey : Bytes := [0x76, 0x31]

def component (key value : Bytes) : Bytes := key ++ 0x3D :: value

/-- `Header`: a timestamp and one signature for each active secret, between commas. -/
def Header (secrets : List Bytes) (payload : Bytes) (ts : Time) : Except HeaderError Bytes :=
  if secrets = [] then .error .noSecrets
  else if secrets.contains [] then .error .emptySecret
  else
    .ok ([0x2C].intercalate (component timestampKey (FormatInt ts.Unix) ::
      secrets.map fun secret => component signatureKey (Sign hmac secret payload ts)))

inductive VerifyError
  | malformedTimestamp | noTimestamp | noSignature | outsideTolerance (age tolerance : ℤ)
  | noMatch
  deriving DecidableEq

structure Parts where
  ts : Option Time
  signatures : List Bytes

/-- One round of the loop over the header's parts. -/
def readPart (parts : Parts) (part : Bytes) : Except VerifyError Parts :=
  match Cut (TrimSpace part) 0x3D with
  | none => .ok parts
  | some (key, value) =>
    if key = timestampKey then
      match ParseInt value with
      | none => .error .malformedTimestamp
      | some secs => .ok { parts with ts := some (timeUnix secs) }
    else if key = signatureKey then .ok { parts with signatures := parts.signatures ++ [value] }
    else .ok parts

/-- The age of a timestamp, as `Verify` computes it. -/
def ageOf (now ts : Time) : ℤ :=
  let age := now.Sub ts
  if age < 0 then wrap (-age) else age

/-- What `Verify` asks of the parts once it has them. -/
def checkParts (parts : Parts) (secret payload : Bytes) (tolerance : ℤ) (now : Time) :
    Except VerifyError Unit :=
  match parts.ts with
  | none => .error .noTimestamp
  | some ts =>
    if parts.signatures = [] then .error .noSignature
    else if tolerance < ageOf now ts then .error (.outsideTolerance (ageOf now ts) tolerance)
    else if parts.signatures.contains (Sign hmac secret payload ts) then .ok ()
    else .error .noMatch

def Verify (header secret payload : Bytes) (tolerance : ℤ) (now : Time) :
    Except VerifyError Unit := do
  let parts ← (header.splitOn 0x2C).foldlM readPart ⟨none, []⟩
  checkParts hmac parts secret payload tolerance now

end

/-- The named components of a list of parts, in order; a part without a separator is none. -/
def componentsOf (parts : List Bytes) : List (Bytes × Bytes) :=
  parts.filterMap fun part => Cut (TrimSpace part) 0x3D

/-- The values of the components with a given name. -/
def valuesOf (key : Bytes) (components : List (Bytes × Bytes)) : List Bytes :=
  (components.filter fun c => c.1 = key).map Prod.snd

def components (header : Bytes) : List (Bytes × Bytes) := componentsOf (header.splitOn 0x2C)

/-- The number of seconds in the header's last "t" component. -/
def lastTimestamp (header : Bytes) : Option ℤ :=
  (valuesOf timestampKey (components header)).getLast?.bind ParseInt

def signatures (header : Bytes) : List Bytes := valuesOf signatureKey (components header)

/-- Where a loop ends with the last "t" value of the rest, or else with what it had. -/
def LastSeen (before : Option Time) (values : List Bytes) (after : Option Time) : Prop :=
  (values = [] ∧ after = before) ∨
    ∃ value secs, values.getLast? = some value ∧ ParseInt value = some secs ∧
      after = some (timeUnix secs)

variable {parts : Parts} {now : Time} {tolerance : ℤ}

theorem readPart_spec {after : Parts} {part : Bytes} (h : readPart parts part = .ok after) :
    after.signatures = parts.signatures ++ valuesOf signatureKey (componentsOf [part]) ∧
      LastSeen parts.ts (valuesOf timestampKey (componentsOf [part])) after.ts := by
  have apart : ¬signatureKey = timestampKey := by decide
  unfold readPart at h
  cases cut : Cut (TrimSpace part) 0x3D with
  | none =>
    simp only [cut] at h
    cases h
    simp [componentsOf, cut, valuesOf, LastSeen]
  | some c =>
    obtain ⟨key, value⟩ := c
    simp only [cut] at h
    have alone : componentsOf [part] = [(key, value)] := by simp [componentsOf, cut]
    rw [alone]
    by_cases isTimestamp : key = timestampKey
    · subst isTimestamp
      rw [if_pos rfl] at h
      cases read : ParseInt value with
      | none => simp [read] at h
      | some secs =>
        simp only [read] at h
        cases h
        simp [valuesOf, LastSeen, read, Ne.symm apart]
    · rw [if_neg isTimestamp] at h
      by_cases isSignature : key = signatureKey
      · subst isSignature
        rw [if_pos rfl] at h
        cases h
        simp [valuesOf, LastSeen, apart]
      · rw [if_neg isSignature] at h
        cases h
        simp [valuesOf, LastSeen, isTimestamp, isSignature]

theorem valuesOf_append (key : Bytes) (a b : List (Bytes × Bytes)) :
    valuesOf key (a ++ b) = valuesOf key a ++ valuesOf key b := by
  simp [valuesOf]

theorem LastSeen.append {x y z : Option Time} {a b : List Bytes} (first : LastSeen x a y)
    (onward : LastSeen y b z) : LastSeen x (a ++ b) z := by
  obtain ⟨rfl, rfl⟩ | ⟨value, secs, last, read, rfl⟩ := onward
  · rwa [List.append_nil]
  · refine .inr ⟨value, secs, ?_, read, rfl⟩
    rw [List.getLast?_append, last, Option.some_or]

theorem readParts_spec {rest : List Bytes} {after : Parts}
    (h : rest.foldlM readPart parts = .ok after) :
    after.signatures = parts.signatures ++ valuesOf signatureKey (componentsOf rest) ∧
      LastSeen parts.ts (valuesOf timestampKey (componentsOf rest)) after.ts := by
  induction rest generalizing parts with
  | nil =>
    cases h
    exact ⟨(List.append_nil _).symm, .inl ⟨rfl, rfl⟩⟩
  | cons part rest ih =>
    rw [List.foldlM_cons] at h
    obtain ⟨next, one, others⟩ := bind_eq_ok.mp h
    obtain ⟨signed, seen⟩ := readPart_spec one
    obtain ⟨signedRest, seenRest⟩ := ih others
    have split : componentsOf (part :: rest) = componentsOf [part] ++ componentsOf rest :=
      List.filterMap_append (l := [part])
    rw [split, valuesOf_append, valuesOf_append, ← List.append_assoc, ← signed]
    exact ⟨signedRest, seen.append seenRest⟩

theorem timeUnix_Unix (t : Time) : timeUnix t.Unix = t.wholeSeconds := by
  have range := t.sec_inRange
  have same : wrap (wrap (t.sec - unixToInternal) + unixToInternal) = t.sec := by
    unfold InRange at range
    unfold wrap unixToInternal
    omega
  simp only [timeUnix, Time.Unix, Time.wholeSeconds, same]

theorem ageOf_eq {ts : Time} (near : |now.nanos - ts.nanos| ≤ 9223372036854775807) :
    ageOf now ts = |now.nanos - ts.nanos| := by
  obtain ⟨low, high⟩ := abs_le.mp near
  have precise : now.Sub ts = now.nanos - ts.nanos :=
    saturate_of_inRange ⟨by omega, high⟩
  simp only [ageOf, precise]
  split
  · rename_i negative
    rw [abs_of_neg negative]
    exact wrap_of_inRange ⟨by omega, by omega⟩
  · rename_i positive
    rw [abs_of_nonneg (not_lt.mp positive)]

/-- The instant of a header's timestamp: the one it names, unless 64 bits cannot count its seconds
from the year 1. -/
theorem nanos_timeUnix {secs : ℤ} (range : InRange secs) :
    (timeUnix secs).nanos = secs * 1000000000 ∨
      (timeUnix secs).nanos = (secs - 18446744073709551616) * 1000000000 := by
  unfold InRange at range
  simp only [timeUnix, Time.nanos]
  by_cases fits : secs + unixToInternal ≤ 9223372036854775807
  · left
    rw [wrap_of_inRange ⟨by unfold unixToInternal; omega, fits⟩]
    ring
  · right
    have wrapped : wrap (secs + unixToInternal) =
        secs + unixToInternal - 18446744073709551616 := by
      unfold wrap unixToInternal at *
      omega
    rw [wrapped]
    ring

/-- An accepted age bounds the distance of the timestamp itself exactly where that distance is a
`time.Duration`. -/
theorem within_tolerance_iff {secs : ℤ} (range : InRange secs) (bounded : InRange tolerance)
    (accepted : ageOf now (timeUnix secs) ≤ tolerance) :
    |now.nanos - secs * 1000000000| ≤ tolerance ↔
      |now.nanos - secs * 1000000000| ≤ 9223372036854775807 := by
  refine ⟨fun within => within.trans bounded.2, fun near => ?_⟩
  obtain named | wrapped := nanos_timeUnix range
  · rw [← named] at near ⊢
    rwa [ageOf_eq near] at accepted
  · -- the wrapped instant lies so far back that the age is the largest duration
    obtain ⟨low, high⟩ := abs_le.mp near
    have far : now.Sub (timeUnix secs) = 9223372036854775807 := by
      unfold Time.Sub saturate
      rw [wrapped]
      split_ifs <;> omega
    simp only [ageOf, far] at accepted
    exact near.trans accepted

theorem checkParts_eq_ok {hmac : Bytes → Bytes → Bytes} {secret payload : Bytes} :
    checkParts hmac parts secret payload tolerance now = .ok () ↔
      ∃ ts, parts.ts = some ts ∧ ageOf now ts ≤ tolerance ∧
        Sign hmac secret payload ts ∈ parts.signatures := by
  cases known : parts.ts with
  | none => simp [checkParts, known]
  | some ts =>
    simp only [checkParts, known, Option.some.injEq, exists_eq_left']
    by_cases none : parts.signatures = []
    · simp [none]
    · by_cases late : tolerance < ageOf now ts
      · simp [none, late]
      · have timely : ageOf now ts ≤ tolerance := not_lt.mp late
        by_cases signed : Sign hmac secret payload ts ∈ parts.signatures
        · simp [none, late, timely, signed]
        · simp [none, late, signed]

theorem of_verify {hmac : Bytes → Bytes → Bytes} {header secret payload : Bytes}
    (accepted : Verify hmac header secret payload tolerance now = .ok ()) :
    ∃ secs, lastTimestamp header = some secs ∧ InRange secs ∧
      ageOf now (timeUnix secs) ≤ tolerance ∧
      Sign hmac secret payload (timeUnix secs) ∈ signatures header := by
  obtain ⟨parts, read, checked⟩ := bind_eq_ok.mp accepted
  obtain ⟨collected, seen⟩ := readParts_spec read
  obtain ⟨ts, known, timely, signed⟩ := checkParts_eq_ok.mp checked
  rw [List.nil_append] at collected
  obtain ⟨-, unseen⟩ | ⟨value, secs, last, parsed, here⟩ := seen
  · rw [known] at unseen
    cases unseen
  · obtain rfl : ts = timeUnix secs := Option.some.inj (known.symm.trans here)
    rw [collected] at signed
    refine ⟨secs, ?_, inRange_of_ParseInt parsed, timely, signed⟩
    rw [lastTimestamp, components, last, Option.bind_some, parsed]

/-- A byte of a component: graphic, and no comma. -/
def isPlain (b : UInt8) : Bool := isGraphic b && b != 0x2C

theorem isPlain_of_mem_hexEncode {b : Bytes} {x : UInt8} (h : x ∈ hexEncode b) :
    isPlain x = true := by
  have digits : ∀ n < 16, isPlain (hexDigit n) = true := by decide
  obtain ⟨y, -, hx⟩ := List.mem_flatMap.mp h
  have small : y.toNat < 256 := y.toNat_lt
  simp only [List.mem_cons, List.not_mem_nil, or_false] at hx
  obtain rfl | rfl := hx
  · exact digits _ (by omega)
  · exact digits _ (by omega)

theorem isPlain_of_mem_FormatInt {x : ℤ} {b : UInt8} (h : b ∈ FormatInt x) :
    isPlain b = true := by
  have digit {n : ℕ} (hb : b ∈ formatNat n) : isPlain b = true := by
    have range := isDigit_of_mem_formatNat hb
    simp only [isDigit, Bool.and_eq_true, decide_eq_true_eq, UInt8.le_iff_toNat_le] at range
    have apart : b ≠ 0x2C := by
      rintro rfl
      exact absurd range.1 (by decide)
    simp only [isPlain, isGraphic, Bool.and_eq_true, decide_eq_true_eq, UInt8.le_iff_toNat_le,
      bne_iff_ne]
    exact ⟨⟨le_trans (by decide) range.1, range.2.trans (by decide)⟩, apart⟩
  unfold FormatInt at h
  split at h
  · obtain rfl | hb := List.mem_cons.mp h
    · decide
    · exact digit hb
  · exact digit h

theorem cut_component {key value : Bytes} (keyPlain : ∀ b ∈ key, isPlain b = true)
    (valuePlain : ∀ b ∈ value, isPlain b = true) (absent : 0x3D ∉ key) :
    Cut (TrimSpace (component key value)) 0x3D = some (key, value) := by
  have graphic : ∀ b ∈ component key value, isGraphic b = true := by
    intro b hb
    simp only [component, List.mem_append, List.mem_cons] at hb
    obtain hb | rfl | hb := hb
    · exact (Bool.and_eq_true_iff.mp (keyPlain b hb)).1
    · decide
    · exact (Bool.and_eq_true_iff.mp (valuePlain b hb)).1
  rw [TrimSpace_of_graphic graphic, component, Cut_append absent]

theorem comma_not_mem_component {key value : Bytes} (keyPlain : ∀ b ∈ key, isPlain b = true)
    (valuePlain : ∀ b ∈ value, isPlain b = true) : 0x2C ∉ component key value := by
  intro h
  simp only [component, List.mem_append, List.mem_cons] at h
  obtain h | h | h := h
  · exact absurd (keyPlain _ h) (by decide)
  · exact absurd h (by decide)
  · exact absurd (valuePlain _ h) (by decide)

private theorem timestampKey_plain : ∀ b ∈ timestampKey, isPlain b = true :=
  List.all_eq_true.mp rfl

private theorem signatureKey_plain : ∀ b ∈ signatureKey, isPlain b = true :=
  List.all_eq_true.mp rfl

section

variable (hmac : Bytes → Bytes → Bytes) (payload : Bytes) (ts : Time)

theorem isPlain_of_mem_Sign {secret : Bytes} {b : UInt8} (h : b ∈ Sign hmac secret payload ts) :
    isPlain b = true :=
  isPlain_of_mem_hexEncode h

def headerParts (secrets : List Bytes) : List Bytes :=
  component timestampKey (FormatInt ts.Unix) ::
    secrets.map fun secret => component signatureKey (Sign hmac secret payload ts)

theorem splitOn_headerParts (secrets : List Bytes) :
    ([0x2C].intercalate (headerParts hmac payload ts secrets)).splitOn 0x2C =
      headerParts hmac payload ts secrets := by
  apply List.splitOn_intercalate
  · intro part hpart
    obtain rfl | hsecret := List.mem_cons.mp hpart
    · exact comma_not_mem_component timestampKey_plain fun _ => isPlain_of_mem_FormatInt
    · obtain ⟨secret, -, rfl⟩ := List.mem_map.mp hsecret
      exact comma_not_mem_component signatureKey_plain
        fun _ => isPlain_of_mem_Sign hmac payload ts
  · exact List.cons_ne_nil _ _

theorem readParts_signatures (secrets : List Bytes) (parts : Parts) :
    (secrets.map fun secret => component signatureKey (Sign hmac secret payload ts)).foldlM
        readPart parts =
      .ok { parts with
        signatures := parts.signatures ++
          secrets.map fun secret => Sign hmac secret payload ts } := by
  have apart : ¬signatureKey = timestampKey := by decide
  induction secrets generalizing parts with
  | nil => simp [pure, Except.pure]
  | cons secret secrets ih =>
    have one : readPart parts (component signatureKey (Sign hmac secret payload ts)) =
        .ok { parts with signatures := parts.signatures ++ [Sign hmac secret payload ts] } := by
      simp only [readPart, cut_component signatureKey_plain
        (fun _ => isPlain_of_mem_Sign hmac payload ts) (by decide), if_neg apart, if_true]
    rw [List.map_cons, List.foldlM_cons, one]
    simp only [bind, Except.bind, ih, List.append_assoc, List.singleton_append, List.map_cons]

theorem readParts_header (secrets : List Bytes) :
    (headerParts hmac payload ts secrets).foldlM readPart ⟨none, []⟩ =
      .ok ⟨some ts.wholeSeconds, secrets.map fun secret => Sign hmac secret payload ts⟩ := by
  have first : readPart ⟨none, []⟩ (component timestampKey (FormatInt ts.Unix)) =
      .ok ⟨some ts.wholeSeconds, []⟩ := by
    simp only [readPart, cut_component timestampKey_plain
      (fun _ => isPlain_of_mem_FormatInt) (by decide), if_true, ParseInt_FormatInt (wrap_inRange _),
      Time.Unix]
    rw [← timeUnix_Unix]
    rfl
  rw [headerParts, List.foldlM_cons, first]
  simp only [bind, Except.bind, readParts_signatures, List.nil_append]

theorem verify_header {secrets : List Bytes} (filled : secrets ≠ []) (nonempty : [] ∉ secrets)
    {secret : Bytes} (active : secret ∈ secrets) {tolerance : ℤ} (bounded : InRange tolerance)
    {now : Time} (timely : |now.nanos - ts.wholeSeconds.nanos| ≤ tolerance) :
    ∃ header, Header hmac secrets payload ts = .ok header ∧
      Verify hmac header secret payload tolerance now = .ok () := by
  refine ⟨[0x2C].intercalate (headerParts hmac payload ts secrets), ?_, ?_⟩
  · have full : secrets.contains [] = false := by simpa using nonempty
    rw [Header, if_neg filled, full]
    rfl
  · have read := readParts_header hmac payload ts secrets
    rw [← splitOn_headerParts] at read
    refine bind_eq_ok.mpr ⟨_, read, checkParts_eq_ok.mpr ⟨ts.wholeSeconds, rfl, ?_, ?_⟩⟩
    · rwa [ageOf_eq (timely.trans bounded.2)]
    · exact List.mem_map.mpr ⟨secret, active, rfl⟩

end

/-- What an accepted header should stand for: its last timestamp is within the tolerance of now,
and some "v1" component is the signature for that timestamp. -/
def Established (hmac : Bytes → Bytes → Bytes) (header secret payload : Bytes) (tolerance : ℤ)
    (now : Time) : Prop :=
  ∃ secs, lastTimestamp header = some secs ∧ |now.nanos - secs * 1000000000| ≤ tolerance ∧
    Sign hmac secret payload (timeUnix secs) ∈ signatures header

/-- Built headers are accepted under each of their secrets. An accepted header, whatever it looks
like, carries the signature for its last timestamp, and that timestamp is within the tolerance
exactly where its distance from now is one that a `time.Duration` can hold. -/
theorem signature_verification (hmac : Bytes → Bytes → Bytes) :
    (∀ secrets payload ts tolerance now, secrets ≠ [] → [] ∉ secrets → InRange tolerance →
      ∀ secret ∈ secrets, |now.nanos - ts.wholeSeconds.nanos| ≤ tolerance →
        ∃ header, Header hmac secrets payload ts = .ok header ∧
          Verify hmac header secret payload tolerance now = .ok ()) ∧
    ∀ header secret payload tolerance now, InRange tolerance →
      Verify hmac header secret payload tolerance now = .ok () →
        (Established hmac header secret payload tolerance now ↔
          ∀ secs, lastTimestamp header = some secs →
            |now.nanos - secs * 1000000000| ≤ 9223372036854775807) := by
  constructor
  · intro secrets payload ts tolerance now filled nonempty bounded secret active timely
    exact verify_header hmac payload ts filled nonempty active bounded timely
  · intro header secret payload tolerance now bounded accepted
    obtain ⟨secs, last, range, age, signed⟩ := of_verify accepted
    have distance := within_tolerance_iff range bounded age
    constructor
    · rintro ⟨named, named_last, within, -⟩ other other_last
      obtain rfl : other = named := Option.some.inj (other_last.symm.trans named_last)
      exact within.trans bounded.2
    · intro near
      exact ⟨secs, last, distance.mpr (near secs last), signed⟩

/-- A stand-in for HMAC. -/
def joinKey (key message : Bytes) : Bytes := key ++ message

theorem fresh_header_established :
    ∃ header, Header joinKey [[0x73]] [0x7B, 0x7D] (timeUnix 1700000000) = .ok header ∧
      Verify joinKey header [0x73] [0x7B, 0x7D] 300000000000 (timeUnix 1700000060) = .ok () ∧
      (Established joinKey header [0x73] [0x7B, 0x7D] 300000000000 (timeUnix 1700000060) ↔
        ∀ secs, lastTimestamp header = some secs →
          |(timeUnix 1700000060).nanos - secs * 1000000000| ≤ 9223372036854775807) := by
  obtain ⟨header, built, accepted⟩ := (signature_verification joinKey).1 [[0x73]] [0x7B, 0x7D]
    (timeUnix 1700000000) 300000000000 (timeUnix 1700000060) (by decide) (by decide) (by decide)
    [0x73] (by decide) (by decide)
  exact ⟨header, built, accepted,
    (signature_verification joinKey).2 header _ _ _ _ (by decide) accepted⟩

/-- The header signed for the second 99999999999, in the year 5138. -/
def futureHeader : Bytes :=
  [0x2C].intercalate (headerParts joinKey [0x7B, 0x7D] (timeUnix 99999999999) [[0x73]])

/-- It is accepted today, at a tolerance of five minutes: the difference stops at the least
duration, whose negation is itself. -/
theorem future_header_accepted :
    Verify joinKey futureHeader [0x73] [0x7B, 0x7D] 300000000000 (timeUnix 1700000000) = .ok () ∧
      ¬Established joinKey futureHeader [0x73] [0x7B, 0x7D] 300000000000
        (timeUnix 1700000000) := by
  constructor
  · decide +kernel
  · rintro ⟨secs, last, within, -⟩
    have named : lastTimestamp futureHeader = some 99999999999 := by decide +kernel
    obtain rfl : secs = 99999999999 := Option.some.inj (last.symm.trans named)
    exact absurd within (by decide)

end Hookubit.Signing.Signature
