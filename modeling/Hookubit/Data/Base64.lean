/- digest: Base64 by sextets, with a decoder that insists on one alphabet and one that skips. -/

import Hookubit.Data.Utf8
import Mathlib.Algebra.Order.Group.Nat

/-!
A text is read through the codes of its characters, so that the decoders do not depend on how the
text is stored.
-/

set_option autoImplicit false
set_option relaxedAutoImplicit false

namespace Hookubit.Data.Base64

open Data.Utf8 (Bytes)

/-- Four sextets make three bytes; what is left at the end makes the bytes it fills. -/
def bytesOf : List ℕ → Bytes
  | a :: b :: c :: d :: rest =>
      UInt8.ofNat (a * 4 + b / 16) :: UInt8.ofNat (b % 16 * 16 + c / 4) ::
        UInt8.ofNat (c % 4 * 64 + d) :: bytesOf rest
  | [a, b, c] => [UInt8.ofNat (a * 4 + b / 16), UInt8.ofNat (b % 16 * 16 + c / 4)]
  | [a, b] => [UInt8.ofNat (a * 4 + b / 16)]
  | _ => []

def sextetsOf : Bytes → List ℕ
  | a :: b :: c :: rest =>
      a.toNat / 4 :: (a.toNat % 4 * 16 + b.toNat / 16) :: (b.toNat % 16 * 4 + c.toNat / 64) ::
        c.toNat % 64 :: sextetsOf rest
  | [a, b] => [a.toNat / 4, a.toNat % 4 * 16 + b.toNat / 16, b.toNat % 16 * 4]
  | [a] => [a.toNat / 4, a.toNat % 4 * 16]
  | [] => []

theorem length_sextetsOf (b : Bytes) : (sextetsOf b).length = (b.length * 4 + 2) / 3 := by
  induction b using sextetsOf.induct with
  | case1 a b c rest ih =>
    simp only [sextetsOf, List.length_cons, ih]
    omega
  | case2 => simp [sextetsOf]
  | case3 => simp [sextetsOf]
  | case4 => simp [sextetsOf]

theorem lt_of_mem_sextetsOf {b : Bytes} : ∀ n ∈ sextetsOf b, n < 64 := by
  induction b using sextetsOf.induct with
  | case1 a b c rest ih =>
    have ha := a.toNat_lt
    have hb := b.toNat_lt
    have hc := c.toNat_lt
    simp only [sextetsOf, List.forall_mem_cons]
    exact ⟨by omega, by omega, by omega, by omega, ih⟩
  | case2 a b =>
    have ha := a.toNat_lt
    have hb := b.toNat_lt
    simp only [sextetsOf, List.forall_mem_cons]
    exact ⟨by omega, by omega, by omega, by simp⟩
  | case3 a =>
    have ha := a.toNat_lt
    simp only [sextetsOf, List.forall_mem_cons]
    exact ⟨by omega, by omega, by simp⟩
  | case4 => simp [sextetsOf]

variable {n c : ℕ}

theorem ofNat_eq {a : UInt8} (same : n = a.toNat) : UInt8.ofNat n = a := by
  rw [same, UInt8.ofNat_toNat]

theorem bytesOf_sextetsOf (b : Bytes) : bytesOf (sextetsOf b) = b := by
  induction b using sextetsOf.induct with
  | case1 a b c rest ih =>
    have ha := a.toNat_lt
    have hb := b.toNat_lt
    have hc := c.toNat_lt
    rw [sextetsOf, bytesOf, ih, ofNat_eq (a := a) (by omega), ofNat_eq (a := b) (by omega),
      ofNat_eq (a := c) (by omega)]
  | case2 a b =>
    have ha := a.toNat_lt
    have hb := b.toNat_lt
    rw [sextetsOf, bytesOf, ofNat_eq (a := a) (by omega), ofNat_eq (a := b) (by omega)]
  | case3 a =>
    have ha := a.toNat_lt
    rw [sextetsOf, bytesOf, ofNat_eq (a := a) (by omega)]
  | case4 => rfl

inductive Alphabet
  | standard
  | urlSafe
  deriving DecidableEq

def letterSextet (c : ℕ) : Option ℕ :=
  if 65 ≤ c ∧ c ≤ 90 then some (c - 65)
  else if 97 ≤ c ∧ c ≤ 122 then some (c - 71)
  else if 48 ≤ c ∧ c ≤ 57 then some (c + 4)
  else none

/-- The value of a character, `+` and `/` in the one alphabet, `-` and `_` in the other. -/
def Alphabet.sextet : Alphabet → ℕ → Option ℕ
  | .standard, c => if c = 43 then some 62 else if c = 47 then some 63 else letterSextet c
  | .urlSafe, c => if c = 45 then some 62 else if c = 95 then some 63 else letterSextet c

/-- The value of a character of either alphabet. -/
def sextet (c : ℕ) : Option ℕ := (Alphabet.standard.sextet c).or (Alphabet.urlSafe.sextet c)

def Alphabet.character (a : Alphabet) (n : ℕ) : ℕ :=
  if n < 26 then n + 65
  else if n < 52 then n + 71
  else if n < 62 then n - 4
  else match a, n with
    | .standard, 62 => 43
    | .standard, _ => 47
    | .urlSafe, 62 => 45
    | .urlSafe, _ => 95

theorem sextet_character (a : Alphabet) (small : n < 64) : a.sextet (a.character n) = some n := by
  have table : ∀ n < 64, a.sextet (a.character n) = some n := by cases a <;> decide
  exact table n small

theorem letterSextet_of_le (far : 123 ≤ c) : letterSextet c = none := by
  unfold letterSextet
  rw [if_neg (by omega), if_neg (by omega), if_neg (by omega)]

theorem Alphabet.sextet_of_le (a : Alphabet) (far : 123 ≤ c) : a.sextet c = none := by
  cases a <;>
  · simp only [Alphabet.sextet]
    rw [if_neg (by omega), if_neg (by omega), letterSextet_of_le far]

theorem sextet_eq (a : Alphabet) (h : a.sextet c = some n) : sextet c = some n := by
  have close : c < 123 := by
    by_contra far
    rw [a.sextet_of_le (by omega)] at h
    cases h
  have table : ∀ c < 123, a.sextet c ≠ none → sextet c = a.sextet c := by cases a <;> decide
  rw [table c close (by simp [h]), h]

section Codecs

def encodeRaw (a : Alphabet) (b : Bytes) : List ℕ := (sextetsOf b).map a.character

def isBreak (c : ℕ) : Bool := c == 10 || c == 13

/-- Go's raw encodings: line breaks are dropped, every other character must be of the alphabet, and
no sextet may stand alone. The bits that fill no byte are not looked at. -/
def decodeRaw (a : Alphabet) (s : List ℕ) : Option Bytes :=
  let kept := s.filter fun c => !isBreak c
  let sextets := kept.filterMap a.sextet
  if (kept.all fun c => (a.sextet c).isSome) ∧ sextets.length % 4 ≠ 1 then some (bytesOf sextets)
  else none

/-- The decoder of Node's `Buffer`: it reads both alphabets at once, skips every other character,
and stops at padding. -/
def decodeLenient (s : List ℕ) : Bytes := bytesOf ((s.takeWhile (· != 61)).filterMap sextet)

def Alphabet.Spells (a : Alphabet) (s : List ℕ) : Prop :=
  ∀ c ∈ s, isBreak c = true ∨ (a.sextet c).isSome = true

variable {a : Alphabet} {s : List ℕ} {b : Bytes}

theorem sextet_eq_none_of_isBreak {c : ℕ} (h : isBreak c = true) : sextet c = none := by
  obtain rfl | rfl : c = 10 ∨ c = 13 := by simpa [isBreak] using h
  · decide
  · decide

theorem filterMap_kept (spelled : a.Spells s) :
    (s.filter fun c => !isBreak c).filterMap a.sextet = s.filterMap sextet := by
  rw [List.filterMap_filter]
  refine List.filterMap_congr fun c inside => ?_
  cases broken : isBreak c with
  | true => simp [sextet_eq_none_of_isBreak broken]
  | false =>
    obtain ⟨n, value⟩ := Option.isSome_iff_exists.mp
      ((spelled c inside).resolve_left (by simp [broken]))
    simp [value, sextet_eq a value]

theorem decodeRaw_eq_some_iff : decodeRaw a s = some b ↔
    a.Spells s ∧ (s.filterMap sextet).length % 4 ≠ 1 ∧ bytesOf (s.filterMap sextet) = b := by
  have spells : ((s.filter fun c => !isBreak c).all fun c => (a.sextet c).isSome) = true ↔
      a.Spells s := by
    simp only [List.all_filter, List.all_eq_true, Alphabet.Spells, Bool.or_eq_true, Bool.not_not]
  rw [decodeRaw, Option.ite_none_right_eq_some, spells, Option.some_inj, and_assoc]
  refine and_congr_right fun spelled => ?_
  rw [filterMap_kept spelled]

theorem padding_notMem (spelled : a.Spells s) : 61 ∉ s := by
  intro inside
  have absent : isBreak 61 = false ∧ a.sextet 61 = none := by cases a <;> decide
  obtain broken | value := spelled 61 inside
  · simp [absent] at broken
  · simp [absent] at value

theorem decodeLenient_append (spelled : a.Spells s) (after : List ℕ)
    (stop : ∀ c ∈ after.head?, c = 61) : decodeLenient (s ++ after) =
      bytesOf (s.filterMap sextet) := by
  have front : ∀ c ∈ s, (c != 61) = true := fun c inside => by
    rw [bne_iff_ne]
    rintro rfl
    exact padding_notMem spelled inside
  rw [decodeLenient, List.takeWhile_append_of_pos front]
  cases after with
  | nil => simp
  | cons c after => simp [stop c rfl]

theorem spells_encodeRaw (a : Alphabet) (b : Bytes) : a.Spells (encodeRaw a b) := by
  intro c inside
  obtain ⟨n, listed, rfl⟩ := List.mem_map.mp inside
  exact .inr (by rw [sextet_character a (lt_of_mem_sextetsOf n listed)]; rfl)

theorem filterMap_encodeRaw (a : Alphabet) (b : Bytes) :
    (encodeRaw a b).filterMap sextet = sextetsOf b := by
  have each : ∀ n ∈ sextetsOf b, sextet (a.character n) = some n := fun n inside =>
    sextet_eq a (sextet_character a (lt_of_mem_sextetsOf n inside))
  rw [encodeRaw, List.filterMap_map]
  exact (List.filterMap_congr each).trans List.filterMap_some

theorem decodeRaw_encodeRaw (a : Alphabet) (b : Bytes) : decodeRaw a (encodeRaw a b) = some b := by
  refine decodeRaw_eq_some_iff.mpr ⟨spells_encodeRaw a b, ?_, ?_⟩
  · rw [filterMap_encodeRaw, length_sextetsOf]
    omega
  · rw [filterMap_encodeRaw, bytesOf_sextetsOf]

theorem decodeLenient_encodeRaw (a : Alphabet) (b : Bytes) : decodeLenient (encodeRaw a b) = b := by
  have whole := decodeLenient_append (spells_encodeRaw a b) [] (by simp)
  rwa [List.append_nil, filterMap_encodeRaw, bytesOf_sextetsOf] at whole

end Codecs

end Hookubit.Data.Base64
