/- digest: The canonical form of a header name, as Go's net/textproto gives it. -/

import Hookubit.Data.ByteText
import Mathlib.Data.FinEnum

/-!
A name of token bytes gets capitals at its start and after each hyphen and small letters
elsewhere. Any other name is left as it is.
-/

set_option autoImplicit false
set_option relaxedAutoImplicit false

namespace Hookubit.Data.HttpHeader

open Data.ByteText (isLetter toLower)
open Data.Utf8 (Bytes)

def hyphen : UInt8 := 0x2D

def tokenMarks : Bytes :=
  [0x21, 0x23, 0x24, 0x25, 0x26, 0x27, 0x2A, 0x2B, 0x2D, 0x2E, 0x5E, 0x5F, 0x60, 0x7C, 0x7E]

def validHeaderFieldByte (c : UInt8) : Bool :=
  isLetter c || (48 ≤ c && c ≤ 57) || tokenMarks.contains c

def toUpper (c : UInt8) : UInt8 := if 97 ≤ c ∧ c ≤ 122 then c - 32 else c

/-- The loop of `canonicalMIMEHeaderKey`; the flag says whether the next letter is a capital. -/
def capitalize : Bool → Bytes → Bytes
  | _, [] => []
  | capital, c :: s =>
      let c := if capital then toUpper c else toLower c
      c :: capitalize (c == hyphen) s

def CanonicalMIMEHeaderKey (s : Bytes) : Bytes :=
  if s.all validHeaderFieldByte then capitalize true s else s

theorem letterCase (c : UInt8) : (validHeaderFieldByte (toUpper c) = validHeaderFieldByte c ∧
    validHeaderFieldByte (toLower c) = validHeaderFieldByte c) ∧ toLower (toUpper c) = toLower c ∧
      toLower (toLower c) = toLower c ∧ toUpper (toLower c) = toUpper c := by
  revert c
  decide +kernel

theorem map_capitalize {β : Type} {f : UInt8 → β} (upper : ∀ c, f (toUpper c) = f c)
    (lower : ∀ c, f (toLower c) = f c) (capital : Bool) (s : Bytes) :
    (capitalize capital s).map f = s.map f := by
  induction s generalizing capital with
  | nil => rfl
  | cons c s ih =>
    cases capital with
    | true => simp [capitalize, ih, upper]
    | false => simp [capitalize, ih, lower]

theorem all_capitalize (capital : Bool) (s : Bytes) :
    (capitalize capital s).all validHeaderFieldByte = s.all validHeaderFieldByte := by
  have same := map_capitalize (fun c => (letterCase c).1.1) (fun c => (letterCase c).1.2) capital s
  simpa [List.all_map] using congrArg (List.all · id) same

theorem map_toLower_capitalize (capital : Bool) (s : Bytes) :
    (capitalize capital s).map toLower = s.map toLower :=
  map_capitalize (fun c => (letterCase c).2.1) (fun c => (letterCase c).2.2.1) capital s

theorem capitalize_map_toLower (capital : Bool) (s : Bytes) :
    capitalize capital (s.map toLower) = capitalize capital s := by
  induction s generalizing capital with
  | nil => rfl
  | cons c s ih =>
    cases capital with
    | true => simp [capitalize, ih, letterCase]
    | false => simp [capitalize, ih, letterCase]

theorem capitalize_eq_iff {capital : Bool} {s t : Bytes} :
    capitalize capital s = capitalize capital t ↔ s.map toLower = t.map toLower := by
  constructor
  · intro same
    rw [← map_toLower_capitalize capital s, same, map_toLower_capitalize]
  · intro same
    rw [← capitalize_map_toLower, same, capitalize_map_toLower]

variable {s t : Bytes}

theorem canonical_of_valid (valid : s.all validHeaderFieldByte = true) :
    CanonicalMIMEHeaderKey s = capitalize true s :=
  if_pos valid

theorem all_canonical :
    (CanonicalMIMEHeaderKey s).all validHeaderFieldByte = s.all validHeaderFieldByte := by
  unfold CanonicalMIMEHeaderKey
  split
  · exact all_capitalize true s
  · rfl

theorem canonical_canonical :
    CanonicalMIMEHeaderKey (CanonicalMIMEHeaderKey s) = CanonicalMIMEHeaderKey s := by
  cases valid : s.all validHeaderFieldByte with
  | true =>
    rw [canonical_of_valid (all_canonical.trans valid), canonical_of_valid valid, capitalize_eq_iff,
      map_toLower_capitalize]
  | false =>
    have same : CanonicalMIMEHeaderKey s = s := if_neg (by simp [valid])
    rw [same, same]

theorem canonical_eq_iff (valid : s.all validHeaderFieldByte = true)
    (valid' : t.all validHeaderFieldByte = true) :
    CanonicalMIMEHeaderKey s = CanonicalMIMEHeaderKey t ↔ s.map toLower = t.map toLower := by
  rw [canonical_of_valid valid, canonical_of_valid valid', capitalize_eq_iff]

theorem canonical_eq_nil : CanonicalMIMEHeaderKey s = [] ↔ s = [] := by
  unfold CanonicalMIMEHeaderKey
  split
  · cases s with
    | nil => simp [capitalize]
    | cons c s => simp [capitalize]
  · rfl

end Hookubit.Data.HttpHeader
