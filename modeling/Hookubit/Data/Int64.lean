/- digest: 64-bit two's complement integers, and their decimal texts as bytes. -/

import Hookubit.Data.Utf8
import Mathlib.Algebra.Order.Ring.Int

/-!
A 64-bit integer is an integer in range. Arithmetic on it either wraps, as the operators do, or
stops at the limits, as differences of instants do. `ParseInt` and `FormatInt` are the decimal
reader and writer of Go's `strconv`; any error of the reader is `none`.
-/

set_option autoImplicit false
set_option relaxedAutoImplicit false

namespace Hookubit.Data.Int64

open Data.Utf8

def InRange (x : ℤ) : Prop := -9223372036854775808 ≤ x ∧ x ≤ 9223372036854775807

instance inRangeDecidable (x : ℤ) : Decidable (InRange x) := inferInstanceAs (Decidable (_ ∧ _))

/-- The result of an operator, modulo 2^64. -/
def wrap (x : ℤ) : ℤ := (x + 9223372036854775808) % 18446744073709551616 - 9223372036854775808

/-- The result of an operation that stops at the limits. -/
def saturate (x : ℤ) : ℤ :=
  if x < -9223372036854775808 then -9223372036854775808
  else if 9223372036854775807 < x then 9223372036854775807
  else x

theorem wrap_inRange (x : ℤ) : InRange (wrap x) := by
  unfold InRange wrap
  omega

variable {x : ℤ} {n : ℕ}

theorem wrap_of_inRange (h : InRange x) : wrap x = x := by
  unfold InRange at h
  unfold wrap
  omega

theorem saturate_inRange (x : ℤ) : InRange (saturate x) := by
  unfold InRange saturate
  split_ifs <;> omega

theorem saturate_of_inRange (h : InRange x) : saturate x = x := by
  unfold InRange at h
  unfold saturate
  split_ifs <;> omega

def isDigit (b : UInt8) : Bool := 48 ≤ b && b ≤ 57

/-- The number that a string of digits names, whatever its size. -/
def decimal (digits : Bytes) : ℕ := digits.foldl (fun acc b => 10 * acc + (b.toNat - 48)) 0

/-- A sign, if there is one, and what follows it. -/
def cutSign : Bytes → Bool × Bytes
  | [] => (false, [])
  | b :: rest =>
    if b = 43 then (false, rest) else if b = 45 then (true, rest) else (false, b :: rest)

/-- `strconv.ParseInt(s, 10, 64)`, and `strconv.Atoi` where `int` has 64 bits. -/
def ParseInt (s : Bytes) : Option ℤ :=
  let (negative, digits) := cutSign s
  if digits.isEmpty || !digits.all isDigit then none
  else
    let value : ℤ := if negative then -decimal digits else decimal digits
    if InRange value then some value else none

def formatNat (n : ℕ) : Bytes := (Nat.toDigits 10 n).map fun c => UInt8.ofNat c.toNat

def FormatInt (x : ℤ) : Bytes := if x < 0 then 45 :: formatNat x.natAbs else formatNat x.natAbs

private theorem toNat_of_isDigit {c : Char} (h : c.isDigit = true) :
    48 ≤ c.toNat ∧ c.toNat ≤ 57 := by
  simp only [Char.isDigit, Bool.and_eq_true, decide_eq_true_eq] at h
  exact h

private theorem isDigit_of_mem {c : Char} (h : c ∈ Nat.toDigits 10 n) :
    48 ≤ c.toNat ∧ c.toNat ≤ 57 :=
  toNat_of_isDigit (Nat.isDigit_of_mem_toDigits (by decide) (by decide) h)

private theorem toNat_ofNat (h : n ≤ 57) : (UInt8.ofNat n).toNat = n := by
  simp only [UInt8.toNat_ofNat']
  omega

private theorem formatNat_ne_nil (n : ℕ) : formatNat n ≠ [] := by
  simp [formatNat, Nat.toDigits_ne_nil]

theorem isDigit_of_mem_formatNat {b : UInt8} (h : b ∈ formatNat n) : isDigit b = true := by
  obtain ⟨c, hc, rfl⟩ := List.mem_map.mp h
  obtain ⟨low, high⟩ := isDigit_of_mem hc
  simp only [isDigit, Bool.and_eq_true, decide_eq_true_eq, UInt8.le_iff_toNat_le,
    toNat_ofNat high]
  exact ⟨low, high⟩

private theorem decimal_formatNat (n : ℕ) : decimal (formatNat n) = n := by
  have digits (l : List Char) (hl : ∀ c ∈ l, c.toNat ≤ 57) (acc : ℕ) :
      (l.map fun c => UInt8.ofNat c.toNat).foldl (fun acc b => 10 * acc + (b.toNat - 48)) acc =
        Nat.ofDigitChars 10 l acc := by
    induction l generalizing acc with
    | nil => rfl
    | cons c l ih =>
      rw [List.map_cons, List.foldl_cons, toNat_ofNat (hl c List.mem_cons_self),
        ih fun d hd => hl d (List.mem_cons_of_mem _ hd), Nat.ofDigitChars_cons]
      rfl
  rw [decimal, formatNat, digits _ fun c hc => (isDigit_of_mem hc).2,
    Nat.ofDigitChars_ten_toDigits]

private theorem cutSign_digits {digits : Bytes} (all : digits.all isDigit = true) :
    cutSign digits = (false, digits) := by
  cases digits with
  | nil => rfl
  | cons b rest =>
    rw [List.all_cons, Bool.and_eq_true] at all
    have digit := all.1
    have plus : b ≠ 43 := by
      rintro rfl
      exact absurd digit (by decide)
    have minus : b ≠ 45 := by
      rintro rfl
      exact absurd digit (by decide)
    rw [cutSign, if_neg plus, if_neg minus]

theorem ParseInt_digits {digits : Bytes} (nonempty : digits ≠ [])
    (all : digits.all isDigit = true) :
    ParseInt digits =
      if decimal digits ≤ 9223372036854775807 then some (decimal digits : ℤ) else none := by
  have filled : (digits.isEmpty || !digits.all isDigit) = false := by simp [nonempty, all]
  simp only [ParseInt, cutSign_digits all, filled, Bool.false_eq_true, if_false]
  by_cases small : decimal digits ≤ 9223372036854775807
  · rw [if_pos small, if_pos]
    unfold InRange
    omega
  · rw [if_neg small, if_neg]
    unfold InRange
    omega

private theorem all_isDigit_formatNat (n : ℕ) : (formatNat n).all isDigit = true :=
  List.all_eq_true.mpr fun _ h => isDigit_of_mem_formatNat h

theorem ParseInt_FormatInt (h : InRange x) : ParseInt (FormatInt x) = some x := by
  unfold FormatInt
  split
  · rename_i negative
    have filled : ((formatNat x.natAbs).isEmpty || !(formatNat x.natAbs).all isDigit) = false := by
      simp [formatNat_ne_nil, all_isDigit_formatNat]
    have value : (-(decimal (formatNat x.natAbs) : ℤ)) = x := by
      rw [decimal_formatNat]
      omega
    have cut : cutSign (45 :: formatNat x.natAbs) = (true, formatNat x.natAbs) := rfl
    simp only [ParseInt, cut, filled, Bool.false_eq_true, if_false, if_true, value, if_pos h]
  · rw [ParseInt_digits (formatNat_ne_nil _) (all_isDigit_formatNat _), decimal_formatNat]
    unfold InRange at h
    rw [if_pos (by omega)]
    congr 1
    omega

theorem inRange_of_ParseInt {s : Bytes} (h : ParseInt s = some x) : InRange x := by
  unfold ParseInt at h
  dsimp only at h
  split_ifs at h with _ inRange
  · cases h
    assumption
  · cases h
    assumption

end Hookubit.Data.Int64
