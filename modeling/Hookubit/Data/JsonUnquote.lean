/- digest: The text a JSON string stands for, and the escapes that stand for none. -/

import Hookubit.Data.JsonText

/-!
A string is read as encoding/json reads it: a stray byte and a surrogate without its partner
become the replacement character, and nothing is refused.
-/

set_option autoImplicit false
set_option relaxedAutoImplicit false

namespace Hookubit.Data.JsonText

open Data.Utf8 (Bytes Piece scan flatMap_scan)
open Data.Int64 (isDigit)

def hexValue (h : Hex) : ℕ :=
  if isDigit h.1 then h.1.toNat - 0x30
  else if 0x61 ≤ h.1 then h.1.toNat - 0x57 else h.1.toNat - 0x37

def codeUnit (a b c d : Hex) : ℕ :=
  ((hexValue a * 16 + hexValue b) * 16 + hexValue c) * 16 + hexValue d

def isHigh (u : ℕ) : Bool := 0xD800 ≤ u && u < 0xDC00

def isLow (u : ℕ) : Bool := 0xDC00 ≤ u && u < 0xE000

def pairRune (high low : ℕ) : Char :=
  Char.ofNat ((high - 0xD800) * 0x400 + (low - 0xDC00) + 0x10000)

def replacement : Char := Char.ofNat 0xFFFD

/-- The rune of a code unit that is half of no pair. -/
def unitRune (u : ℕ) : Char := if isHigh u || isLow u then replacement else Char.ofNat u

def escapeRune (e : UInt8) : Char :=
  if e = 0x62 then Char.ofNat 8
  else if e = 0x66 then Char.ofNat 12
  else if e = 0x6E then Char.ofNat 10
  else if e = 0x72 then Char.ofNat 13
  else if e = 0x74 then Char.ofNat 9
  else Char.ofNat e.toNat

def runes (raw : Bytes) : List Char := (scan raw).map (Sum.elim id fun _ => replacement)

/-- The text of a string of which the raw bytes `raw` are read but not yet decoded. -/
def unquoteFrom : Bytes → Str → List Char
  | raw, [] => runes raw
  | raw, .raw b :: s => unquoteFrom (raw ++ [b.1]) s
  | raw, .escape e :: s => runes raw ++ escapeRune e.1 :: unquoteFrom [] s
  | raw, .unicode a b c d :: .unicode a' b' c' d' :: s =>
    if isHigh (codeUnit a b c d) && isLow (codeUnit a' b' c' d') then
      runes raw ++ pairRune (codeUnit a b c d) (codeUnit a' b' c' d') :: unquoteFrom [] s
    else
      runes raw ++ unitRune (codeUnit a b c d) :: unquoteFrom [] (.unicode a' b' c' d' :: s)
  | raw, .unicode a b c d :: s => runes raw ++ unitRune (codeUnit a b c d) :: unquoteFrom [] s

def unquote (s : Str) : List Char := unquoteFrom [] s

/-- Some surrogate escape stands without its partner. -/
def unpaired : Str → Bool
  | [] => false
  | .unicode a b c d :: .unicode a' b' c' d' :: s =>
    if isHigh (codeUnit a b c d) && isLow (codeUnit a' b' c' d') then unpaired s
    else isHigh (codeUnit a b c d) || isLow (codeUnit a b c d) ||
      unpaired (.unicode a' b' c' d' :: s)
  | .unicode a b c d :: s => isHigh (codeUnit a b c d) || isLow (codeUnit a b c d) || unpaired s
  | .raw _ :: s | .escape _ :: s => unpaired s

def nul : Char := Char.ofNat 0

/-- The escape of the rune zero. -/
def Fragment.isNul : Fragment → Bool
  | .unicode a b c d => codeUnit a b c d == 0
  | _ => false

theorem zero_mem_of_nul_mem_runes {raw : Bytes} (h : nul ∈ runes raw) : 0 ∈ raw := by
  obtain ⟨p, hp, hn⟩ := List.mem_map.mp h
  cases p with
  | inl c =>
    have isNul : c = nul := hn
    rw [← flatMap_scan raw]
    refine List.mem_flatMap.mpr ⟨.inl c, hp, ?_⟩
    rw [isNul]
    decide
  | inr x =>
    have isNul : replacement = nul := hn
    exact absurd isNul (by decide)

theorem escapeRune_ne_nul {e : UInt8} (h : isEscape e = true) : escapeRune e ≠ nul := by
  have listed : e = 0x22 ∨ e = 0x5C ∨ e = 0x2F ∨ e = 0x62 ∨ e = 0x66 ∨ e = 0x6E ∨ e = 0x72 ∨
      e = 0x74 := by
    simpa [isEscape] using h
  rcases listed with rfl | rfl | rfl | rfl | rfl | rfl | rfl | rfl <;> decide

theorem hexValue_cases (h : Hex) :
    (48 ≤ h.1.toNat ∧ h.1.toNat ≤ 57 ∧ hexValue h = h.1.toNat - 48) ∨
      (97 ≤ h.1.toNat ∧ h.1.toNat ≤ 102 ∧ hexValue h = h.1.toNat - 87) ∨
      (65 ≤ h.1.toNat ∧ h.1.toNat ≤ 70 ∧ hexValue h = h.1.toNat - 55) := by
  obtain ⟨b, hex⟩ := h
  simp only [isHex, isDigit, Bool.or_eq_true, Bool.and_eq_true, decide_eq_true_eq,
    UInt8.le_iff_toNat_le] at hex
  simp only [hexValue, isDigit, Bool.and_eq_true, decide_eq_true_eq, UInt8.le_iff_toNat_le]
  have bounds : (0x30 : UInt8).toNat = 48 ∧ (0x39 : UInt8).toNat = 57 ∧
      (0x61 : UInt8).toNat = 97 ∧ (0x66 : UInt8).toNat = 102 ∧ (0x41 : UInt8).toNat = 65 ∧
      (0x46 : UInt8).toNat = 70 := by decide
  split
  · omega
  split <;> omega

theorem hexValue_lt (h : Hex) : hexValue h < 16 := by
  rcases hexValue_cases h with digit | lower | upper <;> omega

theorem ofNat_eq_nul {n : ℕ} (valid : n.isValidChar) : Char.ofNat n = nul ↔ n = 0 := by
  have code : (Char.ofNat n).toNat = n := by
    rw [Char.ofNat, dif_pos valid]
    rfl
  constructor
  · intro h
    rw [← code, h]
    decide
  · rintro rfl
    rfl

theorem pairRune_ne_nul {high low : ℕ} (hh : isHigh high = true) (hl : isLow low = true) :
    pairRune high low ≠ nul := by
  simp only [isHigh, isLow, Bool.and_eq_true, decide_eq_true_eq] at hh hl
  intro h
  have valid : ((high - 0xD800) * 0x400 + (low - 0xDC00) + 0x10000).isValidChar :=
    Or.inr ⟨by omega, by omega⟩
  have zero := (ofNat_eq_nul valid).mp h
  omega

theorem codeUnit_lt (a b c d : Hex) : codeUnit a b c d < 0x10000 := by
  have := hexValue_lt a
  have := hexValue_lt b
  have := hexValue_lt c
  have := hexValue_lt d
  unfold codeUnit
  omega

theorem unitRune_eq_nul {u : ℕ} (small : u < 0x10000) : unitRune u = nul ↔ u = 0 := by
  unfold unitRune
  split
  · rename_i surrogate
    constructor
    · exact fun h => absurd h (by decide)
    · rintro rfl
      exact absurd surrogate (by decide)
  · rename_i plainUnit
    simp only [isHigh, isLow, Bool.or_eq_true, Bool.and_eq_true, decide_eq_true_eq] at plainUnit
    have valid : u.isValidChar := by
      by_cases below : u < 0xD800
      · exact Or.inl below
      · exact Or.inr ⟨by omega, by omega⟩
    exact ofNat_eq_nul valid

theorem nul_mem_unquoteFrom {raw : Bytes} (s : Str) (printed : 0 ∉ raw) :
    nul ∈ unquoteFrom raw s ↔ s.any Fragment.isNul = true := by
  have runesFree : ∀ {raw : Bytes}, 0 ∉ raw → nul ∉ runes raw :=
    fun free h => free (zero_mem_of_nul_mem_runes h)
  fun_induction unquoteFrom raw s with
  | case1 raw => simpa using runesFree printed
  | case2 raw b s ih =>
    have nonzero : b.1 ≠ 0 := fun h => absurd (h ▸ b.2) (by decide)
    have tail := ih (by simpa [printed] using Ne.symm nonzero)
    simpa [Fragment.isNul] using tail
  | case3 raw e s ih =>
    have other := escapeRune_ne_nul e.2
    simp [runesFree printed, Ne.symm other, ih, Fragment.isNul]
  | case4 raw a b c d a' b' c' d' s pair ih =>
    obtain ⟨high, low⟩ := Bool.and_eq_true_iff.mp pair
    have other := pairRune_ne_nul high low
    have first : codeUnit a b c d ≠ 0 := fun h => absurd (h ▸ high) (by decide)
    have second : codeUnit a' b' c' d' ≠ 0 := fun h => absurd (h ▸ low) (by decide)
    simp [runesFree printed, Ne.symm other, ih, Fragment.isNul, first, second]
  | case5 raw a b c d a' b' c' d' s _ ih =>
    have here := unitRune_eq_nul (codeUnit_lt a b c d)
    have tail := ih (by simp)
    simp only [List.mem_append, runesFree printed, List.mem_cons, tail, eq_comm (a := nul), here,
      false_or]
    simp [Fragment.isNul]
  | case6 raw a b c d s _ ih =>
    have here := unitRune_eq_nul (codeUnit_lt a b c d)
    simp [runesFree printed, ih, Fragment.isNul, eq_comm (a := nul), here]

theorem nul_mem_unquote (s : Str) : nul ∈ unquote s ↔ s.any Fragment.isNul = true :=
  nul_mem_unquoteFrom s (by simp)

end Hookubit.Data.JsonText
