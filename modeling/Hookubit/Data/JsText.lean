/- digest: JavaScript strings as code units, what trims off them, and the bytes they are stored as. -/

import Hookubit.Data.ByteText
import Hookubit.Data.DottedPattern
import Hookubit.Data.JsonUnquote
import Mathlib.Data.FinEnum

set_option autoImplicit false
set_option relaxedAutoImplicit false

namespace Hookubit.Data.JsText

open Data.ByteText
open Data.Int64 (decimal isDigit)
open Data.JsonText (isHigh isLow pairRune unitRune)
open Data.Utf8 (Bytes ascii_mem_encode encode)

abbrev Units := List UInt16

inductive JsValue
  | string (s : Units)
  | other
  deriving DecidableEq

def widen (b : Bytes) : Units := b.map UInt8.toUInt16

def literal (s : String) : Units := widen (encode s.toList)

/-- What `trim` removes and `\s` matches. -/
def whitespace : List UInt16 :=
  [0x09, 0x0A, 0x0B, 0x0C, 0x0D, 0x20, 0xA0, 0x1680, 0x2000, 0x2001, 0x2002, 0x2003, 0x2004, 0x2005,
    0x2006, 0x2007, 0x2008, 0x2009, 0x200A, 0x2028, 0x2029, 0x202F, 0x205F, 0x3000, 0xFEFF]

def isWhitespace (u : UInt16) : Bool := whitespace.contains u

def trim (s : Units) : Units :=
  ((s.dropWhile isWhitespace).reverse.dropWhile isWhitespace).reverse

def trimEnd (s : Units) : Units := (s.reverse.dropWhile isWhitespace).reverse

theorem trim_append {front : Units} (nonempty : front ≠ [])
    (plain : ∀ u ∈ front, isWhitespace u = false) (rest : Units) :
    trim (front ++ rest) = front ++ trimEnd rest := by
  have start : (front ++ rest).dropWhile isWhitespace = front ++ rest := by
    obtain ⟨first, more, rfl⟩ := List.exists_cons_of_ne_nil nonempty
    rw [List.cons_append, List.dropWhile_cons_of_neg]
    simp [plain first List.mem_cons_self]
  have stop : front.reverse.dropWhile isWhitespace = front.reverse := by
    obtain ⟨most, last, rfl⟩ := (List.eq_nil_or_concat' front).resolve_left nonempty
    rw [List.reverse_concat, List.dropWhile_cons_of_neg]
    simp [plain last (by simp)]
  rw [trim, start, List.reverse_append, List.dropWhile_append, stop, trimEnd]
  split
  · rename_i absent
    simp [List.isEmpty_iff.mp absent]
  · simp

variable {s : Units} {u : UInt16} {n : ℕ} {b : Bytes} {x : UInt8}

def isDigitUnit (u : UInt16) : Bool := 48 ≤ u && u ≤ 57

def number (s : Units) : ℕ := s.foldl (fun acc u => 10 * acc + (u.toNat - 48)) 0

theorem isDigitUnit_widen : ∀ x : UInt8, isDigitUnit x.toUInt16 = isDigit x := by decide +kernel

theorem number_widen (s : Bytes) : number (widen s) = decimal s := by
  simp [number, widen, decimal, List.foldl_map]

theorem all_isDigitUnit_widen (s : Bytes) : (widen s).all isDigitUnit = s.all isDigit := by
  rw [widen, List.all_map]
  exact congrArg s.all (funext isDigitUnit_widen)

def scalars : Units → List Char
  | [] => []
  | [u] => [unitRune u.toNat]
  | high :: low :: rest =>
      if isHigh high.toNat && isLow low.toNat then pairRune high.toNat low.toNat :: scalars rest
      else unitRune high.toNat :: scalars (low :: rest)

def utf8 (s : Units) : Bytes := encode (scalars s)

theorem unitRune_ascii (ascii : n < 128) : unitRune n = Char.ofNat n := by
  have plain : (isHigh n || isLow n) = false := by
    simp [isHigh, isLow]
    omega
  rw [unitRune, plain, if_neg (by decide)]

theorem scalars_cons (ascii : u < 128) (s : Units) :
    scalars (u :: s) = Char.ofNat u.toNat :: scalars s := by
  have small : u.toNat < 128 := UInt16.lt_iff_toNat_lt.mp ascii
  have alone : isHigh u.toNat = false := by
    simp [isHigh]
    omega
  cases s with
  | nil => simp [scalars, unitRune_ascii small]
  | cons v s => simp [scalars, alone, unitRune_ascii small]

theorem asciiByte : ∀ x : UInt8, x < 128 → x.toUInt16 < 128 ∧
    (Char.ofNat x.toNat).toNat = x.toNat ∧ String.utf8EncodeChar (Char.ofNat x.toNat) = [x] := by
  decide +kernel

theorem scalars_append (ascii : ∀ x ∈ b, x < 128) (s : Units) :
    scalars (widen b ++ s) = (b.map fun x => Char.ofNat x.toNat) ++ scalars s := by
  induction b with
  | nil => rfl
  | cons x b ih =>
    obtain ⟨here, later⟩ := List.forall_mem_cons.mp ascii
    have step : widen (x :: b) ++ s = x.toUInt16 :: (widen b ++ s) := rfl
    rw [step, scalars_cons (asciiByte x here).1, ih later]
    simp

theorem utf8_append (ascii : ∀ x ∈ b, x < 128) (s : Units) : utf8 (widen b ++ s) = b ++ utf8 s := by
  rw [utf8, scalars_append ascii, encode, List.flatMap_append, List.flatMap_map,
    List.flatMap_congr fun x inside => (asciiByte x (ascii x inside)).2.2, utf8, encode]
  simp

theorem utf8_widen (ascii : ∀ x ∈ b, x < 128) : utf8 (widen b) = b := by
  have whole := utf8_append ascii []
  have empty : utf8 [] = [] := rfl
  rwa [empty, List.append_nil, List.append_nil] at whole

theorem toNat_ofNat (valid : n.isValidChar) : (Char.ofNat n).toNat = n := by
  rw [Char.ofNat, dif_pos valid]
  rfl

theorem unitRune_eq_ascii (ascii : n < 128) : unitRune u.toNat = Char.ofNat n ↔ u.toNat = n := by
  have bound := u.toNat_lt
  have small := toNat_ofNat (n := n) (.inl (by omega))
  unfold unitRune
  split
  · rename_i half
    constructor
    · intro same
      have := congrArg Char.toNat same
      rw [small] at this
      have far : Data.JsonText.replacement.toNat = 0xFFFD := by decide
      omega
    · rintro rfl
      simp [isHigh, isLow] at half
      omega
  · rename_i whole
    have valid : u.toNat.isValidChar := by
      simp [isHigh, isLow] at whole
      unfold Nat.isValidChar
      omega
    constructor
    · intro same
      rw [← toNat_ofNat valid, same, small]
    · rintro rfl
      rfl

theorem pairRune_ne_ascii {high low : ℕ} (pair : isHigh high = true ∧ isLow low = true)
    (ascii : n < 128) : pairRune high low ≠ Char.ofNat n := by
  simp only [isHigh, isLow, Bool.and_eq_true, decide_eq_true_eq] at pair
  have small := toNat_ofNat (n := n) (.inl (by omega))
  have large : (pairRune high low).toNat = (high - 0xD800) * 0x400 + (low - 0xDC00) + 0x10000 :=
    toNat_ofNat (by unfold Nat.isValidChar; omega)
  intro same
  rw [same, small] at large
  omega

theorem ascii_mem_scalars (ascii : n < 128) : Char.ofNat n ∈ scalars s ↔ UInt16.ofNat n ∈ s := by
  have unit (u : UInt16) : UInt16.ofNat n = u ↔ u.toNat = n := by
    rw [← UInt16.toNat_inj, UInt16.toNat_ofNat_of_lt' (show n < 65536 by omega)]
    exact eq_comm
  induction s using scalars.induct with
  | case1 => simp [scalars]
  | case2 u => rw [scalars, List.mem_singleton, List.mem_singleton, eq_comm,
      unitRune_eq_ascii ascii, unit]
  | case3 high low rest pair ih =>
    have halves := (Bool.and_eq_true _ _).mp pair
    have apart := pairRune_ne_ascii halves ascii
    simp only [isHigh, isLow, Bool.and_eq_true, decide_eq_true_eq] at halves
    have first : ¬high.toNat = n := by omega
    have second : ¬low.toNat = n := by omega
    have tail : Char.ofNat n ∈ scalars rest ↔ UInt16.ofNat n ∈ rest := ih
    rw [scalars, if_pos pair, List.mem_cons, List.mem_cons, List.mem_cons, unit, unit, tail]
    simp [apart.symm, first, second]
  | case4 high low rest single ih =>
    have tail : Char.ofNat n ∈ scalars (low :: rest) ↔ UInt16.ofNat n ∈ low :: rest := ih
    rw [scalars, if_neg single, List.mem_cons, tail, List.mem_cons (a := UInt16.ofNat n)
      (b := high), eq_comm, unitRune_eq_ascii ascii, unit]

theorem ascii_mem_utf8 (ascii : x < 128) : x ∈ utf8 s ↔ x.toUInt16 ∈ s := by
  have small : x.toNat < 128 := UInt8.lt_iff_toNat_lt.mp ascii
  have unit : UInt16.ofNat x.toNat = x.toUInt16 := by simp
  rw [← unit, ← ascii_mem_scalars small]
  constructor
  · exact ascii_mem_encode ascii
  · intro inside
    refine List.mem_flatMap.mpr ⟨_, inside, ?_⟩
    rw [(asciiByte x ascii).2.2]
    exact List.mem_singleton_self x

theorem scalars_append_cons (ascii : u < 128) (s rest : Units) :
    scalars (s ++ u :: rest) = scalars s ++ Char.ofNat u.toNat :: scalars rest := by
  have small : u.toNat < 128 := UInt16.lt_iff_toNat_lt.mp ascii
  have single : isLow u.toNat = false := by
    simp [isLow]
    omega
  induction s using scalars.induct with
  | case1 => rw [List.nil_append, scalars_cons ascii, scalars, List.nil_append]
  | case2 v =>
    have alone : ¬(isHigh v.toNat && isLow u.toNat) = true := by simp [single]
    have one : scalars [v] = [unitRune v.toNat] := rfl
    rw [one, List.singleton_append, scalars, if_neg alone, scalars_cons ascii,
      List.singleton_append]
  | case3 high low more pair ih =>
    have tail : scalars (more ++ u :: rest) = scalars more ++ Char.ofNat u.toNat :: scalars rest :=
      ih
    rw [List.cons_append, List.cons_append, scalars, if_pos pair, scalars, if_pos pair, tail,
      List.cons_append]
  | case4 high low more alone ih =>
    have tail : scalars (low :: more ++ u :: rest) =
      scalars (low :: more) ++ Char.ofNat u.toNat :: scalars rest := ih
    rw [List.cons_append, List.cons_append, scalars, if_neg alone, ← List.cons_append, tail,
      scalars, if_neg alone, List.cons_append]

theorem utf8_append_cons (ascii : x < 128) (s rest : Units) :
    utf8 (s ++ x.toUInt16 :: rest) = utf8 s ++ x :: utf8 rest := by
  obtain ⟨unit, -, rune⟩ := asciiByte x ascii
  rw [utf8, scalars_append_cons unit, encode, List.flatMap_append, List.flatMap_cons,
    UInt8.toNat_toUInt16, rune]
  rfl

theorem utf8_intercalate (ascii : x < 128) (parts : List Units) :
    utf8 ([x.toUInt16].intercalate parts) = [x].intercalate (parts.map utf8) := by
  induction parts with
  | nil => rfl
  | cons a parts ih =>
    cases parts with
    | nil => simp
    | cons b parts =>
      rw [List.intercalate_cons_cons, List.append_assoc, List.singleton_append,
        utf8_append_cons ascii, ih]
      simp [List.intercalate_cons_cons]

theorem utf8_eq_nil : utf8 s = [] ↔ s = [] := by
  have runes : scalars s = [] ↔ s = [] := by
    rcases s with _ | ⟨u, _ | ⟨v, s⟩⟩
    · simp [scalars]
    · simp [scalars]
    · rw [scalars]
      split <;> simp
  rw [utf8, encode, List.flatMap_eq_nil_iff, ← runes]
  constructor
  · intro empty
    exact List.eq_nil_iff_forall_not_mem.mpr fun c inside =>
      String.utf8EncodeChar_ne_nil (empty c inside)
  · intro absent c inside
    rw [absent] at inside
    cases inside

theorem exists_widen (ascii : ∀ u ∈ s, u < 128) : ∃ b, s = widen b ∧ ∀ x ∈ b, x < 128 := by
  have back : ∀ u : UInt16, u < 128 → u.toUInt8.toUInt16 = u ∧ u.toUInt8 < 128 := by
    intro u small
    have small' : u.toNat < 128 := UInt16.lt_iff_toNat_lt.mp small
    constructor
    · apply UInt16.toNat_inj.mp
      simp
      omega
    · apply UInt8.lt_iff_toNat_lt.mpr
      simp
      omega
  refine ⟨s.map UInt16.toUInt8, ?_, ?_⟩
  · rw [widen, List.map_map]
    exact (List.map_id'' (fun _ => rfl) s).symm.trans
      (List.map_congr_left fun u inside => (back u (ascii u inside)).1.symm)
  · simp only [List.mem_map]
    rintro x ⟨u, inside, rfl⟩
    exact (back u (ascii u inside)).2

theorem widen_injective : Function.Injective UInt8.toUInt16 := fun x y h => by
  have same := congrArg UInt16.toNat h
  simpa [UInt8.toNat_inj] using same

theorem mem_widen : x.toUInt16 ∈ widen b ↔ x ∈ b :=
  List.mem_map_of_injective widen_injective

theorem splitOn_widen (b : Bytes) (x : UInt8) :
    (widen b).splitOn x.toUInt16 = (b.splitOn x).map widen :=
  Data.DottedPattern.splitOn_map widen_injective x b

def utf16 (text : List Char) : Units :=
  text.flatMap fun c =>
    if c.toNat < 0x10000 then [UInt16.ofNat c.toNat]
    else [UInt16.ofNat (0xD800 + (c.toNat - 0x10000) / 0x400),
      UInt16.ofNat (0xDC00 + (c.toNat - 0x10000) % 0x400)]

theorem scalars_cons_of_not_high (single : isHigh u.toNat = false) (s : Units) :
    scalars (u :: s) = unitRune u.toNat :: scalars s := by
  cases s <;> simp [scalars, single]

@[simp] theorem scalars_utf16 (text : List Char) : scalars (utf16 text) = text := by
  have unit {n : ℕ} (small : n < 0x10000) : (UInt16.ofNat n).toNat = n :=
    UInt16.toNat_ofNat_of_lt' small
  induction text with
  | nil => rfl
  | cons c text ih =>
    have whole : c.toNat < 0xD800 ∨ 0xDFFF < c.toNat ∧ c.toNat < 0x110000 := c.valid
    have step : utf16 (c :: text) = utf16 [c] ++ utf16 text := by simp [utf16]
    rw [step]
    by_cases small : c.toNat < 0x10000
    · have here : utf16 [c] = [UInt16.ofNat c.toNat] := by simp [utf16, small]
      have rune : unitRune c.toNat = c := by
        have plain : (isHigh c.toNat || isLow c.toNat) = false := by
          simp [isHigh, isLow]
          omega
        rw [unitRune, plain, if_neg (by decide), Char.ofNat_toNat]
      have single : isHigh c.toNat = false := by
        simp [isHigh]
        omega
      rw [here, List.singleton_append, scalars_cons_of_not_high (by rwa [unit small]), unit small,
        rune, ih]
    · have here : utf16 [c] = [UInt16.ofNat (0xD800 + (c.toNat - 0x10000) / 0x400),
          UInt16.ofNat (0xDC00 + (c.toNat - 0x10000) % 0x400)] := by simp [utf16, small]
      have high : 0xD800 + (c.toNat - 0x10000) / 0x400 < 0xDC00 := by omega
      have low : 0xDC00 + (c.toNat - 0x10000) % 0x400 < 0xE000 := by omega
      have pair : (isHigh (0xD800 + (c.toNat - 0x10000) / 0x400) &&
          isLow (0xDC00 + (c.toNat - 0x10000) % 0x400)) = true := by
        simp [isHigh, isLow, high, low]
      have rune : pairRune (0xD800 + (c.toNat - 0x10000) / 0x400)
          (0xDC00 + (c.toNat - 0x10000) % 0x400) = c := by
        have sum : (0xD800 + (c.toNat - 0x10000) / 0x400 - 0xD800) * 0x400 +
            (0xDC00 + (c.toNat - 0x10000) % 0x400 - 0xDC00) + 0x10000 = c.toNat := by omega
        rw [pairRune, sum, Char.ofNat_toNat]
      rw [here, List.cons_append, List.singleton_append, scalars, unit (by omega), unit (by omega),
        if_pos pair, rune, ih]

theorem utf16_eq_nil {t : List Char} : utf16 t = [] ↔ t = [] := by
  constructor
  · intro empty
    rw [← scalars_utf16 t, empty]
    rfl
  · rintro rfl
    rfl

theorem utf16_ascii (ascii : ∀ x ∈ b, x < 128) :
    utf16 (b.map fun x => Char.ofNat x.toNat) = widen b := by
  induction b with
  | nil => rfl
  | cons x b ih =>
    obtain ⟨here, later⟩ := List.forall_mem_cons.mp ascii
    have small : x.toNat < 0x10000 := x.toNat_lt.trans (by decide)
    have tail := ih later
    simp only [utf16, List.map_cons, List.flatMap_cons, (asciiByte x here).2.1, if_pos small]
      at tail ⊢
    rw [tail]
    simp [widen]

theorem exists_ascii {text : List Char} (ascii : ∀ c ∈ text, c.toNat < 128) :
    ∃ b : Bytes, (text = b.map fun x => Char.ofNat x.toNat) ∧ ∀ x ∈ b, x < 128 := by
  have back (c : Char) (small : c.toNat < 128) :
      Char.ofNat (UInt8.ofNat c.toNat).toNat = c ∧ UInt8.ofNat c.toNat < 128 := by
    have same : (UInt8.ofNat c.toNat).toNat = c.toNat :=
      UInt8.toNat_ofNat_of_lt' (show c.toNat < 256 by omega)
    refine ⟨by rw [same, Char.ofNat_toNat], UInt8.lt_iff_toNat_lt.mpr ?_⟩
    rw [same]
    exact small
  refine ⟨text.map fun c => UInt8.ofNat c.toNat, ?_, ?_⟩
  · rw [List.map_map]
    exact (List.map_id'' (fun _ => rfl) text).symm.trans
      (List.map_congr_left fun c inside => (back c (ascii c inside)).1.symm)
  · simp only [List.mem_map]
    rintro x ⟨c, inside, rfl⟩
    exact (back c (ascii c inside)).2

end Hookubit.Data.JsText
