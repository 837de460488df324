/- digest: Byte strings read rune by rune, which of them are UTF-8, and how the others are repaired. -/

import Mathlib.Data.List.Basic

/-!
The codec itself is the core library's. A byte string is read from the left: a well-formed rune
is one unit, and a byte that starts none is a unit of its own.
-/

set_option autoImplicit false
set_option relaxedAutoImplicit false

namespace Hookubit.Data.Utf8

abbrev Bytes := List UInt8

def encode (cs : List Char) : Bytes := cs.flatMap String.utf8EncodeChar

def Valid (b : Bytes) : Prop := ∃ cs, encode cs = b

@[simp]
theorem encode_nil : encode [] = [] := rfl

@[simp]
theorem encode_cons (c : Char) (cs : List Char) :
    encode (c :: cs) = String.utf8EncodeChar c ++ encode cs := rfl

@[simp]
theorem encode_append (cs ds : List Char) : encode (cs ++ ds) = encode cs ++ encode ds :=
  List.flatMap_append

theorem length_le_length_encode (cs : List Char) : cs.length ≤ (encode cs).length := by
  induction cs with
  | nil => simp
  | cons c cs ih =>
    have one : 0 < (String.utf8EncodeChar c).length :=
      List.length_pos_iff.mpr String.utf8EncodeChar_ne_nil
    rw [encode_cons, List.length_append, List.length_cons]
    omega

theorem valid_encode (cs : List Char) : Valid (encode cs) := ⟨cs, rfl⟩

theorem valid_nil : Valid [] := ⟨[], rfl⟩

theorem valid_rune (c : Char) : Valid (String.utf8EncodeChar c) := ⟨[c], by simp⟩

variable {a b rest replacement : Bytes} {c : Char} {x : UInt8}

theorem Valid.append (ha : Valid a) (hb : Valid b) : Valid (a ++ b) := by
  obtain ⟨cs, rfl⟩ := ha
  obtain ⟨ds, rfl⟩ := hb
  exact ⟨cs ++ ds, encode_append cs ds⟩

def decodeRune (b : Bytes) : Option Char := b.toByteArray.utf8DecodeChar? 0

theorem decodeRune_rune_append (c : Char) (rest : Bytes) :
    decodeRune (String.utf8EncodeChar c ++ rest) = some c := by
  rw [decodeRune, List.toByteArray_append]
  exact ByteArray.utf8DecodeChar?_utf8EncodeChar_append

theorem rune_append_of_decodeRune (h : decodeRune b = some c) :
    ∃ rest, b = String.utf8EncodeChar c ++ rest := by
  obtain ⟨l, hl⟩ := ByteArray.exists_of_utf8DecodeChar?_eq_some h
  refine ⟨l.data.toList, ?_⟩
  simpa [List.data_toByteArray] using congrArg (fun x => x.data.toList) hl

/-- One unit of a byte string: a rune, or a byte that starts none. -/
abbrev Piece := Char ⊕ UInt8

def Piece.bytes : Piece → Bytes := Sum.elim String.utf8EncodeChar fun x => [x]

/-- Reading with a bound on the number of units; the length of the string is always enough. -/
def scanUpTo : ℕ → Bytes → List Piece
  | 0, _ => []
  | _ + 1, [] => []
  | n + 1, x :: xs =>
      match decodeRune (x :: xs) with
      | some c => .inl c :: scanUpTo n ((x :: xs).drop c.utf8Size)
      | none => .inr x :: scanUpTo n xs

def scan (b : Bytes) : List Piece := scanUpTo b.length b

/-- Byte strings are built from runes and from bytes that start none. -/
theorem rune_induction {P : Bytes → Prop} (nil : P [])
    (rune : ∀ c rest, P rest → P (String.utf8EncodeChar c ++ rest))
    (stray : ∀ x rest, decodeRune (x :: rest) = none → P rest → P (x :: rest)) (b : Bytes) :
    P b := by
  -- on the length, since a rune takes several bytes at once
  induction hn : b.length using Nat.strongRecOn generalizing b with
  | ind n ih =>
    match b with
    | [] => exact nil
    | x :: xs =>
      cases h : decodeRune (x :: xs) with
      | none => exact stray x xs h (ih xs.length (by simp [← hn]) xs rfl)
      | some c =>
        obtain ⟨rest, hr⟩ := rune_append_of_decodeRune h
        have size : 0 < (String.utf8EncodeChar c).length :=
          List.length_pos_iff.mpr String.utf8EncodeChar_ne_nil
        have shorter : rest.length < n := by
          rw [← hn, hr, List.length_append]
          omega
        rw [hr]
        exact rune c rest (ih rest.length shorter rest rfl)

theorem exists_cons_of_rune (c : Char) (rest : Bytes) :
    ∃ x xs, String.utf8EncodeChar c ++ rest = x :: xs ∧ decodeRune (x :: xs) = some c ∧
      (x :: xs).drop c.utf8Size = rest := by
  have head := decodeRune_rune_append c rest
  have tail : (String.utf8EncodeChar c ++ rest).drop c.utf8Size = rest := by
    rw [← String.length_utf8EncodeChar, List.drop_left]
  cases hb : String.utf8EncodeChar c ++ rest with
  | nil => exact absurd (List.append_eq_nil_iff.mp hb).1 String.utf8EncodeChar_ne_nil
  | cons x xs => exact ⟨x, xs, rfl, hb ▸ head, hb ▸ tail⟩

theorem scanUpTo_rune (n : ℕ) (c : Char) (rest : Bytes) :
    scanUpTo (n + 1) (String.utf8EncodeChar c ++ rest) = .inl c :: scanUpTo n rest := by
  obtain ⟨x, xs, split, head, tail⟩ := exists_cons_of_rune c rest
  simp only [split, scanUpTo, head, tail]

theorem scanUpTo_stray (n : ℕ) (h : decodeRune (x :: rest) = none) :
    scanUpTo (n + 1) (x :: rest) = .inr x :: scanUpTo n rest := by
  simp only [scanUpTo, h]

theorem scanUpTo_eq (b : Bytes) : ∀ n, b.length ≤ n → scanUpTo n b = scan b := by
  unfold scan
  induction b using rune_induction with
  | nil => intro n _; cases n <;> rfl
  | rune c rest ih =>
    intro n hn
    have size : 0 < (String.utf8EncodeChar c).length :=
      List.length_pos_iff.mpr String.utf8EncodeChar_ne_nil
    rw [List.length_append] at hn ⊢
    obtain ⟨m, rfl⟩ : ∃ m, n = m + 1 := ⟨n - 1, by omega⟩
    obtain ⟨k, hk⟩ : ∃ k, (String.utf8EncodeChar c).length + rest.length = k + 1 :=
      ⟨(String.utf8EncodeChar c).length + rest.length - 1, by omega⟩
    rw [hk, scanUpTo_rune, scanUpTo_rune, ih m (by omega), ih k (by omega)]
  | stray x rest h ih =>
    intro n hn
    rw [List.length_cons] at hn ⊢
    obtain ⟨m, rfl⟩ : ∃ m, n = m + 1 := ⟨n - 1, by omega⟩
    rw [scanUpTo_stray m h, scanUpTo_stray rest.length h, ih m (by omega)]

@[simp]
theorem scan_nil : scan [] = [] := rfl

theorem scan_rune (c : Char) (rest : Bytes) :
    scan (String.utf8EncodeChar c ++ rest) = .inl c :: scan rest := by
  rw [← scanUpTo_eq _ (_ + 1) (Nat.le_succ _), scanUpTo_rune, scanUpTo_eq]
  simp

theorem scan_stray (h : decodeRune (x :: rest) = none) : scan (x :: rest) = .inr x :: scan rest :=
  scanUpTo_stray rest.length h

theorem flatMap_scan (b : Bytes) : (scan b).flatMap Piece.bytes = b := by
  induction b using rune_induction with
  | nil => rfl
  | rune c rest ih => rw [scan_rune, List.flatMap_cons, ih]; rfl
  | stray x rest h ih => rw [scan_stray h, List.flatMap_cons, ih]; rfl

theorem scan_encode (cs : List Char) : scan (encode cs) = cs.map .inl := by
  induction cs with
  | nil => rfl
  | cons c cs ih => rw [encode_cons, scan_rune, ih, List.map_cons]

theorem encode_injective : Function.Injective encode := by
  intro t u same
  have read := congrArg scan same
  rw [scan_encode, scan_encode] at read
  exact List.map_injective_iff.mpr (fun _ _ => Sum.inl.inj) read

def validString (b : Bytes) : Bool := (scan b).all Sum.isLeft

theorem valid_iff (b : Bytes) : Valid b ↔ validString b = true := by
  constructor
  · rintro ⟨cs, rfl⟩
    simp [validString, scan_encode]
  · intro h
    induction b using rune_induction with
    | nil => exact valid_nil
    | rune c rest ih =>
      have tail : validString rest = true := by simpa [validString, scan_rune] using h
      exact (valid_rune c).append (ih tail)
    | stray x rest hx ih => simp [validString, scan_stray hx] at h

theorem rune_split {more : Bytes} {d : Char} (first : x.IsUTF8FirstByte)
    (h : String.utf8EncodeChar d = a ++ x :: more) : a = [] := by
  have here : a.length < (String.utf8EncodeChar d).length := by
    rw [h, List.length_append, List.length_cons]
    omega
  have byte : (String.utf8EncodeChar d)[a.length] = x := by
    simp [h]
  exact List.eq_nil_of_length_eq_zero
    (UInt8.isUTF8FirstByte_getElem_utf8EncodeChar.mp (byte ▸ first))

theorem rune_cons (c : Char) :
    ∃ x rest, String.utf8EncodeChar c = x :: rest ∧ x.IsUTF8FirstByte := by
  cases h : String.utf8EncodeChar c with
  | nil => exact absurd h String.utf8EncodeChar_ne_nil
  | cons x rest =>
    have first := UInt8.isUTF8FirstByte_getElem_zero_utf8EncodeChar (c := c)
    exact ⟨x, rest, rfl, by simpa [h] using first⟩

theorem valid_append_rune (h : Valid (a ++ (String.utf8EncodeChar c ++ rest))) : Valid a := by
  obtain ⟨cs, hcs⟩ := h
  induction cs generalizing a with
  | nil =>
    have empty := (List.append_eq_nil_iff.mp hcs.symm).2
    exact absurd (List.append_eq_nil_iff.mp empty).1 String.utf8EncodeChar_ne_nil
  | cons d cs ih =>
    rw [encode_cons] at hcs
    obtain ⟨more, rfl, hm⟩ | ⟨more, hd, hm⟩ := List.append_eq_append_iff.mp hcs
    · exact (valid_rune d).append (ih hm)
    · cases more with
      | nil =>
        rw [List.append_nil] at hd
        exact hd ▸ valid_rune d
      | cons y more =>
        obtain ⟨x, tail, hx, first⟩ := rune_cons c
        rw [hx] at hm
        obtain ⟨rfl, _⟩ := List.cons.inj hm
        rw [rune_split first hd]
        exact valid_nil

/-- `strings.ToValidUTF8`: every run of stray bytes becomes one replacement. -/
def repair (replacement : Bytes) : Bool → List Piece → Bytes
  | _, [] => []
  | _, .inl c :: l => String.utf8EncodeChar c ++ repair replacement false l
  | inRun, .inr _ :: l => (if inRun then [] else replacement) ++ repair replacement true l

def toValidUTF8 (replacement b : Bytes) : Bytes := repair replacement false (scan b)

theorem valid_repair (valid : Valid replacement) (l : List Piece) :
    ∀ inRun, Valid (repair replacement inRun l) := by
  induction l with
  | nil => exact fun _ => valid_nil
  | cons p l ih =>
    intro inRun
    cases p with
    | inl c => exact (valid_rune c).append (ih false)
    | inr x =>
      cases inRun with
      | true => exact ih true
      | false => exact valid.append (ih true)

theorem mem_repair {l : List Piece} : ∀ {inRun : Bool}, x ∈ repair replacement inRun l →
      x ∈ replacement ∨ x ∈ l.flatMap Piece.bytes := by
  induction l with
  | nil => exact fun h => absurd h (List.not_mem_nil)
  | cons p l ih =>
    intro inRun h
    rw [List.flatMap_cons, List.mem_append]
    cases p with
    | inl c =>
      obtain here | later := List.mem_append.mp h
      · exact .inr (.inl here)
      · exact (ih later).imp_right .inr
    | inr y =>
      obtain here | later := List.mem_append.mp h
      · cases inRun with
        | true => exact absurd here List.not_mem_nil
        | false => exact .inl here
      · exact (ih later).imp_right .inr

theorem valid_toValidUTF8 (valid : Valid replacement) (b : Bytes) :
    Valid (toValidUTF8 replacement b) :=
  valid_repair valid (scan b) false

theorem mem_toValidUTF8 (h : x ∈ toValidUTF8 replacement b) : x ∈ replacement ∨ x ∈ b := by
  have := mem_repair h
  rwa [flatMap_scan] at this

theorem ascii_mem_rune (ascii : x < 128) (h : x ∈ String.utf8EncodeChar c) :
    c = Char.ofNat x.toNat := by
  have small : x.toNat < 128 := UInt8.lt_iff_toNat_lt.mp ascii
  have large (n : ℕ) (low : 128 ≤ n) (high : n < 256) : x ≠ UInt8.ofNat n := by
    rintro rfl
    rw [UInt8.toNat_ofNat_of_lt' high] at small
    omega
  unfold String.utf8EncodeChar at h
  dsimp only at h
  split_ifs at h
  · have byte : c.val.toNat < UInt8.size := Nat.lt_of_le_of_lt ‹_› (by decide)
    have same : x.toNat = c.toNat := by
      rw [List.mem_singleton.mp h, UInt8.toNat_ofNat_of_lt' byte]
      rfl
    rw [same, Char.ofNat_toNat]
  all_goals
    simp only [List.mem_cons, List.not_mem_nil, or_false] at h
    grind

theorem ascii_mem_encode {cs : List Char} (ascii : x < 128) (h : x ∈ encode cs) :
    Char.ofNat x.toNat ∈ cs := by
  obtain ⟨c, hc, inside⟩ := List.mem_flatMap.mp h
  exact ascii_mem_rune ascii inside ▸ hc

theorem zero_mem_encode {cs : List Char} (h : (0 : UInt8) ∈ encode cs) : Char.ofNat 0 ∈ cs :=
  ascii_mem_encode (by decide) h

theorem mem_of_mem_intercalate {α : Type} {x : α} {sep : List α} {l : List (List α)} :
    x ∈ sep.intercalate l → x ∈ sep ∨ ∃ p ∈ l, x ∈ p := by
  induction l with
  | nil => simp [List.intercalate]
  | cons a l ih =>
    cases l with
    | nil => simpa [List.intercalate] using .inr
    | cons b l =>
      intro h
      simp only [List.intercalate, List.intersperse, List.flatten_cons, List.mem_append] at h ih
      grind

end Hookubit.Data.Utf8
