/- digest: The shape of an encoded rune, and where a slice of bytes cuts a text. -/

import Hookubit.Data.Utf8

set_option autoImplicit false
set_option relaxedAutoImplicit false

namespace Hookubit.Data.Utf8Cut

open Data.Utf8

/-- A byte that continues a rune: `10xxxxxx`. -/
def isTrail (x : UInt8) : Bool := x &&& 0b11000000 == 0b10000000

/-- The bytes that a first byte announces, itself included; none if it is no first byte. -/
def leadWidth (x : UInt8) : ℕ :=
  if x < 0x80 then 1
  else if x &&& 0b11100000 == 0b11000000 then 2
  else if x &&& 0b11110000 == 0b11100000 then 3
  else if x &&& 0b11111000 == 0b11110000 then 4
  else 0

theorem isTrail_of_mem_map (digits : List ℕ) :
    ∀ x ∈ digits.map fun n => UInt8.ofNat (n % 64 + 128), isTrail x = true := by
  have all : ∀ k < 64, isTrail (UInt8.ofNat (k + 128)) = true := by decide
  intro x hx
  obtain ⟨n, -, rfl⟩ := List.mem_map.mp hx
  exact all (n % 64) (Nat.mod_lt _ (by decide))

theorem lead_one : ∀ k ≤ 127, isTrail (UInt8.ofNat k) = false ∧ leadWidth (UInt8.ofNat k) = 1 := by
  decide

theorem lead_two : ∀ k < 32, isTrail (UInt8.ofNat (k + 192)) = false ∧
    leadWidth (UInt8.ofNat (k + 192)) = 2 := by
  decide

theorem lead_three : ∀ k < 16, isTrail (UInt8.ofNat (k + 224)) = false ∧
    leadWidth (UInt8.ofNat (k + 224)) = 3 := by
  decide

theorem lead_four : ∀ k < 8, isTrail (UInt8.ofNat (k + 240)) = false ∧
    leadWidth (UInt8.ofNat (k + 240)) = 4 := by
  decide

theorem rune_shape (c : Char) :
    ∃ lead rest, String.utf8EncodeChar c = lead :: rest ∧ isTrail lead = false ∧
      (∀ x ∈ rest, isTrail x = true) ∧ leadWidth lead = rest.length + 1 ∧ rest.length ≤ 3 := by
  unfold String.utf8EncodeChar
  dsimp only
  split_ifs with one two three
  · obtain ⟨first, width⟩ := lead_one _ one
    exact ⟨_, _, rfl, first, by simp, width, by simp⟩
  · obtain ⟨first, width⟩ := lead_two (c.val.toNat / 64 % 32) (Nat.mod_lt _ (by decide))
    exact ⟨_, _, rfl, first, isTrail_of_mem_map [c.val.toNat], width, by simp⟩
  · obtain ⟨first, width⟩ := lead_three (c.val.toNat / 4096 % 16) (Nat.mod_lt _ (by decide))
    exact ⟨_, _, rfl, first, isTrail_of_mem_map [c.val.toNat / 64, c.val.toNat], width, by simp⟩
  · obtain ⟨first, width⟩ := lead_four (c.val.toNat / 262144 % 8) (Nat.mod_lt _ (by decide))
    exact ⟨_, _, rfl, first, isTrail_of_mem_map [c.val.toNat / 4096, c.val.toNat / 64, c.val.toNat],
      width, by simp⟩

theorem length_encode_le (cs : List Char) : (encode cs).length ≤ 4 * cs.length := by
  induction cs with
  | nil => simp
  | cons c cs ih =>
    obtain ⟨lead, rest, shape, -, -, -, few⟩ := rune_shape c
    rw [encode_cons, shape, List.length_append, List.length_cons, List.length_cons]
    omega

/-- Bytes that are the start of a rune and not all of it; none are, too. -/
def Partial (b : Bytes) : Prop :=
  b = [] ∨ ∃ c m, 0 < m ∧ m < (String.utf8EncodeChar c).length ∧
    b = (String.utf8EncodeChar c).take m

theorem take_encode (cs : List Char) (n : ℕ) :
    ∃ pre part, pre <+: cs ∧ (encode cs).take n = encode pre ++ part ∧ Partial part := by
  induction cs generalizing n with
  | nil => exact ⟨[], [], List.nil_prefix, by simp, .inl rfl⟩
  | cons c cs ih =>
    by_cases inside : n < (String.utf8EncodeChar c).length
    · refine ⟨[], (String.utf8EncodeChar c).take n, List.nil_prefix, ?_, ?_⟩
      · rw [encode_cons, List.take_append_of_le_length (Nat.le_of_lt inside), encode_nil,
          List.nil_append]
      · obtain rfl | positive := Nat.eq_zero_or_pos n
        · exact .inl (List.take_zero)
        · exact .inr ⟨c, n, positive, inside, rfl⟩
    · obtain ⟨pre, part, ⟨rest, rfl⟩, slice, cut⟩ := ih (n - (String.utf8EncodeChar c).length)
      refine ⟨c :: pre, part, ⟨rest, rfl⟩, ?_, cut⟩
      rw [encode_cons, List.take_append, List.take_of_length_le (Nat.not_lt.mp inside), slice,
        encode_cons, List.append_assoc]

theorem Partial.length_le {b : Bytes} (h : Partial b) : b.length ≤ 3 := by
  obtain rfl | ⟨c, m, -, short, rfl⟩ := h
  · simp
  · obtain ⟨lead, rest, shape, -, -, -, few⟩ := rune_shape c
    rw [shape, List.length_cons] at short
    rw [List.length_take]
    omega

end Hookubit.Data.Utf8Cut
