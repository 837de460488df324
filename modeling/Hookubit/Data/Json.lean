/- digest: The text that encoding/json writes for a map of strings. -/

import Hookubit.Data.Utf8
import Mathlib.Data.List.GetD

set_option autoImplicit false
set_option relaxedAutoImplicit false

namespace Hookubit.Data.Json

open Data.Utf8

def hex : List Char :=
  ['0', '1', '2', '3', '4', '5', '6', '7', '8', '9', 'a', 'b', 'c', 'd', 'e', 'f']

def hexDigit (n : ℕ) : Char := hex.getD n '0'

/-- A rune as `json.Marshal` writes it with HTML escaping on, which is its default. -/
def escapeRune (c : Char) : List Char :=
  if c = '"' ∨ c = '\\' then ['\\', c]
  else if c.toNat = 8 then ['\\', 'b']
  else if c.toNat = 12 then ['\\', 'f']
  else if c = '\n' then ['\\', 'n']
  else if c = '\r' then ['\\', 'r']
  else if c = '\t' then ['\\', 't']
  else if c.toNat < 32 ∨ c = '<' ∨ c = '>' ∨ c = '&' then
    ['\\', 'u', '0', '0', hexDigit (c.toNat / 16), hexDigit (c.toNat % 16)]
  else if c.toNat = 0x2028 ∨ c.toNat = 0x2029 then
    ['\\', 'u', '2', '0', '2', hexDigit (c.toNat % 16)]
  else [c]

/-- A stray byte is written as the replacement character's escape. -/
def escapePiece : Piece → List Char :=
  Sum.elim escapeRune fun _ => ['\\', 'u', 'f', 'f', 'f', 'd']

def quote (b : Bytes) : List Char := ['"'] ++ (scan b).flatMap escapePiece ++ ['"']

def member (e : Bytes × Bytes) : List Char := quote e.1 ++ [':'] ++ quote e.2

/-- An object of strings, its keys in byte order. -/
def object (m : List (Bytes × Bytes)) : List Char :=
  let sorted := m.mergeSort fun a b => decide (a.1 ≤ b.1)
  ['\x7b'] ++ [','].intercalate (sorted.map member) ++ ['\x7d']

def marshal (m : List (Bytes × Bytes)) : Bytes := encode (object m)

theorem hexDigit_ne_zero (n : ℕ) : Char.ofNat 0 ≠ hexDigit n := by
  have digits : ∀ c ∈ '0' :: hex, Char.ofNat 0 ≠ c := by simp [hex]
  apply digits
  obtain inside | outside := Nat.lt_or_ge n hex.length
  · rw [hexDigit, List.getD_eq_getElem _ _ inside]
    exact List.mem_cons_of_mem _ (List.getElem_mem inside)
  · rw [hexDigit, List.getD_eq_default _ _ outside]
    exact List.mem_cons_self

theorem zero_not_mem_escapeRune (c : Char) : Char.ofNat 0 ∉ escapeRune c := by
  have digit := hexDigit_ne_zero
  by_cases zero : c = Char.ofNat 0
  · subst zero
    decide
  · have other : Char.ofNat 0 ≠ c := Ne.symm zero
    unfold escapeRune
    repeat' split
    all_goals simp [digit, other]

theorem zero_not_mem_quote (b : Bytes) : Char.ofNat 0 ∉ quote b := by
  have body : Char.ofNat 0 ∉ (scan b).flatMap escapePiece := by
    intro h
    obtain ⟨p, _, hp⟩ := List.mem_flatMap.mp h
    cases p with
    | inl c => exact zero_not_mem_escapeRune c hp
    | inr x => simp [escapePiece] at hp
  simp [quote, body]

theorem zero_not_mem_object (m : List (Bytes × Bytes)) : Char.ofNat 0 ∉ object m := by
  have body (l : List (Bytes × Bytes)) : Char.ofNat 0 ∉ [','].intercalate (l.map member) := by
    intro h
    obtain comma | ⟨part, hpart, hz⟩ := mem_of_mem_intercalate h
    · exact absurd comma (by decide)
    · obtain ⟨e, _, rfl⟩ := List.mem_map.mp hpart
      simp [member, zero_not_mem_quote] at hz
  simp [object, body]

theorem valid_marshal (m : List (Bytes × Bytes)) : Valid (marshal m) := valid_encode (object m)

theorem zero_not_mem_marshal (m : List (Bytes × Bytes)) : (0 : UInt8) ∉ marshal m :=
  fun h => zero_not_mem_object m (zero_mem_encode h)

end Hookubit.Data.Json
