/- digest: Lenient UTF-8 decoding, with one replacement character for each ill-formed part. -/

import Hookubit.Data.Utf8

set_option autoImplicit false
set_option relaxedAutoImplicit false

namespace Hookubit.Data.Utf8Decode

open Data.Utf8

def isContinuation (x : UInt8) : Bool := 0x80 ≤ x && x ≤ 0xBF

/-- Whether the byte can be the second one after this first one, for runes of three or four bytes. -/
def isSecond (first x : UInt8) : Bool :=
  if first == 0xE0 then 0xA0 ≤ x && x ≤ 0xBF
  else if first == 0xED then 0x80 ≤ x && x ≤ 0x9F
  else if first == 0xF0 then 0x90 ≤ x && x ≤ 0xBF
  else if first == 0xF4 then 0x80 ≤ x && x ≤ 0x8F
  else 0xE1 ≤ first && first ≤ 0xF3 && isContinuation x

/-- How many bytes after a byte that starts no rune are the rest of one cut short. -/
def cutShort (first : UInt8) : Bytes → ℕ
  | x :: y :: _ =>
      if isSecond first x then if 0xF0 ≤ first && isContinuation y then 2 else 1 else 0
  | [x] => if isSecond first x then 1 else 0
  | [] => 0

/-- Reading with a bound on the number of characters; the length of the string is always enough. -/
def decodeUpTo : ℕ → Bytes → List Char
  | 0, _ => []
  | _ + 1, [] => []
  | n + 1, x :: xs =>
      match decodeRune (x :: xs) with
      | some c => c :: decodeUpTo n ((x :: xs).drop c.utf8Size)
      | none => Char.ofNat 0xFFFD :: decodeUpTo n (xs.drop (cutShort x xs))

/-- The decoder of the WHATWG encoding standard. -/
def decode (b : Bytes) : List Char := decodeUpTo b.length b

theorem decodeUpTo_rune (n : ℕ) (c : Char) (rest : Bytes) :
    decodeUpTo (n + 1) (String.utf8EncodeChar c ++ rest) = c :: decodeUpTo n rest := by
  obtain ⟨x, xs, split, head, tail⟩ := exists_cons_of_rune c rest
  simp only [split, decodeUpTo, head, tail]

theorem decodeUpTo_encode (t : List Char) : ∀ n, t.length ≤ n → decodeUpTo n (encode t) = t := by
  induction t with
  | nil =>
    intro n _
    cases n <;> rfl
  | cons c t ih =>
    intro n enough
    obtain ⟨n, rfl⟩ : ∃ m, n = m + 1 := ⟨n - 1, by rw [List.length_cons] at enough; omega⟩
    rw [encode_cons, decodeUpTo_rune, ih n (by simpa using enough)]

@[simp] theorem decode_encode (t : List Char) : decode (encode t) = t :=
  decodeUpTo_encode t _ (length_le_length_encode t)

end Hookubit.Data.Utf8Decode
