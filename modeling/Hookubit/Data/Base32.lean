/- digest: What a ULID library promises, and Crockford's base 32, which keeps it. -/

import Mathlib.Algebra.Ring.Nat
import Mathlib.Data.List.Induction

/-!
A ULID is 128 bits, a number here. It is written in upper case; a strict reader takes either letter
case, and refuses what no number that fits is written as.
-/

set_option autoImplicit false
set_option relaxedAutoImplicit false

namespace Hookubit.Data.Base32

class Ulid where
  text : ℕ → List Char
  parseStrict : List Char → Option ℕ
  parseStrict_text : ∀ {v}, v < 2 ^ 128 → parseStrict (text v) = some v
  text_upper : ∀ {v}, ∀ c ∈ text v, c.isLower = false
  /-- Only letter case tells an accepted text from a written one. -/
  eq_text_of_parseStrict : ∀ {raw v}, (∀ c ∈ raw, c.isLower = false) →
    parseStrict raw = some v → v < 2 ^ 128 ∧ raw = text v
  slash_notMem : ∀ {raw v}, parseStrict raw = some v → '/' ∉ raw

/-- The value of one digit in Crockford's base 32. -/
def digit (c : Char) : Option ℕ :=
  "0123456789ABCDEFGHJKMNPQRSTVWXYZ".toList.findIdx? (· = c.toUpper)

def digitChar (d : ℕ) : Char := "0123456789ABCDEFGHJKMNPQRSTVWXYZ".toList.getD d '0'

/-- The last `n` base 32 digits of `v`, most significant first. -/
def encode : ℕ → ℕ → List Char
  | 0, _ => []
  | n + 1, v => encode n (v / 32) ++ [digitChar (v % 32)]

def decode (raw : List Char) : Option ℕ :=
  if raw.length ≠ 26 then none
  else
    (raw.foldlM (fun n c => (digit c).map (32 * n + ·)) 0).bind fun v =>
      if v < 2 ^ 128 then some v else none

theorem digit_digitChar : ∀ d < 32, digit (digitChar d) = some d := by
  decide

theorem not_isLower_digitChar : ∀ d < 32, (digitChar d).isLower = false := by
  decide

theorem length_encode (n v : ℕ) : (encode n v).length = n := by
  induction n generalizing v with
  | zero => rfl
  | succ n ih => simp [encode, ih]

variable {v : ℕ} {c : Char}

theorem not_isLower_of_mem_encode {n : ℕ} (hc : c ∈ encode n v) : c.isLower = false := by
  induction n generalizing v with
  | zero => cases hc
  | succ n ih =>
    rw [encode, List.mem_append, List.mem_singleton] at hc
    obtain earlier | rfl := hc
    · exact ih earlier
    · exact not_isLower_digitChar _ (Nat.mod_lt v (by decide))

theorem foldlM_encode (n v : ℕ) :
    (encode n v).foldlM (fun m c => (digit c).map (32 * m + ·)) 0 = some (v % 32 ^ n) := by
  induction n generalizing v with
  | zero => simp [encode, Nat.mod_one]
  | succ n ih =>
    have low := digit_digitChar (v % 32) (Nat.mod_lt v (by decide))
    rw [encode, List.foldlM_append, ih]
    simp only [Option.bind_eq_bind, Option.bind_some, List.foldlM_cons, low, Option.map_some,
      List.foldlM_nil, Option.pure_def, Option.some.injEq]
    rw [Nat.pow_succ', Nat.mod_mul, Nat.add_comm]

theorem decode_encode (fits : v < 2 ^ 128) : decode (encode 26 v) = some v := by
  have whole : v % 32 ^ 26 = v := Nat.mod_eq_of_lt (by omega)
  rw [decode, if_neg (by simp [length_encode]), foldlM_encode, whole, Option.bind_some,
    if_pos fits]

theorem toUpper_eq_self (upper : c.isLower = false) : c.toUpper = c := by
  refine dif_neg fun letter => ?_
  have lower : c.isLower = true :=
    Bool.and_eq_true_iff.mpr ⟨decide_eq_true letter.1, decide_eq_true letter.2⟩
  exact Bool.false_ne_true (upper.symm.trans lower)

theorem digitChar_of_digit {d : ℕ} (upper : c.isLower = false) (read : digit c = some d) :
    d < 32 ∧ digitChar d = c := by
  obtain ⟨bound, found, -⟩ := List.findIdx?_eq_some_iff_getElem.mp read
  refine ⟨bound, ?_⟩
  rw [digitChar, ← List.getElem_eq_getD (h := bound), of_decide_eq_true found,
    toUpper_eq_self upper]

theorem eq_encode_of_foldlM {raw : List Char} (upper : ∀ c ∈ raw, c.isLower = false)
    (read : raw.foldlM (fun m c => (digit c).map (32 * m + ·)) 0 = some v) :
    raw = encode raw.length v := by
  induction raw using List.reverseRecOn generalizing v with
  | nil => rfl
  | append_singleton raw c ih =>
    rw [List.foldlM_append] at read
    obtain ⟨m, earlier, last⟩ := Option.bind_eq_some_iff.mp read
    obtain ⟨w, here, done⟩ := Option.bind_eq_some_iff.mp last
    obtain ⟨d, value, rfl⟩ := Option.map_eq_some_iff.mp here
    obtain rfl : 32 * m + d = v := Option.some.inj done
    obtain ⟨bound, written⟩ := digitChar_of_digit (upper c (by simp)) value
    rw [List.length_append, List.length_singleton, encode,
      show (32 * m + d) / 32 = m by omega, show (32 * m + d) % 32 = d by omega, written,
      ← ih (fun c hc => upper c (by simp [hc])) earlier]

theorem eq_encode_of_decode {raw : List Char} (upper : ∀ c ∈ raw, c.isLower = false)
    (read : decode raw = some v) : v < 2 ^ 128 ∧ raw = encode 26 v := by
  obtain ⟨sized, read⟩ := Option.ite_none_left_eq_some.mp read
  obtain ⟨w, digits, bounded⟩ := Option.bind_eq_some_iff.mp read
  obtain ⟨fits, rfl⟩ : w < 2 ^ 128 ∧ w = v := by simpa using bounded
  have length : raw.length = 26 := by simpa using sized
  exact ⟨fits, length ▸ eq_encode_of_foldlM upper digits⟩

private theorem digits_of_foldlM {raw : List Char} {n v : ℕ}
    (h : raw.foldlM (fun n c => (digit c).map (32 * n + ·)) n = some v) :
    ∀ c ∈ raw, digit c ≠ none := by
  induction raw generalizing n with
  | nil => simp
  | cons c raw ih =>
    rw [List.foldlM_cons] at h
    obtain ⟨m, here, rest⟩ := Option.bind_eq_some_iff.mp h
    obtain ⟨d, read, _⟩ := Option.map_eq_some_iff.mp here
    intro c' hc'
    obtain rfl | later := List.mem_cons.mp hc'
    · simp [read]
    · exact ih rest c' later

theorem slash_notMem_of_decode {raw : List Char} (read : decode raw = some v) : '/' ∉ raw := by
  obtain ⟨-, read⟩ := Option.ite_none_left_eq_some.mp read
  obtain ⟨_, read, -⟩ := Option.bind_eq_some_iff.mp read
  have no_digit : digit '/' = none := by decide
  exact fun here => digits_of_foldlM read '/' here no_digit

instance crockford : Ulid where
  text := encode 26
  parseStrict := decode
  parseStrict_text := decode_encode
  text_upper := fun _ => not_isLower_of_mem_encode
  eq_text_of_parseStrict := eq_encode_of_decode
  slash_notMem := slash_notMem_of_decode

end Hookubit.Data.Base32
