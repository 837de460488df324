/- sources: common/crypto.service.ts, worker/crypto.go
   digest: A keyring as both services hold it once they have read their settings. -/

import Hookubit.Data.Base64
import Mathlib.Data.List.Nodup

/-!
The two services store a text differently, so a keyring is over any kind of code.
-/

set_option autoImplicit false
set_option relaxedAutoImplicit false

namespace Hookubit.Crypto.HeldKeys

open Data.Base64
open Data.Utf8 (Bytes)

def keyBytes : ℕ := 32

abbrev Key := { b : Bytes // b.length = keyBytes }

def isKidCode (c : ℕ) : Bool :=
  (65 ≤ c && c ≤ 90) || (97 ≤ c && c ≤ 122) || (48 ≤ c && c ≤ 57) || c == 95 || c == 45

/-- `^[A-Za-z0-9_-]{1,16}$`, on the codes of a text. -/
def isKid (codes : List ℕ) : Bool := 1 ≤ codes.length && codes.length ≤ 16 && codes.all isKidCode

theorem isKid_iff {codes : List ℕ} : isKid codes = true ↔
    codes ≠ [] ∧ codes.length ≤ 16 ∧ ∀ n ∈ codes, isKidCode n = true := by
  rw [isKid, Bool.and_eq_true, Bool.and_eq_true, decide_eq_true_eq, decide_eq_true_eq,
    List.all_eq_true, ← List.length_pos_iff, and_assoc]
  rfl

/-- Every key accepted for decryption, by key id, and the id of the one that encrypts. -/
structure Keyring {α : Type} (code : α → ℕ) where
  primaryKid : List α
  byKid : List (List α × Key)
  named : ∀ e ∈ byKid, isKid (e.1.map code) = true
  distinct : (byKid.map Prod.fst).Nodup
  held : primaryKid ∈ byKid.map Prod.fst

namespace Keyring

variable {α : Type} {code : α → ℕ}

def kids (ring : Keyring code) : List (List α) := ring.byKid.map Prod.fst

def lookup [DecidableEq α] (ring : Keyring code) (kid : List α) : Option Key :=
  ring.byKid.lookup kid

theorem lookup_isSome [DecidableEq α] {ring : Keyring code} {kid : List α}
    (held : kid ∈ ring.kids) :
    (ring.lookup kid).isSome = true := by
  obtain ⟨e, listed, rfl⟩ := List.mem_map.mp held
  rw [lookup, List.lookup_isSome_iff]
  exact ⟨e, listed, beq_self_eq_true e.1⟩

def primary [DecidableEq α] (ring : Keyring code) : Key :=
  (ring.lookup ring.primaryKid).get (lookup_isSome ring.held)

theorem named_single {kid : List α} (key : Key) (named : isKid (kid.map code) = true) :
    ∀ e ∈ [(kid, key)], isKid (e.1.map code) = true := by
  simpa using named

def single (kid : List α) (key : Key) (named : isKid (kid.map code) = true) : Keyring code where
  primaryKid := kid
  byKid := [(kid, key)]
  named := named_single key named
  distinct := List.nodup_singleton kid
  held := List.mem_singleton_self kid

end Keyring

end Hookubit.Crypto.HeldKeys
