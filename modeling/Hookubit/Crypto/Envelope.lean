/- sources: common/crypto.service.ts, worker/crypto.go
   digest: The parts of an encrypted envelope, the row it is bound to, and what seals it. -/

import Hookubit.Crypto.HeldKeys
import Hookubit.Data.IdealAead

set_option autoImplicit false
set_option relaxedAutoImplicit false

namespace Hookubit.Crypto.Envelope

open Crypto.HeldKeys Data.IdealAead Data.Utf8

def ivBytes : ℕ := 12

def tagBytes : ℕ := 16

def envelopeVersion : Bytes := encode "v1".toList

abbrev Iv := { b : Bytes // b.length = ivBytes }

abbrev Gcm := Aead Key tagBytes

/-- What a ciphertext is bound to: the table, the row and the entity the row hangs off. -/
structure EncryptionContext (α : Type) where
  table : List α
  id : List α
  owner : List α
  deriving DecidableEq

namespace EncryptionContext

variable {α : Type}

def Complete (c : EncryptionContext α) : Prop := c.table ≠ [] ∧ c.id ≠ [] ∧ c.owner ≠ []

instance [DecidableEq α] (c : EncryptionContext α) : Decidable c.Complete :=
  inferInstanceAs (Decidable (_ ∧ _))

def joined (colon : α) (c : EncryptionContext α) : List α :=
  [colon].intercalate [c.table, c.id, c.owner]

def Plain (colon : α) (c : EncryptionContext α) : Prop :=
  ∀ part ∈ [c.table, c.id, c.owner], colon ∉ part

theorem joined_eq (colon : α) (c : EncryptionContext α) :
    c.joined colon = c.table ++ colon :: (c.id ++ colon :: c.owner) := by
  simp [joined, List.intercalate_cons_cons]

variable [DecidableEq α] {colon : α} {c d : EncryptionContext α}

theorem count_joined (c : EncryptionContext α) : (c.joined colon).count colon =
    c.table.count colon + c.id.count colon + c.owner.count colon + 2 := by
  rw [joined_eq]
  simp only [List.count_append, List.count_cons_self]
  omega

theorem eq_of_joined_eq (plain : d.Plain colon) (same : c.joined colon = d.joined colon) :
    c = d := by
  have table : d.table.count colon = 0 := List.count_eq_zero.mpr (plain _ (by simp))
  have id : d.id.count colon = 0 := List.count_eq_zero.mpr (plain _ (by simp))
  have owner : d.owner.count colon = 0 := List.count_eq_zero.mpr (plain _ (by simp))
  have counts := congrArg (List.count colon) same
  rw [count_joined, count_joined, table, id, owner] at counts
  have plain' : ∀ part ∈ [c.table, c.id, c.owner], colon ∉ part := by
    simp only [List.forall_mem_cons, List.not_mem_nil, false_implies, implies_true, and_true,
      ← List.count_eq_zero]
    omega
  have parts := congrArg (List.splitOn colon) same
  rw [joined, joined, List.splitOn_intercalate colon plain' (by simp),
    List.splitOn_intercalate colon plain (by simp)] at parts
  cases c
  cases d
  simpa using parts

end EncryptionContext

end Hookubit.Crypto.Envelope
