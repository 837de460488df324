/- digest: Ideal authenticated encryption: what was sealed opens, and nothing else does. -/

import Hookubit.Data.Utf8

set_option autoImplicit false
set_option relaxedAutoImplicit false

namespace Hookubit.Data.IdealAead

open Data.Utf8 (Bytes)

/-- Sealing with a key, a nonce and associated data gives a ciphertext as long as the plaintext and a
tag. -/
structure Aead (Key : Type) (tagBytes : ℕ) where
  encipher : Key → Bytes → Bytes → Bytes → Bytes × Bytes
  length_ciphertext : ∀ key nonce aad plaintext,
    (encipher key nonce aad plaintext).1.length = plaintext.length
  length_tag : ∀ key nonce aad plaintext, (encipher key nonce aad plaintext).2.length = tagBytes
  faithful : ∀ key nonce aad, Function.Injective (encipher key nonce aad)

structure Sealing (Key : Type) where
  key : Key
  nonce : Bytes
  aad : Bytes
  plaintext : Bytes

variable {Key : Type} {tagBytes : ℕ} (A : Aead Key tagBytes)

def Aead.output (s : Sealing Key) : Bytes × Bytes := A.encipher s.key s.nonce s.aad s.plaintext

/-- The sealing was made with this key, nonce and data, and gave this ciphertext and tag. -/
def Aead.Made (key : Key) (nonce aad : Bytes) (out : Bytes × Bytes) (s : Sealing Key) : Prop :=
  s.key = key ∧ s.nonce = nonce ∧ s.aad = aad ∧ A.output s = out

variable [DecidableEq Key]

instance (key : Key) (nonce aad : Bytes) (out : Bytes × Bytes) (s : Sealing Key) :
    Decidable (A.Made key nonce aad out s) :=
  inferInstanceAs (Decidable (_ ∧ _))

/-- Opening succeeds for what a sealing made. -/
def Aead.opened (log : List (Sealing Key)) (key : Key) (nonce aad : Bytes) (out : Bytes × Bytes) :
    Option Bytes :=
  (log.find? fun s => A.Made key nonce aad out s).map Sealing.plaintext

variable {A} {log : List (Sealing Key)} {key : Key} {nonce aad plaintext : Bytes}
  {out : Bytes × Bytes}

theorem exists_of_opened (h : A.opened log key nonce aad out = some plaintext) :
    ∃ s ∈ log, A.Made key nonce aad out s ∧ s.plaintext = plaintext := by
  obtain ⟨s, found, text⟩ := Option.map_eq_some_iff.mp h
  have good := List.find?_some found
  simp only [decide_eq_true_eq] at good
  exact ⟨s, List.mem_of_find?_eq_some found, good, text⟩

theorem opened_output {s : Sealing Key} (h : s ∈ log) :
    A.opened log s.key s.nonce s.aad (A.output s) = some s.plaintext := by
  have own : A.Made s.key s.nonce s.aad (A.output s) s := ⟨rfl, rfl, rfl, rfl⟩
  cases answer : A.opened log s.key s.nonce s.aad (A.output s) with
  | none =>
    have nothing := List.find?_eq_none.mp (Option.map_eq_none_iff.mp answer) s h
    exact absurd (decide_eq_true own) nothing
  | some plaintext =>
    obtain ⟨s', -, ⟨keys, nonces, data, same⟩, rfl⟩ := exists_of_opened answer
    rw [Aead.output, Aead.output, keys, nonces, data] at same
    rw [A.faithful _ _ _ same]

end Hookubit.Data.IdealAead
