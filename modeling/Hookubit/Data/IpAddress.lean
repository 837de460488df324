/- digest: IP addresses as bytes, blocks of them, and the predicates of Go's net package. -/

import Mathlib.Data.Fin.VecNotation
import Mathlib.Data.Fintype.Pi
import Mathlib.Tactic.FinCases
import Hookubit.Data.Int64

/-!
An address has four or sixteen bytes. The first form is contained in the second as the block
`::ffff:0:0/96`, and most of Go's predicates look through it with `To4`. They are written here as
the byte tests that their documentation amounts to.
-/

set_option autoImplicit false
set_option relaxedAutoImplicit false

namespace Hookubit.Data.IpAddress

open Data.Int64 (formatNat)
open Data.Utf8 (Bytes)

abbrev V4 := Fin 4 → UInt8

abbrev V6 := Fin 16 → UInt8

instance lengthV4 : NeZero 4 := ⟨by decide⟩

instance lengthV6 : NeZero 16 := ⟨by decide⟩

inductive IP
  | v4 (bytes : V4)
  | v6 (bytes : V6)
  deriving DecidableEq

def mapped (q : V4) : V6 := ![0, 0, 0, 0, 0, 0, 0, 0, 0, 0, 255, 255, q 0, q 1, q 2, q 3]

def low (b : V6) : V4 := ![b 12, b 13, b 14, b 15]

def isMapped (b : V6) : Bool := decide (mapped (low b) = b)

namespace IP

def To4 : IP → Option V4
  | v4 q => some q
  | v6 b => if isMapped b then some (low b) else none

def To16 : IP → V6
  | v4 q => mapped q
  | v6 b => b

def IPv4 (q : V4) : IP := v6 (mapped q)

/-- An IPv4 address and its long form are equal. -/
def Equal (a b : IP) : Bool := decide (a.To16 = b.To16)

/-- A test of the short form if there is one, else of the long one. -/
def test (p4 : V4 → Bool) (p6 : V6 → Bool) (ip : IP) : Bool :=
  match ip.To4 with
  | some q => p4 q
  | none => p6 ip.To16

def IsUnspecified : IP → Bool :=
  test (fun q => decide (q = ![0, 0, 0, 0])) fun b => decide (b = fun _ => 0)

def IsLoopback : IP → Bool :=
  test (fun q => q 0 == 127)
    fun b => decide (b = ![0, 0, 0, 0, 0, 0, 0, 0, 0, 0, 0, 0, 0, 0, 0, 1])

def IsPrivate : IP → Bool :=
  test (fun q => q 0 == 10 || (q 0 == 172 && q 1 &&& 0xf0 == 16) || (q 0 == 192 && q 1 == 168))
    fun b => b 0 &&& 0xfe == 0xfc

def IsMulticast : IP → Bool := test (fun q => q 0 &&& 0xf0 == 0xe0) fun b => b 0 == 0xff

/-- Only the long form is looked at, and no mapped address starts with `ff`. -/
def IsInterfaceLocalMulticast : IP → Bool
  | v4 _ => false
  | v6 b => b 0 == 0xff && b 1 &&& 0x0f == 0x01

def IsLinkLocalMulticast : IP → Bool :=
  test (fun q => q 0 == 224 && q 1 == 0 && q 2 == 0) fun b => b 0 == 0xff && b 1 &&& 0x0f == 0x02

def IsLinkLocalUnicast : IP → Bool :=
  test (fun q => q 0 == 169 && q 1 == 254) fun b => b 0 == 0xfe && b 1 &&& 0xc0 == 0x80

end IP

theorem low_mapped (q : V4) : low (mapped q) = q := by
  funext i
  fin_cases i <;> rfl

theorem isMapped_mapped (q : V4) : isMapped (mapped q) = true :=
  decide_eq_true (by rw [low_mapped])

theorem mapped_low {b : V6} (h : isMapped b = true) : mapped (low b) = b := of_decide_eq_true h

def mappedHead : Fin 12 → UInt8 := ![0, 0, 0, 0, 0, 0, 0, 0, 0, 0, 255, 255]

theorem mapped_castAdd (q : V4) (i : Fin 12) : mapped q (i.castAdd 4) = mappedHead i := by
  fin_cases i <;> rfl

theorem mapped_natAdd (q : V4) (j : Fin 4) : mapped q (j.natAdd 12) = q j := by
  fin_cases j <;> rfl

theorem isMapped_iff {b : V6} :
    isMapped b = true ↔ ∀ i : Fin 12, b (i.castAdd 4) = mappedHead i := by
  have late (j : Fin 4) : low b j = b (j.natAdd 12) := by
    fin_cases j <;> rfl
  constructor
  · intro h i
    rw [← mapped_low h, mapped_castAdd]
  · intro h
    refine decide_eq_true (funext fun i => ?_)
    refine Fin.addCases (m := 12) (n := 4) (fun i => ?_) (fun j => ?_) i
    · rw [h i, mapped_castAdd]
    · rw [mapped_natAdd, late]

@[simp]
theorem IP.To4_IPv4 (q : V4) : (IP.IPv4 q).To4 = some q := by
  rw [IP.IPv4, IP.To4, if_pos (isMapped_mapped q), low_mapped]

theorem IP.To16_of_To4 {ip : IP} {q : V4} (h : ip.To4 = some q) : ip.To16 = mapped q := by
  cases ip with
  | v4 q' =>
    cases h
    rfl
  | v6 b =>
    rw [IP.To4] at h
    split at h
    · cases h
      exact (mapped_low ‹_›).symm
    · cases h

theorem IP.To4_eq (ip : IP) :
    ip.To4 = if isMapped ip.To16 then some (low ip.To16) else none := by
  cases ip with
  | v4 q => rw [IP.To16, if_pos (isMapped_mapped q), low_mapped, IP.To4]
  | v6 b => rfl

theorem IP.eq_v6_of_To4 {ip : IP} (h : ip.To4 = none) : ∃ b, ip = .v6 b ∧ isMapped b = false := by
  cases ip with
  | v4 q => cases h
  | v6 b =>
    rw [IP.To4] at h
    split at h
    · cases h
    · exact ⟨b, rfl, Bool.eq_false_iff.mpr ‹_›⟩

/-- Byte `i` of a mask that starts with this many ones. -/
def maskByte (ones i : ℕ) : UInt8 := UInt8.ofNat (256 - 2 ^ (8 - min 8 (ones - 8 * i)))

def mask {n : ℕ} (ones : ℕ) : Fin n → UInt8 := fun i => maskByte ones i

/-- The addresses agree where the mask has ones. -/
def agree {n : ℕ} (m a b : Fin n → UInt8) : Bool := decide (∀ i, a i &&& m i = b i &&& m i)

structure IPNet where
  number : IP
  mask : IP

/-- The network number and the mask in the same number of bytes, if they fit. -/
def IPNet.networkNumberAndMask (n : IPNet) : Option ((V4 × V4) ⊕ (V6 × V6)) :=
  match n.number.To4, n.mask with
  | some q, .v4 m => some (.inl (q, m))
  | some q, .v6 m => some (.inl (q, low m))
  | none, .v6 m => some (.inr (n.number.To16, m))
  | none, .v4 _ => none

def IPNet.Contains (n : IPNet) (ip : IP) : Bool :=
  match n.networkNumberAndMask, ip.To4 with
  | some (.inl (q, m)), some x => agree m q x
  | some (.inr (b, m)), none => agree m b ip.To16
  | _, _ => false

/-- The block of all addresses whose first bits are those of `base`, as `net.ParseCIDR` makes it. -/
def cidr (base : IP) (ones : ℕ) : IPNet :=
  match base with
  | .v4 q => ⟨.v4 fun i => q i &&& mask ones i, .v4 (mask ones)⟩
  | .v6 b => ⟨.v6 fun i => b i &&& mask ones i, .v6 (mask ones)⟩

theorem and_and_self (x m : UInt8) : x &&& m &&& m = x &&& m := by
  rw [UInt8.and_assoc, UInt8.and_self]

theorem contains_cidr_v4 {q : V4} {ones : ℕ} {ip : IP} :
    (cidr (.v4 q) ones).Contains ip = true ↔
      ∃ x, ip.To4 = some x ∧ ∀ i, q i &&& mask ones i = x i &&& mask ones i := by
  have number : (cidr (.v4 q) ones).networkNumberAndMask =
      some (.inl (fun i => q i &&& mask ones i, mask ones)) := rfl
  rw [IPNet.Contains, number]
  cases short : ip.To4 with
  | none => simp
  | some x => simp [agree, and_and_self]

theorem contains_cidr_v6 {b : V6} {ones : ℕ} {ip : IP}
    (long : isMapped (fun i => b i &&& mask ones i) = false) :
    (cidr (.v6 b) ones).Contains ip = true ↔
      ip.To4 = none ∧ ∀ i, b i &&& mask ones i = ip.To16 i &&& mask ones i := by
  have number : (cidr (.v6 b) ones).networkNumberAndMask =
      some (.inr (fun i => b i &&& mask ones i, mask ones)) := by
    simp [cidr, IPNet.networkNumberAndMask, IP.To4, IP.To16, long]
  rw [IPNet.Contains, number]
  cases short : ip.To4 with
  | none => simp [agree, and_and_self]
  | some x => simp

theorem and_full (x : UInt8) : x &&& 255 = x := UInt8.and_neg_one

theorem maskByte_full {ones i : ℕ} (covered : 8 * i + 8 ≤ ones) : maskByte ones i = 255 := by
  have eight : min 8 (ones - 8 * i) = 8 := by omega
  rw [maskByte, eight]
  rfl

theorem byte_eq_of_agree {n ones : ℕ} {a b : Fin n → UInt8}
    (h : ∀ i, a i &&& mask ones i = b i &&& mask ones i) (i : Fin n)
    (covered : 8 * i.val + 8 ≤ ones) : b i = a i := by
  have here := h i
  rwa [mask, maskByte_full covered, and_full, and_full, eq_comm] at here

theorem covered_of_and {x : UInt8} {ones i : ℕ} (h : x &&& maskByte ones i = 255) :
    8 * i + 8 ≤ ones := by
  by_contra short
  have even : maskByte ones i &&& 1 = 0 := by
    have few : min 8 (ones - 8 * i) ≤ 7 := by omega
    rw [maskByte]
    generalize min 8 (ones - 8 * i) = n at few
    revert n
    decide
  have odd : x &&& maskByte ones i &&& 1 = 1 := by rw [h]; rfl
  rw [UInt8.and_assoc, even, UInt8.and_zero] at odd
  exact absurd odd (by decide)

theorem isMapped_of_masked {b : V6} {ones : ℕ}
    (h : isMapped (fun i => b i &&& mask ones i) = true) : 96 ≤ ones ∧ isMapped b = true := by
  have first := isMapped_iff.mp h
  have long : 96 ≤ ones := covered_of_and (i := 11) (first 11)
  refine ⟨long, isMapped_iff.mpr fun i => ?_⟩
  have covered : 8 * (i.castAdd 4 : Fin 16).val + 8 ≤ ones := by
    have early := i.isLt
    rw [Fin.val_castAdd]
    omega
  have here := first i
  rwa [mask, maskByte_full covered, and_full] at here

def colon : UInt8 := 58

def dot : UInt8 := 46

def formatHex (n : ℕ) : Bytes := (Nat.toDigits 16 n).map fun c => UInt8.ofNat c.toNat

def formatV4 (q : V4) : Bytes :=
  [dot].intercalate ((List.ofFn q).map fun x => formatNat x.toNat)

def groups (b : V6) : List ℕ :=
  [(b 0, b 1), (b 2, b 3), (b 4, b 5), (b 6, b 7), (b 8, b 9), (b 10, b 11), (b 12, b 13),
    (b 14, b 15)].map fun p => 256 * p.1.toNat + p.2.toNat

def zeroRun (l : List ℕ) : ℕ := (l.takeWhile (· == 0)).length

/-- Where the first of the longest runs of zeros starts, and its length. -/
def longestZeroRun (l : List ℕ) : ℕ × ℕ :=
  (List.range l.length).foldl (fun best i =>
    if best.2 < zeroRun (l.drop i) then (i, zeroRun (l.drop i)) else best) (0, 0)

def joinGroups (l : List ℕ) : Bytes := [colon].intercalate (l.map formatHex)

/-- The longest run of two or more zero groups is left out. -/
def formatV6 (b : V6) : Bytes :=
  let (start, run) := longestZeroRun (groups b)
  if run < 2 then joinGroups (groups b)
  else joinGroups ((groups b).take start) ++ [colon, colon] ++
    joinGroups ((groups b).drop (start + run))

def IP.String (ip : IP) : Bytes :=
  match ip.To4 with
  | some q => formatV4 q
  | none => formatV6 ip.To16

end Hookubit.Data.IpAddress
