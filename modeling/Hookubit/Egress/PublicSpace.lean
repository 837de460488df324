/- sources: egress/ssrf.go (Guard, CheckIP, embeddedIPv4)
   digest: The default guard against the blocks of addresses that are not public. -/

import Hookubit.Egress.Destination

set_option autoImplicit false
set_option relaxedAutoImplicit false

namespace Hookubit.Egress.PublicSpace

open Data.IpAddress Egress.Destination

def thisNetwork : IPNet := cidr (.v4 ![0, 0, 0, 0]) 8

/-- The other blocks of IPv4 addresses that are not public. -/
def checked4 : List IPNet :=
  [cidr (.v4 ![10, 0, 0, 0]) 8,
    cidr (.v4 ![100, 64, 0, 0]) 10,
    cidr (.v4 ![127, 0, 0, 0]) 8,
    cidr (.v4 ![169, 254, 0, 0]) 16,
    cidr (.v4 ![172, 16, 0, 0]) 12,
    cidr (.v4 ![192, 0, 0, 0]) 24,
    cidr (.v4 ![192, 0, 2, 0]) 24,
    cidr (.v4 ![192, 168, 0, 0]) 16,
    cidr (.v4 ![198, 18, 0, 0]) 15,
    cidr (.v4 ![198, 51, 100, 0]) 24,
    cidr (.v4 ![203, 0, 113, 0]) 24,
    cidr (.v4 ![224, 0, 0, 0]) 4,
    cidr (.v4 ![240, 0, 0, 0]) 4]

def nonPublic4 : List IPNet := thisNetwork :: checked4

/-- A block of IPv6 addresses by its first four bytes; the others are zero. -/
def block6 (a b c d : UInt8) (ones : ℕ) : IPNet :=
  cidr (.v6 ![a, b, c, d, 0, 0, 0, 0, 0, 0, 0, 0, 0, 0, 0, 0]) ones

/-- `::/96`: unspecified, loopback and IPv4-compatible addresses. -/
def compatible : IPNet := block6 0 0 0 0 96

def siteLocal : IPNet := block6 0xfe 0xc0 0 0 10

def checked6 : List IPNet :=
  [block6 0x01 0 0 0 64,
    block6 0x20 0x01 0 0 23,
    block6 0x20 0x01 0x0d 0xb8 32,
    block6 0xfc 0 0 0 7,
    block6 0xfe 0x80 0 0 10,
    block6 0xff 0 0 0 8]

def nonPublic6 : List IPNet := compatible :: siteLocal :: checked6

/-- Neither the address nor the one that traffic to it reaches lies in a block that is not
public. -/
structure Public (ip : IP) : Prop where
  itself : ∀ n ∈ nonPublic4 ++ nonPublic6, n.Contains ip = false
  sixToFour : sixToFour.Contains ip = true →
    ∀ n ∈ nonPublic4, n.Contains (.v4 (sixToFourTarget ip)) = false
  nat64 : nat64.Contains ip = true → ∀ n ∈ nonPublic4, n.Contains (.v4 (nat64Target ip)) = false

/-- An address of `0.0.0.0/8` other than the unspecified one. -/
def Gap4 (ip : IP) : Prop := thisNetwork.Contains ip = true ∧ ip.IsUnspecified = false

/-- What the default guard lets through. -/
def Gap (ip : IP) : Prop :=
  Gap4 ip ∨ (compatible.Contains ip = true ∧ ip.IsUnspecified = false ∧ ip.IsLoopback = false) ∨
    siteLocal.Contains ip = true ∨
    (sixToFour.Contains ip = true ∧ Gap4 (.v4 (sixToFourTarget ip))) ∨
    (nat64.Contains ip = true ∧ Gap4 (.v4 (nat64Target ip)))

instance decidableGap (ip : IP) : Decidable (Gap ip) :=
  inferInstanceAs (Decidable ((_ ∧ _) ∨ (_ ∧ _ ∧ _) ∨ _ ∨ (_ ∧ _ ∧ _) ∨ (_ ∧ _ ∧ _)))

section Bytes

variable {ip : IP} {q : V4}

theorem and_192_eq (x : UInt8) : x &&& 192 = 64 ↔ 64 ≤ x ∧ x ≤ 127 := by
  revert x
  decide +kernel

theorem and_254_eq (x : UInt8) : x &&& 254 = 18 ↔ x = 18 ∨ x = 19 := by
  revert x
  decide +kernel

theorem and_254_eq_zero (x : UInt8) : x &&& 254 = 0 ↔ x ≤ 1 := by
  revert x
  decide +kernel

theorem and_240_eq (x : UInt8) : x &&& 240 = 240 ↔ 240 ≤ x := by
  revert x
  decide +kernel

theorem contains_v4_iff {base : V4} {ones : ℕ} (short : ip.To4 = some q)
    (clear : ∀ i, base i &&& mask ones i = base i) :
    (cidr (.v4 base) ones).Contains ip = true ↔ ∀ i, q i &&& mask ones i = base i := by
  rw [contains_cidr_v4, short]
  simp [clear, eq_comm]

theorem contains_v6_iff {base : V6} {ones : ℕ} (long : ip.To4 = none)
    (clear : ∀ i, base i &&& mask ones i = base i) (plain : isMapped base = false) :
    (cidr (.v6 base) ones).Contains ip = true ↔ ∀ i, ip.To16 i &&& mask ones i = base i := by
  rw [contains_cidr_v6 (by rwa [funext clear])]
  simp [clear, eq_comm, long]

theorem maskByte_eq_zero {ones i : ℕ} (h : ones ≤ 8 * i) : maskByte ones i = 0 := by
  rw [maskByte, Nat.sub_eq_zero_of_le h]
  rfl

theorem contains_block6_iff {a b c d : UInt8} {ones : ℕ} (long : ip.To4 = none) (few : ones ≤ 32)
    (clear : ∀ i : Fin 4, ![a, b, c, d] i &&& mask ones i = ![a, b, c, d] i) :
    (block6 a b c d ones).Contains ip = true ↔
      ip.To16 0 &&& maskByte ones 0 = a ∧ ip.To16 1 &&& maskByte ones 1 = b ∧
        ip.To16 2 &&& maskByte ones 2 = c ∧ ip.To16 3 &&& maskByte ones 3 = d := by
  have rest (x : UInt8) {i : ℕ} (h : 4 ≤ i) : x &&& maskByte ones i = 0 := by
    rw [maskByte_eq_zero (by omega), UInt8.and_zero]
  rw [block6, contains_v6_iff long]
  · refine ⟨fun h => ⟨h 0, h 1, h 2, h 3⟩, fun ⟨h0, h1, h2, h3⟩ i => ?_⟩
    fin_cases i <;> first | assumption | exact rest _ (by decide)
  · have first := clear 0
    have second := clear 1
    have third := clear 2
    have fourth := clear 3
    intro i
    fin_cases i <;> first | assumption | exact rest _ (by decide)
  · refine decide_eq_false fun h => ?_
    have eleventh : (255 : UInt8) = 0 := congrFun h 10
    exact absurd eleventh (by decide)

theorem contains_discard_iff (long : ip.To4 = none) :
    (block6 0x01 0 0 0 64).Contains ip = true ↔
      ip.To16 0 = 1 ∧ ip.To16 1 = 0 ∧ ip.To16 2 = 0 ∧ ip.To16 3 = 0 ∧ ip.To16 4 = 0 ∧
        ip.To16 5 = 0 ∧ ip.To16 6 = 0 ∧ ip.To16 7 = 0 := by
  rw [block6, contains_v6_iff long (by decide) (by decide)]
  simp [Fin.forall_fin_succ, mask, maskByte, and_full]

theorem ite_refuse_eq_none {c : Prop} [Decidable c] {target : Data.Utf8.Bytes} {reason : String}
    {code : Code} {rest : Option BlockedTargetError} :
    (if c then refuse target reason code else rest) = none ↔ ¬c ∧ rest = none := by
  split <;> simp [refuse, *]

theorem not_interfaceLocal (short : ip.To4 = some q) : ip.IsInterfaceLocalMulticast = false := by
  have long := IP.To16_of_To4 short
  cases ip with
  | v4 _ => rfl
  | v6 b =>
    have first : b 0 = 0 := congrFun long 0
    simp [IP.IsInterfaceLocalMulticast, first]

theorem checkPolicy_zero_short (short : ip.To4 = some q) :
    Guard.zero.checkPolicy ip = none ↔
      ip.IsUnspecified = false ∧ ∀ n ∈ checked4, n.Contains ip = false := by
  have groups := not_interfaceLocal short
  simp only [Guard.checkPolicy, Guard.zero, List.any_nil, Bool.false_eq_true, if_false,
    Option.or_eq_none_iff, checkSpecial, checkRanges, checkRanges4, short, groups,
    IP.IsUnspecified, IP.IsLoopback, IP.IsLinkLocalUnicast, IP.IsLinkLocalMulticast,
    IP.IsMulticast, IP.IsPrivate, IP.test, ite_refuse_eq_none]
  simp only [checked4, List.forall_mem_cons, ← Bool.not_eq_true]
  simp (disch := decide) only [contains_v4_iff short]
  have multicast : q 0 = 224 → q 0 &&& 240 = 224 := fun h => by rw [h]; rfl
  simp [Fin.forall_fin_succ, mask, maskByte, and_192_eq, and_254_eq, and_240_eq, and_full]
  constructor
  · rintro ⟨⟨specified, remote, ⟨link, -⟩, single, ⟨ten, twelve⟩, sixteen⟩, cgnat, assigned,
      ⟨doc1, doc2, doc3⟩, bench, unreserved⟩
    exact ⟨specified, ten, cgnat, remote, link, twelve, assigned, doc1, sixteen, bench, doc2, doc3,
      single, unreserved⟩
  · rintro ⟨specified, ten, cgnat, remote, link, twelve, assigned, doc1, sixteen, bench, doc2, doc3,
      single, unreserved⟩
    exact ⟨⟨specified, remote, ⟨link, fun h => absurd (multicast h) single⟩, single, ⟨ten, twelve⟩,
      sixteen⟩, cgnat, assigned, ⟨doc1, doc2, doc3⟩, bench, unreserved⟩

theorem checkPolicy_zero_long (long : ip.To4 = none) :
    Guard.zero.checkPolicy ip = none ↔ ip.IsUnspecified = false ∧ ip.IsLoopback = false ∧
      ∀ n ∈ checked6, n.Contains ip = false := by
  obtain ⟨b, rfl, plain⟩ := IP.eq_v6_of_To4 long
  simp only [Guard.checkPolicy, Guard.zero, List.any_nil, Bool.false_eq_true, if_false,
    Option.or_eq_none_iff, checkSpecial, checkRanges, checkRanges6, long,
    IP.IsUnspecified, IP.IsLoopback, IP.IsLinkLocalUnicast, IP.IsLinkLocalMulticast,
    IP.IsMulticast, IP.IsPrivate, IP.IsInterfaceLocalMulticast, IP.test, ite_refuse_eq_none]
  simp only [checked6, List.forall_mem_cons, ← Bool.not_eq_true, contains_discard_iff long]
  simp (disch := decide) only [contains_block6_iff long]
  simp [maskByte, and_254_eq_zero, and_full, IP.To16]
  tauto

end Bytes

section Default

variable {ip : IP} {q : V4}

theorem contains_of_short (n : IPNet) (short : ip.To4 = some q) :
    n.Contains ip = n.Contains (.v4 q) := by
  rw [IPNet.Contains, IPNet.Contains, short]
  rcases n.networkNumberAndMask with - | - | - <;> rfl

theorem checkPolicy_zero_IPv4 (q : V4) :
    Guard.zero.checkPolicy (.IPv4 q) = none ↔ Guard.zero.checkPolicy (.v4 q) = none := by
  rw [checkPolicy_zero_short (IP.To4_IPv4 q), checkPolicy_zero_short
    (show (IP.v4 q).To4 = some q from rfl)]
  simp only [contains_of_short _ (IP.To4_IPv4 q), IP.IsUnspecified, IP.test, IP.To4_IPv4]
  rfl

theorem not_isMetadata_of_policy (h : Guard.zero.checkPolicy ip = none) : ¬IsMetadata ip := by
  rintro ⟨m, known, same⟩
  have form : ip.To4 = m.To4 := by rw [IP.To4_eq, same, ← IP.To4_eq]
  have known_short (block : IPNet) (listed : block ∈ checked4) {q : V4} (short : m.To4 = some q) :
      block.Contains (.v4 q) = false := by
    rw [short] at form
    rw [← contains_of_short block form]
    exact ((checkPolicy_zero_short form).mp h).2 block listed
  simp only [metadataAddrs, List.mem_cons, List.not_mem_nil, or_false] at known
  obtain rfl | rfl | rfl := known
  · exact absurd (known_short (cidr (.v4 ![169, 254, 0, 0]) 16) (by simp [checked4])
      (IP.To4_IPv4 _)) (by decide)
  · have long : ip.To4 = none := form.trans (by decide)
    have clear := ((checkPolicy_zero_long long).mp h).2.2 (block6 0xfc 0 0 0 7) (by simp [checked6])
    rw [← Bool.not_eq_true, block6, contains_v6_iff long (by decide) (by decide), same] at clear
    exact clear (by decide)
  · exact absurd (known_short (cidr (.v4 ![100, 64, 0, 0]) 10) (by simp [checked4])
      (IP.To4_IPv4 _)) (by decide)

theorem CheckIP_zero_eq_none : Guard.zero.CheckIP (some ip) = none ↔
    (∀ q ∈ embeddedIPv4 ip, Guard.zero.checkPolicy (.v4 q) = none) ∧
      Guard.zero.checkPolicy ip = none := by
  simp only [CheckIP_eq_none, checkMetadata_eq_none, Guard.checkPlain, Option.or_eq_none_iff,
    ← checkPolicy_zero_IPv4]
  constructor
  · rintro ⟨-, embedded, itself⟩
    exact ⟨fun q target => (embedded q target).2, itself⟩
  · rintro ⟨embedded, itself⟩
    exact ⟨not_isMetadata_of_policy itself,
      fun q target => ⟨not_isMetadata_of_policy (embedded q target), embedded q target⟩, itself⟩

theorem checked4_of_thisNetwork (h : thisNetwork.Contains ip = true) :
    ∀ n ∈ checked4, n.Contains ip = false := by
  obtain ⟨q, short, same⟩ := contains_cidr_v4.mp h
  have first : q 0 = 0 := byte_eq_of_agree same 0 (by decide)
  simp only [checked4, List.forall_mem_cons, ← Bool.not_eq_true]
  simp (disch := decide) only [contains_v4_iff short]
  simp [Fin.forall_fin_succ, first]

theorem checkPolicy_zero_of_gap4 (h : Gap4 ip) : Guard.zero.checkPolicy ip = none := by
  obtain ⟨q, short, -⟩ := contains_cidr_v4.mp h.1
  exact (checkPolicy_zero_short short).mpr ⟨h.2, checked4_of_thisNetwork h.1⟩

theorem unspecified_of_byte (long : ip.To4 = none) (i : Fin 16) (h : ip.To16 i ≠ 0) :
    ip.IsUnspecified = false := by
  rw [IP.IsUnspecified, IP.test, long]
  exact decide_eq_false fun zero => h (congrFun zero i)

theorem loopback_of_byte (long : ip.To4 = none) (i : Fin 16) (early : i < 15) (h : ip.To16 i ≠ 0) :
    ip.IsLoopback = false := by
  rw [IP.IsLoopback, IP.test, long]
  refine decide_eq_false fun one => h ?_
  have zero : ∀ i : Fin 16, i < 15 →
      ![(0 : UInt8), 0, 0, 0, 0, 0, 0, 0, 0, 0, 0, 0, 0, 0, 0, 1] i = 0 := by decide
  rw [one, zero i early]

theorem checked6_of_bytes (long : ip.To4 = none)
    (h : ip.To16 0 = 0 ∨ (ip.To16 0 = 0x20 ∧ ip.To16 1 = 0x02) ∨
      (ip.To16 0 = 0xfe ∧ ip.To16 1 &&& 0xc0 = 0xc0)) :
    ∀ n ∈ checked6, n.Contains ip = false := by
  simp only [checked6, List.forall_mem_cons, ← Bool.not_eq_true, contains_discard_iff long]
  simp (disch := decide) only [contains_block6_iff long]
  obtain first | ⟨first, second⟩ | ⟨first, second⟩ := h
  · simp [first]
  · simp [maskByte, and_full, first, second]
    decide
  · simp [maskByte, and_full, first, second]

theorem permitted_of_compatible (h : compatible.Contains ip = true)
    (specified : ip.IsUnspecified = false) (remote : ip.IsLoopback = false) :
    Guard.zero.CheckIP (some ip) = none := by
  obtain ⟨long, same⟩ := (contains_cidr_v6 (by decide)).mp h
  have first : ip.To16 0 = 0 := byte_eq_of_agree same 0 (by decide)
  have second : ip.To16 1 = 0 := byte_eq_of_agree same 1 (by decide)
  refine CheckIP_zero_eq_none.mpr ⟨?_, (checkPolicy_zero_long long).mpr
    ⟨specified, remote, checked6_of_bytes long (.inl first)⟩⟩
  simp [embeddedIPv4, long, first, second]

theorem permitted_of_siteLocal (h : siteLocal.Contains ip = true) :
    Guard.zero.CheckIP (some ip) = none := by
  obtain ⟨long, -⟩ := (contains_cidr_v6 (by decide)).mp h
  obtain ⟨first, second, -⟩ := (contains_block6_iff long (by decide) (by decide)).mp h
  have start : ip.To16 0 = 0xfe := by rwa [← and_full (ip.To16 0)]
  refine CheckIP_zero_eq_none.mpr ⟨?_, (checkPolicy_zero_long long).mpr ⟨?_, ?_,
    checked6_of_bytes long (.inr (.inr ⟨start, second⟩))⟩⟩
  · simp [embeddedIPv4, long, start]
  · exact unspecified_of_byte long 0 (by simp [start])
  · exact loopback_of_byte long 0 (by decide) (by simp [start])

theorem permitted_of_sixToFour (h : sixToFour.Contains ip = true)
    (gap : Gap4 (.v4 (sixToFourTarget ip))) : Guard.zero.CheckIP (some ip) = none := by
  obtain ⟨long, same⟩ := (contains_cidr_v6 (by decide)).mp h
  have first : ip.To16 0 = 0x20 := byte_eq_of_agree same 0 (by decide)
  have second : ip.To16 1 = 0x02 := byte_eq_of_agree same 1 (by decide)
  refine CheckIP_zero_eq_none.mpr ⟨?_, (checkPolicy_zero_long long).mpr ⟨?_, ?_,
    checked6_of_bytes long (.inr (.inl ⟨first, second⟩))⟩⟩
  · rw [embeddedIPv4_of_sixToFour h]
    rintro q ⟨⟩
    exact checkPolicy_zero_of_gap4 gap
  · exact unspecified_of_byte long 0 (by simp [first])
  · exact loopback_of_byte long 0 (by decide) (by simp [first])

theorem permitted_of_nat64 (h : nat64.Contains ip = true)
    (gap : Gap4 (.v4 (nat64Target ip))) : Guard.zero.CheckIP (some ip) = none := by
  obtain ⟨long, same⟩ := (contains_cidr_v6 (by decide)).mp h
  have first : ip.To16 0 = 0 := byte_eq_of_agree same 0 (by decide)
  have second : ip.To16 1 = 0x64 := byte_eq_of_agree same 1 (by decide)
  refine CheckIP_zero_eq_none.mpr ⟨?_, (checkPolicy_zero_long long).mpr ⟨?_, ?_,
    checked6_of_bytes long (.inl first)⟩⟩
  · rw [embeddedIPv4_of_nat64 h]
    rintro q ⟨⟩
    exact checkPolicy_zero_of_gap4 gap
  · exact unspecified_of_byte long 1 (by simp [second])
  · exact loopback_of_byte long 1 (by decide) (by simp [second])

end Default

section Gaps

variable {ip : IP} {q : V4}

theorem permitted_of_gap (h : Gap ip) : Guard.zero.CheckIP (some ip) = none := by
  obtain gap | ⟨inside, specified, remote⟩ | inside | ⟨inside, gap⟩ | ⟨inside, gap⟩ := h
  · obtain ⟨q, short, -⟩ := contains_cidr_v4.mp gap.1
    refine CheckIP_zero_eq_none.mpr ⟨?_, checkPolicy_zero_of_gap4 gap⟩
    simp [embeddedIPv4, short]
  · exact permitted_of_compatible inside specified remote
  · exact permitted_of_siteLocal inside
  · exact permitted_of_sixToFour inside gap
  · exact permitted_of_nat64 inside gap

theorem not_public_of_gap (h : Gap ip) : ¬Public ip := by
  rintro ⟨itself, sixToFour, nat64⟩
  obtain gap | ⟨inside, -⟩ | inside | ⟨inside, gap⟩ | ⟨inside, gap⟩ := h
  · exact Bool.eq_false_iff.mp (itself thisNetwork (by simp [nonPublic4])) gap.1
  · exact Bool.eq_false_iff.mp (itself compatible (by simp [nonPublic6])) inside
  · exact Bool.eq_false_iff.mp (itself siteLocal (by simp [nonPublic6])) inside
  · exact Bool.eq_false_iff.mp (sixToFour inside thisNetwork (by simp [nonPublic4])) gap.1
  · exact Bool.eq_false_iff.mp (nat64 inside thisNetwork (by simp [nonPublic4])) gap.1

theorem nonPublic4_of_policy (short : ip.To4 = some q) (h : Guard.zero.checkPolicy ip = none)
    (closed : ¬Gap4 ip) : ∀ n ∈ nonPublic4, n.Contains ip = false := by
  obtain ⟨specified, clear⟩ := (checkPolicy_zero_short short).mp h
  refine List.forall_mem_cons.mpr ⟨?_, clear⟩
  exact Bool.eq_false_iff.mpr fun inside => closed ⟨inside, specified⟩

theorem nonPublic4_of_long (long : ip.To4 = none) : ∀ n ∈ nonPublic4, n.Contains ip = false := by
  simp [nonPublic4, checked4, thisNetwork, ← Bool.not_eq_true, contains_cidr_v4, long]

theorem nonPublic6_of_short (short : ip.To4 = some q) :
    ∀ n ∈ nonPublic6, n.Contains ip = false := by
  simp only [nonPublic6, checked6, compatible, siteLocal, block6, List.forall_mem_cons,
    ← Bool.not_eq_true]
  simp (disch := decide) [contains_cidr_v6, short]

theorem nonPublic6_of_policy (long : ip.To4 = none) (h : Guard.zero.checkPolicy ip = none)
    (gap6 : compatible.Contains ip = true → ip.IsUnspecified = false → ¬ip.IsLoopback = false)
    (site : ¬siteLocal.Contains ip = true) : ∀ n ∈ nonPublic6, n.Contains ip = false := by
  obtain ⟨specified, remote, clear⟩ := (checkPolicy_zero_long long).mp h
  refine List.forall_mem_cons.mpr ⟨?_, List.forall_mem_cons.mpr ⟨?_, clear⟩⟩
  · exact Bool.eq_false_iff.mpr fun inside => gap6 inside specified remote
  · exact Bool.eq_false_iff.mpr site

theorem public_of_permitted (h : Guard.zero.CheckIP (some ip) = none) (closed : ¬Gap ip) :
    Public ip := by
  obtain ⟨embedded, itself⟩ := CheckIP_zero_eq_none.mp h
  simp only [Gap, not_or, not_and] at closed
  obtain ⟨gap4, gap6, site, six, nat⟩ := closed
  refine ⟨?_, fun inside => ?_, fun inside => ?_⟩
  · refine List.forall_mem_append.mpr ?_
    cases form : ip.To4 with
    | some q => exact ⟨nonPublic4_of_policy form itself gap4, nonPublic6_of_short form⟩
    | none => exact ⟨nonPublic4_of_long form, nonPublic6_of_policy form itself gap6 site⟩
  · exact nonPublic4_of_policy rfl (embedded _ (embeddedIPv4_of_sixToFour inside)) (six inside)
  · exact nonPublic4_of_policy rfl (embedded _ (embeddedIPv4_of_nat64 inside)) (nat inside)

end Gaps

/-- What the default guard permits is public, unless it is one of the gaps, all of which it
permits and none of which is public. -/
theorem default_guard_public_iff (ip : IP) :
    (Guard.zero.CheckIP (some ip) = none → Public ip) ↔ ¬Gap ip := by
  constructor
  · intro sound gap
    exact not_public_of_gap gap (sound (permitted_of_gap gap))
  · intro closed permitted
    exact public_of_permitted permitted closed

/-- `0.1.2.3`, `::127.0.0.1`, `fec0::1` and the 6to4 form of `0.1.2.3` are permitted. -/
theorem default_guard_permits_gaps :
    (Guard.zero.CheckIP (some (.v4 ![0, 1, 2, 3])) = none ∧ ¬Public (.v4 ![0, 1, 2, 3])) ∧
      (Guard.zero.CheckIP (some (.v6 ![0, 0, 0, 0, 0, 0, 0, 0, 0, 0, 0, 0, 127, 0, 0, 1])) = none ∧
        ¬Public (.v6 ![0, 0, 0, 0, 0, 0, 0, 0, 0, 0, 0, 0, 127, 0, 0, 1])) ∧
      (Guard.zero.CheckIP (some (.v6 ![0xfe, 0xc0, 0, 0, 0, 0, 0, 0, 0, 0, 0, 0, 0, 0, 0, 1])) =
        none ∧
        ¬Public (.v6 ![0xfe, 0xc0, 0, 0, 0, 0, 0, 0, 0, 0, 0, 0, 0, 0, 0, 1])) ∧
      Guard.zero.CheckIP (some (.v6 ![0x20, 0x02, 0, 1, 2, 3, 0, 0, 0, 0, 0, 0, 0, 0, 0, 1])) =
        none ∧
        ¬Public (.v6 ![0x20, 0x02, 0, 1, 2, 3, 0, 0, 0, 0, 0, 0, 0, 0, 0, 1]) := by
  have permits {ip : IP} (gap : Gap ip) : Guard.zero.CheckIP (some ip) = none ∧ ¬Public ip :=
    ⟨permitted_of_gap gap, not_public_of_gap gap⟩
  exact ⟨permits (by decide +kernel), permits (by decide +kernel), permits (by decide +kernel),
    permits (by decide +kernel)⟩

end Hookubit.Egress.PublicSpace
