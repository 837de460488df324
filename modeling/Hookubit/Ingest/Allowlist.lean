/- sources: ingest/allowlist.go (AllowedIP); projects/allowed-ips.ts
   digest: Which of the entries that the control API stores the data plane honours. -/

import Hookubit.Data.IpCanonical
import Hookubit.Projects.AllowedIps

/-!
The two sides read an entry differently. The control API takes the octets and the length of a block
as numbers, so that zeros may lead them, and asks of an IPv6 address little more than its alphabet;
the data plane reads entries with netip and skips those that it cannot read.
-/

set_option autoImplicit false
set_option relaxedAutoImplicit false

namespace Hookubit.Ingest.Allowlist

open Data.ByteText
open Data.Int64 (decimal isDigit)
open Data.IpAddress
open Data.IpCanonical (parse6_formatV6)
open Data.IpText
open Data.JsText (Units literal utf8)
open Data.Utf8 (Bytes encode)
open Projects.AllowedIps

/-- What the loop makes of a block that it has read. -/
def blockMatches (p : Prefix) (ip : Addr) : Bool :=
  if p.addr.Unmap.BitLen ≠ ip.BitLen then false else p.Masked.Contains ip

/-- One turn of the loop: whether the entry matches the address. -/
def entryMatches (ip : Addr) (raw : Bytes) : Bool :=
  let entry := TrimSpace raw
  if entry = [] then false
  else if slash ∈ entry then
    match ParsePrefix entry with
    | none => false
    | some p => blockMatches p ip
  else
    match ParseAddr entry with
    | none => false
    | some single => single.Unmap = ip

def AllowedIP (allowed : List Bytes) (addr : Bytes) : Bool :=
  if allowed = [] then true
  else
    match ParseAddr (TrimSpace addr) with
    | none => false
    | some ip => allowed.any (entryMatches ip.Unmap)

/-- Four octets read as numbers. -/
def meantQuad (s : Bytes) : Option V4 :=
  match s.splitOn dot with
  | [a, b, c, d] =>
      if [a, b, c, d].all fun o => o ≠ [] && o.all isDigit then
        some ![UInt8.ofNat (decimal a), UInt8.ofNat (decimal b), UInt8.ofNat (decimal c),
          UInt8.ofNat (decimal d)]
      else none
  | _ => none

def meantAddress (s : Bytes) : Option IP :=
  match meantQuad s with
  | some q => some (.v4 q)
  | none => (parse6 s).map .v6

def width : IP → ℕ
  | .v4 _ => 32
  | .v6 _ => 128

/-- What an entry stands for, in the reading of the side that stores it: a block, or one address as
the smallest block. A block of mapped addresses is one of IPv4 addresses. -/
def meaning (entry : Bytes) : Option IPNet :=
  match cutLast entry slash with
  | none => (meantAddress entry).map fun base => cidr base (width base)
  | some (address, length) => (meantAddress address).map fun base => cidr base (decimal length)

/-- The entry is spelled as netip wants it and is no block of mapped addresses. -/
def Plain (entry : Bytes) : Prop :=
  match cutLast entry slash with
  | none => ∃ ip, ParseIP entry = some ip
  | some (address, length) =>
      (∃ ip, ParseIP address = some ip ∧ (colon ∈ address → ip.To4 = none)) ∧
        ∃ n, prefixLength length = some n

/-- Every text of every address that the entry stands for is let in, and so is the text of an entry
that is itself an address. -/
structure Honoured (stored : List Bytes) (entry : Bytes) : Prop where
  named : ∃ block, meaning entry = some block ∧ ∀ ip text, block.Contains ip = true →
    ParseIP (TrimSpace text) = some ip → AllowedIP stored text = true
  own : slash ∉ entry → AllowedIP stored entry = true

/-- Some plain entry stands for the address. -/
def Covered (stored : List Bytes) (ip : IP) : Prop :=
  ∃ other ∈ stored, Plain other ∧ ∃ block, meaning other = some block ∧ block.Contains ip = true

/-- An address is spelled plainly, and the addresses of a block are covered. -/
structure Served (stored : List Bytes) (entry : Bytes) : Prop where
  spelled : slash ∉ entry → Plain entry
  covered : ∃ block, meaning entry = some block ∧ ∀ ip, block.Contains ip = true → Covered stored ip

/-- The address that the loop compares with. -/
def canonical (ip : IP) : Addr :=
  match ip.To4 with
  | some q => .v4 q
  | none => .v6 ip.To16 []

theorem canonical_eq (ip : IP) :
    canonical ip = if isMapped ip.To16 then .v4 (low ip.To16) else .v6 ip.To16 [] := by
  rw [canonical, IP.To4_eq]
  split <;> simp_all

theorem canonical_inj {a b : IP} : canonical a = canonical b ↔ a.To16 = b.To16 := by
  constructor
  · intro same
    rw [canonical_eq, canonical_eq] at same
    split at same
    · rename_i left
      split at same
      · rename_i right
        rw [← mapped_low left, ← mapped_low right, Addr.v4.inj same]
      · cases same
    · split at same
      · cases same
      · exact (Addr.v6.inj same).1
  · intro same
    rw [canonical_eq, canonical_eq, same]

theorem Unmap_of_ParseIP {s : Bytes} {ip : IP} (h : ParseIP s = some ip) :
    ∃ a, ParseAddr s = some a ∧ a.Unmap = canonical ip := by
  obtain ⟨q, -, rfl, read⟩ | ⟨b, -, rfl, read⟩ := ParseAddr_of_ParseIP h
  · exact ⟨.v4 q, read, by rw [canonical, IP.To4_IPv4]; rfl⟩
  · exact ⟨.v6 b [], read, by rw [Addr.Unmap, canonical_eq]; rfl⟩

section Blocks

variable {ip : IP} {b : V6} {bits : ℕ}

theorem contains_full4 {q : V4} : (cidr (.v4 q) 32).Contains ip = true ↔ ip.To16 = mapped q := by
  have full : (mask 32 : V4) = fun _ => 255 := by decide
  rw [contains_cidr_v4]
  simp only [full, and_full]
  constructor
  · rintro ⟨x, short, same⟩
    rw [IP.To16_of_To4 short, funext same]
  · intro same
    refine ⟨q, ?_, fun i => rfl⟩
    rw [IP.To4_eq, same, if_pos (isMapped_mapped q), low_mapped]

theorem contains_full6 : (cidr (.v6 b) 128).Contains ip = true ↔ ip.To16 = b := by
  have full : (mask 128 : V6) = fun _ => 255 := by decide
  cases short : isMapped b with
  | false =>
    rw [contains_cidr_v6 (by simpa [full, and_full] using short)]
    simp only [full, and_full]
    constructor
    · rintro ⟨-, same⟩
      exact (funext same).symm
    · rintro rfl
      exact ⟨by rw [IP.To4_eq, short]; rfl, fun i => rfl⟩
  | true =>
    have long : cidr (.v6 b) 128 = ⟨.v6 b, .v6 fun _ => 255⟩ := by simp [cidr, full, and_full]
    have number : IPNet.networkNumberAndMask ⟨.v6 b, .v6 fun _ => 255⟩ =
        some (.inl (low b, low fun _ => 255)) := by
      simp [IPNet.networkNumberAndMask, IP.To4, short]
    have same : (cidr (.v4 (low b)) 32).Contains ip =
        (IPNet.mk (.v6 b) (.v6 fun _ => 255)).Contains ip := by
      have mask4 : (mask 32 : V4) = low fun _ => 255 := by decide
      have number4 : (cidr (.v4 (low b)) 32).networkNumberAndMask =
          some (.inl (fun i => low b i &&& mask 32 i, mask 32)) := rfl
      rw [IPNet.Contains, IPNet.Contains, number, number4, mask4]
      cases ip.To4 with
      | some x => simp [agree, and_and_self]
      | none => rfl
    rw [long, ← same, contains_full4, mapped_low short]

theorem contains_width {base : IP} :
    (cidr base (width base)).Contains ip = true ↔ ip.To16 = base.To16 := by
  cases base with
  | v4 q => exact contains_full4
  | v6 b => exact contains_full6

theorem blockMatches_v4 {q : V4} :
    blockMatches ⟨.v4 q, bits⟩ (canonical ip) = (cidr (.v4 q) bits).Contains ip := by
  rw [Bool.eq_iff_iff, contains_cidr_v4, blockMatches, canonical, Prefix.Contains_Masked]
  cases short : ip.To4 with
  | some x => simp [Addr.Unmap, Addr.BitLen, Prefix.Contains, agree]
  | none => simp [Addr.Unmap, Addr.BitLen]

theorem blockMatches_v6 (long : isMapped b = false) :
    blockMatches ⟨.v6 b [], bits⟩ (canonical ip) = (cidr (.v6 b) bits).Contains ip := by
  have masked : isMapped (fun i => b i &&& mask bits i) = false :=
    Bool.eq_false_iff.mpr fun h => Bool.eq_false_iff.mp long (isMapped_of_masked h).2
  rw [Bool.eq_iff_iff, contains_cidr_v6 masked, blockMatches, canonical, Prefix.Contains_Masked]
  cases short : ip.To4 with
  | some x => simp [Addr.Unmap, Addr.BitLen, long]
  | none => simp [Addr.Unmap, Addr.BitLen, long, Prefix.Contains, agree]

/-- The length test looks through the mapping and the block does not. -/
theorem blockMatches_mapped (short : isMapped b = true) :
    blockMatches ⟨.v6 b [], bits⟩ (canonical ip) = false := by
  rw [blockMatches, canonical, Prefix.Contains_Masked]
  cases ip.To4 with
  | some x => simp [Addr.Unmap, Addr.BitLen, short, Prefix.Contains]
  | none => simp [Addr.Unmap, Addr.BitLen, short]

end Blocks

section Entries

variable {ip : IP} {s : Bytes} {version : Version}

theorem meantQuad_of_parse4 {q : V4} (h : parse4 s = some q) : meantQuad s = some q := by
  rw [parse4] at h
  split at h
  · rename_i a b c d pieces
    obtain ⟨_, _, _, _, ha, hb, hc, hd, rfl⟩ := quad_eq_some h
    obtain ⟨na, da, rfl⟩ := octet_eq_some ha
    obtain ⟨nb, db, rfl⟩ := octet_eq_some hb
    obtain ⟨nc, dc, rfl⟩ := octet_eq_some hc
    obtain ⟨nd, dd, rfl⟩ := octet_eq_some hd
    rw [meantQuad, pieces]
    simp [na, nb, nc, nd, da, db, dc, dd]
  · cases h

theorem meantQuad_eq_none (h : colon ∈ s) : meantQuad s = none := by
  have other : colon ≠ dot := by decide
  obtain ⟨piece, listed, inside⟩ := exists_mem_splitOn h other
  rw [meantQuad]
  split
  · rename_i a b c d pieces
    rw [pieces] at listed
    refine if_neg fun digits => ?_
    have digit := List.all_eq_true.mp digits piece listed
    rw [Bool.and_eq_true, List.all_eq_true] at digit
    exact absurd (digit.2 colon inside) (by decide)
  · rfl

theorem meantAddress_of_ParseIP {ip : IP} (h : ParseIP s = some ip) :
    ∃ base, meantAddress s = some base ∧ ip.To16 = base.To16 := by
  obtain ⟨q, four, rfl⟩ | ⟨b, six, rfl⟩ := ParseIP_cases h
  · exact ⟨.v4 q, by rw [meantAddress, meantQuad_of_parse4 four], rfl⟩
  · refine ⟨.v6 b, ?_, rfl⟩
    rw [meantAddress, meantQuad_eq_none (colon_mem_of_parse6 six), six]
    rfl

theorem alphabet_of_address (h : Address s version) : ∀ b ∈ s, isAddressByte b = true := by
  cases h with
  | v6 _ alphabet => exact alphabet
  | v4 pieces octets =>
    intro b inside
    by_cases other : b = dot
    · rw [other]
      rfl
    · obtain ⟨piece, listed, inside⟩ := exists_mem_splitOn inside other
      rw [pieces] at listed
      have digits := List.all_eq_true.mp (octets piece listed).1.digits
      simp [isAddressByte, isHex_of_isDigit (digits b inside)]

theorem slash_not_mem (h : Address s version) : slash ∉ s := fun inside =>
  absurd (alphabet_of_address h slash inside) (by decide)

theorem ne_nil_of_address (h : Address s version) : s ≠ [] := by
  rintro rfl
  cases h with
  | v4 pieces _ => cases pieces
  | v6 colons _ => cases colons

theorem graphic_of_address (h : Address s version) : ∀ b ∈ s, isGraphic b = true := by
  have graphic : ∀ b : UInt8, isAddressByte b = true → isGraphic b = true := by decide +kernel
  exact fun b inside => graphic b (alphabet_of_address h b inside)

theorem graphic_of_digits (h : Digits s) : ∀ b ∈ s, isGraphic b = true := by
  have graphic : ∀ b : UInt8, isDigit b = true → isGraphic b = true := by decide +kernel
  exact fun b inside => graphic b (List.all_eq_true.mp h.digits b inside)

theorem ParseAddr_eq_none (alphabet : ∀ b ∈ s, isAddressByte b = true) (h : ParseIP s = none) :
    ParseAddr s = none := by
  rw [ParseIP] at h
  rw [ParseAddr_of_alphabet alphabet] at h ⊢
  cases four : parse4 s with
  | some q => simp [four] at h
  | none =>
    cases six : parse6 s with
    | some b => simp [four, six] at h
    | none => rfl

theorem single_matches (h : Address s version) : entryMatches (canonical ip) s = true ↔
      Plain s ∧ ∃ block, meaning s = some block ∧ block.Contains ip = true := by
  have plain := slash_not_mem h
  rw [entryMatches, TrimSpace_of_graphic (graphic_of_address h), if_neg (ne_nil_of_address h),
    if_neg plain, Plain, meaning, cutLast_eq_none plain]
  cases parsed : ParseIP s with
  | none => simp [ParseAddr_eq_none (alphabet_of_address h) parsed]
  | some own =>
    obtain ⟨a, read, unmapped⟩ := Unmap_of_ParseIP parsed
    obtain ⟨base, meant, same⟩ := meantAddress_of_ParseIP parsed
    simp only [read, unmapped, meant, Option.map_some, Option.some.injEq, exists_eq_left',
      contains_width, decide_eq_true_eq, canonical_inj, same]
    simp [eq_comm]

theorem block_matches {address length : Bytes} (h : Address address version)
    (digits : Digits length) (fits : decimal length ≤ version.bits) :
    entryMatches (canonical ip) (address ++ slash :: length) = true ↔
      Plain (address ++ slash :: length) ∧
        ∃ block, meaning (address ++ slash :: length) = some block ∧ block.Contains ip = true := by
  have last : slash ∉ length := fun inside =>
    absurd (List.all_eq_true.mp digits.digits slash inside) (by decide)
  have graphic : ∀ b ∈ address ++ slash :: length, isGraphic b = true := by
    rw [List.forall_mem_append, List.forall_mem_cons]
    exact ⟨graphic_of_address h, by decide, graphic_of_digits digits⟩
  rw [entryMatches, TrimSpace_of_graphic graphic, if_neg (by simp), if_pos (by simp), Plain,
    meaning, cutLast_append last]
  cases parsed : ParseIP address with
  | none =>
    have absent := ParseAddr_eq_none (alphabet_of_address h) parsed
    simp [ParsePrefix_eq_none last (.inl absent), parsed]
  | some own =>
    cases bits : prefixLength length with
    | none => simp [ParsePrefix_eq_none last (.inr bits), bits]
    | some n =>
      obtain rfl := prefixLength_eq_some bits
      obtain ⟨q, four, rfl, read⟩ | ⟨b, six, rfl, read⟩ := ParseAddr_of_ParseIP parsed
      · have outside := colon_not_mem_of_parse4 four
        have small : decimal length ≤ 32 := by
          cases h with
          | v4 => exact fits
          | v6 colons => exact absurd colons outside
        have meant : meantAddress address = some (.v4 q) := by
          rw [meantAddress, meantQuad_of_parse4 four]
        simp [ParsePrefix_v4 last read bits small, blockMatches_v4, meant, outside, parsed, bits]
      · have inside := colon_mem_of_parse6 six
        have small : decimal length ≤ 128 := by
          cases version with
          | v4 => exact fits.trans (by decide)
          | v6 => exact fits
        have meant : meantAddress address = some (.v6 b) := by
          rw [meantAddress, meantQuad_eq_none inside, six]
          rfl
        cases form : isMapped b with
        | true =>
          simp [ParsePrefix_v6 last read bits small, blockMatches_mapped form, inside, parsed,
            IP.To4, form]
        | false =>
          simp [ParsePrefix_v6 last read bits small, blockMatches_v6 form, meant, parsed, bits,
            IP.To4, form]

end Entries

section List

variable {ip : IP} {stored : List Bytes} {text : Bytes}

theorem entryMatches_iff {s : Bytes} (h : Stored s) : entryMatches (canonical ip) s = true ↔
    Plain s ∧ ∃ block, meaning s = some block ∧ block.Contains ip = true := by
  cases h with
  | single address => exact single_matches address
  | block address digits fits => exact block_matches address digits fits

theorem AllowedIP_iff (kept : ∀ e ∈ stored, Stored e) (nonempty : stored ≠ [])
    (parsed : ParseIP (TrimSpace text) = some ip) :
    AllowedIP stored text = true ↔ Covered stored ip := by
  obtain ⟨a, read, unmapped⟩ := Unmap_of_ParseIP parsed
  rw [AllowedIP, if_neg nonempty, read]
  simp only [unmapped, List.any_eq_true, Covered]
  exact exists_congr fun e => and_congr_right fun listed => entryMatches_iff (kept e listed)

theorem contains_To16 (n : IPNet) (ip : IP) : n.Contains (.v6 ip.To16) = n.Contains ip := by
  have short : (IP.v6 ip.To16).To4 = ip.To4 := by rw [IP.To4_eq, IP.To4_eq ip]; rfl
  rw [IPNet.Contains, IPNet.Contains, short]
  rfl

theorem covered_To16 : Covered stored (.v6 ip.To16) ↔ Covered stored ip := by
  simp only [Covered, contains_To16]

theorem own_iff (kept : ∀ e ∈ stored, Stored e) {entry : Bytes} (listed : entry ∈ stored)
    (single : slash ∉ entry) : AllowedIP stored entry = true ↔ Plain entry := by
  have nonempty : stored ≠ [] := List.ne_nil_of_mem listed
  cases kept entry listed with
  | block => exact absurd (by simp) single
  | single address =>
    have trimmed := TrimSpace_of_graphic (graphic_of_address address)
    have plain_iff : Plain entry ↔ ∃ ip, ParseIP entry = some ip := by
      rw [Plain, cutLast_eq_none single]
    cases parsed : ParseIP entry with
    | none =>
      have unread := ParseAddr_eq_none (alphabet_of_address address) parsed
      simp [plain_iff, parsed, AllowedIP, nonempty, trimmed, unread]
    | some ip =>
      have plain : Plain entry := plain_iff.mpr ⟨ip, parsed⟩
      refine iff_of_true ?_ plain
      obtain ⟨base, meant, same⟩ := meantAddress_of_ParseIP parsed
      rw [AllowedIP_iff kept nonempty (by rwa [trimmed])]
      refine ⟨entry, listed, plain, cidr base (width base), ?_, contains_width.mpr same⟩
      rw [meaning, cutLast_eq_none single, meant, Option.map_some]

theorem honoured_iff (kept : ∀ e ∈ stored, Stored e) {entry : Bytes} (listed : entry ∈ stored) :
    Honoured stored entry ↔ Served stored entry := by
  have nonempty : stored ≠ [] := List.ne_nil_of_mem listed
  constructor
  · rintro ⟨⟨block, meant, allowed⟩, own⟩
    refine ⟨fun single => (own_iff kept listed single).mp (own single), block, meant, ?_⟩
    intro ip inside
    -- Some text of the address is let in, so an entry covers it.
    obtain ⟨text, written⟩ : ∃ text, parse6 text = some ip.To16 := ⟨_, parse6_formatV6 ip.To16⟩
    have parsed : ParseIP (TrimSpace text) = some (.v6 ip.To16) := by
      have address : Address _ .v6 := .v6 (colon_mem_of_parse6 written) (parse6_spec written).1
      rw [TrimSpace_of_graphic (graphic_of_address address), ParseIP_of_parse6 written]
    have let_in := allowed _ text (by rwa [contains_To16]) parsed
    exact covered_To16.mp ((AllowedIP_iff kept nonempty parsed).mp let_in)
  · rintro ⟨spelled, block, meant, covered⟩
    refine ⟨⟨block, meant, fun ip text inside parsed => ?_⟩, fun single => ?_⟩
    · exact (AllowedIP_iff kept nonempty parsed).mpr (covered ip inside)
    · exact (own_iff kept listed single).mpr (spelled single)

theorem not_honoured (text : Bytes) {entry : Bytes}
    (named : (ParseIP (TrimSpace text)).any (fun ip =>
      (meaning entry).any fun block => block.Contains ip) = true)
    (refused : AllowedIP stored text = false) : ¬Honoured stored entry := by
  intro honoured
  obtain ⟨ip, parsed, named⟩ := (Option.any_eq_true _ _).mp named
  obtain ⟨block, meant, inside⟩ := (Option.any_eq_true _ _).mp named
  obtain ⟨_, meant', allowed⟩ := honoured.named
  cases meant.symm.trans meant'
  exact Bool.eq_false_iff.mp refused (allowed ip text inside parsed)

end List

/-- The entries of an accepted list are all honoured if its addresses are spelled as netip wants
them and each address of a block lies in a plain entry, and not otherwise. -/
theorem stored_entries_honoured_iff (entries result : List Units)
    (accepted : normaliseAllowedIps entries = .ok result) :
    (∀ entry ∈ result.map utf8, Honoured (result.map utf8) entry) ↔
      ∀ entry ∈ result.map utf8, Served (result.map utf8) entry := by
  have kept : ∀ e ∈ result.map utf8, Stored e := by
    simp only [List.mem_map]
    rintro - ⟨unit, listed, rfl⟩
    exact stored_of_valid (valid_of_normalise accepted unit listed)
  exact forall_congr' fun entry => forall_congr' fun listed => honoured_iff kept listed

/-- An address and a block in plain spelling. -/
theorem stored_entries_honoured_plain :
    Honoured ([literal "203.0.113.4", literal "2001:db8::/32"].map utf8)
        (utf8 (literal "203.0.113.4")) ∧
      Honoured ([literal "203.0.113.4", literal "2001:db8::/32"].map utf8)
        (utf8 (literal "2001:db8::/32")) := by
  have address : Plain (utf8 (literal "203.0.113.4")) := by
    have whole : cutLast (utf8 (literal "203.0.113.4")) slash = none := by decide +kernel
    rw [Plain, whole]
    exact Option.isSome_iff_exists.mp (by decide +kernel)
  have block : Plain (utf8 (literal "2001:db8::/32")) := by
    have parts : cutLast (utf8 (literal "2001:db8::/32")) slash =
        some (encode "2001:db8::".toList, encode "32".toList) := by decide +kernel
    have parsed : parse6 (encode "2001:db8::".toList) =
        some (ofGroups [0x2001, 0xdb8, 0, 0, 0, 0, 0, 0]) := by decide +kernel
    rw [Plain, parts]
    exact ⟨⟨_, ParseIP_of_parse6 parsed, fun _ => by decide +kernel⟩, 32, by decide +kernel⟩
  have plain : ∀ entry ∈ [literal "203.0.113.4", literal "2001:db8::/32"].map utf8,
      Plain entry ∧ ∃ block, meaning entry = some block := by
    simp only [List.map_cons, List.map_nil, List.forall_mem_cons, List.not_mem_nil, false_implies,
      implies_true, and_true]
    exact ⟨⟨address, Option.isSome_iff_exists.mp (by decide +kernel)⟩,
      block, Option.isSome_iff_exists.mp (by decide +kernel)⟩
  have honoured := (stored_entries_honoured_iff
    [literal " 203.0.113.4", literal "", literal "2001:db8::/32"]
    [literal "203.0.113.4", literal "2001:db8::/32"] (by decide +kernel)).mpr fun entry listed => by
      obtain ⟨spelled, block, meant⟩ := plain entry listed
      exact ⟨fun _ => spelled, block, meant,
        fun ip inside => ⟨entry, listed, spelled, block, meant, inside⟩⟩
  exact ⟨honoured _ (by simp), honoured _ (by simp)⟩

/-- A leading zero and a block of mapped addresses are accepted, and the addresses that they stand
for are refused. -/
theorem accepted_entries_not_honoured :
    (normaliseAllowedIps [literal "010.0.0.1"] = .ok [literal "010.0.0.1"] ∧
      ¬Honoured [utf8 (literal "010.0.0.1")] (utf8 (literal "010.0.0.1"))) ∧
    normaliseAllowedIps [literal "::ffff:10.0.0.0/104"] = .ok [literal "::ffff:10.0.0.0/104"] ∧
      ¬Honoured [utf8 (literal "::ffff:10.0.0.0/104")] (utf8 (literal "::ffff:10.0.0.0/104")) := by
  refine ⟨⟨by decide +kernel, ?_⟩, by decide +kernel, ?_⟩
  · exact not_honoured (encode "10.0.0.1".toList) (by decide +kernel) (by decide +kernel)
  · exact not_honoured (encode "10.1.2.3".toList) (by decide +kernel) (by decide +kernel)

end Hookubit.Ingest.Allowlist
