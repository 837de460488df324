/- sources: projects/allowed-ips.ts (MAX_ALLOWED_IPS, normaliseAllowedIps, assertValid, splitCidr,
     addressVersion)
   digest: Which publish allowlists the control API stores, and in which words it refuses others. -/

import Hookubit.Common.Errors
import Hookubit.Data.IpText
import Hookubit.Data.JsText

set_option autoImplicit false
set_option relaxedAutoImplicit false

namespace Hookubit.Projects.AllowedIps

open Common.Errors (bind_eq_ok)
open Data.ByteText
open Data.Int64 (decimal formatNat isDigit)
open Data.IpAddress (colon dot)
open Data.IpText Data.JsText
open Data.Utf8 (Bytes)

def MAX_ALLOWED_IPS : ℕ := 50

/-- An `AppError` with code `invalid_request`. -/
structure InvalidRequest where
  message : Units
  deriving DecidableEq

inductive Version
  | v4 | v6
  deriving DecidableEq

/-- `/^\d{1,3}$/`. -/
def upToThreeDigits (s : Units) : Bool := s ≠ [] && s.length ≤ 3 && s.all isDigitUnit

def IPV4 (address : Units) : Option (List Units) :=
  match address.splitOn dot.toUInt16 with
  | [a, b, c, d] => if [a, b, c, d].all upToThreeDigits then some [a, b, c, d] else none
  | _ => none

/-- `[0-9a-fA-F:.]`. -/
def isAddressUnit (u : UInt16) : Bool :=
  (48 ≤ u && u ≤ 57) || (97 ≤ u && u ≤ 102) || (65 ≤ u && u ≤ 70) || u == 58 || u == 46

/-- How often `::` separates, from the left. -/
def ellipses : Units → ℕ
  | a :: b :: rest => if a = 58 ∧ b = 58 then ellipses rest + 1 else ellipses (b :: rest)
  | _ => 0

def addressVersion (address : Units) : Option Version :=
  match IPV4 address with
  | some octets =>
      if octets.all fun octet => octet.length ≤ 3 && number octet ≤ 255 then some .v4 else none
  | none =>
      if colon.toUInt16 ∉ address then none
      else if !address.all isAddressUnit then none
      else if 2 < ellipses address + 1 then none
      else some .v6

def splitCidr (entry : Units) : Units × Option Units :=
  match entry.reverse.dropWhile (· != slash.toUInt16) with
  | [] => (entry, none)
  | _ :: before => (before.reverse, some (entry.reverse.takeWhile (· != slash.toUInt16)).reverse)

def Version.bits : Version → ℕ
  | .v4 => 32
  | .v6 => 128

def Version.digit : Version → String
  | .v4 => "4"
  | .v6 => "6"

def notAnAddress (entry : Units) : InvalidRequest where
  message := literal "'" ++ entry ++
    literal "' is not an IP address or CIDR block. Entries look like '203.0.113.4', " ++
    literal "'203.0.113.0/24' or '2001:db8::/32'."

def badPrefix (entry : Units) (version : Version) : InvalidRequest where
  message := literal "'" ++ entry ++ literal "' has a prefix length outside 0-" ++
    widen (formatNat version.bits) ++ literal " for an IPv" ++ literal version.digit ++
    literal " block."

def assertValid (entry : Units) : Except InvalidRequest Unit :=
  let (address, prefixText) := splitCidr entry
  match addressVersion address with
  | none => .error (notAnAddress entry)
  | some version =>
      match prefixText with
      | none => .ok ()
      | some length =>
          if !upToThreeDigits length || version.bits < number length then
            .error (badPrefix entry version)
          else .ok ()

def tooMany (count : ℕ) : InvalidRequest where
  message := literal "'allowed_ips' may hold at most " ++ widen (formatNat MAX_ALLOWED_IPS) ++
    literal " entries; " ++ widen (formatNat count) ++
    literal " were given. Use a CIDR block rather than listing addresses individually."

/-- The loop; `seen` holds what `out` holds. -/
def normaliseFrom (out : List Units) : List Units → Except InvalidRequest (List Units)
  | [] => .ok out
  | raw :: rest =>
      let entry := trim raw
      if entry = [] then normaliseFrom out rest
      else do
        assertValid entry
        if entry ∈ out then normaliseFrom out rest else normaliseFrom (out ++ [entry]) rest

def normaliseAllowedIps (entries : List Units) : Except InvalidRequest (List Units) := do
  let out ← normaliseFrom [] entries
  if MAX_ALLOWED_IPS < out.length then .error (tooMany out.length) else .ok out

theorem valid_of_normaliseFrom {out result entries : List Units}
    (h : normaliseFrom out entries = .ok result) (valid : ∀ e ∈ out, assertValid e = .ok ()) :
    ∀ e ∈ result, assertValid e = .ok () := by
  induction entries generalizing out with
  | nil =>
    cases h
    exact valid
  | cons raw rest ih =>
    rw [normaliseFrom] at h
    split at h
    · exact ih h valid
    · obtain ⟨⟨⟩, checked, h⟩ := bind_eq_ok.mp h
      split at h
      · exact ih h valid
      · refine ih h fun e listed => ?_
        obtain earlier | rfl := List.mem_append.mp listed |>.imp_right List.mem_singleton.mp
        · exact valid e earlier
        · exact checked

theorem valid_of_normalise {entries result : List Units}
    (h : normaliseAllowedIps entries = .ok result) :
    ∀ e ∈ result, assertValid e = .ok () := by
  obtain ⟨out, looped, h⟩ := bind_eq_ok.mp h
  split at h
  · cases h
  · cases h
    exact valid_of_normaliseFrom looped (by simp)

theorem splitCidr_append {before after : Units} (absent : slash.toUInt16 ∉ after) :
    splitCidr (before ++ slash.toUInt16 :: after) = (before, some after) := by
  have turned : (before ++ slash.toUInt16 :: after).reverse =
      after.reverse ++ slash.toUInt16 :: before.reverse := by simp
  have keep : ∀ u ∈ after.reverse, (u != slash.toUInt16) = true := by
    intro u inside
    rw [bne_iff_ne]
    rintro rfl
    exact absent (List.mem_reverse.mp inside)
  simp [splitCidr, turned, List.dropWhile_append_of_pos keep, List.takeWhile_append_of_pos keep]

variable {entry : Units}

theorem splitCidr_single (absent : slash.toUInt16 ∉ entry) : splitCidr entry = (entry, none) := by
  have keep : ∀ u ∈ entry.reverse, (u != slash.toUInt16) = true := by
    intro u inside
    rw [bne_iff_ne]
    rintro rfl
    exact absent (List.mem_reverse.mp inside)
  rw [splitCidr, List.dropWhile_eq_nil_iff.mpr keep]

theorem assertValid_cases (h : assertValid entry = .ok ()) :
    (slash.toUInt16 ∉ entry ∧ ∃ version, addressVersion entry = some version) ∨
      ∃ address length version, entry = address ++ slash.toUInt16 :: length ∧
        slash.toUInt16 ∉ length ∧ addressVersion address = some version ∧
        upToThreeDigits length = true ∧ number length ≤ version.bits := by
  by_cases inside : slash.toUInt16 ∈ entry
  · obtain ⟨length, address, turned, absent⟩ :=
      List.eq_append_cons_of_mem (List.mem_reverse.mpr inside)
    have whole : entry = address.reverse ++ slash.toUInt16 :: length.reverse := by
      rw [← List.reverse_reverse entry, turned]
      simp
    have absent' : slash.toUInt16 ∉ length.reverse := by simpa using absent
    rw [whole, assertValid, splitCidr_append absent'] at h
    cases version : addressVersion address.reverse with
    | none => simp [version] at h
    | some v =>
      simp only [version] at h
      split at h
      · cases h
      · rename_i fits
        simp only [Bool.or_eq_true, Bool.not_eq_true', decide_eq_true_eq, not_or, not_lt,
          Bool.not_eq_false] at fits
        exact .inr ⟨_, _, v, whole, absent', version, fits.1, fits.2⟩
  · refine .inl ⟨inside, ?_⟩
    rw [assertValid, splitCidr_single inside] at h
    cases version : addressVersion entry with
    | none => simp [version] at h
    | some v => exact ⟨v, rfl⟩

/-- Up to three digits, as bytes. -/
structure Digits (s : Bytes) : Prop where
  nonempty : s ≠ []
  short : s.length ≤ 3
  digits : s.all isDigit = true

/-- What `addressVersion` lets through, as bytes: an IPv4 address whose octets may start with zeros,
or some text in the alphabet of IPv6 addresses. -/
inductive Address : Bytes → Version → Prop
  | v4 {s a b c d : Bytes} (pieces : s.splitOn dot = [a, b, c, d])
      (octets : ∀ o ∈ [a, b, c, d], Digits o ∧ decimal o ≤ 255) : Address s .v4
  | v6 {s : Bytes} (colons : colon ∈ s) (alphabet : ∀ x ∈ s, isAddressByte x = true) : Address s .v6

inductive Stored : Bytes → Prop
  | single {s : Bytes} {version : Version} : Address s version → Stored s
  | block {address length : Bytes} {version : Version} : Address address version → Digits length →
      decimal length ≤ version.bits → Stored (address ++ slash :: length)

theorem isAddressUnit_widen : ∀ x : UInt8, isAddressUnit x.toUInt16 = isAddressByte x := by
  decide +kernel

theorem digits_of_widen {s : Bytes} (h : upToThreeDigits (widen s) = true) : Digits s := by
  rw [upToThreeDigits, Bool.and_eq_true, Bool.and_eq_true, all_isDigitUnit_widen] at h
  obtain ⟨⟨nonempty, short⟩, digits⟩ := h
  refine ⟨fun empty => of_decide_eq_true nonempty (by rw [empty]; rfl), ?_, digits⟩
  simpa [widen] using short

theorem IPV4_eq_some {address : Units} {octets : List Units} (h : IPV4 address = some octets) :
    ∃ a b c d, address.splitOn dot.toUInt16 = [a, b, c, d] ∧ octets = [a, b, c, d] ∧
      ∀ o ∈ octets, upToThreeDigits o = true := by
  rw [IPV4] at h
  split at h
  · rename_i a b c d pieces
    split at h
    · rename_i digits
      cases h
      exact ⟨a, b, c, d, pieces, rfl, List.all_eq_true.mp digits⟩
    · cases h
  · cases h

theorem ascii_of_digits {s : Units} (h : upToThreeDigits s = true) : ∀ u ∈ s, u < 128 := by
  intro u inside
  simp only [upToThreeDigits, Bool.and_eq_true, List.all_eq_true] at h
  have digit := h.2 u inside
  simp only [isDigitUnit, Bool.and_eq_true, decide_eq_true_eq] at digit
  exact UInt16.lt_of_le_of_lt digit.2 (by decide)

theorem ascii_of_isAddressUnit {u : UInt16} (h : isAddressUnit u = true) : u < 128 := by
  simp only [isAddressUnit, Bool.or_eq_true, Bool.and_eq_true, decide_eq_true_eq, beq_iff_eq] at h
  obtain (((digit | lower) | upper) | rfl) | rfl := h
  · exact UInt16.lt_of_le_of_lt digit.2 (by decide)
  · exact UInt16.lt_of_le_of_lt lower.2 (by decide)
  · exact UInt16.lt_of_le_of_lt upper.2 (by decide)
  · decide
  · decide

theorem ascii_of_version {address : Units} {version : Version}
    (h : addressVersion address = some version) : ∀ u ∈ address, u < 128 := by
  intro u inside
  rw [addressVersion] at h
  split at h
  · rename_i octets matched
    obtain ⟨a, b, c, d, pieces, rfl, digits⟩ := IPV4_eq_some matched
    by_cases other : u = dot.toUInt16
    · rw [other]
      decide
    · obtain ⟨piece, listed, inside⟩ := exists_mem_splitOn inside other
      rw [pieces] at listed
      exact ascii_of_digits (digits piece listed) u inside
  · split at h
    · cases h
    · split at h
      · cases h
      · rename_i alphabet
        simp only [Bool.not_eq_true', Bool.not_eq_false, List.all_eq_true] at alphabet
        exact ascii_of_isAddressUnit (alphabet u inside)

theorem address_of_widen {s : Bytes} {version : Version}
    (h : addressVersion (widen s) = some version) : Address s version := by
  rw [addressVersion] at h
  split at h
  · rename_i octets matched
    obtain ⟨a, b, c, d, pieces, rfl, digits⟩ := IPV4_eq_some matched
    split at h
    · rename_i small
      cases h
      rw [splitOn_widen] at pieces
      obtain ⟨w, _, four, rfl, three⟩ := List.map_eq_cons_iff.mp pieces
      obtain ⟨x, _, rfl, rfl, two⟩ := List.map_eq_cons_iff.mp three
      obtain ⟨y, _, rfl, rfl, one⟩ := List.map_eq_cons_iff.mp two
      obtain ⟨z, _, rfl, rfl, no⟩ := List.map_eq_cons_iff.mp one
      rw [List.map_eq_nil_iff.mp no] at four
      refine .v4 four fun o listed => ?_
      have wide : widen o ∈ [widen w, widen x, widen y, widen z] :=
        List.mem_map_of_mem (f := widen) listed
      have bound := List.all_eq_true.mp small _ wide
      rw [number_widen, Bool.and_eq_true, decide_eq_true_eq, decide_eq_true_eq] at bound
      exact ⟨digits_of_widen (digits _ wide), bound.2⟩
    · cases h
  · split at h
    · cases h
    · rename_i colons
      split at h
      · cases h
      · rename_i alphabet
        split at h
        · cases h
        · cases h
          refine .v6 (mem_widen.mp (not_not.mp colons)) fun x inside => ?_
          rw [← isAddressUnit_widen]
          simp only [Bool.not_eq_true', Bool.not_eq_false, List.all_eq_true] at alphabet
          exact alphabet _ (mem_widen.mpr inside)

theorem ascii_of_valid (h : assertValid entry = .ok ()) : ∀ u ∈ entry, u < 128 := by
  obtain ⟨-, version, accepted⟩ | ⟨address, length, version, rfl, -, accepted, digits, -⟩ :=
    assertValid_cases h
  · exact ascii_of_version accepted
  · rw [List.forall_mem_append, List.forall_mem_cons]
    exact ⟨ascii_of_version accepted, by decide, ascii_of_digits digits⟩

theorem stored_of_valid (h : assertValid entry = .ok ()) : Stored (utf8 entry) := by
  obtain ⟨b, rfl, ascii⟩ := exists_widen (ascii_of_valid h)
  rw [utf8_widen ascii]
  obtain ⟨-, version, accepted⟩ | ⟨address, length, version, whole, -, accepted, digits, fits⟩ :=
    assertValid_cases h
  · exact .single (address_of_widen accepted)
  · obtain ⟨before, after, rfl, rfl, rest⟩ := List.map_eq_append_iff.mp whole
    obtain ⟨x, after, rfl, separator, rfl⟩ := List.map_eq_cons_iff.mp rest
    rw [widen_injective separator]
    have fits' : number (widen after) ≤ version.bits := fits
    rw [number_widen] at fits'
    exact .block (address_of_widen accepted) (digits_of_widen digits) fits'

end Hookubit.Projects.AllowedIps
