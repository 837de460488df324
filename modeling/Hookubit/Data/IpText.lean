/- digest: The texts of IP addresses, blocks and host-port pairs, as Go's net and netip read them. -/

import Hookubit.Data.ByteText
import Hookubit.Data.IpAddress
import Mathlib.Data.FinEnum

/-!
The readers follow the documented grammar: four decimal octets without leading zeros, or eight
groups of up to four hexadecimal digits, of which one run of zeros may be left out as `::` and the
last two may be written as four octets. An error of any kind is `none`.
-/

set_option autoImplicit false
set_option relaxedAutoImplicit false

namespace Hookubit.Data.IpText

open Data.ByteText
open Data.Int64 (decimal isDigit)
open Data.IpAddress
open Data.Utf8 (Bytes encode)

def octet (s : Bytes) : Option UInt8 :=
  if s ≠ [] ∧ s.all isDigit = true ∧ (s.length = 1 ∨ s.head? ≠ some 48) ∧ decimal s ≤ 255 then
    some (UInt8.ofNat (decimal s))
  else none

def quad (a b c d : Bytes) : Option V4 :=
  match octet a, octet b, octet c, octet d with
  | some a, some b, some c, some d => some ![a, b, c, d]
  | _, _, _, _ => none

def parse4 (s : Bytes) : Option V4 :=
  match s.splitOn dot with
  | [a, b, c, d] => quad a b c d
  | _ => none

def hexValue (b : UInt8) : Option ℕ :=
  if 48 ≤ b ∧ b ≤ 57 then some (b.toNat - 48)
  else if 97 ≤ b ∧ b ≤ 102 then some (b.toNat - 87)
  else if 65 ≤ b ∧ b ≤ 70 then some (b.toNat - 55)
  else none

def isHex (b : UInt8) : Bool := (hexValue b).isSome

def hexadecimal (s : Bytes) : ℕ := s.foldl (fun acc b => 16 * acc + (hexValue b).getD 0) 0

def hexGroup (s : Bytes) : Option ℕ :=
  if s ≠ [] ∧ s.length ≤ 4 ∧ s.all isHex = true then some (hexadecimal s) else none

/-- Four octets as the two groups that they fill. -/
def quadGroups (q : V4) : List ℕ :=
  [256 * (q 0).toNat + (q 1).toNat, 256 * (q 2).toNat + (q 3).toNat]

/-- The last field: a group, or four octets where they may stand. -/
def lastField (octets : Bool) (s : Bytes) : Option (List ℕ) :=
  match hexGroup s with
  | some g => some [g]
  | none => if octets then (parse4 s).map quadGroups else none

def parseFields (octets : Bool) : List Bytes → Option (List ℕ)
  | [] => some []
  | [s] => lastField octets s
  | s :: rest =>
      match hexGroup s, parseFields octets rest with
      | some g, some gs => some (g :: gs)
      | _, _ => none

/-- What stands on one side of an ellipsis; it may be nothing. -/
def parseSide (octets : Bool) (s : Bytes) : Option (List ℕ) :=
  if s = [] then some [] else parseFields octets (s.splitOn colon)

def cutEllipsis : Bytes → Option (Bytes × Bytes)
  | a :: b :: rest =>
      if a = colon ∧ b = colon then some ([], rest)
      else (cutEllipsis (b :: rest)).map fun p => (a :: p.1, p.2)
  | _ => none

def ofGroups (l : List ℕ) : V6 := fun i =>
  if i.val % 2 = 0 then UInt8.ofNat (l.getD (i.val / 2) 0 / 256)
  else UInt8.ofNat (l.getD (i.val / 2) 0)

/-- An ellipsis stands for at least one group. -/
def expand (front back : List ℕ) : Option V6 :=
  if front.length + back.length ≤ 7 then
    some (ofGroups (front ++ List.replicate (8 - front.length - back.length) 0 ++ back))
  else none

def parse6 (s : Bytes) : Option V6 :=
  match cutEllipsis s with
  | none =>
      match parseFields true (s.splitOn colon) with
      | some l => if l.length = 8 then some (ofGroups l) else none
      | none => none
  | some (front, back) =>
      match parseSide false front, parseSide true back with
      | some l, some m => expand l m
      | _, _ => none

def percent : UInt8 := 37

def slash : UInt8 := 47

inductive Addr
  | v4 (bytes : V4)
  | v6 (bytes : V6) (zone : Bytes)
  deriving DecidableEq

/-- `netip.ParseAddr`. A zone starts at the first percent sign and may not be empty. -/
def ParseAddr (s : Bytes) : Option Addr :=
  match Cut s percent with
  | none =>
      match parse4 s with
      | some q => some (.v4 q)
      | none => (parse6 s).map fun b => .v6 b []
  | some (address, zone) => if zone = [] then none else (parse6 address).map fun b => .v6 b zone

def ParseIP (s : Bytes) : Option IP :=
  match ParseAddr s with
  | some (.v4 q) => some (.IPv4 q)
  | some (.v6 b []) => some (.v6 b)
  | _ => none

def Addr.Unmap : Addr → Addr
  | .v4 q => .v4 q
  | .v6 b zone => if isMapped b then .v4 (low b) else .v6 b zone

def Addr.BitLen : Addr → ℕ
  | .v4 _ => 32
  | .v6 _ _ => 128

structure Prefix where
  addr : Addr
  bits : ℕ

def prefixLength (s : Bytes) : Option ℕ :=
  if s ≠ [] ∧ s.all isDigit = true ∧ (s.length = 1 ∨ s.head? ≠ some 48) then some (decimal s)
  else none

variable {s : Bytes}

theorem prefixLength_eq_some {n : ℕ} (h : prefixLength s = some n) : n = decimal s := by
  rw [prefixLength] at h
  split at h
  · exact (Option.some.inj h).symm
  · cases h

def ParsePrefix (s : Bytes) : Option Prefix :=
  match cutLast s slash with
  | none => none
  | some (address, length) =>
      match ParseAddr address, prefixLength length with
      | some (.v4 q), some bits => if bits ≤ 32 then some ⟨.v4 q, bits⟩ else none
      | some (.v6 b []), some bits => if bits ≤ 128 then some ⟨.v6 b [], bits⟩ else none
      | _, _ => none

/-- The families have to be the same, and an address with a zone is in no block. -/
def Prefix.Contains (p : Prefix) : Addr → Bool
  | .v4 x =>
      match p.addr with
      | .v4 q => agree (mask p.bits) q x
      | .v6 _ _ => false
  | .v6 x zone =>
      match p.addr with
      | .v4 _ => false
      | .v6 b _ => decide (zone = []) && agree (mask p.bits) b x

def Prefix.Masked (p : Prefix) : Prefix where
  addr := match p.addr with
    | .v4 q => .v4 fun i => q i &&& mask p.bits i
    | .v6 b _ => .v6 (fun i => b i &&& mask p.bits i) []
  bits := p.bits

theorem Prefix.Contains_Masked (p : Prefix) (a : Addr) : p.Masked.Contains a = p.Contains a := by
  obtain ⟨addr, bits⟩ := p
  cases addr <;> cases a <;> simp [Prefix.Masked, Prefix.Contains, agree, and_and_self]

def openBracket : UInt8 := 91

def closeBracket : UInt8 := 93

def SplitHostPort (s : Bytes) : Option (Bytes × Bytes) :=
  match cutLast s colon with
  | none => none
  | some (before, port) =>
      if before.head? = some openBracket then
        match Cut before closeBracket with
        | some (opened, []) =>
            if openBracket ∈ opened.tail ∨ openBracket ∈ port ∨ closeBracket ∈ port then none
            else some (opened.tail, port)
        | _ => none
      else if colon ∈ before ∨ openBracket ∈ before ∨ closeBracket ∈ before ∨
          openBracket ∈ port ∨ closeBracket ∈ port then none
      else some (before, port)

/-- A byte that can stand in the text of an address. -/
def isAddressByte (b : UInt8) : Bool := isHex b || b == dot || b == colon

theorem isHex_of_isDigit {b : UInt8} (h : isDigit b = true) : isHex b = true := by
  simp only [isDigit, Bool.and_eq_true, decide_eq_true_eq] at h
  simp [isHex, hexValue, h]

theorem octet_eq_some {x : UInt8} (h : octet s = some x) :
    s ≠ [] ∧ s.all isDigit = true ∧ x = UInt8.ofNat (decimal s) := by
  rw [octet] at h
  split at h
  · rename_i accepted
    exact ⟨accepted.1, accepted.2.1, (Option.some.inj h).symm⟩
  · cases h

theorem digits_of_octet {x : UInt8} (h : octet s = some x) :
    ∀ b ∈ s, isDigit b = true := List.all_eq_true.mp (octet_eq_some h).2.1

variable {b : V6} {q : V4} {octets : Bool} {l : List ℕ}

theorem quad_eq_some {a b c d : Bytes} (h : quad a b c d = some q) :
    ∃ w x y z, octet a = some w ∧ octet b = some x ∧ octet c = some y ∧ octet d = some z ∧
      q = ![w, x, y, z] := by
  rw [quad] at h
  split at h
  · rename_i w x y z ha hb hc hd
    exact ⟨w, x, y, z, ha, hb, hc, hd, (Option.some.inj h).symm⟩
  · cases h

theorem bytes_of_parse4 (h : parse4 s = some q) :
    ∀ b ∈ s, isDigit b = true ∨ b = dot := by
  intro b inside
  by_cases other : b = dot
  · exact .inr other
  · obtain ⟨piece, listed, inside⟩ := exists_mem_splitOn inside other
    rw [parse4] at h
    split at h
    · rename_i w x y z pieces
      obtain ⟨_, _, _, _, hw, hx, hy, hz, -⟩ := quad_eq_some h
      simp only [pieces, List.mem_cons, List.not_mem_nil, or_false] at listed
      obtain rfl | rfl | rfl | rfl := listed
      · exact .inl (digits_of_octet hw b inside)
      · exact .inl (digits_of_octet hx b inside)
      · exact .inl (digits_of_octet hy b inside)
      · exact .inl (digits_of_octet hz b inside)
    · cases h

theorem colon_not_mem_of_parse4 (h : parse4 s = some q) : colon ∉ s := by
  intro inside
  exact absurd (bytes_of_parse4 h colon inside) (by decide)

theorem hex_of_hexGroup {g : ℕ} (h : hexGroup s = some g) :
    ∀ b ∈ s, isHex b = true := by
  rw [hexGroup] at h
  split at h
  · rename_i accepted
    exact List.all_eq_true.mp accepted.2.2
  · cases h

theorem lastField_spec (h : lastField octets s = some l) :
    (∀ b ∈ s, isAddressByte b = true) ∧ l.length ≤ 2 := by
  rw [lastField] at h
  split at h
  · rename_i g group
    cases h
    exact ⟨fun b inside => by simp [isAddressByte, hex_of_hexGroup group b inside], by simp⟩
  · split at h
    · obtain ⟨q, parsed, rfl⟩ := Option.map_eq_some_iff.mp h
      refine ⟨fun b inside => ?_, by simp [quadGroups]⟩
      obtain digit | rfl := bytes_of_parse4 parsed b inside
      · simp [isAddressByte, isHex_of_isDigit digit]
      · rfl
    · cases h

theorem parseFields_spec {fields : List Bytes} (h : parseFields octets fields = some l) :
    (∀ s ∈ fields, ∀ b ∈ s, isAddressByte b = true) ∧ l.length ≤ fields.length + 1 := by
  induction fields generalizing l with
  | nil =>
    cases h
    simp
  | cons s rest ih =>
    cases rest with
    | nil =>
      obtain ⟨bytes, groups⟩ := lastField_spec h
      exact ⟨by simpa using bytes, groups⟩
    | cons s' rest =>
      rw [parseFields] at h
      · split at h
        · rename_i g gs group later
          obtain ⟨bytes, groups⟩ := ih later
          cases h
          refine ⟨List.forall_mem_cons.mpr ⟨fun b inside => ?_, bytes⟩, by simpa using groups⟩
          simp [isAddressByte, hex_of_hexGroup group b inside]
        · cases h
      · simp

theorem parseSide_spec (h : parseSide octets s = some l) :
    ∀ b ∈ s, isAddressByte b = true := by
  intro b inside
  rw [parseSide, if_neg (List.ne_nil_of_mem inside)] at h
  by_cases other : b = colon
  · rw [other]
    rfl
  · obtain ⟨piece, listed, inside⟩ := exists_mem_splitOn inside other
    exact (parseFields_spec h).1 piece listed b inside

theorem cutEllipsis_eq_some {s front back : Bytes} (h : cutEllipsis s = some (front, back)) :
    s = front ++ colon :: colon :: back := by
  induction s generalizing front with
  | nil => cases h
  | cons a s ih =>
    cases s with
    | nil => cases h
    | cons b rest =>
      rw [cutEllipsis] at h
      split at h
      · rename_i both
        cases h
        rw [both.1, both.2, List.nil_append]
      · obtain ⟨⟨front, back⟩, later, same⟩ := Option.map_eq_some_iff.mp h
        cases same
        rw [ih later, List.cons_append]

theorem parse6_spec (h : parse6 s = some b) :
    (∀ x ∈ s, isAddressByte x = true) ∧ 2 ≤ s.count colon := by
  rw [parse6] at h
  split at h
  · split at h
    · rename_i l fields
      split at h
      · rename_i eight
        obtain ⟨bytes, groups⟩ := parseFields_spec fields
        rw [length_splitOn] at groups
        refine ⟨fun x inside => ?_, by omega⟩
        by_cases other : x = colon
        · rw [other]
          rfl
        · obtain ⟨piece, listed, inside⟩ := exists_mem_splitOn inside other
          exact bytes piece listed x inside
      · cases h
    · cases h
  · rename_i front back cut
    split at h
    · rename_i l m before after
      rw [cutEllipsis_eq_some cut]
      refine ⟨?_, by simp [List.count_append]; omega⟩
      rw [List.forall_mem_append, List.forall_mem_cons, List.forall_mem_cons]
      exact ⟨parseSide_spec before, rfl, rfl, parseSide_spec after⟩
    · cases h

theorem ParseIP_cases {ip : IP} (h : ParseIP s = some ip) :
    (∃ q, parse4 s = some q ∧ ip = .IPv4 q) ∨ ∃ b, parse6 s = some b ∧ ip = .v6 b := by
  rw [ParseIP, ParseAddr] at h
  cases cut : Cut s percent with
  | none =>
    rw [cut] at h
    cases four : parse4 s with
    | some q =>
      simp only [four, Option.some.injEq] at h
      exact .inl ⟨q, rfl, h.symm⟩
    | none =>
      cases six : parse6 s with
      | some b =>
        simp only [four, six, Option.map_some, Option.some.injEq] at h
        exact .inr ⟨b, rfl, h.symm⟩
      | none => simp [four, six] at h
  | some p =>
    obtain ⟨address, zone⟩ := p
    rw [cut] at h
    by_cases empty : zone = []
    · simp [empty] at h
    · cases six : parse6 address with
      | some b => simp [empty, six] at h
      | none => simp [empty, six] at h

theorem ParseAddr_of_alphabet (h : ∀ b ∈ s, isAddressByte b = true) :
    ParseAddr s = match parse4 s with
      | some q => some (.v4 q)
      | none => (parse6 s).map fun b => .v6 b [] := by
  have plain : percent ∉ s := fun inside => absurd (h _ inside) (by decide)
  rw [ParseAddr, Cut_eq_none plain]

theorem ParseIP_of_parse4 (h : parse4 s = some q) : ParseIP s = some (.IPv4 q) := by
  have plain : percent ∉ s := fun inside => absurd (bytes_of_parse4 h _ inside) (by decide)
  rw [ParseIP, ParseAddr, Cut_eq_none plain, h]

theorem parse4_eq_none_of_colon (h : colon ∈ s) : parse4 s = none := by
  by_contra parsed
  obtain ⟨q, parsed⟩ := Option.ne_none_iff_exists'.mp parsed
  exact colon_not_mem_of_parse4 parsed h

theorem colon_mem_of_parse6 (h : parse6 s = some b) : colon ∈ s :=
  List.count_pos_iff.mp (Nat.lt_of_lt_of_le (by decide) (parse6_spec h).2)

theorem parse4_eq_none_of_parse6 (h : parse6 s = some b) :
    parse4 s = none := parse4_eq_none_of_colon (colon_mem_of_parse6 h)

theorem ParseIP_of_parse6 (h : parse6 s = some b) : ParseIP s = some (.v6 b) := by
  rw [ParseIP, ParseAddr_of_alphabet (parse6_spec h).1, parse4_eq_none_of_parse6 h, h]
  rfl

theorem ParseAddr_of_ParseIP {ip : IP} (h : ParseIP s = some ip) :
    (∃ q, parse4 s = some q ∧ ip = .IPv4 q ∧ ParseAddr s = some (.v4 q)) ∨
      ∃ b, parse6 s = some b ∧ ip = .v6 b ∧ ParseAddr s = some (.v6 b []) := by
  obtain ⟨q, four, rfl⟩ | ⟨b, six, rfl⟩ := ParseIP_cases h
  · have plain : percent ∉ s := fun inside => absurd (bytes_of_parse4 four _ inside) (by decide)
    exact .inl ⟨q, four, rfl, by rw [ParseAddr, Cut_eq_none plain, four]⟩
  · refine .inr ⟨b, six, rfl, ?_⟩
    rw [ParseAddr_of_alphabet (parse6_spec six).1, parse4_eq_none_of_parse6 six, six]
    rfl

section Prefixes

variable {address length : Bytes} {n : ℕ}

theorem ParsePrefix_v4 {q : V4} (last : slash ∉ length) (read : ParseAddr address = some (.v4 q))
    (bits : prefixLength length = some n) (fits : n ≤ 32) :
    ParsePrefix (address ++ slash :: length) = some ⟨.v4 q, n⟩ := by
  rw [ParsePrefix, cutLast_append last]
  simp only [read, bits, fits, if_true]

theorem ParsePrefix_v6 {b : V6} (last : slash ∉ length) (read : ParseAddr address = some (.v6 b []))
    (bits : prefixLength length = some n) (fits : n ≤ 128) :
    ParsePrefix (address ++ slash :: length) = some ⟨.v6 b [], n⟩ := by
  rw [ParsePrefix, cutLast_append last]
  simp only [read, bits, fits, if_true]

theorem ParsePrefix_eq_none (last : slash ∉ length)
    (h : ParseAddr address = none ∨ prefixLength length = none) :
    ParsePrefix (address ++ slash :: length) = none := by
  rw [ParsePrefix, cutLast_append last]
  obtain missing | missing := h
  · simp only [missing]
  · simp only [missing]
    split <;> simp_all

end Prefixes

theorem isAddressByte_of_ParseIP {ip : IP} (h : ParseIP s = some ip) :
    ∀ b ∈ s, isAddressByte b = true := by
  intro b inside
  obtain ⟨q, four, -⟩ | ⟨_, six, -⟩ := ParseIP_cases h
  · obtain digit | rfl := bytes_of_parse4 four b inside
    · simp [isAddressByte, isHex_of_isDigit digit]
    · rfl
  · exact (parse6_spec six).1 b inside

theorem colons_of_ParseIP {ip : IP} (h : ParseIP s = some ip) :
    colon ∉ s ∨ 2 ≤ s.count colon := by
  obtain ⟨q, four, -⟩ | ⟨_, six, -⟩ := ParseIP_cases h
  · exact .inl (colon_not_mem_of_parse4 four)
  · exact .inr (parse6_spec six).2

theorem bracket_not_mem (h : ∀ b ∈ s, isAddressByte b = true) :
    openBracket ∉ s ∧ closeBracket ∉ s :=
  ⟨fun inside => absurd (h _ inside) (by decide), fun inside => absurd (h _ inside) (by decide)⟩

section HostPortLemmas

variable {s port : Bytes} {ip : IP}

theorem SplitHostPort_bare (h : ParseIP s = some ip) : SplitHostPort s = none := by
  obtain ⟨opened, closed⟩ := bracket_not_mem (isAddressByte_of_ParseIP h)
  by_cases inside : colon ∈ s
  · obtain ⟨before, port, rfl, last⟩ := exists_last inside
    have many : 2 ≤ (before ++ colon :: port).count colon :=
      (colons_of_ParseIP h).resolve_left (not_not.mpr inside)
    have again : colon ∈ before := by
      rw [List.count_append, List.count_cons_self, List.count_eq_zero.mpr last] at many
      exact List.count_pos_iff.mp (by omega)
    have outside : before.head? ≠ some openBracket := fun head =>
      opened (List.mem_append_left _ (List.mem_of_head? head))
    simp [SplitHostPort, cutLast_append last, outside, again]
  · rw [SplitHostPort, cutLast_eq_none inside]

theorem SplitHostPort_bracketed (h : ∀ b ∈ s, isAddressByte b = true) :
    SplitHostPort (openBracket :: s ++ [closeBracket]) = none := by
  obtain ⟨-, closed⟩ := bracket_not_mem h
  by_cases inside : colon ∈ s
  · obtain ⟨before, port, rfl, last⟩ := exists_last inside
    have shape : openBracket :: (before ++ colon :: port) ++ [closeBracket] =
        (openBracket :: before) ++ colon :: (port ++ [closeBracket]) := by simp
    have last' : colon ∉ port ++ [closeBracket] := by simpa [last] using by decide
    have unclosed : closeBracket ∉ openBracket :: before := by
      rw [List.mem_cons, not_or]
      exact ⟨by decide, fun early => closed (List.mem_append_left _ early)⟩
    rw [shape, SplitHostPort, cutLast_append last']
    simp [Cut_eq_none unclosed]
  · have absent : colon ∉ openBracket :: s ++ [closeBracket] := by simpa [inside] using by decide
    rw [SplitHostPort, cutLast_eq_none absent]

theorem SplitHostPort_port (h : ∀ b ∈ s, isAddressByte b = true) (single : colon ∉ port)
    (opened : openBracket ∉ port) (closed : closeBracket ∉ port) :
    SplitHostPort (openBracket :: s ++ closeBracket :: colon :: port) = some (s, port) := by
  have shape : openBracket :: s ++ closeBracket :: colon :: port =
      (openBracket :: s ++ [closeBracket]) ++ colon :: port := by simp
  obtain ⟨inner, outer⟩ := bracket_not_mem h
  have unclosed : closeBracket ∉ openBracket :: s := by
    rw [List.mem_cons, not_or]
    exact ⟨by decide, outer⟩
  rw [shape, SplitHostPort, cutLast_append single]
  have cut : Cut (openBracket :: s ++ [closeBracket]) closeBracket = some (openBracket :: s, []) :=
    Cut_append unclosed
  have head : (openBracket :: s ++ [closeBracket]).head? = some openBracket := rfl
  simp only [cut, head, if_true]
  exact if_neg (by simp [inner, opened, closed])

theorem SplitHostPort_quad {q : V4} (h : parse4 s = some q) (single : colon ∉ port)
    (opened : openBracket ∉ port) (closed : closeBracket ∉ port) :
    SplitHostPort (s ++ colon :: port) = some (s, port) := by
  have bytes : ∀ b ∈ s, isAddressByte b = true := by
    intro b inside
    obtain digit | rfl := bytes_of_parse4 h b inside
    · simp [isAddressByte, isHex_of_isDigit digit]
    · rfl
  obtain ⟨inner, outer⟩ := bracket_not_mem bytes
  have outside : s.head? ≠ some openBracket := fun head => inner (List.mem_of_head? head)
  rw [SplitHostPort, cutLast_append single]
  simp only [outside, if_false]
  rw [if_neg (by simp [colon_not_mem_of_parse4 h, inner, outer, opened, closed])]

end HostPortLemmas

end Hookubit.Data.IpText
