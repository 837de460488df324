/- sources: egress/ssrf.go (BlockedTargetError, metadataAddrs, Guard, CheckIP, judgeDial,
     embeddedIPv4)
   digest: Which addresses a delivery may be sent to, under every policy and under none. -/

import Hookubit.Data.IpText

/-!
A refusal is an error value and a permission its absence. `CheckIP` calls itself on an embedded
address, which embeds no further one, so the recursion is unrolled once; `CheckIP_eq` is the
source's own equation.
-/

set_option autoImplicit false
set_option relaxedAutoImplicit false

namespace Hookubit.Egress.Destination

open Data.IpAddress Data.IpText
open Data.Utf8 (Bytes encode)

inductive Code
  | noAddress | metadata | transition | unspecifiedAddress | loopback | linkLocal | multicast
  | privateNetwork | cgnat | protocolAssignments | documentation | benchmarking | reserved
  | ipv6Special | network | dialAddress
  deriving DecidableEq

structure BlockedTargetError where
  Target : Bytes
  Reason : Bytes
  Code : Code
  deriving DecidableEq

def metadataAddrs : List IP :=
  [.IPv4 ![169, 254, 169, 254],
    .v6 ![0xfd, 0, 0x0e, 0xc2, 0, 0, 0, 0, 0, 0, 0, 0, 0, 0, 0x02, 0x54],
    .IPv4 ![100, 100, 100, 200]]

/-- Which destinations are permitted beyond public ones. -/
structure Guard where
  AllowPrivateNetworks : Bool
  Allowlist : List IPNet

def Guard.zero : Guard := ⟨false, []⟩

def refuse (target : Bytes) (reason : String) (code : Code) : Option BlockedTargetError :=
  some ⟨target, encode reason.toList, code⟩

def embeddedIPv4 (ip : IP) : Option V4 :=
  match ip.To4 with
  | some _ => none
  | none =>
      let v6 := ip.To16
      if v6 0 = 0x20 ∧ v6 1 = 0x02 then some ![v6 2, v6 3, v6 4, v6 5]
      else if v6 0 = 0x00 ∧ v6 1 = 0x64 ∧ v6 2 = 0xff ∧ v6 3 = 0x9b then some (low v6)
      else none

def checkMetadata (ip : IP) : Option BlockedTargetError :=
  if metadataAddrs.any (ip.Equal ·) then
    refuse ip.String "cloud instance metadata address" .metadata
  else none

/-- The predicates of the net package. -/
def checkSpecial (ip : IP) : Option BlockedTargetError :=
  if ip.IsUnspecified then refuse ip.String "unspecified address" .unspecifiedAddress
  else if ip.IsLoopback then refuse ip.String "loopback address" .loopback
  else if ip.IsLinkLocalUnicast || ip.IsLinkLocalMulticast then
    refuse ip.String "link-local address" .linkLocal
  else if ip.IsInterfaceLocalMulticast || ip.IsMulticast then
    refuse ip.String "multicast address" .multicast
  else if ip.IsPrivate then refuse ip.String "private address" .privateNetwork
  else none

/-- Further IPv4 ranges that are not public. -/
def checkRanges4 (target : Bytes) (v4 : V4) : Option BlockedTargetError :=
  if v4 0 = 100 ∧ 64 ≤ v4 1 ∧ v4 1 ≤ 127 then
    refuse target "carrier-grade NAT range (100.64.0.0/10)" .cgnat
  else if v4 0 = 192 ∧ v4 1 = 0 ∧ v4 2 = 0 then
    refuse target "IETF protocol assignments (192.0.0.0/24)" .protocolAssignments
  else if (v4 0 = 192 ∧ v4 1 = 0 ∧ v4 2 = 2) ∨ (v4 0 = 198 ∧ v4 1 = 51 ∧ v4 2 = 100) ∨
      (v4 0 = 203 ∧ v4 1 = 0 ∧ v4 2 = 113) then
    refuse target "documentation range" .documentation
  else if v4 0 = 198 ∧ (v4 1 = 18 ∨ v4 1 = 19) then
    refuse target "benchmarking range (198.18.0.0/15)" .benchmarking
  else if 240 ≤ v4 0 then refuse target "reserved range (240.0.0.0/4)" .reserved
  else none

/-- Further ranges of IPv6 alone. -/
def checkRanges6 (target : Bytes) (ip : V6) : Option BlockedTargetError :=
  if ip 0 = 0x01 ∧ ip 1 = 0 ∧ ip 2 = 0 ∧ ip 3 = 0 ∧ ip 4 = 0 ∧ ip 5 = 0 ∧ ip 6 = 0 ∧ ip 7 = 0 then
    refuse target "IPv6 discard prefix (100::/64)" .ipv6Special
  else if ip 0 = 0x20 ∧ ip 1 = 0x01 ∧ ip 2 ≤ 0x01 then
    refuse target "IPv6 special-purpose range (2001::/23)" .ipv6Special
  else if ip 0 = 0x20 ∧ ip 1 = 0x01 ∧ ip 2 = 0x0d ∧ ip 3 = 0xb8 then
    refuse target "IPv6 documentation range (2001:db8::/32)" .documentation
  else none

def checkRanges (ip : IP) : Option BlockedTargetError :=
  match ip.To4 with
  | some v4 => checkRanges4 ip.String v4
  | none => checkRanges6 ip.String ip.To16

/-- What follows the checks that no policy lifts. -/
def Guard.checkPolicy (g : Guard) (ip : IP) : Option BlockedTargetError :=
  if g.Allowlist.any (·.Contains ip) then none
  else if g.AllowPrivateNetworks then none
  else (checkSpecial ip).or (checkRanges ip)

/-- `CheckIP` of an address that embeds no other one. -/
def Guard.checkPlain (g : Guard) (ip : IP) : Option BlockedTargetError :=
  (checkMetadata ip).or (g.checkPolicy ip)

/-- A transition address is refused with the one that traffic to it reaches. -/
def transitionError (ip : IP) (embedded : V4) : BlockedTargetError where
  Target := ip.String
  Reason := encode "transition address embedding ".toList ++ (IP.IPv4 embedded).String
  Code := .transition

def Guard.checkTransition (g : Guard) (ip : IP) : Option BlockedTargetError :=
  (embeddedIPv4 ip).bind fun embedded =>
    (g.checkPlain (.IPv4 embedded)).map fun _ => transitionError ip embedded

def Guard.CheckIP (g : Guard) : Option IP → Option BlockedTargetError
  | none => refuse (encode "<nil>".toList) "no resolved address" .noAddress
  | some ip => ((checkMetadata ip).or (g.checkTransition ip)).or (g.checkPolicy ip)

/-- `network` and `address` are what the dialer passes to its control function. -/
def Guard.judgeDial (g : Guard) (network address : Bytes) : Option BlockedTargetError :=
  if network = encode "tcp".toList ∨ network = encode "tcp4".toList ∨
      network = encode "tcp6".toList then
    match SplitHostPort address with
    | none => refuse address "unparseable dial address" .dialAddress
    | some (host, _) => g.CheckIP (ParseIP host)
  else
    some ⟨network, encode "network ".toList ++ network ++ encode " is not permitted".toList,
      .network⟩

section Unrolled

variable {g : Guard} {ip : IP}

theorem embeddedIPv4_IPv4 (q : V4) : embeddedIPv4 (.IPv4 q) = none := by
  rw [embeddedIPv4, IP.To4_IPv4]

theorem CheckIP_IPv4 (q : V4) : g.CheckIP (some (.IPv4 q)) = g.checkPlain (.IPv4 q) := by
  rw [Guard.CheckIP, Guard.checkTransition, embeddedIPv4_IPv4, Option.bind_none, Option.or_none,
    Guard.checkPlain]

theorem CheckIP_eq (g : Guard) (ip : IP) : g.CheckIP (some ip) =
    ((checkMetadata ip).or ((embeddedIPv4 ip).bind fun embedded =>
      (g.CheckIP (some (.IPv4 embedded))).map fun _ => transitionError ip embedded)).or
      (g.checkPolicy ip) := by
  simp only [CheckIP_IPv4]
  rfl

theorem CheckIP_eq_none : g.CheckIP (some ip) = none ↔
    checkMetadata ip = none ∧ (∀ q ∈ embeddedIPv4 ip, g.checkPlain (.IPv4 q) = none) ∧
      g.checkPolicy ip = none := by
  rw [Guard.CheckIP, Option.or_eq_none_iff, Option.or_eq_none_iff, and_assoc,
    Guard.checkTransition]
  simp

end Unrolled

section Metadata

variable {g : Guard} {ip : IP}

/-- The address, in either form, is that of a metadata service. -/
def IsMetadata (ip : IP) : Prop := ∃ m ∈ metadataAddrs, ip.To16 = m.To16

/-- `2002::/16`, and the IPv4 address in one of it. -/
def sixToFour : IPNet := cidr (.v6 ![0x20, 0x02, 0, 0, 0, 0, 0, 0, 0, 0, 0, 0, 0, 0, 0, 0]) 16

def sixToFourTarget (ip : IP) : V4 := ![ip.To16 2, ip.To16 3, ip.To16 4, ip.To16 5]

/-- `64:ff9b::/96`, and the IPv4 address in one of it. -/
def nat64 : IPNet := cidr (.v6 ![0, 0x64, 0xff, 0x9b, 0, 0, 0, 0, 0, 0, 0, 0, 0, 0, 0, 0]) 96

def nat64Target (ip : IP) : V4 := low ip.To16

/-- Traffic to the address reaches no metadata service. -/
structure Safe (ip : IP) : Prop where
  itself : ¬IsMetadata ip
  short : ∀ q, ip.To4 = some q → ¬IsMetadata (.v4 q)
  sixToFour : sixToFour.Contains ip = true → ¬IsMetadata (.v4 (sixToFourTarget ip))
  nat64 : nat64.Contains ip = true → ¬IsMetadata (.v4 (nat64Target ip))

theorem checkMetadata_eq_none : checkMetadata ip = none ↔ ¬IsMetadata ip := by
  simp [checkMetadata, refuse, IsMetadata, IP.Equal]

theorem isMetadata_congr {a b : IP} (same : a.To16 = b.To16) : IsMetadata a ↔ IsMetadata b := by
  rw [IsMetadata, IsMetadata, same]

theorem not_isMetadata_of_plain {q : V4} (h : g.checkPlain (.IPv4 q) = none) :
    ¬IsMetadata (.v4 q) := by
  rw [Guard.checkPlain, Option.or_eq_none_iff, checkMetadata_eq_none] at h
  exact (isMetadata_congr (a := .IPv4 q) (b := .v4 q) rfl).not.mp h.1

theorem embeddedIPv4_of_sixToFour (h : sixToFour.Contains ip = true) :
    embeddedIPv4 ip = some (sixToFourTarget ip) := by
  obtain ⟨long, same⟩ := (contains_cidr_v6 (by decide)).mp h
  have first := byte_eq_of_agree same 0 (by decide)
  have second := byte_eq_of_agree same 1 (by decide)
  rw [embeddedIPv4, long]
  exact if_pos ⟨first, second⟩

theorem embeddedIPv4_of_nat64 (h : nat64.Contains ip = true) :
    embeddedIPv4 ip = some (nat64Target ip) := by
  obtain ⟨long, same⟩ := (contains_cidr_v6 (by decide)).mp h
  have first : ip.To16 0 = 0 := byte_eq_of_agree same 0 (by decide)
  have rest : ip.To16 1 = 0x64 ∧ ip.To16 2 = 0xff ∧ ip.To16 3 = 0x9b :=
    ⟨byte_eq_of_agree same 1 (by decide), byte_eq_of_agree same 2 (by decide),
      byte_eq_of_agree same 3 (by decide)⟩
  rw [embeddedIPv4, long]
  dsimp only
  rw [if_neg (by simp [first]), if_pos ⟨first, rest⟩]
  rfl

theorem safe_of_permitted (h : g.CheckIP (some ip) = none) : Safe ip := by
  obtain ⟨direct, embedded, -⟩ := CheckIP_eq_none.mp h
  rw [checkMetadata_eq_none] at direct
  refine ⟨direct, fun q short => ?_, fun inside => ?_, fun inside => ?_⟩
  · exact (isMetadata_congr (b := .v4 q) (IP.To16_of_To4 short)).not.mp direct
  · exact not_isMetadata_of_plain (embedded _ (embeddedIPv4_of_sixToFour inside))
  · exact not_isMetadata_of_plain (embedded _ (embeddedIPv4_of_nat64 inside))

end Metadata

/-- Under no policy does a permitted address lead to a metadata service, whether it is judged as an
address or as the text that the dialer passes. -/
theorem metadata_unreachable (g : Guard) :
    (∀ ip, g.CheckIP (some ip) = none → Safe ip) ∧
      ∀ network address, g.judgeDial network address = none →
        ∃ host port ip, SplitHostPort address = some (host, port) ∧ ParseIP host = some ip ∧
          Safe ip := by
  refine ⟨fun ip permitted => safe_of_permitted permitted, fun network address permitted => ?_⟩
  rw [Guard.judgeDial] at permitted
  split at permitted
  · split at permitted
    · cases permitted
    · rename_i host port parts
      cases parsed : ParseIP host with
      | none =>
        rw [parsed] at permitted
        cases permitted
      | some ip =>
        rw [parsed] at permitted
        exact ⟨host, port, ip, parts, parsed, safe_of_permitted permitted⟩
  · cases permitted

/-- The NAT64 form of `10.0.0.1` under a policy that lifts the private ranges, and a dial to the 6to4
form of a public address under none: both are permitted and so are safe. -/
theorem transition_addresses_safe :
    let inside : IP := .v6 ![0, 0x64, 0xff, 0x9b, 0, 0, 0, 0, 0, 0, 0, 0, 10, 0, 0, 1]
    let address := encode "[2002:cb00:7209::1]:443".toList
    ((Guard.mk true []).CheckIP (some inside) = none ∧ Safe inside) ∧
      Guard.zero.judgeDial (encode "tcp6".toList) address = none ∧
      ∃ host port ip, SplitHostPort address = some (host, port) ∧ ParseIP host = some ip ∧
        Safe ip := by
  intro inside address
  have permitted : (Guard.mk true []).CheckIP (some inside) = none := by decide +kernel
  have dialled : Guard.zero.judgeDial (encode "tcp6".toList) address = none := by decide +kernel
  exact ⟨⟨permitted, (metadata_unreachable ⟨true, []⟩).1 inside permitted⟩, dialled,
    (metadata_unreachable .zero).2 _ address dialled⟩

end Hookubit.Egress.Destination
