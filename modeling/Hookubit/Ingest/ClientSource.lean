/- sources: ingest/source.go (ClientAddress, ClientIP, hostOnly, bucketKey)
   digest: The address that a request is charged to, behind a known number of proxies. -/

import Hookubit.Data.IpText

set_option autoImplicit false
set_option relaxedAutoImplicit false

namespace Hookubit.Ingest.ClientSource

open Data.ByteText Data.IpAddress Data.IpText
open Data.Utf8 (Bytes encode)

def comma : UInt8 := 44

/-- `XForwardedFor` are the header's lines in the order in which they were sent. -/
structure Request where
  RemoteAddr : Bytes
  XForwardedFor : List Bytes

/-- `strings.TrimSuffix` and `strings.TrimPrefix`, each with a text of one byte. -/
def TrimSuffix (s : Bytes) (b : UInt8) : Bytes := if s.getLast? = some b then s.dropLast else s

def TrimPrefix (s : Bytes) (b : UInt8) : Bytes := if s.head? = some b then s.tail else s

def unknown : Bytes := encode "unknown".toList

def hostOnly (addr : Bytes) : Bytes :=
  if addr = [] then unknown
  else
    let addr := match SplitHostPort addr with
      | some (host, _) => host
      | none => addr
    let addr := TrimPrefix (TrimSuffix addr closeBracket) openBracket
    if addr = [] then unknown else addr

/-- What one line of the header names. -/
def fragments (header : Bytes) : List Bytes :=
  ((header.splitOn comma).map TrimSpace).filter (· ≠ [])

def ClientIP (r : Request) (hops : ℤ) : Bytes :=
  let peer := hostOnly r.RemoteAddr
  if hops ≤ 0 then peer
  else
    let chain := r.XForwardedFor.flatMap fragments ++ [peer]
    let idx := (chain.length : ℤ) - 1 - hops
    let idx := if idx < 0 then 0 else idx
    hostOnly (chain.getD idx.toNat [])

def bucketKey (host : Bytes) : Bytes :=
  match ParseIP host with
  | none => encode "ip:".toList ++ host
  | some ip =>
      match ip.To4 with
      | some v4 => encode "ip:".toList ++ (IP.v4 v4).String
      | none =>
          let masked := IP.v6 fun i => ip.To16 i &&& mask 64 i
          encode "ip6:".toList ++ masked.String ++ encode "/64".toList

def ClientAddress (r : Request) (hops : ℤ) : Bytes := bucketKey (ClientIP r hops)

/-- What a trusted proxy appends: an entry that is not blank and has no comma, after a comma on the
last line or on a line of its own. -/
structure Hop where
  entry : Bytes
  joins : Bool
  nonblank : TrimSpace entry ≠ []
  whole : comma ∉ entry

def Hop.forward (lines : List Bytes) (hop : Hop) : List Bytes :=
  match lines.getLast?, hop.joins with
  | some last, true => lines.dropLast ++ [last ++ comma :: hop.entry]
  | _, _ => lines ++ [hop.entry]

/-- The lines that arrive when the client sends these. -/
def forwarded (client : List Bytes) (hops : List Hop) : List Bytes := hops.foldl Hop.forward client

/-- The text that the hop count selects. -/
inductive Presents : Request → ℕ → Bytes → Prop
  | peer (r : Request) : Presents r 0 r.RemoteAddr
  | forwarded (remote : Bytes) (client : List Bytes) (hop : Hop) (nearer : List Hop) :
      Presents ⟨remote, forwarded client (hop :: nearer)⟩ (nearer.length + 1) (TrimSpace hop.entry)

theorem fragments_entry (hop : Hop) : fragments hop.entry = [TrimSpace hop.entry] := by
  rw [fragments, List.splitOn_eq_singleton hop.whole]
  simp [hop.nonblank]

theorem fragments_join (line : Bytes) (hop : Hop) :
    fragments (line ++ comma :: hop.entry) = fragments line ++ [TrimSpace hop.entry] := by
  rw [← fragments_entry]
  simp only [fragments, List.splitOn_append_cons_self, List.map_append, List.filter_append]

theorem fragments_forward (lines : List Bytes) (hop : Hop) :
    (hop.forward lines).flatMap fragments = lines.flatMap fragments ++ [TrimSpace hop.entry] := by
  rw [Hop.forward]
  split
  · rename_i last found _
    obtain ⟨front, rfl⟩ := List.getLast?_eq_some_iff.mp found
    simp [fragments_join]
  · simp [fragments_entry]

theorem fragments_forwarded (client : List Bytes) (hops : List Hop) :
    (forwarded client hops).flatMap fragments =
      client.flatMap fragments ++ hops.map fun hop => TrimSpace hop.entry := by
  induction hops generalizing client with
  | nil => simp [forwarded]
  | cons hop nearer ih =>
    have next : forwarded client (hop :: nearer) = forwarded (hop.forward client) nearer := rfl
    rw [next, ih, fragments_forward, List.append_assoc, List.map_cons, List.singleton_append]

theorem ClientIP_of_presents {r : Request} {hops : ℕ} {text : Bytes} (h : Presents r hops text) :
    ClientIP r hops = hostOnly text := by
  cases h with
  | peer => rfl
  | forwarded remote client hop nearer =>
    have chain : (forwarded client (hop :: nearer)).flatMap fragments ++ [hostOnly remote] =
        client.flatMap fragments ++ TrimSpace hop.entry ::
          ((nearer.map fun hop => TrimSpace hop.entry) ++ [hostOnly remote]) := by
      rw [fragments_forwarded, List.append_assoc, List.map_cons, List.cons_append]
    have positive : ¬((nearer.length + 1 : ℕ) : ℤ) ≤ 0 := by omega
    simp only [ClientIP, positive, if_false, chain, List.length_append, List.length_cons,
      List.length_map, List.length_nil]
    -- The index lands right behind whatever the client sent.
    have behind : (((client.flatMap fragments).length +
      (nearer.length + (0 + 1) + 1) : ℕ) : ℤ) - 1 -
        (nearer.length + 1 : ℕ) = (client.flatMap fragments).length := by omega
    rw [behind, if_neg (by omega), Int.toNat_natCast, List.getD_eq_getElem?_getD,
      List.getElem?_append_right le_rfl, Nat.sub_self, List.getElem?_cons_zero, Option.getD_some]

section Keys

variable {ip : IP} {t port : Bytes}

/-- The texts that stand for an address, with or without a port. -/
inductive Writes : IP → Bytes → Prop
  | bare {ip : IP} {t : Bytes} : ParseIP t = some ip → Writes ip t
  | bracketed {ip : IP} {t : Bytes} : ParseIP t = some ip →
      Writes ip (openBracket :: t ++ [closeBracket])
  | port {ip : IP} {t port : Bytes} : ParseIP t = some ip → colon ∉ port → openBracket ∉ port →
      closeBracket ∉ port → Writes ip (openBracket :: t ++ closeBracket :: colon :: port)
  | quadPort {q : V4} {t port : Bytes} : parse4 t = some q → colon ∉ port → openBracket ∉ port →
      closeBracket ∉ port → Writes (.IPv4 q) (t ++ colon :: port)

/-- One IPv4 address in either form, or two addresses of one `/64`. -/
def SameOrigin (a b : IP) : Prop :=
  match a.To4, b.To4 with
  | some q, some r => q = r
  | none, none => (cidr (.v6 a.To16) 64).Contains b = true
  | _, _ => False

theorem ne_nil_of_ParseIP (h : ParseIP t = some ip) : t ≠ [] := by
  rintro rfl
  cases h

theorem trim_address (h : ∀ b ∈ t, isAddressByte b = true) :
    TrimPrefix (TrimSuffix t closeBracket) openBracket = t := by
  obtain ⟨opened, closed⟩ := bracket_not_mem h
  have last : t.getLast? ≠ some closeBracket := fun at_end => closed (List.mem_of_getLast? at_end)
  have first : t.head? ≠ some openBracket := fun at_start => opened (List.mem_of_head? at_start)
  rw [TrimSuffix, if_neg last, TrimPrefix, if_neg first]

theorem trim_brackets : TrimPrefix (TrimSuffix (openBracket :: t ++ [closeBracket]) closeBracket)
    openBracket = t := by
  rw [TrimSuffix, if_pos List.getLast?_concat, List.dropLast_concat, TrimPrefix]
  exact if_pos rfl

theorem hostOnly_of_host {addr host : Bytes} (present : addr ≠ [])
    (parts : SplitHostPort addr = some (host, port)) (parsed : ParseIP host = some ip) :
    hostOnly addr = host := by
  have trimmed := trim_address (isAddressByte_of_ParseIP parsed)
  simp only [hostOnly, present, parts, trimmed, ne_nil_of_ParseIP parsed, if_false]

theorem hostOnly_of_none {addr : Bytes} (present : addr ≠ []) (absent : SplitHostPort addr = none)
    (trimmed : TrimPrefix (TrimSuffix addr closeBracket) openBracket = t)
    (parsed : ParseIP t = some ip) : hostOnly addr = t := by
  simp only [hostOnly, present, absent, trimmed, ne_nil_of_ParseIP parsed, if_false]

theorem ParseIP_hostOnly {text : Bytes} (h : Writes ip text) :
    ParseIP (hostOnly text) = some ip := by
  cases h with
  | bare parsed =>
    have bytes := isAddressByte_of_ParseIP parsed
    rwa [hostOnly_of_none (ne_nil_of_ParseIP parsed) (SplitHostPort_bare parsed)
      (trim_address bytes) parsed]
  | bracketed parsed =>
    have absent := SplitHostPort_bracketed (isAddressByte_of_ParseIP parsed)
    rwa [hostOnly_of_none (by simp) absent trim_brackets parsed]
  | port parsed single opened closed =>
    have parts := SplitHostPort_port (isAddressByte_of_ParseIP parsed) single opened closed
    rwa [hostOnly_of_host (by simp) parts parsed]
  | quadPort four single opened closed =>
    have parsed := ParseIP_of_parse4 four
    rwa [hostOnly_of_host (by simp) (SplitHostPort_quad four single opened closed) parsed]

theorem not_isMapped_network (a : V6) : isMapped (fun i => a i &&& mask 64 i) = false := by
  refine decide_eq_false fun same => ?_
  have tenth : (255 : UInt8) = a 10 &&& 0 := congrFun same 10
  rw [UInt8.and_zero] at tenth
  exact absurd tenth (by decide)

theorem sameOrigin_of_network {a b : IP} (long : a.To4 = none)
    (h : (cidr (.v6 a.To16) 64).Contains b = true) : SameOrigin a b := by
  have long' := ((contains_cidr_v6 (not_isMapped_network a.To16)).mp h).1
  rw [SameOrigin, long, long']
  exact h

theorem bucketKey_congr {host host' : Bytes} {a b : IP} (ha : ParseIP host = some a)
    (hb : ParseIP host' = some b) (same : SameOrigin a b) : bucketKey host = bucketKey host' := by
  rw [bucketKey, bucketKey, ha, hb]
  rw [SameOrigin] at same
  cases short : a.To4 with
  | some q =>
    cases short' : b.To4 with
    | some r =>
      rw [short, short'] at same
      simp only [short, short', show q = r from same]
    | none => simp [short, short'] at same
  | none =>
    cases short' : b.To4 with
    | some r => simp [short, short'] at same
    | none =>
      rw [short, short'] at same
      have network := ((contains_cidr_v6 (not_isMapped_network a.To16)).mp same).2
      simp only [short, short', funext network]

end Keys

/-- What the trusted proxies append selects the address, whatever the client sends, and the texts of
one origin have one key. -/
theorem client_address_not_chosen :
    (∀ (remote : Bytes) (client : List Bytes) (hop : Hop) (nearer : List Hop),
      ClientIP ⟨remote, forwarded client (hop :: nearer)⟩ (nearer.length + 1) =
        hostOnly (TrimSpace hop.entry)) ∧
    (∀ r : Request, ClientIP r 0 = hostOnly r.RemoteAddr) ∧
    ∀ (r r' : Request) (hops hops' : ℕ) (text text' : Bytes) (a b : IP),
      Presents r hops text → Presents r' hops' text' → Writes a text → Writes b text' →
        SameOrigin a b → ClientAddress r hops = ClientAddress r' hops' := by
  refine ⟨fun remote client hop nearer => ?_, fun r => rfl, ?_⟩
  · exact_mod_cast ClientIP_of_presents (.forwarded remote client hop nearer)
  · intro r r' hops hops' text text' a b shown shown' written written' same
    rw [ClientAddress, ClientAddress, ClientIP_of_presents shown, ClientIP_of_presents shown']
    exact bucketKey_congr (ParseIP_hostOnly written) (ParseIP_hostOnly written') same

/-- A proxy's entry on a line with a spoofed one, and a neighbour that connects directly. -/
theorem client_address_not_chosen_neighbours :
    let hop : Hop := ⟨encode " [2001:db8::1]:443".toList, true, by decide +kernel,
      by decide +kernel⟩
    ClientAddress ⟨encode "192.0.2.1:80".toList, forwarded [encode "198.51.100.7".toList] [hop]⟩ 1 =
      ClientAddress ⟨encode "[2001:db8:0:0:9::2]:9".toList, []⟩ 0 := by
  intro hop
  have text : TrimSpace hop.entry = openBracket :: encode "2001:db8::1".toList ++
      closeBracket :: colon :: encode "443".toList := by decide +kernel
  have remote : encode "[2001:db8:0:0:9::2]:9".toList = openBracket ::
      encode "2001:db8:0:0:9::2".toList ++ closeBracket :: colon :: encode "9".toList := by
    decide +kernel
  refine client_address_not_chosen.2.2 _ _ 1 0 _ _
    (.v6 (ofGroups [0x2001, 0x0db8, 0, 0, 0, 0, 0, 1]))
    (.v6 (ofGroups [0x2001, 0x0db8, 0, 0, 9, 0, 0, 2]))
    (.forwarded _ _ hop []) (.peer _) ?_ ?_ ?_
  · rw [text]
    exact .port (by decide +kernel) (by decide) (by decide) (by decide)
  · rw [remote]
    exact .port (by decide +kernel) (by decide) (by decide) (by decide)
  · exact sameOrigin_of_network (by decide +kernel) (by decide +kernel)

end Hookubit.Ingest.ClientSource
