/- sources: worker/headers.go BuildHeaders, worker/store.go parseCustomHeaders
   digest: What becomes of a customer's headers between the control plane's check and a request. -/

import Hookubit.Endpoints.EndpointHeaders
import Hookubit.Worker.Headers

/-!
A map of headers is a list of its entries in the order of one iteration. Its values are looked up
by name, so two header sets are the same when they answer every name alike.
-/

set_option autoImplicit false
set_option relaxedAutoImplicit false

namespace Hookubit.Worker.CustomHeaders

open Data.ByteText Data.HttpHeader Data.JsText
open Data.Utf8 (Bytes)
open Endpoints.EndpointHeaders
open Worker.Headers hiding toLower

def canonicalKey (name : Bytes) : Bytes := CanonicalMIMEHeaderKey (TrimSpace name)

/-- `BuildHeaders` with the canonical form of net/http. -/
def outbound (i : HeaderStrings) : Header := buildHeaders canonicalKey i

/-- The headers of the platform with the values that it computes. -/
def platformValues (i : HeaderStrings) : List (Bytes × Bytes) :=
  [(text "Webhook-Id", i.eventID), (text "Webhook-Delivery-Id", i.deliveryID),
    (text "Webhook-Event-Type", i.eventType), (text "Webhook-Attempt", text (toString i.attempt)),
    (text "Webhook-Timestamp", text (toString i.timestamp)),
    (text "Webhook-Signature", i.signature)]

/-- The headers that are set if a customer leaves them empty. -/
def defaults (i : HeaderStrings) : List (Bytes × Bytes) :=
  [(text "Content-Type", if i.contentType = [] then text "application/json" else i.contentType),
    (text "User-Agent", UserAgent), (text "Accept", text "*/*")]

section Tables

def defaultHeaders : List Bytes := [text "Content-Type", text "User-Agent", text "Accept"]

/-- The lower-case spelling of canonical names. -/
def lowered (names : List Bytes) : List Units := names.map fun t => widen (t.map toLower)

/-- The names that the data plane keeps for the transport and the control plane accepts. -/
def droppedNames : List Units :=
  [literal "connection", literal "upgrade", literal "te", literal "trailer", literal "expect"]

/-- The names whose empty value is replaced. -/
def defaultedNames : List Units := [literal "content-type", literal "user-agent", literal "accept"]

theorem tokenBytes (c : UInt8) : isTokenByte c = validHeaderFieldByte c ∧
    (validHeaderFieldByte c = true → isGraphic c = true ∧ isWhitespace c.toUInt16 = false) ∧
      (if 65 ≤ c.toUInt16 ∧ c.toUInt16 ≤ 90 then c.toUInt16 + 32 else c.toUInt16) =
        (toLower c).toUInt16 := by
  revert c
  decide +kernel

def Canonical (names : List Bytes) : Prop :=
  ∀ t ∈ names, t.all validHeaderFieldByte = true ∧ CanonicalMIMEHeaderKey t = t

instance (names : List Bytes) : Decidable (Canonical names) :=
  inferInstanceAs (Decidable (∀ t ∈ names, _))

/-- What the fixed tables of names are relied on for. -/
structure TablesFit : Prop where
  platform : platformHeaders.Nodup ∧ Canonical platformHeaders
  reserved : Canonical reservedHeaders
  default : defaultHeaders.Nodup ∧ Canonical defaultHeaders
  named : ∀ t ∈ platformHeaders ++ defaultHeaders, t ≠ [] ∧ t ∉ reservedHeaders
  prefixed : ∀ n ∈ lowered platformHeaders, RESERVED_HEADER_PREFIX <+: n
  dropped : lowered reservedHeaders =
    literal "host" :: literal "content-length" :: literal "transfer-encoding" :: droppedNames
  defaulted : lowered defaultHeaders = defaultedNames
  apart : ∀ n ∈ droppedNames, n ∉ defaultedNames

theorem tablesFit : TablesFit := by
  constructor <;> decide +kernel

end Tables

section Lookup

variable (h : Header) (name value n : Bytes)

theorem lookup_set :
    (h.set name value).lookup n = if n = name then some [value] else h.lookup n := by
  rw [Header.set]
  split
  · rename_i same
    rw [same, AList.lookup_insert]
  · rename_i differs
    rw [AList.lookup_insert_ne differs]

theorem lookup_setDefault : (h.setDefault name value).lookup n =
    if n = name ∧ h.get name = [] then some [value] else h.lookup n := by
  unfold Header.setDefault
  by_cases empty : h.get name = []
  · rw [if_pos empty, lookup_set]
    simp [empty]
  · rw [if_neg empty]
    simp [empty]

end Lookup

/-- The header is neither malformed nor the transport's nor the platform's. -/
def passes (e : Bytes × Bytes) : Bool :=
  validHeaderName (canonicalKey e.1) && validHeaderValue e.2 &&
    !reservedHeaders.contains (canonicalKey e.1) && !platformHeaders.contains (canonicalKey e.1)

theorem addCustom_eq (h : Header) (e : Bytes × Bytes) :
    addCustom canonicalKey h e = if passes e then h.set (canonicalKey e.1) e.2 else h := by
  have empty : canonicalKey e.1 = [] → validHeaderName (canonicalKey e.1) = false := by
    intro nothing
    rw [nothing]
    rfl
  unfold addCustom passes
  dsimp only
  cases named : validHeaderName (canonicalKey e.1) with
  | false => simp
  | true =>
    have filled : ¬canonicalKey e.1 = [] := fun nothing => by
      rw [empty nothing] at named
      cases named
    cases validHeaderValue e.2 <;> cases reservedHeaders.contains (canonicalKey e.1) <;>
      cases platformHeaders.contains (canonicalKey e.1) <;> simp [filled]

/-- The customer's headers that are set under a name. -/
def under (custom : List (Bytes × Bytes)) (name : Bytes) : List (Bytes × Bytes) :=
  custom.filter fun e => passes e && decide (canonicalKey e.1 = name)

theorem mem_under {custom : List (Bytes × Bytes)} {name : Bytes} {e : Bytes × Bytes} :
    e ∈ under custom name ↔ e ∈ custom ∧ passes e = true ∧ canonicalKey e.1 = name := by
  simp [under]

theorem lookup_custom (custom : List (Bytes × Bytes)) (name : Bytes) :
    (custom.foldl (addCustom canonicalKey) ∅ : Header).lookup name =
      (under custom name).getLast?.map fun e => [e.2] := by
  induction custom using List.reverseRecOn with
  | nil => exact AList.lookup_empty name
  | append_singleton custom e ih =>
    have halves : under (custom ++ [e]) name = under custom name ++ under [e] name :=
      List.filter_append ..
    rw [List.foldl_append, List.foldl_cons, List.foldl_nil, addCustom_eq, halves]
    by_cases assigns : passes e = true ∧ canonicalKey e.1 = name
    · have last : under [e] name = [e] := by simp [under, assigns]
      rw [last, if_pos assigns.1, lookup_set, if_pos assigns.2.symm]
      simp
    · have nothing : under [e] name = [] := by
        simp only [under, List.filter_eq_nil_iff]
        simpa using assigns
      rw [nothing, List.append_nil, ← ih]
      split
      · rename_i passed
        rw [lookup_set, if_neg fun same => assigns ⟨passed, same.symm⟩]
      · rfl

/-- What is sent under a name that is not the platform's. -/
def sentUnder (i : HeaderStrings) (name : Bytes) : Option Bytes :=
  let customer := (under i.custom name).getLast?.map Prod.snd
  match (defaults i).lookup name with
  | some value => if customer.getD [] = [] then some value else customer
  | none => customer

theorem lookup_platform (i : HeaderStrings) :
    ∀ p ∈ platformValues i, (outbound i).lookup p.1 = some [p.2] := by
  have differ := tablesFit.platform.1
  simp only [platformHeaders, List.nodup_cons, List.mem_cons, not_or] at differ
  intro p listed
  simp only [platformValues, List.mem_cons, List.not_mem_nil, or_false] at listed
  simp only [outbound, buildHeaders, lookup_set]
  rcases listed with rfl | rfl | rfl | rfl | rfl | rfl <;> simp [differ]

theorem lookup_other (i : HeaderStrings) {name : Bytes} (other : name ∉ platformHeaders) :
    (outbound i).lookup name = (sentUnder i name).map fun v => [v] := by
  simp only [platformHeaders, List.mem_cons, List.not_mem_nil, or_false, not_or] at other
  obtain ⟨id, delivery, type, attempt, timestamp, signature⟩ := other
  have first : ∀ n, ((Option.map (fun e : Bytes × Bytes => [e.2]) (under i.custom n).getLast?).bind
      fun values => values.head?).getD [] = ((under i.custom n).getLast?.map Prod.snd).getD [] := by
    intro n
    cases (under i.custom n).getLast? <;> rfl
  have single : ∀ n, Option.map (fun e : Bytes × Bytes => [e.2]) (under i.custom n).getLast? =
      ((under i.custom n).getLast?.map Prod.snd).map fun v => [v] := by
    intro n
    rw [Option.map_map]
    rfl
  have apart := tablesFit.default.1
  simp only [defaultHeaders, List.nodup_cons, List.mem_cons, List.not_mem_nil, or_false, not_or]
    at apart
  obtain ⟨⟨media_agent, media_accept⟩, agent_accept, -⟩ := apart
  simp only [outbound, buildHeaders, lookup_set, id, delivery, type, attempt, timestamp, signature,
    if_false, lookup_setDefault, Header.get, lookup_custom, first, Ne.symm media_agent,
    Ne.symm media_accept, Ne.symm agent_accept, false_and, sentUnder, defaults]
  by_cases media : name = text "Content-Type"
  · simp only [media, media_accept, media_agent, false_and, if_false, true_and,
      List.lookup_cons_self]
    split
    · rfl
    · exact single _
  by_cases agent : name = text "User-Agent"
  · simp only [agent, agent_accept, Ne.symm media_agent, false_and, if_false, true_and,
      List.lookup_cons, beq_self_eq_true, beq_eq_false_iff_ne.mpr (Ne.symm media_agent)]
    split
    · rfl
    · exact single _
  by_cases accept : name = text "Accept"
  · simp only [accept, Ne.symm agent_accept, Ne.symm media_accept, false_and, if_false, true_and,
      List.lookup_cons, beq_self_eq_true, beq_eq_false_iff_ne.mpr (Ne.symm media_accept),
      beq_eq_false_iff_ne.mpr (Ne.symm agent_accept)]
    split
    · rfl
    · exact single _
  simp only [media, agent, accept, false_and, if_false, List.lookup_cons, List.lookup_nil,
    beq_eq_false_iff_ne.mpr media, beq_eq_false_iff_ne.mpr agent, beq_eq_false_iff_ne.mpr accept]
  exact single name

section Confined

variable {i : HeaderStrings} {name : Bytes}

theorem validHeaderName_iff :
    validHeaderName name = true ↔ name ≠ [] ∧ ∀ c ∈ name, validHeaderFieldByte c = true := by
  simp [validHeaderName, tokenBytes]

theorem validHeaderValue_iff {v : Bytes} :
    validHeaderValue v = true ↔ 13 ∉ v ∧ 10 ∉ v ∧ 0 ∉ v := by
  simp only [validHeaderValue, List.all_eq_true, Bool.not_eq_true', Bool.or_eq_false_iff,
    beq_eq_false_iff_ne]
  constructor
  · intro clean
    exact ⟨fun inside => (clean _ inside).1.1 rfl, fun inside => (clean _ inside).1.2 rfl,
      fun inside => (clean _ inside).2 rfl⟩
  · rintro ⟨cr, lf, nul⟩ x inside
    refine ⟨⟨?_, ?_⟩, ?_⟩
    · rintro rfl
      exact cr inside
    · rintro rfl
      exact lf inside
    · rintro rfl
      exact nul inside

theorem sentUnder_cases {v : Bytes} (h : sentUnder i name = some v) :
    (name, v) ∈ defaults i ∨ ∃ e ∈ under i.custom name, e.2 = v := by
  have customer : ((under i.custom name).getLast?.map Prod.snd) = some v →
      ∃ e ∈ under i.custom name, e.2 = v := by
    intro found
    obtain ⟨e, last, same⟩ := Option.map_eq_some_iff.mp found
    exact ⟨e, List.mem_of_getLast? last, same⟩
  simp only [sentUnder] at h
  split at h
  · rename_i value found
    split at h
    · cases h
      obtain ⟨before, after, same, -⟩ := List.lookup_eq_some_iff.mp found
      exact .inl (same ▸ List.mem_append_right before List.mem_cons_self)
    · exact .inr (customer h)
  · exact .inr (customer h)

end Confined

section Accepted

/-- The map that the data plane reads back. Values that are no strings are left out of it. -/
def parseCustomHeaders (entries : List (Units × JsValue)) : List (Bytes × Bytes) :=
  entries.filterMap fun e =>
    match e.2 with
    | .string value => some (utf8 e.1, utf8 value)
    | .other => none

theorem parseCustomHeaders_map (headers : List CustomHeader) :
    parseCustomHeaders (headers.map CustomHeader.entry) = headers.map CustomHeader.stored := by
  rw [parseCustomHeaders, List.filterMap_map, ← List.filterMap_eq_map]
  rfl

variable (h : CustomHeader)

theorem toLowerCase_widen (b : Bytes) : toLowerCase (widen b) = widen (b.map toLower) := by
  rw [toLowerCase, widen, widen, List.map_map, List.map_map]
  exact List.map_congr_left fun x _ => (tokenBytes x).2.2

theorem widen_inj {a b : Bytes} : widen a = widen b ↔ a = b :=
  (List.map_injective_iff.mpr widen_injective).eq_iff

theorem key_eq : h.key = widen ((utf8 h.name).map toLower) := by
  rw [← toLowerCase_widen, h.widen_name]
  rfl

theorem canonicalKey_stored : canonicalKey h.stored.1 = CanonicalMIMEHeaderKey (utf8 h.name) := by
  have whole : TrimSpace (utf8 h.name) = utf8 h.name := TrimSpace_of_graphic fun c inside =>
    ((tokenBytes c).2.1 (List.all_eq_true.mp h.token_name c inside)).1
  rw [canonicalKey, CustomHeader.stored, whole]

theorem canonicalKey_eq_iff {t : Bytes} (token : t.all validHeaderFieldByte = true)
    (canonical : CanonicalMIMEHeaderKey t = t) :
    canonicalKey h.stored.1 = t ↔ h.key = widen (t.map toLower) := by
  rw [key_eq, canonicalKey_stored, widen_inj, ← canonical_eq_iff h.token_name token, canonical]

theorem canonicalKey_inj {h h' : CustomHeader} :
    canonicalKey h.stored.1 = canonicalKey h'.stored.1 ↔ h.key = h'.key := by
  rw [key_eq, key_eq, canonicalKey_stored, canonicalKey_stored, widen_inj,
    canonical_eq_iff h.token_name h'.token_name]

theorem canonicalKey_mem {names : List Bytes} (canonical : Canonical names) :
    canonicalKey h.stored.1 ∈ names ↔ h.key ∈ lowered names := by
  have each : ∀ t ∈ names, canonicalKey h.stored.1 = t ↔ h.key = widen (t.map toLower) := by
    intro t listed
    exact canonicalKey_eq_iff h (canonical t listed).1 (canonical t listed).2
  simp only [lowered, List.mem_map]
  constructor
  · intro listed
    exact ⟨_, listed, ((each _ listed).mp rfl).symm⟩
  · rintro ⟨t, listed, same⟩
    rw [(each t listed).mpr same.symm]
    exact listed

theorem trim_name : trim h.name = h.name := by
  have plain : ∀ u ∈ h.name, isWhitespace u = false := by
    intro u inside
    rw [← h.widen_name] at inside
    obtain ⟨c, listed, rfl⟩ := List.mem_map.mp inside
    exact ((tokenBytes c).2.1 (List.all_eq_true.mp h.token_name c listed)).2
  simpa [trimEnd] using trim_append h.named plain []

theorem not_reserved_key :
    ¬RESERVED_HEADER_PREFIX <+: h.key ∧ h.key ∉ RESERVED_HEADER_NAMES := by
  have free := h.free
  simp only [isReservedHeader, trim_name, Bool.or_eq_false_iff] at free
  refine ⟨fun starts => ?_, by simpa [CustomHeader.key] using free.2⟩
  have starts : RESERVED_HEADER_PREFIX.isPrefixOf (toLowerCase h.name) = true :=
    List.isPrefixOf_iff_prefix.mpr starts
  rw [starts] at free
  cases free.1

theorem canonicalKey_not_platform : canonicalKey h.stored.1 ∉ platformHeaders := by
  rw [canonicalKey_mem h tablesFit.platform.2]
  intro listed
  exact (not_reserved_key h).1 (tablesFit.prefixed _ listed)

theorem canonicalKey_reserved_iff :
    canonicalKey h.stored.1 ∈ reservedHeaders ↔ h.key ∈ droppedNames := by
  have refused := (not_reserved_key h).2
  simp only [RESERVED_HEADER_NAMES, List.mem_cons, not_or] at refused
  rw [canonicalKey_mem h tablesFit.reserved, tablesFit.dropped]
  simp [refused]

theorem passes_iff : passes h.stored = true ↔ h.key ∉ droppedNames := by
  have named : validHeaderName (canonicalKey h.stored.1) = true := by
    rw [validHeaderName_iff, canonicalKey_stored, Ne, canonical_eq_nil, utf8_eq_nil,
      ← List.all_eq_true, all_canonical]
    exact ⟨h.named, h.token_name⟩
  have clean : validHeaderValue h.stored.2 = true :=
    validHeaderValue_iff.mpr ⟨h.not_mem_value (by decide) (by decide),
      h.not_mem_value (by decide) (by decide), h.not_mem_value (by decide) (by decide)⟩
  rw [← canonicalKey_reserved_iff]
  simp [passes, named, clean, canonicalKey_not_platform h]

end Accepted

section Orders

variable {headers : List CustomHeader} {custom : List (Bytes × Bytes)} {name : Bytes}

theorem under_of_mem (distinct : (headers.map CustomHeader.key).Nodup)
    (order : custom.Perm (headers.map CustomHeader.stored)) {e : Bytes × Bytes}
    (chosen : e ∈ under custom name) : under custom name = [e] := by
  have keys : (custom.map fun e => canonicalKey e.1).Nodup := by
    refine (order.map _).nodup_iff.mpr ?_
    rw [List.map_map]
    have apart := List.pairwise_map.mp distinct
    exact List.pairwise_map.mpr (apart.imp fun differ same => differ (canonicalKey_inj.mp same))
  have few : ((under custom name).map fun e => canonicalKey e.1).Nodup :=
    keys.sublist (List.filter_sublist.map _)
  obtain ⟨before, after, split⟩ := List.append_of_mem chosen
  have all : ∀ x ∈ under custom name, canonicalKey x.1 = name := fun x hx => (mem_under.mp hx).2.2
  rw [split, List.map_append, List.map_cons, List.nodup_middle, List.nodup_cons, List.mem_append,
    not_or, List.mem_map, List.mem_map] at few
  obtain ⟨⟨left, right⟩, -⟩ := few
  have none_before : before = [] := List.eq_nil_iff_forall_not_mem.mpr fun x hx => left
    ⟨x, hx, by rw [all x (by simp [split, hx]), all e chosen]⟩
  have none_after : after = [] := List.eq_nil_iff_forall_not_mem.mpr fun x hx => right
    ⟨x, hx, by rw [all x (by simp [split, hx]), all e chosen]⟩
  rw [split, none_before, none_after]
  rfl

theorem under_perm (distinct : (headers.map CustomHeader.key).Nodup)
    {custom' : List (Bytes × Bytes)} (order : custom.Perm (headers.map CustomHeader.stored))
    (order' : custom'.Perm (headers.map CustomHeader.stored)) :
    under custom name = under custom' name := by
  have same : ∀ e, e ∈ under custom name ↔ e ∈ under custom' name := by
    intro e
    rw [mem_under, mem_under, (order.trans order'.symm).mem_iff]
  cases found : under custom name with
  | nil =>
    rw [eq_comm, List.eq_nil_iff_forall_not_mem]
    intro e inside
    rw [← same, found] at inside
    cases inside
  | cons e rest =>
    have chosen : e ∈ under custom name := found ▸ List.mem_cons_self
    rw [← found, under_of_mem distinct order chosen,
      under_of_mem distinct order' ((same e).mp chosen)]

end Orders

section Results

variable {i : HeaderStrings} {name value : Bytes}

theorem defaults_ne_nil (listed : (name, value) ∈ defaults i) : value ≠ [] := by
  simp only [defaults, List.mem_cons, Prod.mk.injEq, List.not_mem_nil, or_false] at listed
  rcases listed with ⟨-, rfl⟩ | ⟨-, rfl⟩ | ⟨-, rfl⟩
  · split
    · decide
    · assumption
  · decide
  · decide

theorem lookup_defaults_eq_none : (defaults i).lookup name = none ↔ name ∉ defaultHeaders := by
  simp [defaults, defaultHeaders, List.lookup_eq_none_iff]

theorem mem_outbound (h : name ∈ outbound i) : name ∈ platformHeaders ∨ name ∈ defaultHeaders ∨
    ∃ e ∈ i.custom, passes e = true ∧ canonicalKey e.1 = name := by
  by_cases platform : name ∈ platformHeaders
  · exact .inl platform
  · refine .inr ?_
    have present := AList.lookup_isSome.mpr h
    rw [lookup_other i platform, Option.isSome_map] at present
    obtain ⟨v, sent⟩ := Option.isSome_iff_exists.mp present
    obtain default | ⟨e, chosen, -⟩ := sentUnder_cases sent
    · left
      by_contra nothing
      have absent := lookup_defaults_eq_none (i := i).mpr nothing
      rw [List.lookup_eq_none_iff] at absent
      simpa using absent _ default
    · exact .inr ⟨e, mem_under.mp chosen⟩

theorem outbound_name (h : name ∈ outbound i) : CanonicalMIMEHeaderKey name ∉ reservedHeaders ∧
    name ≠ [] ∧ ∀ c ∈ name, validHeaderFieldByte c = true := by
  have fixed : name ∈ platformHeaders ++ defaultHeaders →
      CanonicalMIMEHeaderKey name ∉ reservedHeaders ∧ name ≠ [] ∧
        ∀ c ∈ name, validHeaderFieldByte c = true := by
    intro listed
    obtain ⟨filled, free⟩ := tablesFit.named name listed
    obtain ⟨token, same⟩ := (List.mem_append.mp listed).elim (tablesFit.platform.2 name)
      (tablesFit.default.2 name)
    exact ⟨same.symm ▸ free, filled, List.all_eq_true.mp token⟩
  obtain platform | default | ⟨e, -, passed, rfl⟩ := mem_outbound h
  · exact fixed (List.mem_append_left _ platform)
  · exact fixed (List.mem_append_right _ default)
  · simp only [passes, Bool.and_eq_true, Bool.not_eq_true'] at passed
    obtain ⟨⟨⟨named, -⟩, free⟩, -⟩ := passed
    rw [canonicalKey, canonical_canonical]
    exact ⟨by simpa [canonicalKey] using free, validHeaderName_iff.mp named⟩

theorem outbound_value {values : List Bytes} (found : (outbound i).lookup name = some values)
    (other : name ∉ platformHeaders) : ∃ v, values = [v] ∧ ((name, v) ∈ defaults i ∨
      ∃ e ∈ i.custom, canonicalKey e.1 = name ∧ e.2 = v ∧ 13 ∉ v ∧ 10 ∉ v ∧ 0 ∉ v) := by
  rw [lookup_other i other] at found
  obtain ⟨v, sent, rfl⟩ := Option.map_eq_some_iff.mp found
  refine ⟨v, rfl, (sentUnder_cases sent).imp id ?_⟩
  rintro ⟨e, chosen, rfl⟩
  obtain ⟨listed, passed, key⟩ := mem_under.mp chosen
  simp only [passes, Bool.and_eq_true] at passed
  exact ⟨e, listed, key, rfl, validHeaderValue_iff.mp passed.1.1.2⟩

end Results

/-- For every map of customer headers in every order: each platform header has one value, the
platform's; no name is the transport's and every one is a token; what is neither the platform's nor
a default has one value, a customer's without CR, LF and NUL; and for a map that the control plane
accepts the order does not matter. -/
theorem customer_headers_confined (i : HeaderStrings) :
    (∀ p ∈ platformValues i, (outbound i).lookup p.1 = some [p.2]) ∧
      (∀ name ∈ outbound i, CanonicalMIMEHeaderKey name ∉ reservedHeaders ∧ name ≠ [] ∧
        ∀ c ∈ name, validHeaderFieldByte c = true) ∧
      (∀ name values, (outbound i).lookup name = some values → name ∉ platformHeaders →
        ∃ v, values = [v] ∧ ((name, v) ∈ defaults i ∨
          ∃ e ∈ i.custom, canonicalKey e.1 = name ∧ e.2 = v ∧ 13 ∉ v ∧ 10 ∉ v ∧ 0 ∉ v)) ∧
      ∀ entries, rejectCustomHeaders (.object entries) = none → ∀ custom custom',
        custom.Perm (parseCustomHeaders entries) → custom'.Perm (parseCustomHeaders entries) →
          ∀ name, (outbound { i with custom := custom }).lookup name =
            (outbound { i with custom := custom' }).lookup name := by
  refine ⟨lookup_platform i, fun name inside => outbound_name inside,
    fun name values found other => outbound_value found other, ?_⟩
  intro entries accepted custom custom' order order' name
  obtain ⟨headers, rfl, distinct⟩ := exists_of_rejectCustomHeaders accepted
  rw [parseCustomHeaders_map] at order order'
  by_cases platform : name ∈ platformHeaders
  · have values : platformHeaders = (platformValues i).map Prod.fst := rfl
    rw [values] at platform
    obtain ⟨p, listed, rfl⟩ := List.mem_map.mp platform
    rw [lookup_platform { i with custom := custom } p listed,
      lookup_platform { i with custom := custom' } p listed]
  · rw [lookup_other _ platform, lookup_other _ platform]
    simp only [sentUnder, under_perm distinct order order']
    rfl

def delivery (custom : List (Bytes × Bytes)) : HeaderStrings :=
  ⟨text "evt_1", text "del_1", text "order.created", 1, 1757155200, text "t=1757155200,v1=00",
    custom, []⟩

/-- Two headers of a delivery, iterated in either order. -/
theorem customer_headers_confined_swapped :
    (outbound (delivery [(text "X-A", text "1"), (text "X-B", text "2")])).lookup (text "X-A") =
      (outbound (delivery [(text "X-B", text "2"), (text "X-A", text "1")])).lookup (text "X-A") :=
  (customer_headers_confined (delivery [])).2.2.2
    [(literal "X-A", .string (literal "1")), (literal "X-B", .string (literal "2"))]
    (by rfl) _ _ (.of_eq (by rfl)) ((List.Perm.swap _ _ []).trans (.of_eq (by rfl))) (text "X-A")

/-- An accepted header is sent as it was saved if it is none of those that the data plane keeps for
the transport and is not the empty value of one that has a default; and in no other case. -/
theorem accepted_header_sent_iff (i : HeaderStrings) (entries : List (Units × JsValue))
    (accepted : rejectCustomHeaders (.object entries) = none)
    (order : i.custom.Perm (parseCustomHeaders entries)) (name value : Units)
    (saved : (name, .string value) ∈ entries) :
    (outbound i).lookup (CanonicalMIMEHeaderKey (utf8 name)) = some [utf8 value] ↔
      toLowerCase name ∉ droppedNames ∧ (value = [] → toLowerCase name ∉ defaultedNames) := by
  obtain ⟨headers, rfl, distinct⟩ := exists_of_rejectCustomHeaders accepted
  rw [parseCustomHeaders_map] at order
  obtain ⟨h, listed, same⟩ := List.mem_map.mp saved
  obtain ⟨rfl, rfl⟩ : h.name = name ∧ h.value = value := by simpa [CustomHeader.entry] using same
  rw [← canonicalKey_stored, lookup_other i (canonicalKey_not_platform h)]
  change _ ↔ h.key ∉ droppedNames ∧ (h.value = [] → h.key ∉ defaultedNames)
  have defaulted : canonicalKey h.stored.1 ∈ defaultHeaders ↔ h.key ∈ defaultedNames := by
    rw [canonicalKey_mem h tablesFit.default.2, tablesFit.defaulted]
  by_cases dropped : h.key ∈ droppedNames
  · -- No header with these letters passes, and the transport's names have no default.
    have nothing : under i.custom (canonicalKey h.stored.1) = [] := by
      rw [List.eq_nil_iff_forall_not_mem]
      intro e chosen
      obtain ⟨inside, passed, key⟩ := mem_under.mp chosen
      obtain ⟨h', -, rfl⟩ := List.mem_map.mp (order.mem_iff.mp inside)
      rw [passes_iff, canonicalKey_inj.mp key] at passed
      exact passed dropped
    have undefaulted : (defaults i).lookup (canonicalKey h.stored.1) = none := by
      rw [lookup_defaults_eq_none, defaulted]
      exact tablesFit.apart _ dropped
    simp [sentUnder, nothing, undefaulted, dropped]
  · have chosen : h.stored ∈ under i.custom (canonicalKey h.stored.1) :=
      mem_under.mpr ⟨order.mem_iff.mpr (List.mem_map_of_mem listed), (passes_iff h).mpr dropped,
        rfl⟩
    have customer : (under i.custom (canonicalKey h.stored.1)).getLast?.map Prod.snd =
        some (utf8 h.value) := by
      rw [under_of_mem distinct order chosen]
      rfl
    simp only [sentUnder, customer, Option.getD_some, utf8_eq_nil, dropped, not_false_eq_true,
      true_and]
    cases found : (defaults i).lookup (canonicalKey h.stored.1) with
    | none =>
      have plain := defaulted.not.mp (lookup_defaults_eq_none.mp found)
      simp [plain]
    | some d =>
      have special : h.key ∈ defaultedNames := by
        by_contra plain
        rw [lookup_defaults_eq_none.mpr (defaulted.not.mpr plain)] at found
        cases found
      obtain ⟨before, after, split, -⟩ := List.lookup_eq_some_iff.mp found
      have filled : d ≠ [] :=
        defaults_ne_nil (split ▸ List.mem_append_right before List.mem_cons_self)
      by_cases empty : h.value = []
      · have bytes : utf8 [] = [] := rfl
        simp [empty, special, bytes, filled]
      · simp [empty]

theorem accepted_header_sent_trace :
    (outbound (delivery [(text "X-Trace", text "on")])).lookup (text "X-Trace") =
      some [text "on"] := by
  have sent := (accepted_header_sent_iff (delivery [(text "X-Trace", text "on")])
    [(literal "X-Trace", .string (literal "on"))] (by rfl) (.of_eq (by rfl))
    (literal "X-Trace") (literal "on") (by simp)).mpr ⟨by decide, by decide⟩
  have name : CanonicalMIMEHeaderKey (utf8 (literal "X-Trace")) = text "X-Trace" := by rfl
  have value : utf8 (literal "on") = text "on" := by rfl
  rwa [name, value] at sent

/-- `Connection: close` is accepted and left out; an empty `Accept` is accepted and replaced. -/
theorem accepted_header_not_sent :
    rejectCustomHeaders (.object [(literal "Connection", .string (literal "close"))]) = none ∧
      (outbound (delivery [(text "Connection", text "close")])).lookup (text "Connection") = none ∧
      rejectCustomHeaders (.object [(literal "Accept", .string [])]) = none ∧
      (outbound (delivery [(text "Accept", text "")])).lookup (text "Accept") =
        some [text "*/*"] := by
  refine ⟨by rfl, ?_, by rfl, ?_⟩
  · rw [lookup_other _ (by decide)]
    rfl
  · rw [lookup_other _ (by decide)]
    rfl

end Hookubit.Worker.CustomHeaders
