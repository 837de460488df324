/- sources: events/event-payload.ts, authz/event-payload-head.ts, deliveries/deliveries.service.ts
   digest: The short preview of a stored body, from the first bytes that the database hands out. -/

import Hookubit.Authz.TenantScope
import Hookubit.Data.Utf8Cut
import Hookubit.Data.Utf8Decode
import Mathlib.Data.List.Induction
import Mathlib.Data.List.Nodup

/-!
`Buffer.toString('utf8')` is the decoder of the encoding standard, and what it returns has no lone
surrogates, so a string is the list of its code points here.
-/

set_option autoImplicit false
set_option relaxedAutoImplicit false

namespace Hookubit.Events.EventPayload

open Authz.TenantScope Data.Utf8 Data.Utf8Cut Data.Utf8Decode

def PAYLOAD_PREVIEW_MAX_CHARS : ℕ := 160

def PAYLOAD_PREVIEW_READ_BYTES : ℕ := PAYLOAD_PREVIEW_MAX_CHARS * 4

/-- The columns of an event that the statement reads. -/
structure StoredEvent where
  id : String
  organizationId : String
  projectId : String
  payloadRaw : Option Bytes
  payloadSize : ℕ
  payloadLocation : Option String

structure PayloadHead where
  head : Option Bytes
  inlineBytes : Option ℕ
  payloadSize : Option ℕ
  payloadLocation : Option String

structure PayloadPreview where
  preview : Option (List Char)
  size : Option ℕ
  truncated : Bool

/-- The select list: `substring(payload_raw from 1 for maxBytes)` and `octet_length(payload_raw)`. -/
def payloadHead (maxBytes : ℕ) (e : StoredEvent) : PayloadHead where
  head := e.payloadRaw.map (List.take maxBytes)
  inlineBytes := e.payloadRaw.map List.length
  payloadSize := some e.payloadSize
  payloadLocation := e.payloadLocation

/-- The answer of the statement, keyed by event. -/
def eventPayloadHeadQuery (context : RequestContext) (eventIds : List String) (maxBytes : ℕ)
    (events : List StoredEvent) : List (String × PayloadHead) :=
  let rows := events.filter fun e =>
    eventIds.contains e.id && e.organizationId == context.organizationId &&
      match context.projectId with
      | none => true
      | some projectId => e.projectId == projectId
  rows.map fun e => (e.id, payloadHead maxBytes e)

/-- `new Map(rows.map(...))`, in which a later row under a key replaces an earlier one. -/
def readEventPayloadHeads (context : RequestContext) (eventIds : List String) (maxBytes : ℕ)
    (events : List StoredEvent) (id : String) : Option PayloadHead :=
  if eventIds.isEmpty then none
  else (eventPayloadHeadQuery context eventIds maxBytes events).reverse.lookup id

def NO_PREVIEW (size : Option ℕ) : PayloadPreview where
  preview := none
  size := size
  truncated := false

/-- The loop of `dropPartialTrailingSequence`, over `end` and `continuations`. -/
def dropPartialLoop (buffer : Bytes) : ℕ → ℕ → Bytes
  | 0, _ => buffer
  | stop + 1, continuations =>
      if continuations < 4 then
        let byte := buffer.getD stop 0
        if isTrail byte then dropPartialLoop buffer stop (continuations + 1)
        else
          let needed := leadWidth byte
          if needed = 0 ∨ needed ≤ continuations then buffer
          else if needed = continuations + 1 then buffer
          else buffer.take stop
      else buffer

def dropPartialTrailingSequence (buffer : Bytes) : Bytes := dropPartialLoop buffer buffer.length 0

def previewPayload (row : PayloadHead) : PayloadPreview :=
  let size := row.payloadSize
  match row.head, row.inlineBytes with
  | some head, some inlineBytes =>
      let cutMidBody : Bool := head.length < inlineBytes
      let candidate := if cutMidBody then dropPartialTrailingSequence head else head
      let text := decode candidate
      if encode text ≠ candidate then NO_PREVIEW size
      else
        let overLength : Bool := PAYLOAD_PREVIEW_MAX_CHARS < text.length
        { preview := some (if overLength then text.take PAYLOAD_PREVIEW_MAX_CHARS else text)
          size := size
          truncated := cutMidBody || overLength }
  | _, _ => NO_PREVIEW size

/-- The previews of a page of deliveries, by the events that its rows name. -/
def payloadPreviews (context : RequestContext) (events : List StoredEvent)
    (rowEventIds : List String) (id : String) : Option PayloadPreview :=
  let eventIds := rowEventIds.eraseDups
  if eventIds.contains id then
    (readEventPayloadHeads context eventIds PAYLOAD_PREVIEW_READ_BYTES events id).map previewPayload
  else none

theorem dropPartialLoop_trail (pre : Bytes) (lead : UInt8) (rest later : Bytes)
    (trails : ∀ x ∈ rest, isTrail x = true) (few : rest.length + later.length ≤ 3) :
    dropPartialLoop (pre ++ lead :: (rest ++ later)) (pre.length + 1 + rest.length) later.length =
      dropPartialLoop (pre ++ lead :: (rest ++ later)) (pre.length + 1)
        (rest.length + later.length) := by
  induction rest using List.reverseRecOn generalizing later with
  | nil => simp
  | append_singleton rest x ih =>
    obtain ⟨trails, last⟩ := List.forall_mem_append.mp trails
    have here := last x (List.mem_singleton_self x)
    have byte : (pre ++ lead :: (rest ++ [x] ++ later)).getD (pre.length + 1 + rest.length) 0 =
        x := by
      simp [List.getD_eq_getElem?_getD, Nat.add_assoc, Nat.add_comm 1]
    have enough : later.length < 4 := by
      rw [List.length_append] at few
      omega
    have next := ih (x :: later) trails (by simpa [Nat.add_assoc, Nat.add_comm 1] using few)
    rw [List.length_append, List.length_singleton, ← Nat.add_assoc, dropPartialLoop, if_pos enough]
    dsimp only
    rw [byte, if_pos here]
    simpa [Nat.add_assoc, Nat.add_comm 1] using next

/-- A slice that ends in a first byte and continuations is cut back behind the first byte when it
announces more than there are, and is left alone otherwise. -/
theorem dropPartialTrailingSequence_append (pre : Bytes) {lead : UInt8} {rest : Bytes}
    (first : isTrail lead = false) (trails : ∀ x ∈ rest, isTrail x = true) (few : rest.length ≤ 3) :
    dropPartialTrailingSequence (pre ++ lead :: rest) =
      if leadWidth lead ≤ rest.length + 1 then pre ++ lead :: rest else pre := by
  have passed := dropPartialLoop_trail pre lead rest [] trails (by simpa using few)
  rw [List.append_nil, List.length_nil, Nat.add_zero] at passed
  have size : (pre ++ lead :: rest).length = pre.length + 1 + rest.length := by
    rw [List.length_append, List.length_cons]
    omega
  have byte : (pre ++ lead :: rest).getD pre.length 0 = lead := by
    simp [List.getD_eq_getElem?_getD]
  rw [dropPartialTrailingSequence, size, passed, dropPartialLoop, if_pos (by omega)]
  dsimp only
  rw [byte, first, if_neg Bool.false_ne_true, List.take_left]
  split_ifs <;> first | rfl | omega

theorem dropPartialTrailingSequence_encode (pre : List Char) {part : Bytes} (cut : Partial part) :
    dropPartialTrailingSequence (encode pre ++ part) = encode pre := by
  obtain rfl | ⟨c, m, positive, short, rfl⟩ := cut
  · rw [List.append_nil]
    obtain rfl | ⟨init, c, rfl⟩ := List.eq_nil_or_concat' pre
    · rfl
    · obtain ⟨lead, rest, shape, first, trails, width, few⟩ := rune_shape c
      rw [encode_append, encode_cons, encode_nil, List.append_nil, shape,
        dropPartialTrailingSequence_append _ first trails few, if_pos (Nat.le_of_eq width)]
  · obtain ⟨lead, rest, shape, first, trails, width, few⟩ := rune_shape c
    obtain ⟨m, rfl⟩ := Nat.exists_eq_succ_of_ne_zero (Nat.ne_of_gt positive)
    rw [shape, List.length_cons] at short
    have shorter : (rest.take m).length = m := List.length_take_of_le (by omega)
    rw [shape, Nat.succ_eq_add_one, List.take_succ_cons, dropPartialTrailingSequence_append _ first
      (fun x hx => trails x (List.mem_of_mem_take hx)) (by omega), if_neg (by omega)]

example : dropPartialTrailingSequence [0x61, 0xE2, 0x82] = [0x61] := by decide

theorem dropPartialTrailingSequence_starts (buffer : Bytes) :
    dropPartialTrailingSequence buffer <+: buffer := by
  have loop (stop : ℕ) : ∀ continuations, dropPartialLoop buffer stop continuations <+: buffer := by
    induction stop with
    | zero => exact fun _ => List.prefix_rfl
    | succ stop ih =>
      intro continuations
      rw [dropPartialLoop]
      dsimp only
      split_ifs
      · exact ih _
      · exact List.prefix_rfl
      · exact List.prefix_rfl
      · exact List.take_prefix _ _
      · exact List.prefix_rfl
  exact loop buffer.length 0

section Preview

variable (body : Bytes) (payloadSize : Option ℕ) (payloadLocation : Option String)

/-- The row of an inline body. -/
def inlineHead : PayloadHead where
  head := some (body.take PAYLOAD_PREVIEW_READ_BYTES)
  inlineBytes := some body.length
  payloadSize := payloadSize
  payloadLocation := payloadLocation

/-- The bytes that the preview decodes. -/
def candidate : Bytes :=
  if PAYLOAD_PREVIEW_READ_BYTES < body.length then
    dropPartialTrailingSequence (body.take PAYLOAD_PREVIEW_READ_BYTES)
  else body

theorem previewPayload_inline :
    previewPayload (inlineHead body payloadSize payloadLocation) =
      if encode (decode (candidate body)) ≠ candidate body then NO_PREVIEW payloadSize
      else
        { preview := some ((decode (candidate body)).take PAYLOAD_PREVIEW_MAX_CHARS)
          size := payloadSize
          truncated := decide (PAYLOAD_PREVIEW_READ_BYTES < body.length) ||
            decide (PAYLOAD_PREVIEW_MAX_CHARS < (decode (candidate body)).length) } := by
  have cut : (body.take PAYLOAD_PREVIEW_READ_BYTES).length < body.length ↔
      PAYLOAD_PREVIEW_READ_BYTES < body.length := by
    rw [List.length_take]
    omega
  have bytes : (if decide (PAYLOAD_PREVIEW_READ_BYTES < body.length) = true then
      dropPartialTrailingSequence (body.take PAYLOAD_PREVIEW_READ_BYTES)
      else body.take PAYLOAD_PREVIEW_READ_BYTES) = candidate body := by
    unfold candidate
    simp only [decide_eq_true_eq]
    split_ifs with long
    · rfl
    · exact List.take_of_length_le (Nat.not_lt.mp long)
  have text : (if decide (PAYLOAD_PREVIEW_MAX_CHARS < (decode (candidate body)).length) = true then
      (decode (candidate body)).take PAYLOAD_PREVIEW_MAX_CHARS else decode (candidate body)) =
        (decode (candidate body)).take PAYLOAD_PREVIEW_MAX_CHARS := by
    split_ifs with long
    · rfl
    · exact (List.take_of_length_le (by simpa using long)).symm
  simp only [previewPayload, inlineHead, cut, bytes, text]

theorem candidate_starts : candidate body <+: body := by
  unfold candidate
  split_ifs
  · exact (dropPartialTrailingSequence_starts _).trans (List.take_prefix _ _)
  · exact List.prefix_rfl

theorem candidate_encode (cs : List Char) :
    ∃ pre, pre <+: cs ∧ candidate (encode cs) = encode pre ∧
      (PAYLOAD_PREVIEW_READ_BYTES < (encode cs).length → PAYLOAD_PREVIEW_MAX_CHARS ≤ pre.length) ∧
      ((encode cs).length ≤ PAYLOAD_PREVIEW_READ_BYTES → pre = cs) := by
  by_cases long : PAYLOAD_PREVIEW_READ_BYTES < (encode cs).length
  · obtain ⟨pre, part, sub, slice, cut⟩ := take_encode cs PAYLOAD_PREVIEW_READ_BYTES
    refine ⟨pre, sub, ?_, fun _ => ?_, fun short => absurd long (Nat.not_lt.mpr short)⟩
    · rw [candidate, if_pos long, slice, dropPartialTrailingSequence_encode pre cut]
    · -- At most three bytes are lost, and a character takes at most four.
      have total := congrArg List.length slice
      rw [List.length_take_of_le (Nat.le_of_lt long), List.length_append] at total
      have lost := cut.length_le
      have wide := length_encode_le pre
      rw [PAYLOAD_PREVIEW_READ_BYTES] at total
      omega
  · exact ⟨cs, List.prefix_rfl, if_neg long, fun h => absurd h long, fun _ => rfl⟩

theorem previewPayload_text (cs : List Char) :
    (previewPayload (inlineHead (encode cs) payloadSize payloadLocation)).preview =
        some (cs.take PAYLOAD_PREVIEW_MAX_CHARS) ∧
      ((previewPayload (inlineHead (encode cs) payloadSize payloadLocation)).truncated = true ↔
        PAYLOAD_PREVIEW_MAX_CHARS < cs.length) := by
  obtain ⟨pre, sub, bytes, many, whole⟩ := candidate_encode cs
  rw [previewPayload_inline, bytes, decode_encode, if_neg (not_not.mpr rfl)]
  dsimp only
  rw [Bool.or_eq_true, decide_eq_true_iff, decide_eq_true_iff]
  by_cases long : PAYLOAD_PREVIEW_READ_BYTES < (encode cs).length
  · have more : PAYLOAD_PREVIEW_MAX_CHARS < cs.length := by
      have wide := length_encode_le cs
      rw [PAYLOAD_PREVIEW_READ_BYTES] at long
      omega
    refine ⟨?_, iff_of_true (.inl long) more⟩
    obtain ⟨rest, rfl⟩ := sub
    rw [List.take_append_of_le_length (many long)]
  · obtain rfl := whole (Nat.not_lt.mp long)
    exact ⟨rfl, or_iff_right long⟩

theorem previewPayload_bytes {text : List Char}
    (shown : (previewPayload (inlineHead body payloadSize payloadLocation)).preview = some text) :
    encode text <+: body ∧
      ((previewPayload (inlineHead body payloadSize payloadLocation)).truncated = false →
        encode text = body) := by
  rw [previewPayload_inline] at shown ⊢
  by_cases lossless : encode (decode (candidate body)) = candidate body
  · rw [if_neg (not_not.mpr lossless)] at shown ⊢
    obtain rfl := Option.some.inj shown
    constructor
    · have start : encode ((decode (candidate body)).take PAYLOAD_PREVIEW_MAX_CHARS) <+:
          encode (decode (candidate body)) := by
        nth_rewrite 2 [← List.take_append_drop PAYLOAD_PREVIEW_MAX_CHARS (decode (candidate body))]
        rw [encode_append]
        exact List.prefix_append _ _
      rw [lossless] at start
      exact start.trans (candidate_starts body)
    · intro complete
      obtain ⟨inline, short⟩ := Bool.or_eq_false_iff.mp complete
      rw [List.take_of_length_le (Nat.not_lt.mp (of_decide_eq_false short)), lossless, candidate,
        if_neg (of_decide_eq_false inline)]
  · rw [if_pos lossless] at shown
    cases shown

/-- The preview is the start of the body: of a text its first characters, with `truncated` telling
whether there are more; of any other bytes a part that is text, if there is a preview at all. -/
theorem preview_is_faithful :
    (∀ cs, encode cs = body →
      (previewPayload (inlineHead body payloadSize payloadLocation)).preview =
          some (cs.take PAYLOAD_PREVIEW_MAX_CHARS) ∧
        ((previewPayload (inlineHead body payloadSize payloadLocation)).truncated = true ↔
          PAYLOAD_PREVIEW_MAX_CHARS < cs.length)) ∧
      ∀ text, (previewPayload (inlineHead body payloadSize payloadLocation)).preview = some text →
        encode text <+: body ∧
          ((previewPayload (inlineHead body payloadSize payloadLocation)).truncated = false →
            encode text = body) := by
  constructor
  · rintro cs rfl
    exact previewPayload_text payloadSize payloadLocation cs
  · intro text shown
    exact previewPayload_bytes body payloadSize payloadLocation shown

end Preview

section Page

variable {context : RequestContext} {events : List StoredEvent} {rowEventIds : List String}

def Own (context : RequestContext) (e : StoredEvent) : Prop :=
  e.organizationId = context.organizationId ∧ ∀ p ∈ context.projectId, e.projectId = p

theorem mem_eventPayloadHeadQuery {eventIds : List String} {maxBytes : ℕ} {key : String}
    {head : PayloadHead} :
    (key, head) ∈ eventPayloadHeadQuery context eventIds maxBytes events ↔
      ∃ e ∈ events, e.id ∈ eventIds ∧ Own context e ∧ e.id = key ∧
        payloadHead maxBytes e = head := by
  simp only [eventPayloadHeadQuery, List.mem_map, List.mem_filter, Bool.and_eq_true,
    List.contains_iff_mem, beq_iff_eq, Prod.mk.injEq, Own]
  cases context.projectId with
  | none => simp [and_assoc]
  | some p => simp [and_assoc]

theorem eventPayloadHeadQuery_nodup (ids : (events.map StoredEvent.id).Nodup)
    (eventIds : List String) (maxBytes : ℕ) :
    ((eventPayloadHeadQuery context eventIds maxBytes events).map Prod.fst).Nodup := by
  rw [eventPayloadHeadQuery, List.map_map]
  exact ids.sublist (List.filter_sublist.map _)

theorem lookup_of_mem {β : Type} {l : List (String × β)} (nodup : (l.map Prod.fst).Nodup)
    {key : String} {value : β} (mem : (key, value) ∈ l) : l.lookup key = some value := by
  obtain ⟨before, after, rfl⟩ := List.append_of_mem mem
  rw [List.map_append, List.map_cons, List.nodup_append] at nodup
  refine List.lookup_eq_some_iff.mpr ⟨before, after, rfl, fun entry earlier => ?_⟩
  have other := nodup.2.2 entry.1 (List.mem_map_of_mem earlier) key List.mem_cons_self
  simpa using other.symm

theorem payloadPreviews_own (ids : (events.map StoredEvent.id).Nodup) {e : StoredEvent}
    (stored : e ∈ events) (own : Own context e) (listed : e.id ∈ rowEventIds) :
    payloadPreviews context events rowEventIds e.id =
      some (previewPayload (payloadHead PAYLOAD_PREVIEW_READ_BYTES e)) := by
  have asked : e.id ∈ rowEventIds.eraseDups := List.mem_eraseDups.mpr listed
  have answered : (e.id, payloadHead PAYLOAD_PREVIEW_READ_BYTES e) ∈
      (eventPayloadHeadQuery context rowEventIds.eraseDups PAYLOAD_PREVIEW_READ_BYTES
        events).reverse :=
    List.mem_reverse.mpr (mem_eventPayloadHeadQuery.mpr ⟨e, stored, asked, own, rfl, rfl⟩)
  have keys : ((eventPayloadHeadQuery context rowEventIds.eraseDups PAYLOAD_PREVIEW_READ_BYTES
      events).map Prod.fst).Nodup := eventPayloadHeadQuery_nodup ids _ _
  have present : rowEventIds.eraseDups.isEmpty = false :=
    List.isEmpty_eq_false_iff.mpr (List.ne_nil_of_mem asked)
  rw [payloadPreviews, if_pos (List.contains_iff_mem.mpr asked), readEventPayloadHeads, present,
    if_neg Bool.false_ne_true, lookup_of_mem _ answered, Option.map_some]
  rw [List.map_reverse]
  exact List.nodup_reverse.mpr keys

theorem payloadHead_inline {e : StoredEvent} {body : Bytes} (inline : e.payloadRaw = some body) :
    payloadHead PAYLOAD_PREVIEW_READ_BYTES e =
      inlineHead body (some e.payloadSize) e.payloadLocation := by
  simp [payloadHead, inlineHead, inline]

theorem payloadPreviews_foreign {id : String} (foreign : ∀ e ∈ events, e.id = id → ¬Own context e) :
    payloadPreviews context events rowEventIds id = none := by
  unfold payloadPreviews readEventPayloadHeads
  dsimp only
  split_ifs
  · rfl
  · rw [Option.map_eq_none_iff, List.lookup_eq_none_iff]
    rintro ⟨key, head⟩ mem
    obtain ⟨e, stored, -, own, rfl, -⟩ := mem_eventPayloadHeadQuery.mp (List.mem_reverse.mp mem)
    have other : id ≠ e.id := fun same => foreign e stored same.symm own
    simpa using other
  · rfl

/-- On a page, a row of an event of the tenant shows how that event's inline text starts, and any
other row shows nothing, whatever the table holds of other tenants. -/
theorem page_shows_own_texts (ids : (events.map StoredEvent.id).Nodup) {id : String}
    (listed : id ∈ rowEventIds) :
    (∃ e ∈ events, e.id = id ∧ Own context e ∧ ∀ cs, e.payloadRaw = some (encode cs) →
      ∃ shown, payloadPreviews context events rowEventIds id = some shown ∧
        shown.preview = some (cs.take PAYLOAD_PREVIEW_MAX_CHARS) ∧
        (shown.truncated = true ↔ PAYLOAD_PREVIEW_MAX_CHARS < cs.length)) ∨
    (∀ e ∈ events, e.id = id → ¬Own context e) ∧
      payloadPreviews context events rowEventIds id = none := by
  by_cases foreign : ∀ e ∈ events, e.id = id → ¬Own context e
  · exact .inr ⟨foreign, payloadPreviews_foreign foreign⟩
  · push Not at foreign
    obtain ⟨e, stored, rfl, own⟩ := foreign
    refine .inl ⟨e, stored, rfl, own, fun cs inline => ?_⟩
    refine ⟨_, payloadPreviews_own ids stored own listed, ?_⟩
    rw [payloadHead_inline inline]
    exact previewPayload_text _ _ cs

def ownerOfA : RequestContext :=
  ⟨"usr_1", "org_a", "mem_1", .owner, none, fun _ absent => nomatch absent⟩

/-- An event of each of two organizations. -/
def twoTenants : List StoredEvent :=
  [⟨"evt_a", "org_a", "proj_a", some (encode ['h', 'é']), 3, none⟩,
    ⟨"evt_b", "org_b", "proj_b", some (encode ['x']), 1, none⟩]

theorem own_row_shown_foreign_row_empty :
    (∃ shown, payloadPreviews ownerOfA twoTenants ["evt_b", "evt_a"] "evt_a" = some shown ∧
        shown.preview = some ['h', 'é'] ∧ shown.truncated = false) ∧
      payloadPreviews ownerOfA twoTenants ["evt_b", "evt_a"] "evt_b" = none := by
  have ids : (twoTenants.map StoredEvent.id).Nodup := by decide
  have rows := @page_shows_own_texts ownerOfA twoTenants ["evt_b", "evt_a"] ids
  constructor
  · obtain ⟨e, he, name, -, shows⟩ := (rows (by decide : "evt_a" ∈ _)).resolve_right fun foreign =>
      foreign.1 _ List.mem_cons_self rfl ⟨rfl, fun _ absent => nomatch absent⟩
    rcases List.mem_pair.mp he with rfl | rfl
    · obtain ⟨shown, answer, text, cut⟩ := shows ['h', 'é'] rfl
      exact ⟨shown, answer, text, Bool.eq_false_iff.mpr (cut.not.mpr (by decide))⟩
    · exact absurd name (by decide)
  · refine ((rows (by decide : "evt_b" ∈ _)).resolve_left ?_).2
    rintro ⟨e, he, name, own, -⟩
    rcases List.mem_pair.mp he with rfl | rfl
    · exact absurd name (by decide)
    · exact absurd own.1 (by decide)

end Page

end Hookubit.Events.EventPayload
