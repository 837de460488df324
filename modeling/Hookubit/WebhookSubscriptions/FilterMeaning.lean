/- sources: webhook-subscriptions/event-type-pattern.ts, router/match.go MatchesEventType,
     ingest/request.go validateEventType
   digest: What the filters of a subscription select, in the control plane and in the router. -/

import Hookubit.Ingest.Request
import Hookubit.Router.Planning
import Hookubit.WebhookSubscriptions.EventTypePattern

set_option autoImplicit false
set_option relaxedAutoImplicit false

namespace Hookubit.WebhookSubscriptions.FilterMeaning

open Data.DottedPattern Data.JsText
open Data.Utf8 (Bytes encode)
open Ingest.Request
open Router.Planning (MatchesEventType)
open WebhookSubscriptions.EventTypePattern

/-- A pattern as the router reads it back. -/
def stored (pattern : Units) : String := String.ofList (scalars pattern)

def rune (x : UInt8) : Char := Char.ofNat x.toNat

theorem rune_injective : Function.Injective rune := by
  have back (x : UInt8) : (rune x).toNat = x.toNat :=
    toNat_ofNat (.inl (x.toNat_lt.trans (by decide)))
  intro x y same
  exact UInt8.toNat_inj.mp (by rw [← back x, same, back y])

theorem toList_stored {b : Bytes} (ascii : ∀ x ∈ b, x < 128) :
    (stored (widen b)).toList = b.map rune := by
  have runes := scalars_append ascii []
  rw [List.append_nil] at runes
  rw [stored, String.toList_ofList, runes]
  exact List.append_nil _

theorem matchesPattern_widen (pattern name : Bytes) :
    matchesPattern (widen name) (widen pattern) = selects 46 42 pattern name :=
  selects_map widen_injective 46 42 pattern name

theorem matchesEventType_ofList (patterns : List String) (name : List Char) :
    MatchesEventType patterns (String.ofList name) =
      patterns.any fun pattern => selects '.' '*' pattern.toList name := by
  unfold MatchesEventType
  congr 1
  funext pattern
  have all : (pattern == "*") = decide (pattern.toList = ['*']) := by
    rw [Bool.eq_iff_iff, beq_iff_eq, decide_eq_true_eq, ← String.toList_inj]
    rfl
  have same : (pattern == String.ofList name) = (pattern.toList == name) := by
    rw [Bool.eq_iff_iff, beq_iff_eq, beq_iff_eq, ← String.toList_inj, String.toList_ofList]
  have suffix : ".*".toList = ['.', '*'] := rfl
  rw [all, same, suffix, Router.Planning.cutSuffix, selects, String.toList_ofList]
  split_ifs <;> simp_all

theorem services_agree {patterns : List Units} (ascii : ∀ p ∈ patterns, ∀ u ∈ p, u < 128)
    (name : Bytes) : MatchesEventType (patterns.map stored) (String.ofList (name.map rune)) =
      matchesEventType patterns (widen name) := by
  rw [matchesEventType_ofList, matchesEventType, List.any_map, Bool.eq_iff_iff, List.any_eq_true,
    List.any_eq_true]
  refine exists_congr fun pattern => and_congr_right fun inside => ?_
  obtain ⟨b, rfl, small⟩ := exists_widen (ascii pattern inside)
  rw [Function.comp_apply, matchesPattern_widen, toList_stored small,
    ← selects_map rune_injective 46 42 b name]
  rfl

/-- The bytes of an event type that ingest accepts. -/
structure Published where
  bytes : Bytes
  ascii : ∀ x ∈ bytes, x < 128
  runes : ∀ x ∈ bytes, isEventRune (rune x) = true
  filled : bytes ≠ []
  short : bytes.length ≤ maxEventTypeLength

theorem length_le_encode (text : List Char) : text.length ≤ (encode text).length := by
  induction text with
  | nil => exact Nat.zero_le _
  | cons c text ih =>
    have one : 0 < (String.utf8EncodeChar c).length :=
      List.length_pos_of_ne_nil String.utf8EncodeChar_ne_nil
    simp only [encode, List.flatMap_cons, List.length_append, List.length_cons] at ih ⊢
    omega

theorem exists_published {eventType : List Char} (valid : validateEventType eventType = .ok ()) :
    ∃ e : Published, eventType = e.bytes.map rune := by
  obtain ⟨filled, short, runes, -, -⟩ := validateEventType_eq_ok.mp valid
  have small (c : Char) (h : isEventRune c = true) : c.toNat < 128 := by
    simp only [isEventRune, Bool.or_eq_true, Bool.and_eq_true, decide_eq_true_eq,
      List.contains_iff_mem, List.mem_cons, List.not_mem_nil, or_false] at h
    rcases h with ((h | h) | h) | rfl | rfl | rfl | rfl
    any_goals omega
    all_goals decide
  obtain ⟨b, rfl, ascii⟩ := exists_ascii fun c inside => small c (runes c inside)
  have size := length_le_encode (b.map rune)
  rw [List.length_map] at size
  exact ⟨⟨b, ascii, fun x inside => runes _ (List.mem_map_of_mem inside), by simpa using filled,
    size.trans short⟩, rfl⟩

namespace Published

variable (e : Published)

theorem utf16_eq : utf16 (e.bytes.map rune) = widen e.bytes := utf16_ascii e.ascii

theorem star_notMem : star ∉ widen e.bytes := by
  intro inside
  have here : (42 : UInt8) ∈ e.bytes := mem_widen.mp inside
  exact absurd (e.runes 42 here) (by decide)

end Published

/-- Filters that are stored select, in both services, the event types they read as: all of them,
the named ones, and those below a stem. -/
theorem filters_mean_what_they_say (value : EventTypes) (accepted : rejectEventTypes value = none)
    (eventType : List Char) (valid : validateEventType eventType = .ok ()) :
    ∃ patterns : List Units, value = .array (patterns.map JsValue.string) ∧
      MatchesEventType (patterns.map stored) (String.ofList eventType) =
        matchesEventType patterns (utf16 eventType) ∧
      (matchesEventType patterns (utf16 eventType) = true ↔
        patterns = [WILDCARD_ALL] ∨ utf16 eventType ∈ patterns ∨
          ∃ stem, stem ++ WILDCARD_SUFFIX ∈ patterns ∧
            stem.splitOn dot <+: (utf16 eventType).splitOn dot ∧
            stem.splitOn dot ≠ (utf16 eventType).splitOn dot) := by
  obtain ⟨patterns, rfl, alone⟩ := exists_of_rejectEventTypes accepted
  obtain ⟨e, rfl⟩ := exists_published valid
  rw [e.utf16_eq]
  refine ⟨patterns.map Pattern.text, by rw [List.map_map], services_agree ?_ e.bytes, ?_⟩
  · simp only [List.mem_map]
    rintro text ⟨p, -, rfl⟩
    exact p.ascii
  · rw [matchesEventType, List.any_eq_true]
    constructor
    · rintro ⟨text, inside, selected⟩
      rw [matchesPattern_eq, selects_iff e.star_notMem] at selected
      obtain rfl | rfl | ⟨stem, rfl, below⟩ := selected
      · exact .inl (alone inside)
      · exact .inr (.inl inside)
      · exact .inr (.inr ⟨stem, inside, prefix_iff_segments.mp below⟩)
    · have selects_of {text : Units} (inside : text ∈ patterns.map Pattern.text)
        (h : text = [star] ∨
          text = widen e.bytes ∨ ∃ stem, text = stem ++ [dot, star] ∧
            stem ++ [dot] <+: widen e.bytes) :
          ∃ text ∈ patterns.map Pattern.text, matchesPattern (widen e.bytes) text = true :=
        ⟨text, inside, (selects_iff e.star_notMem).mpr h⟩
      rintro (all | inside | ⟨stem, inside, below⟩)
      · exact selects_of (all ▸ List.mem_singleton_self WILDCARD_ALL) (.inl rfl)
      · exact selects_of inside (.inr (.inl rfl))
      · exact selects_of inside (.inr (.inr ⟨stem, rfl, prefix_iff_segments.mpr below⟩))

theorem stem_filter_means_stem :
    ∃ patterns : List Units,
      EventTypes.array [.string (literal "pay.*")] = .array (patterns.map JsValue.string) ∧
      MatchesEventType (patterns.map stored) (String.ofList "pay.a".toList) =
        matchesEventType patterns (utf16 "pay.a".toList) ∧
      (matchesEventType patterns (utf16 "pay.a".toList) = true ↔
        patterns = [WILDCARD_ALL] ∨ utf16 "pay.a".toList ∈ patterns ∨
          ∃ stem, stem ++ WILDCARD_SUFFIX ∈ patterns ∧
            stem.splitOn dot <+: (utf16 "pay.a".toList).splitOn dot ∧
            stem.splitOn dot ≠ (utf16 "pay.a".toList).splitOn dot) :=
  filters_mean_what_they_say (.array [.string (literal "pay.*")]) (by decide +kernel) "pay.a".toList
    (by decide +kernel)

namespace Published

variable (e : Published)

theorem trim_eq : trim (widen e.bytes) = widen e.bytes := by
  have solid : ∀ x : UInt8, isEventRune (rune x) = true → isWhitespace x.toUInt16 = false := by
    decide +kernel
  have plain : ∀ u ∈ widen e.bytes, isWhitespace u = false := by
    simp only [widen, List.mem_map]
    rintro u ⟨x, inside, rfl⟩
    exact solid x (e.runes x inside)
  have kept := trim_append (by simpa [widen] using e.filled) plain []
  rw [List.append_nil] at kept
  exact kept.trans (List.append_nil _)

theorem segments_iff : (∀ s ∈ e.bytes.splitOn 46, ∀ x ∈ s, isSegmentUnit x.toUInt16 = true) ↔
    58 ∉ e.bytes := by
  have colon : ∀ x : UInt8, isEventRune (rune x) = true → x ≠ 46 →
      (isSegmentUnit x.toUInt16 = true ↔ x ≠ 58) := by decide +kernel
  rw [forall_segments_iff]
  constructor
  · intro each inside
    exact (colon 58 (e.runes 58 inside) (by decide)).mp (each 58 inside (by decide)) rfl
  · intro absent x inside other
    exact (colon x (e.runes x inside) other).mpr fun same => absent (same ▸ inside)

theorem name_iff : (∃ name : DottedName, name.value = widen e.bytes) ↔
    58 ∉ e.bytes ∧ (∀ s ∈ e.bytes.splitOn 46, s ≠ []) ∧
      (e.bytes.splitOn 46).length ≤ MAX_EVENT_TYPE_SEGMENTS := by
  have units : (widen e.bytes).splitOn dot = (e.bytes.splitOn 46).map widen :=
    splitOn_widen e.bytes 46
  rw [← e.segments_iff]
  constructor
  · rintro ⟨name, same⟩
    have short := name.short
    have segments := name.segments
    rw [same, units] at short segments
    rw [List.length_map] at short
    refine ⟨fun s piece x inside => ?_, fun s piece => ?_, short⟩
    · exact (segments (widen s) (List.mem_map_of_mem piece)).2 _ (List.mem_map_of_mem inside)
    · simpa [widen] using (segments (widen s) (List.mem_map_of_mem piece)).1
  · rintro ⟨solid, filled, short⟩
    refine ⟨⟨widen e.bytes, by rwa [units, List.length_map], ?_⟩, rfl⟩
    rw [units]
    simp only [List.mem_map]
    rintro - ⟨s, piece, rfl⟩
    refine ⟨by simpa [widen] using filled s piece, ?_⟩
    simp only [widen, List.mem_map]
    rintro - ⟨x, inside, rfl⟩
    exact solid s piece x inside

theorem matches_iff (other : List Char) :
    MatchesEventType [stored (widen e.bytes)] (String.ofList other) = true ↔
      other = e.bytes.map rune := by
  have plain : '*' ∉ e.bytes.map rune := by
    intro inside
    obtain ⟨x, here, same⟩ := List.mem_map.mp inside
    exact absurd (e.runes x here) (by rw [same]; decide)
  have all : e.bytes.map rune ≠ ['*'] := fun same => plain (by simp [same])
  have wild : ¬['.', '*'].isSuffixOf (e.bytes.map rune) = true := by
    rw [List.isSuffixOf_iff_suffix]
    intro suffix
    exact plain (suffix.subset (by simp))
  rw [matchesEventType_ofList, List.any_cons, List.any_nil, Bool.or_false, toList_stored e.ascii,
    selects, if_neg all, if_neg wild, beq_iff_eq, eq_comm]

end Published

/-- A published type can be stored as a filter of its own exactly when it has no colon, no empty
segment and at most eight segments, and then it selects itself alone. -/
theorem published_subscribable_iff (eventType : List Char)
    (valid : validateEventType eventType = .ok ()) :
    (rejectEventTypes (.array [.string (utf16 eventType)]) = none ↔
      ':' ∉ eventType ∧ (∀ s ∈ eventType.splitOn '.', s ≠ []) ∧
        (eventType.splitOn '.').length ≤ MAX_EVENT_TYPE_SEGMENTS) ∧
    ∀ other : List Char,
      MatchesEventType [stored (utf16 eventType)] (String.ofList other) = true ↔
        other = eventType := by
  obtain ⟨e, rfl⟩ := exists_published valid
  have pieces : (e.bytes.map rune).splitOn '.' = (e.bytes.splitOn 46).map (List.map rune) :=
    splitOn_map rune_injective 46 e.bytes
  have colon : ':' ∉ e.bytes.map rune ↔ 58 ∉ e.bytes := by
    have spelled : ':' = rune 58 := rfl
    rw [spelled, List.mem_map_of_injective rune_injective]
  rw [e.utf16_eq, pieces, List.length_map, colon, rejectEventTypes_singleton]
  refine ⟨?_, e.matches_iff⟩
  have short : (widen e.bytes).length ≤ MAX_EVENT_TYPE_LENGTH := by
    rw [widen, List.length_map]
    exact e.short
  rw [rejectEventTypePattern_eq_none
    (by simpa [widen] using e.filled) short e.trim_eq e.star_notMem, e.name_iff]
  simp

theorem dotted_type_subscribable :
    (rejectEventTypes (.array [.string (utf16 "pay.a".toList)]) = none ↔
      ':' ∉ "pay.a".toList ∧ (∀ s ∈ "pay.a".toList.splitOn '.', s ≠ []) ∧
        ("pay.a".toList.splitOn '.').length ≤ MAX_EVENT_TYPE_SEGMENTS) ∧
    ∀ other : List Char, MatchesEventType [stored (utf16 "pay.a".toList)] (String.ofList other) =
      true ↔
      other = "pay.a".toList :=
  published_subscribable_iff "pay.a".toList (by decide +kernel)

/-- Ingest admits a colon, an empty segment and nine segments; a filter does not. -/
theorem published_not_subscribable :
    validateEventType "a:b".toList = .ok () ∧
      rejectEventTypes (.array [.string (utf16 "a:b".toList)]) ≠ none ∧
    validateEventType "a..b".toList = .ok () ∧
      rejectEventTypes (.array [.string (utf16 "a..b".toList)]) ≠ none ∧
    validateEventType "a.b.c.d.e.f.g.h.i".toList = .ok () ∧
      rejectEventTypes (.array [.string (utf16 "a.b.c.d.e.f.g.h.i".toList)]) ≠ none := by
  decide +kernel

end Hookubit.WebhookSubscriptions.FilterMeaning
