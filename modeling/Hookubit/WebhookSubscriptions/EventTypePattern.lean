/- sources: webhook-subscriptions/event-type-pattern.ts (matchesEventType, rejectDottedName,
     rejectEventTypePattern, rejectEventTypes)
   digest: The control plane's check of a subscription's event types, and its mirror of the
     match. -/

import Hookubit.Data.JsText

set_option autoImplicit false
set_option relaxedAutoImplicit false

namespace Hookubit.WebhookSubscriptions.EventTypePattern

open Data.DottedPattern Data.JsText

def dot : UInt16 := 46

def star : UInt16 := 42

def WILDCARD_ALL : Units := [star]

def WILDCARD_SUFFIX : Units := [dot, star]

/-- One round of the loop. -/
def matchesPattern (eventType pattern : Units) : Bool :=
  if pattern = WILDCARD_ALL then true
  else if WILDCARD_SUFFIX.isSuffixOf pattern then
    (pattern.take (pattern.length - WILDCARD_SUFFIX.length) ++ [dot]).isPrefixOf eventType
  else pattern == eventType

def matchesEventType (patterns : List Units) (eventType : Units) : Bool :=
  patterns.any (matchesPattern eventType)

theorem matchesPattern_eq (eventType pattern : Units) :
    matchesPattern eventType pattern = selects dot star pattern eventType := rfl

def MAX_EVENT_TYPE_LENGTH : ℕ := 255

def MAX_EVENT_TYPES_PER_SUBSCRIPTION : ℕ := 100

def MAX_EVENT_TYPE_SEGMENTS : ℕ := 8

def isSegmentUnit (u : UInt16) : Bool :=
  (65 ≤ u && u ≤ 90) || (97 ≤ u && u ≤ 122) || (48 ≤ u && u ≤ 57) || u == 95 || u == 45

def count (n : ℕ) : Units := literal (toString n)

def quoted (s : Units) : Units := literal "\"" ++ s ++ literal "\""

/-- Why a segment cannot be part of a name. -/
def rejectSegment (what segment : Units) : Option Units :=
  if segment.length = 0 then
    some (what ++ literal
      " has an empty segment - \"..\" and a leading or trailing \".\" are not event types")
  else if ¬segment.all isSegmentUnit then
    some (what ++ literal " contains " ++ quoted segment ++ literal
      ", which is not a valid segment: use letters, digits, \"_\" or \"-\", separated by \".\"")
  else none

def rejectDottedName (value what : Units) : Option Units :=
  let segments := value.splitOn dot
  if MAX_EVENT_TYPE_SEGMENTS < segments.length then
    some (what ++ literal " has " ++ count segments.length ++
      literal " dot-separated segments; the maximum is " ++ count MAX_EVENT_TYPE_SEGMENTS)
  else segments.findSome? (rejectSegment what)

def rejectEventTypePattern : JsValue → Option Units
  | .other => some (literal "must be a string")
  | .string value =>
      if value.length = 0 then some (literal "is empty")
      else if MAX_EVENT_TYPE_LENGTH < value.length then
        some (literal "is " ++ count value.length ++ literal " characters; the maximum is " ++
          count MAX_EVENT_TYPE_LENGTH)
      else if value ≠ trim value then
        some (literal ("has leading or trailing whitespace; " ++
          "the router compares event types byte for byte"))
      else if value = WILDCARD_ALL then none
      else if WILDCARD_SUFFIX.isSuffixOf value then
        let stem := value.take (value.length - WILDCARD_SUFFIX.length)
        if stem.length = 0 then
          some (literal ("is \".*\", which would match only event types beginning with a " ++
            "literal \".\"; write \"*\" if you mean everything"))
        else if stem.contains star then
          some (literal "has a \"*\" inside the prefix " ++ quoted stem ++ literal
            "; the only wildcards are \"*\" on its own and a single trailing \".*\"")
        else rejectDottedName stem
          (literal "the prefix " ++ quoted stem ++ literal " before \".*\"")
      else if value.contains star then
        some (literal ("contains \"*\" but is not a wildcard pattern; the only forms are \"*\" " ++
          "(everything) and \"prefix.*\" (a trailing wildcard). ") ++ quoted value ++
          literal " would be matched as an exact event type and would never fire")
      else rejectDottedName value (quoted value)

/-- The loop from an index on, with the patterns seen so far and their number. -/
def rejectEntries (seen : List Units) (index : ℕ) : List JsValue → Option Units
  | [] =>
      if seen.contains WILDCARD_ALL ∧ 1 < seen.length then
        some (literal ("event_types contains \"*\" alongside other patterns. \"*\" already " ++
          "matches " ++
          "every event, so the subscription would read as filtered and receive everything - " ++
            "which " ++
          "is the exact failure this platform was built to avoid. Send [\"*\"] on its own, or " ++
            "drop " ++
          "it and list the types you want"))
      else none
  | pattern :: rest =>
      match rejectEventTypePattern pattern with
      | some rejection =>
          some (literal "event_types[" ++ count index ++ literal "] " ++ rejection)
      | none =>
          match pattern with
          | .string key =>
              if seen.contains key then
                some (literal "event_types[" ++ count index ++ literal "] repeats " ++ quoted key)
              else rejectEntries (key :: seen) (index + 1) rest
          -- Not reached: what is not a string is rejected.
          | .other => rejectEntries seen (index + 1) rest

/-- What a caller may pass. -/
inductive EventTypes
  | notArray
  | array (values : List JsValue)
  deriving DecidableEq

def rejectEventTypes : EventTypes → Option Units
  | .notArray => some (literal "event_types must be an array of strings")
  | .array values =>
      if values.length = 0 then
        some (literal ("event_types must not be empty: an empty filter matches NO events, so it " ++
          "is " ++
          "refused rather than stored or widened. Use [\"*\"] to receive every event type, list " ++
            "the " ++
          "types you want, or set enabled=false to stop deliveries without changing the filter"))
      else if MAX_EVENT_TYPES_PER_SUBSCRIPTION < values.length then
        some (literal "event_types has " ++ count values.length ++
          literal " entries; the maximum is " ++ count MAX_EVENT_TYPES_PER_SUBSCRIPTION)
      else rejectEntries [] 0 values

/-- A name of at most eight segments, all of them filled. -/
structure DottedName where
  value : Units
  short : (value.splitOn dot).length ≤ MAX_EVENT_TYPE_SEGMENTS
  segments : ∀ s ∈ value.splitOn dot, s ≠ [] ∧ ∀ u ∈ s, isSegmentUnit u = true

inductive Pattern
  | all
  | below (stem : DottedName)
  | exactly (name : DottedName)

def Pattern.text : Pattern → Units
  | .all => WILDCARD_ALL
  | .below stem => stem.value ++ WILDCARD_SUFFIX
  | .exactly name => name.value

theorem rejectSegment_eq_none {what segment : Units} : rejectSegment what segment = none ↔
    segment ≠ [] ∧ ∀ u ∈ segment, isSegmentUnit u = true := by
  unfold rejectSegment
  split_ifs with empty units <;> simp_all

theorem rejectDottedName_eq_none {value what : Units} : rejectDottedName value what = none ↔
    ∃ name : DottedName, name.value = value := by
  have pieces : (value.splitOn dot).findSome? (rejectSegment what) = none ↔
      ∀ s ∈ value.splitOn dot, s ≠ [] ∧ ∀ u ∈ s, isSegmentUnit u = true := by
    rw [List.findSome?_eq_none_iff]
    exact forall₂_congr fun _ _ => rejectSegment_eq_none
  simp only [rejectDottedName]
  split_ifs with long
  · refine iff_of_false id ?_
    rintro ⟨name, rfl⟩
    exact absurd name.short (Nat.not_le.mpr long)
  · rw [pieces]
    constructor
    · intro filled
      exact ⟨⟨value, Nat.not_lt.mp long, filled⟩, rfl⟩
    · rintro ⟨name, rfl⟩
      exact name.segments

theorem DottedName.ascii (name : DottedName) : ∀ u ∈ name.value, u < 128 := by
  have small (u : UInt16) (h : isSegmentUnit u = true) : u < 128 := by
    simp only [isSegmentUnit, Bool.or_eq_true, Bool.and_eq_true, decide_eq_true_eq, beq_iff_eq] at h
    rcases h with (((⟨-, h⟩ | ⟨-, h⟩) | ⟨-, h⟩) | rfl) | rfl
    any_goals exact UInt16.lt_of_le_of_lt h (by decide)
    all_goals decide
  have units : ∀ u ∈ name.value, u ≠ dot → isSegmentUnit u = true :=
    forall_segments_iff.mp fun s piece => (name.segments s piece).2
  intro u inside
  by_cases separator : u = dot
  · rw [separator]
    decide
  · exact small u (units u inside separator)

theorem Pattern.ascii (p : Pattern) : ∀ u ∈ p.text, u < 128 := by
  have wild : ∀ u ∈ WILDCARD_SUFFIX, u < 128 :=
    List.forall_mem_cons.mpr ⟨by decide, List.forall_mem_singleton.mpr (by decide)⟩
  cases p with
  | all =>
    intro u inside
    exact wild u (List.mem_cons_of_mem _ inside)
  | below stem =>
    intro u inside
    exact (List.mem_append.mp inside).elim (stem.ascii u) (wild u)
  | exactly name => exact name.ascii

theorem exists_of_rejectEventTypePattern {v : JsValue} (h : rejectEventTypePattern v = none) :
    ∃ p : Pattern, v = .string p.text := by
  cases v with
  | other => cases h
  | string value =>
    simp only [rejectEventTypePattern] at h
    split at h
    · cases h
    split at h
    · cases h
    split at h
    · cases h
    split at h
    · rename_i all
      exact ⟨.all, congrArg JsValue.string all⟩
    split at h
    · rename_i wild
      obtain ⟨stem, rfl⟩ := List.isSuffixOf_iff_suffix.mp wild
      have cut : (stem ++ WILDCARD_SUFFIX).take
          ((stem ++ WILDCARD_SUFFIX).length - WILDCARD_SUFFIX.length) = stem := by simp
      rw [cut] at h
      split at h
      · cases h
      split at h
      · cases h
      obtain ⟨name, rfl⟩ := rejectDottedName_eq_none.mp h
      exact ⟨.below name, rfl⟩
    split at h
    · cases h
    obtain ⟨name, rfl⟩ := rejectDottedName_eq_none.mp h
    exact ⟨.exactly name, rfl⟩

theorem exists_of_rejectEntries {values : List JsValue} {seen : List Units} {index : ℕ}
    (h : rejectEntries seen index values = none) :
    ∃ patterns : List Pattern, values = patterns.map (JsValue.string ∘ Pattern.text) ∧
      (WILDCARD_ALL ∈ patterns.map Pattern.text ∨ WILDCARD_ALL ∈ seen →
        patterns.length + seen.length ≤ 1) := by
  induction values generalizing seen index with
  | nil =>
    refine ⟨[], rfl, ?_⟩
    rw [rejectEntries] at h
    split at h
    · cases h
    rename_i alone
    rintro (inside | inside)
    · cases inside
    · have := not_and.mp alone (List.contains_iff_mem.mpr inside)
      simpa using this
  | cons v rest ih =>
    unfold rejectEntries at h
    split at h
    · cases h
    rename_i accepted
    obtain ⟨p, rfl⟩ := exists_of_rejectEventTypePattern accepted
    simp only at h
    split at h
    · cases h
    obtain ⟨patterns, rfl, alone⟩ := ih h
    refine ⟨p :: patterns, rfl, fun inside => ?_⟩
    have bound := alone (by
      simp only [List.map_cons, List.mem_cons] at inside ⊢
      tauto)
    simp only [List.length_cons] at bound ⊢
    omega

theorem exists_of_rejectEventTypes {value : EventTypes} (h : rejectEventTypes value = none) :
    ∃ patterns : List Pattern, value = .array (patterns.map (JsValue.string ∘ Pattern.text)) ∧
      (WILDCARD_ALL ∈ patterns.map Pattern.text → patterns.map Pattern.text = [WILDCARD_ALL]) := by
  cases value with
  | notArray => cases h
  | array values =>
    simp only [rejectEventTypes] at h
    split at h
    · cases h
    split at h
    · cases h
    obtain ⟨patterns, rfl, alone⟩ := exists_of_rejectEntries h
    refine ⟨patterns, rfl, fun inside => ?_⟩
    have single := alone (.inl inside)
    -- One pattern at most, and the star is one.
    match patterns, inside, single with
    | [p], inside, _ => rw [List.map_singleton, ← List.mem_singleton.mp inside]

theorem rejectEventTypePattern_eq_none {value : Units} (filled : value ≠ [])
    (short : value.length ≤ MAX_EVENT_TYPE_LENGTH) (trimmed : trim value = value)
    (plain : star ∉ value) : rejectEventTypePattern (.string value) = none ↔
      ∃ name : DottedName, name.value = value := by
  have present : value ≠ WILDCARD_ALL := by
    rintro rfl
    exact plain (List.mem_singleton_self star)
  have precise : ¬WILDCARD_SUFFIX.isSuffixOf value = true := by
    intro wild
    obtain ⟨stem, rfl⟩ := List.isSuffixOf_iff_suffix.mp wild
    exact plain (by simp [WILDCARD_SUFFIX])
  have absent : ¬value.contains star = true := by rwa [List.contains_iff_mem]
  rw [rejectEventTypePattern, if_neg (by simpa using filled), if_neg (Nat.not_lt.mpr short),
    if_neg (not_not.mpr trimmed.symm), if_neg present, if_neg precise, if_neg absent,
    rejectDottedName_eq_none]

theorem rejectEventTypes_singleton (v : JsValue) :
    rejectEventTypes (.array [v]) = none ↔ rejectEventTypePattern v = none := by
  cases v with
  | other => exact iff_of_false (Option.some_ne_none _) (Option.some_ne_none _)
  | string key =>
    cases result : rejectEventTypePattern (.string key) <;>
      simp [rejectEventTypes, rejectEntries, result, MAX_EVENT_TYPES_PER_SUBSCRIPTION]

end Hookubit.WebhookSubscriptions.EventTypePattern
