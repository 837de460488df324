/- sources: authz/audit.service.ts (sanitise, redactObject, redactValue)
   digest: Audit metadata as it is stored shows nothing below a credential key. -/

import Hookubit.Authz.CredentialKeys

/-!
Objects are lists of entries in property order, and `__proto__` is not a key. Every scalar that
is not a text is passed on, so they are an arbitrary type. A date stands by what its `toISOString`
returns, and an invalid one, for which that throws, is not a value here.
-/

set_option autoImplicit false
set_option relaxedAutoImplicit false

namespace Hookubit.Authz.AuditRedaction

open CredentialKeys

abbrev Key := {key : Text // key ≠ "__proto__".toList}

inductive Tree (S : Type)
  | scalar (value : S)
  | text (value : String)
  | date (iso : String)
  | binary (bytes : List UInt8)
  | array (items : List (Tree S))
  | object (entries : List (Key × Tree S))

def REDACTED : String := "[redacted]"

def TRUNCATED : String := "[truncated]"

def MAX_METADATA_DEPTH : ℕ := 6

variable {S : Type}

mutual

def redactValue : Tree S → ℕ → Tree S
  | .scalar value, _ => .scalar value
  | .text value, _ => .text value
  | .date iso, _ => .text iso
  | .binary _, _ => .text "[binary]"
  | .array items, depth =>
    if MAX_METADATA_DEPTH ≤ depth then .text TRUNCATED else .array (redactItems items (depth + 1))
  | .object entries, depth =>
    if MAX_METADATA_DEPTH ≤ depth then .text TRUNCATED else .object (redactObject entries depth)

def redactItems : List (Tree S) → ℕ → List (Tree S)
  | [], _ => []
  | item :: items, depth => redactValue item depth :: redactItems items depth

def redactObject : List (Key × Tree S) → ℕ → List (Key × Tree S)
  | [], _ => []
  | (key, nested) :: entries, depth =>
    (key, if isCredentialKey key then .text REDACTED else redactValue nested (depth + 1)) ::
      redactObject entries depth

end

/-- `none` is the database's own null. -/
def sanitise (metadata : Option (List (Key × Tree S))) : Option (Tree S) :=
  metadata.map fun entries => .object (redactObject entries 0)

mutual

/-- Trees of one shape that are equal except below hidden keys; the order of keys is nothing. -/
inductive Alike (hidden : Key → Prop) : Tree S → Tree S → Prop
  | scalar (value : S) : Alike hidden (.scalar value) (.scalar value)
  | text (value : String) : Alike hidden (.text value) (.text value)
  | date (iso : String) : Alike hidden (.date iso) (.date iso)
  | binary (bytes : List UInt8) : Alike hidden (.binary bytes) (.binary bytes)
  | array {a b : List (Tree S)} : AlikeItems hidden a b → Alike hidden (.array a) (.array b)
  | object {a a' b : List (Key × Tree S)} : a.Perm a' → AlikeEntries hidden a' b →
      Alike hidden (.object a) (.object b)

inductive AlikeItems (hidden : Key → Prop) : List (Tree S) → List (Tree S) → Prop
  | nil : AlikeItems hidden [] []
  | cons {x y : Tree S} {a b : List (Tree S)} : Alike hidden x y → AlikeItems hidden a b →
      AlikeItems hidden (x :: a) (y :: b)

inductive AlikeEntries (hidden : Key → Prop) :
    List (Key × Tree S) → List (Key × Tree S) → Prop
  | nil : AlikeEntries hidden [] []
  | cons {key : Key} {x y : Tree S}
      {a b : List (Key × Tree S)} : (¬ hidden key → Alike hidden x y) →
      AlikeEntries hidden a b → AlikeEntries hidden ((key, x) :: a) ((key, y) :: b)

end

/-- The same value: equal but for the order of keys. -/
abbrev Same : Tree S → Tree S → Prop := Alike fun _ => False

abbrev credential (key : Key) : Prop := isCredentialKey key = true

theorem redactObject_eq_map (entries : List (Key × Tree S)) (depth : ℕ) :
    redactObject entries depth = entries.map fun e =>
      (e.1, if isCredentialKey e.1 then .text REDACTED else redactValue e.2 (depth + 1)) := by
  induction entries with
  | nil => rfl
  | cons e entries ih => rw [redactObject, ih, List.map_cons]

theorem redactItems_eq_map (items : List (Tree S)) (depth : ℕ) :
    redactItems items depth = items.map (redactValue · depth) := by
  induction items with
  | nil => rfl
  | cons item items ih => rw [redactItems, ih, List.map_cons]

mutual

theorem same_redactValue : ∀ {x y : Tree S}, Alike credential x y → ∀ depth,
    Same (redactValue x depth) (redactValue y depth)
  | _, _, .scalar value, _ => .scalar value
  | _, _, .text value, _ => .text value
  | _, _, .date iso, _ => .text iso
  | _, _, .binary _, _ => .text "[binary]"
  | _, _, .array items, depth => by
    unfold redactValue
    split
    · exact .text TRUNCATED
    · exact .array (same_redactItems items (depth + 1))
  | _, _, .object moved entries, depth => by
    unfold redactValue
    split
    · exact .text TRUNCATED
    · refine .object ?_ (same_redactObject entries depth)
      rw [redactObject_eq_map, redactObject_eq_map]
      exact moved.map _

theorem same_redactItems : ∀ {a b : List (Tree S)}, AlikeItems credential a b → ∀ depth,
    AlikeItems (fun _ => False) (redactItems a depth) (redactItems b depth)
  | _, _, .nil, _ => .nil
  | _, _, .cons here later, depth =>
    .cons (same_redactValue here depth) (same_redactItems later depth)

theorem same_redactObject : ∀ {a b : List (Key × Tree S)}, AlikeEntries credential a b → ∀ depth,
    AlikeEntries (fun _ => False) (redactObject a depth) (redactObject b depth)
  | _, _, .nil, _ => .nil
  | _, _, @AlikeEntries.cons _ _ key _ _ _ _ here later, depth => by
    refine .cons (fun _ => ?_) (same_redactObject later depth)
    by_cases hidden : isCredentialKey key = true
    · rw [if_pos hidden, if_pos hidden]
      exact .text REDACTED
    · rw [if_neg hidden, if_neg hidden]
      exact same_redactValue (here hidden) (depth + 1)

end

inductive Step
  | key (key : Key)
  | index (i : ℕ)

/-- What stands at a place in a tree. -/
def lookAt : List Step → Tree S → Option (Tree S)
  | [], tree => some tree
  | .key key :: place, .object entries => (entries.lookup key).bind (lookAt place)
  | .index i :: place, .array items => items[i]?.bind (lookAt place)
  | _, _ => none

theorem lookAt_text (place : List Step) (value : String) (entries : List (Key × Tree S)) :
    lookAt place (.text value) ≠ some (.object entries) := by
  cases place with
  | nil => simp [lookAt]
  | cons step place => cases step <;> simp [lookAt]

theorem lookup_redactObject (entries : List (Key × Tree S)) (depth : ℕ) (key : Key) :
    (redactObject entries depth).lookup key = (entries.lookup key).map fun nested =>
      if isCredentialKey key then .text REDACTED else redactValue nested (depth + 1) := by
  induction entries with
  | nil => rfl
  | cons e entries ih =>
    rw [redactObject, List.lookup_cons, List.lookup_cons, ih]
    by_cases same : key = e.1
    · simp [same]
    · rw [beq_false_of_ne same]

/-- An object with all keys of the original and every credential redacted. -/
def Shows (shown : List (Key × Tree S)) (original : Option (Tree S)) : Prop :=
  ∃ entries, original = some (.object entries) ∧ shown.map Prod.fst = entries.map Prod.fst ∧
    ∀ e ∈ shown, isCredentialKey e.1 = true → e.2 = .text REDACTED

theorem shows_redactObject (entries : List (Key × Tree S)) (depth : ℕ) :
    Shows (redactObject entries depth) (some (.object entries)) := by
  refine ⟨entries, rfl, ?_, ?_⟩
  · simp [redactObject_eq_map]
  · intro e he hidden
    rw [redactObject_eq_map] at he
    obtain ⟨e, -, rfl⟩ := List.mem_map.mp he
    exact if_pos hidden

theorem shows_of_lookAt {place : List Step} {tree : Tree S} {depth : ℕ}
    {shown : List (Key × Tree S)}
    (h : lookAt place (redactValue tree depth) = some (.object shown)) :
    Shows shown (lookAt place tree) := by
  induction place generalizing tree depth with
  | nil =>
    cases tree with
    | object entries =>
      simp only [lookAt, redactValue] at h
      split at h
      · cases h
      · cases h
        exact shows_redactObject entries depth
    | array items =>
      simp only [lookAt, redactValue] at h
      split at h <;> cases h
    | scalar value => cases h
    | text value => cases h
    | date iso => cases h
    | binary bytes => cases h
  | cons step place ih =>
    cases tree with
    | object entries =>
      simp only [redactValue] at h
      split at h
      · exact absurd h (lookAt_text _ _ _)
      · cases step with
        | index i => cases h
        | key key =>
          rw [lookAt, lookup_redactObject] at h
          obtain ⟨nested, found, h⟩ := Option.bind_eq_some_iff.mp h
          obtain ⟨original, there, rfl⟩ := Option.map_eq_some_iff.mp found
          split at h
          · exact absurd h (lookAt_text _ _ _)
          · rw [lookAt, there]
            exact ih h
    | array items =>
      simp only [redactValue] at h
      split at h
      · exact absurd h (lookAt_text _ _ _)
      · cases step with
        | key key => cases h
        | index i =>
          rw [lookAt, redactItems_eq_map, List.getElem?_map] at h
          obtain ⟨nested, found, h⟩ := Option.bind_eq_some_iff.mp h
          obtain ⟨original, there, rfl⟩ := Option.map_eq_some_iff.mp found
          rw [lookAt, there]
          exact ih h
    | scalar value => cases step <;> cases h
    | text value => cases step <;> cases h
    | date iso => cases step <;> cases h
    | binary bytes => cases step <;> cases h

/-- Metadata that differ only below credential keys are stored as the same value, and every
object that is stored has the keys of the original one, credentials redacted. -/
theorem sanitise_reveals_nothing (a : List (Key × Tree S)) :
    (∀ b, Alike credential (.object a) (.object b) →
        ∃ x y, sanitise (some a) = some x ∧ sanitise (some b) = some y ∧ Same x y) ∧
      ∀ stored place shown, sanitise (some a) = some stored →
        lookAt place stored = some (.object shown) → Shows shown (lookAt place (.object a)) := by
  constructor
  · intro b alike
    exact ⟨_, _, rfl, rfl, same_redactValue alike 0⟩
  · intro stored place shown hs h
    obtain rfl := Option.some.inj hs
    exact @shows_of_lookAt S place (.object a) 0 shown h

/-- Two endpoints that differ in a secret below an array and in the order of the keys beside it. -/
def endpointMetadata (reordered : Bool) (secret : Tree ℕ) : List (Key × Tree ℕ) :=
  let named : Key × Tree ℕ := (⟨"name".toList, by decide⟩, .text "orders")
  let hidden : Key × Tree ℕ := (⟨"signingSecret".toList, by decide⟩, secret)
  [(⟨"endpoints".toList, by decide⟩,
    .array [.object (if reordered then [named, hidden] else [hidden, named])])]

theorem nested_secrets_stored_alike :
    (∃ x y, sanitise (some (endpointMetadata false (.text "a"))) = some x ∧
        sanitise (some (endpointMetadata true (.object [(⟨"v".toList, by decide⟩, .scalar 2)]))) =
          some y ∧ Same x y) ∧
      ∃ shown, (sanitise (some (endpointMetadata false (.text "a")))).bind
          (lookAt [.key ⟨"endpoints".toList, by decide⟩, .index 0]) = some (.object shown) ∧
        Shows shown (lookAt [.key ⟨"endpoints".toList, by decide⟩, .index 0]
          (.object (endpointMetadata false (.text "a")))) := by
  obtain ⟨alike, shows⟩ := sanitise_reveals_nothing (endpointMetadata false (.text "a"))
  refine ⟨alike _ ?_, _, rfl, shows _ _ _ rfl rfl⟩
  refine .object (.refl _) (.cons (fun _ => .array (.cons (.object (.swap _ _ _) ?_) .nil)) .nil)
  exact .cons (fun _ => .text _) (.cons (fun shown => absurd (by decide) shown) .nil)

end Hookubit.Authz.AuditRedaction
