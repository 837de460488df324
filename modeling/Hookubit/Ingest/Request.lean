/- sources: ingest/request.go (Envelope, ParseEnvelope, rejectNUL, validateEventType,
     validateOrderingKey, isPrintableASCII), ingest/store.go insertEventSQL,
     ingest/errors.go errInvalidRequest
   digest: Which request bodies are accepted, and which of those the event insert can store. -/

import Hookubit.Common.Errors
import Hookubit.Data.JsonParse
import Hookubit.Data.JsonUnquote

/-!
`encoding/json` decodes the first value of the body into the envelope: a member's name may
differ from the field's in case, an unknown name is an error, the last of several wins, and a
null leaves a string as it was. `Decoder.More` only looks at the next byte.
-/

set_option autoImplicit false
set_option relaxedAutoImplicit false

namespace Hookubit.Ingest.Request

open Common.Errors (bind_eq_ok)
open Data.Int64 (isDigit)
open Data.JsonText
open Data.Utf8 (Bytes encode Valid validString valid_iff)

/-- A failure with status 400 and code `invalid_request`. -/
structure InvalidRequest where
  message : String
  deriving DecidableEq

structure Envelope where
  EventType : List Char
  Data : Bytes
  OrderingKey : List Char
  deriving DecidableEq

def Envelope.zero : Envelope := ⟨[], [], []⟩

inductive Field
  | eventType | data | orderingKey
  deriving DecidableEq

/-- The field names in the case that `foldName` brings them to. -/
def fields : List (List Char × Field) :=
  [(['E', 'V', 'E', 'N', 'T', '_', 'T', 'Y', 'P', 'E'], .eventType),
    (['D', 'A', 'T', 'A'], .data),
    (['O', 'R', 'D', 'E', 'R', 'I', 'N', 'G', '_', 'K', 'E', 'Y'], .orderingKey)]

/-- `foldRune`. The long s and the Kelvin sign are the only runes outside ASCII that fold into
it; what the others fold to matches no field and is left alone. -/
def foldRune (c : Char) : Char :=
  if 0x61 ≤ c.toNat ∧ c.toNat ≤ 0x7A then Char.ofNat (c.toNat - 0x20)
  else if c.toNat = 0x17F then 'S'
  else if c.toNat = 0x212A then 'K'
  else c

def fieldOf (key : List Char) : Option Field := fields.lookup (key.map foldRune)

def decodeString (old : List Char) : Tree → Option (List Char)
  | .string s => some (unquote s)
  | .null => some old
  | _ => none

def assign (env : Envelope) (member : Str × Tree) : Option Envelope :=
  match fieldOf (unquote member.1) with
  | none => none
  | some .eventType =>
    (decodeString env.EventType member.2).map fun v => { env with EventType := v }
  | some .data => some { env with Data := member.2.text }
  | some .orderingKey =>
    (decodeString env.OrderingKey member.2).map fun v => { env with OrderingKey := v }

def decodeEnvelope : Tree → Option Envelope
  | .null | .emptyObject _ => some .zero
  | .object _ members => members.list.foldlM assign .zero
  | _ => none

variable {t : Tree} {env : Envelope} {body : Bytes}

theorem isObject_of_data (h : decodeEnvelope t = some env) (data : env.Data ≠ []) :
    t.isObject = true := by
  cases t with
  | null =>
    cases h
    exact absurd rfl data
  | emptyObject | object => rfl
  | bool | number | string | emptyArray | array => cases h

def maxNestingDepth : ℕ := 10000

/-- `Decoder.Decode`: the envelope and what follows the first value. -/
def Decode (body : Bytes) : Option (Envelope × Bytes) :=
  (readValue body).bind fun p =>
    if p.1.depth ≤ maxNestingDepth then (decodeEnvelope p.1).map fun env => (env, p.2) else none

/-- `Decoder.More`: the next byte ends no array and no object. -/
def More (rest : Bytes) : Bool :=
  (skip rest).2.head?.any fun c => c != 0x5D && c != 0x7D

/-- A check and the message of its failure. -/
def require (c : Bool) (message : String) : Except InvalidRequest Unit :=
  if c then .ok () else .error ⟨message⟩

theorem require_eq_ok {c : Bool} {message : String} {u : Unit} :
    require c message = .ok u ↔ c = true := by
  unfold require
  split <;> simp_all

/-- A result and the message of its absence. -/
def decoded {α : Type} (x : Option α) (message : String) : Except InvalidRequest α :=
  match x with
  | some a => .ok a
  | none => .error ⟨message⟩

theorem decoded_eq_ok {α : Type} {x : Option α} {message : String} {a : α} :
    decoded x message = .ok a ↔ x = some a := by
  cases x <;> simp [decoded]

def maxEventTypeLength : ℕ := 255

def maxOrderingKeyLength : ℕ := 255

def isEventRune (c : Char) : Bool :=
  (0x61 ≤ c.toNat && c.toNat ≤ 0x7A) || (0x41 ≤ c.toNat && c.toNat ≤ 0x5A) ||
    (0x30 ≤ c.toNat && c.toNat ≤ 0x39) || ['.', '_', '-', ':'].contains c

def validateEventType (eventType : List Char) : Except InvalidRequest Unit := do
  require (eventType != []) "event_type is required"
  require ((encode eventType).length ≤ maxEventTypeLength)
    "event_type must be at most 255 characters"
  require (eventType.all isEventRune) "event_type may contain only letters, digits, and . _ - :"
  require (eventType.head? != some '.' && eventType.getLast? != some '.')
    "event_type must not begin or end with a dot"

theorem validateEventType_eq_ok {eventType : List Char} : validateEventType eventType = .ok () ↔
    eventType ≠ [] ∧ (encode eventType).length ≤ maxEventTypeLength ∧
      (∀ c ∈ eventType, isEventRune c = true) ∧
      eventType.head? ≠ some '.' ∧ eventType.getLast? ≠ some '.' := by
  simp only [validateEventType, bind_eq_ok, require_eq_ok]
  simp

def isPrintableASCII (s : List Char) : Bool := s.all fun c => 0x20 ≤ c.toNat && c.toNat < 0x7F

def validateOrderingKey (key : List Char) : Except InvalidRequest Unit :=
  if key = [] then .ok ()
  else do
    require ((encode key).length ≤ maxOrderingKeyLength)
      "ordering_key must be at most 255 characters"
    require (isPrintableASCII key) "ordering_key must be printable ASCII"

/-- The loop of `rejectNUL`, which steps over both bytes of an escape. -/
def hasNUL : Bytes → Bool
  | [] => false
  | [b] => b == 0
  | b :: e :: rest =>
    if b = 0 then true
    else if b ≠ 0x5C then hasNUL (e :: rest)
    else if e = 0x75 ∧ rest.take 4 = [0x30, 0x30, 0x30, 0x30] then true
    else hasNUL rest

def rejectNUL (body : Bytes) : Except InvalidRequest Unit :=
  require (!hasNUL body)
    "Payload must not contain a NUL character (\\u0000): it cannot be stored"

def ParseEnvelope (body : Bytes) : Except InvalidRequest Envelope := do
  require (body != []) "Request body is required"
  let p ← decoded (Decode body) "Request body must be a JSON object with the documented fields"
  require (!More p.2) "Request body must contain exactly one JSON object"
  validateEventType p.1.EventType
  validateOrderingKey p.1.OrderingKey
  require (p.1.Data != []) "data is required"
  rejectNUL body
  return p.1

theorem accepted_body (h : ParseEnvelope body = .ok env) :
    ∃ t rest, readValue body = some (t, rest) ∧ t.isObject = true ∧ More rest = false ∧
      hasNUL body = false := by
  obtain ⟨-, -, h⟩ := bind_eq_ok.mp h
  obtain ⟨p, found, h⟩ := bind_eq_ok.mp h
  obtain ⟨_, last, h⟩ := bind_eq_ok.mp h
  obtain ⟨-, -, h⟩ := bind_eq_ok.mp h
  obtain ⟨-, -, h⟩ := bind_eq_ok.mp h
  obtain ⟨_, data, h⟩ := bind_eq_ok.mp h
  obtain ⟨_, clean, _⟩ := bind_eq_ok.mp h
  rw [require_eq_ok] at last data
  rw [rejectNUL, require_eq_ok] at clean
  rw [decoded_eq_ok] at found
  obtain ⟨⟨t, rest⟩, read, found⟩ := Option.bind_eq_some_iff.mp found
  split at found
  case isFalse => cases found
  obtain ⟨env, fromTree, rfl⟩ := Option.map_eq_some_iff.mp found
  have object := isObject_of_data fromTree (by simpa using data)
  exact ⟨t, rest, read, object, by simpa using last, by simpa using clean⟩

/-- Apart from blanks around it the body is one JSON object. -/
def SingleObject (body : Bytes) : Prop := ∃ t, t.isObject = true ∧ IsText t body

/-- After the body's object the next byte that is no blank closes an array or an object. -/
def TrailingCloser (body : Bytes) : Prop :=
  ∃ (lead : Blank) (t : Tree) (after : Blank) (c : UInt8) (rest : Bytes),
    t.isObject = true ∧ (c = 0x5D ∨ c = 0x7D) ∧
      body = plain lead ++ (t.text ++ (plain after ++ c :: rest))

theorem readValue_object (lead : Blank) (object : t.isObject = true) (r : Bytes) :
    readValue (plain lead ++ (t.text ++ r)) = some (t, r) := by
  refine readValue_text lead t fun m h => ?_
  rw [h] at object
  cases object

theorem isBlank_of_mem_plain {w : Blank} {c : UInt8} (h : c ∈ plain w) : isBlank c = true := by
  obtain ⟨b, -, rfl⟩ := List.mem_map.mp h
  exact b.2

theorem not_trailingCloser (single : SingleObject body) : ¬TrailingCloser body := by
  obtain ⟨t, object, lead, trail, rfl⟩ := single
  rintro ⟨lead', u, after, c, rest, object', closer, same⟩
  have read := readValue_object lead object (plain trail)
  rw [same, readValue_object lead' object'] at read
  have tail : plain after ++ c :: rest = plain trail := congrArg Prod.snd (Option.some.inj read)
  have blank : isBlank c = true := isBlank_of_mem_plain (w := trail) (by simp [← tail])
  rcases closer with rfl | rfl <;> exact absurd blank (by decide)

theorem single_or_trailingCloser (accepted : ParseEnvelope body = .ok env) :
    SingleObject body ∨ TrailingCloser body := by
  obtain ⟨t, rest, read, object, last, -⟩ := accepted_body accepted
  have whole := readValue_sound read
  have after := plain_skip rest
  cases next : (skip rest).2.head? with
  | none =>
    left
    rw [List.head?_eq_none_iff.mp next, List.append_nil] at after
    exact ⟨t, object, (skip body).1, (skip rest).1, by rw [after]; exact whole⟩
  | some c =>
    right
    obtain ⟨tail, ht⟩ := List.head?_eq_some_iff.mp next
    rw [ht] at after
    have closer : c = 0x5D ∨ c = 0x7D := by
      rw [More, next] at last
      simpa [Decidable.or_iff_not_imp_left] using last
    exact ⟨(skip body).1, t, (skip rest).1, c, tail, object, closer, by rw [after]; exact whole⟩

/-- An accepted body is one JSON object exactly when no closing bracket or brace follows the
object it starts with. -/
theorem accepted_is_single_object_iff {body : Bytes} {env : Envelope}
    (accepted : ParseEnvelope body = .ok env) : SingleObject body ↔ ¬TrailingCloser body :=
  ⟨not_trailingCloser, (single_or_trailingCloser accepted).resolve_right⟩

/-- The smallest of bodies, `{"event_type":"a","data":1}`, followed by other bytes. -/
def smallBody (data trail : List Char) : Bytes :=
  encode (['{', '"', 'e', 'v', 'e', 'n', 't', '_', 't', 'y', 'p', 'e', '"', ':', '"', 'a', '"',
    ',', '"', 'd', 'a', 't', 'a', '"', ':'] ++ data ++ '}' :: trail)

theorem plain_body_single :
    ParseEnvelope (smallBody ['1'] [' ']) = .ok ⟨['a'], [0x31], []⟩ ∧
      (SingleObject (smallBody ['1'] [' ']) ↔ ¬TrailingCloser (smallBody ['1'] [' '])) := by
  have accepted : ParseEnvelope (smallBody ['1'] [' ']) = .ok ⟨['a'], [0x31], []⟩ := by
    decide +kernel
  exact ⟨accepted, accepted_is_single_object_iff accepted⟩

/-- A brace too many hides what comes after it. -/
theorem trailing_bytes_accepted :
    ParseEnvelope (smallBody ['1'] ['}', 'x']) = .ok ⟨['a'], [0x31], []⟩ ∧
      ¬SingleObject (smallBody ['1'] ['}', 'x']) := by
  refine ⟨by decide +kernel, ?_⟩
  rintro ⟨t, -, text⟩
  have none : (readDocument (smallBody ['1'] ['}', 'x'])).isSome = false := by decide +kernel
  rw [readDocument_eq_some.mpr text] at none
  cases none

/-- A byte that `rejectNUL` steps over alone. -/
def isQuiet (b : UInt8) : Bool := b != 0 && b != 0x5C

theorem hasNUL_cons {b : UInt8} (quiet : isQuiet b = true) (r : Bytes) :
    hasNUL (b :: r) = hasNUL r := by
  obtain ⟨nonzero, other⟩ : b ≠ 0 ∧ b ≠ 0x5C := by simpa [isQuiet] using quiet
  cases r with
  | nil => simp [hasNUL, nonzero]
  | cons e r => simp [hasNUL, nonzero, other]

theorem hasNUL_append {l : Bytes} (quiet : l.all isQuiet = true) (r : Bytes) :
    hasNUL (l ++ r) = hasNUL r := by
  induction l with
  | nil => rfl
  | cons b l ih =>
    obtain ⟨hb, hl⟩ : isQuiet b = true ∧ l.all isQuiet = true := by simpa using quiet
    rw [List.cons_append, hasNUL_cons hb, ih hl]

theorem quiet_of_class {p : UInt8 → Bool} (zero : p 0 = false) (backslash : p 0x5C = false)
    {b : UInt8} (h : p b = true) : isQuiet b = true := by
  have nonzero : b ≠ 0 := fun hb => by simp [hb, zero] at h
  have other : b ≠ 0x5C := fun hb => by simp [hb, backslash] at h
  simp [isQuiet, nonzero, other]

theorem quiet_plain {p : UInt8 → Bool} (zero : p 0 = false) (backslash : p 0x5C = false)
    (run : List { b // p b = true }) : (plain run).all isQuiet = true := by
  rw [List.all_eq_true]
  intro b hb
  obtain ⟨x, -, rfl⟩ := List.mem_map.mp hb
  exact quiet_of_class zero backslash x.2

theorem quiet_digit (d : Digit) : isQuiet d.1 = true :=
  quiet_of_class (p := isDigit) (by decide) (by decide) d.2

theorem quiet_digits (d : Digits) : d.text.all isQuiet = true := by
  have rest := quiet_plain (p := isDigit) (by decide) (by decide) d.rest
  rw [Digits.text, List.all_cons, quiet_digit, rest]
  rfl

theorem quiet_number (n : Number) : n.text.all isQuiet = true := by
  have int : n.int.text.all isQuiet = true := by
    cases n.int with
    | zero => decide
    | nonzero d start => exact quiet_digits d
  have frac : (fracText n.frac).all isQuiet = true := by
    cases n.frac with
    | none => rfl
    | some d => exact quiet_digits d
  have sign : ∀ sign, (signText sign).all isQuiet = true := by
    rintro (_ | _ | _) <;> decide
  have exp : (expText n.exp).all isQuiet = true := by
    cases n.exp with
    | none => rfl
    | some e =>
      have mark : isQuiet (if e.upper then 0x45 else 0x65) = true := by
        cases e.upper <;> decide
      simp [expText, Exponent.text_eq, mark, sign, quiet_digits, -List.all_eq_true]
  have minus : (if n.negative then [0x2D] else [] : Bytes).all isQuiet = true := by
    cases n.negative <;> decide
  rw [Number.text_eq, List.all_append, List.all_append, List.all_append, minus, int, frac, exp]
  rfl

theorem hasNUL_blank (w : Blank) (r : Bytes) : hasNUL (plain w ++ r) = hasNUL r :=
  hasNUL_append (quiet_plain (by decide) (by decide) w) r

theorem hexValue_eq_zero (h : Hex) : hexValue h = 0 ↔ h.1 = 0x30 := by
  have zero : (0x30 : UInt8).toNat = 48 := rfl
  rw [← UInt8.toNat_inj]
  rcases hexValue_cases h with digit | lower | upper <;> omega

theorem isNul_iff (a b c d : Hex) :
    (Fragment.unicode a b c d).isNul = true ↔
      [a.1, b.1, c.1, d.1] = [0x30, 0x30, 0x30, 0x30] := by
  have code : codeUnit a b c d = 0 ↔
      hexValue a = 0 ∧ hexValue b = 0 ∧ hexValue c = 0 ∧ hexValue d = 0 := by
    unfold codeUnit
    omega
  simp [Fragment.isNul, code, hexValue_eq_zero]

theorem hasNUL_fragment (f : Fragment) (r : Bytes) :
    hasNUL (f.text ++ r) = (f.isNul || hasNUL r) := by
  cases f with
  | raw b =>
    rw [Fragment.text, List.singleton_append,
      hasNUL_cons (quiet_of_class (p := isRaw) (by decide) (by decide) b.2)]
    rfl
  | escape e =>
    have other : e.1 ≠ 0x75 := fun h => absurd (h ▸ e.2) (by decide)
    simp [Fragment.text, hasNUL, Fragment.isNul, other]
  | unicode a b c d =>
    by_cases zero : (Fragment.unicode a b c d).isNul = true
    · have digits := (isNul_iff a b c d).mp zero
      simp only [List.cons.injEq, and_true] at digits
      simp [Fragment.text, hasNUL, zero, digits]
    · have digits := mt (isNul_iff a b c d).mpr zero
      have quiet : [a.1, b.1, c.1, d.1].all isQuiet = true := by
        have hex := fun h : Hex => quiet_of_class (p := isHex) (by decide) (by decide) h.2
        simp [hex]
      have rest : hasNUL (a.1 :: b.1 :: c.1 :: d.1 :: r) = hasNUL r := hasNUL_append quiet r
      rw [Bool.eq_false_iff.mpr zero, Bool.false_or, ← rest]
      exact if_neg (not_and_of_not_right _ digits)

theorem hasNUL_strText (s : Str) (r : Bytes) :
    hasNUL (strText s ++ r) = (s.any Fragment.isNul || hasNUL r) := by
  induction s with
  | nil => exact hasNUL_cons (by decide) r
  | cons f s ih =>
    rw [strText_cons, List.append_assoc, hasNUL_fragment, ih, List.any_cons, Bool.or_assoc]

mutual

theorem hasNUL_tree : ∀ (t : Tree) (r : Bytes),
    hasNUL (t.text ++ r) = (t.strings.any (·.any Fragment.isNul) || hasNUL r)
  | .null, r => hasNUL_append (by decide) r
  | .bool true, r => hasNUL_append (by decide) r
  | .bool false, r => hasNUL_append (by decide) r
  | .number n, r => hasNUL_append (quiet_number n) r
  | .string s, r => by
    rw [Tree.text, List.cons_append, hasNUL_cons (by decide), hasNUL_strText, Tree.strings,
      List.any_cons, List.any_nil, Bool.or_false]
  | .emptyArray inside, r => by
    rw [Tree.text, List.cons_append, hasNUL_cons (by decide), List.append_assoc, hasNUL_blank,
      List.singleton_append, hasNUL_cons (by decide)]
    rfl
  | .array lead items, r => by
    rw [Tree.text, List.cons_append, hasNUL_cons (by decide), List.append_assoc, hasNUL_blank,
      hasNUL_items items, Tree.strings]
  | .emptyObject inside, r => by
    rw [Tree.text, List.cons_append, hasNUL_cons (by decide), List.append_assoc, hasNUL_blank,
      List.singleton_append, hasNUL_cons (by decide)]
    rfl
  | .object lead members, r => by
    rw [Tree.text, List.cons_append, hasNUL_cons (by decide), List.append_assoc, hasNUL_blank,
      hasNUL_members members, Tree.strings]

theorem hasNUL_items : ∀ (t : Items) (r : Bytes),
    hasNUL (t.text ++ r) = (t.strings.any (·.any Fragment.isNul) || hasNUL r)
  | .last t after, r => by
    rw [Items.text, List.append_assoc, hasNUL_tree t, List.append_assoc, hasNUL_blank,
      List.singleton_append, hasNUL_cons (by decide), Items.strings]
  | .more t after before rest, r => by
    rw [Items.text, List.append_assoc, hasNUL_tree t, List.append_assoc, hasNUL_blank,
      List.cons_append, hasNUL_cons (by decide), List.append_assoc, hasNUL_blank,
      hasNUL_items rest, Items.strings, List.any_append, Bool.or_assoc]

theorem hasNUL_members : ∀ (t : Members) (r : Bytes),
    hasNUL (t.text ++ r) = (t.strings.any (·.any Fragment.isNul) || hasNUL r)
  | .last key colon value t after, r => by
    simp only [Members.text, List.cons_append, List.append_assoc, List.nil_append]
    rw [hasNUL_cons (by decide), hasNUL_strText, hasNUL_blank, hasNUL_cons (by decide),
      hasNUL_blank, hasNUL_tree t, hasNUL_blank, hasNUL_cons (by decide), Members.strings,
      List.any_cons, Bool.or_assoc]
  | .more key colon value t after before rest, r => by
    simp only [Members.text, List.cons_append, List.append_assoc]
    rw [hasNUL_cons (by decide), hasNUL_strText, hasNUL_blank, hasNUL_cons (by decide),
      hasNUL_blank, hasNUL_tree t, hasNUL_blank, hasNUL_cons (by decide), hasNUL_blank,
      hasNUL_members rest, Members.strings, List.any_cons, List.any_append, Bool.or_assoc,
      Bool.or_assoc]

end

/-- The cast of a text to `jsonb`. Which numbers fit `numeric` is the database's to say. -/
def castJsonb (fitsNumeric : Number → Bool) (body : Bytes) : Bool :=
  (readDocument body).any fun t =>
    validString body && t.strings.all (fun s => !s.any Fragment.isNul && !unpaired s) &&
      t.numbers.all fitsNumeric

theorem castJsonb_text (fitsNumeric : Number → Bool) (text : IsText t body) :
    castJsonb fitsNumeric body = true ↔
      Valid body ∧ (∀ s ∈ t.strings, s.any Fragment.isNul = false ∧ unpaired s = false) ∧
        ∀ n ∈ t.numbers, fitsNumeric n = true := by
  rw [castJsonb, readDocument_eq_some.mpr text, valid_iff]
  simp only [Option.any_some, Bool.and_eq_true, List.all_eq_true, Bool.not_eq_true', and_assoc]

theorem hasNUL_text (text : IsText t body) :
    hasNUL body = t.strings.any (·.any Fragment.isNul) := by
  obtain ⟨lead, trail, rfl⟩ := text
  have blanks : hasNUL (plain trail) = false := by
    have := hasNUL_blank trail []
    rwa [List.append_nil] at this
  rw [hasNUL_blank, hasNUL_tree, blanks, Bool.or_false]

theorem rejectNUL_eq_ok : rejectNUL body = .ok () ↔ hasNUL body = false := by
  rw [rejectNUL, require_eq_ok, Bool.not_eq_true']

/-- A well-formed body is refused for a NUL exactly when a string or key of it decodes to a text
with one; and a well-formed body that is accepted can be cast exactly when it is UTF-8, pairs
its surrogates and keeps its numbers in range. -/
theorem accepted_body_castable_iff (fitsNumeric : Number → Bool) {t : Tree} {body : Bytes}
    (text : IsText t body) :
    (rejectNUL body ≠ .ok () ↔ ∃ s ∈ t.strings, nul ∈ unquote s) ∧
      ∀ env, ParseEnvelope body = .ok env →
        (castJsonb fitsNumeric body = true ↔
          Valid body ∧ (∀ s ∈ t.strings, unpaired s = false) ∧
            ∀ n ∈ t.numbers, fitsNumeric n = true) := by
  constructor
  · rw [Ne, rejectNUL_eq_ok, hasNUL_text text, Bool.not_eq_false, List.any_eq_true]
    simp only [nul_mem_unquote]
  · intro env accepted
    obtain ⟨-, -, -, -, -, clean⟩ := accepted_body accepted
    have clean : ∀ s ∈ t.strings, s.any Fragment.isNul = false := by
      rw [hasNUL_text text, List.any_eq_false] at clean
      exact fun s hs => Bool.eq_false_iff.mpr (clean s hs)
    rw [castJsonb_text fitsNumeric text]
    refine and_congr_right fun _ => and_congr_left fun _ => ?_
    exact forall₂_congr fun s hs => and_iff_right (clean s hs)

theorem exists_isText {b : Bytes} (h : (readDocument b).any Tree.isObject = true) :
    ∃ t, t.isObject = true ∧ IsText t b := by
  cases read : readDocument b with
  | none => simp [read] at h
  | some t => exact ⟨t, by simpa [read] using h, readDocument_eq_some.mp read⟩

theorem plain_body_castable :
    ∃ t, IsText t (smallBody ['1'] [' ']) ∧
      ParseEnvelope (smallBody ['1'] [' ']) = .ok ⟨['a'], [0x31], []⟩ ∧
        (castJsonb (fun _ => true) (smallBody ['1'] [' ']) = true ↔
          Valid (smallBody ['1'] [' ']) ∧ (∀ s ∈ t.strings, unpaired s = false) ∧
            ∀ n ∈ t.numbers, (fun _ => true) n = true) := by
  have accepted : ParseEnvelope (smallBody ['1'] [' ']) = .ok ⟨['a'], [0x31], []⟩ := by
    decide +kernel
  obtain ⟨t, -, text⟩ := exists_isText (b := smallBody ['1'] [' ']) (by decide +kernel)
  exact ⟨t, text, accepted, (accepted_body_castable_iff (fun _ => true) text).2 _ accepted⟩

/-- Half of a surrogate pair passes every check and cannot be stored. -/
theorem lone_surrogate_not_castable :
    ParseEnvelope (smallBody ['"', '\\', 'u', 'd', '8', '0', '0', '"'] []) =
        .ok ⟨['a'], encode ['"', '\\', 'u', 'd', '8', '0', '0', '"'], []⟩ ∧
      SingleObject (smallBody ['"', '\\', 'u', 'd', '8', '0', '0', '"'] []) ∧
        castJsonb (fun _ => true) (smallBody ['"', '\\', 'u', 'd', '8', '0', '0', '"'] []) =
          false :=
  ⟨by decide +kernel, exists_isText (by decide +kernel), by decide +kernel⟩

end Hookubit.Ingest.Request
