/- sources: worker/headers.go
   digest: The headers a delivery is sent with, and the copy of them that the ledger keeps. -/

import Hookubit.Data.Utf8
import Mathlib.Data.List.AList
import Mathlib.Data.List.Infix

/-!
Header names are kept in canonical form, as `http.Header` keeps them. Which form that is belongs
to `net/http`, so the canonicalisation is a parameter; nothing here depends on it, because the
name that comes out of it is checked again.
-/

set_option autoImplicit false
set_option relaxedAutoImplicit false

namespace Hookubit.Worker.Headers

open Data.Utf8

def text (s : String) : Bytes := encode s.toList

/-- Text without a zero byte, such as a PostgreSQL text column holds. -/
abbrev ColumnText := { b : Bytes // (0 : UInt8) ∉ b }

abbrev Header := AList fun _ : Bytes => List Bytes

def Header.set (h : Header) (name value : Bytes) : Header := h.insert name [value]

def Header.get (h : Header) (name : Bytes) : Bytes :=
  ((h.lookup name).bind List.head?).getD []

def platformHeaders : List Bytes :=
  [text "Webhook-Id", text "Webhook-Delivery-Id", text "Webhook-Event-Type",
    text "Webhook-Attempt", text "Webhook-Timestamp", text "Webhook-Signature"]

def reservedHeaders : List Bytes :=
  [text "Host", text "Content-Length", text "Transfer-Encoding", text "Connection",
    text "Upgrade", text "Te", text "Trailer", text "Expect"]

def UserAgent : Bytes := text "HookuBit/1.0"

structure HeaderInput where
  eventID : ColumnText
  deliveryID : ColumnText
  eventType : ColumnText
  attempt : ℤ
  timestamp : ℤ
  signature : ColumnText
  custom : List (Bytes × Bytes)
  contentType : ColumnText

def isTokenByte (c : UInt8) : Bool :=
  ('a'.toUInt8 ≤ c && c ≤ 'z'.toUInt8) || ('A'.toUInt8 ≤ c && c ≤ 'Z'.toUInt8) ||
    ('0'.toUInt8 ≤ c && c ≤ '9'.toUInt8) || (text "!#$%&'*+-.^_`|~").contains c

def validHeaderName (name : Bytes) : Bool := !name.isEmpty && name.all isTokenByte

/-- `validHeaderValue` refuses CR, LF and NUL. -/
def validHeaderValue (v : Bytes) : Bool := v.all fun x => !(x == 13 || x == 10 || x == 0)

/-- One customer header: malformed, transport-owned and platform names are passed by. -/
def addCustom (canonicalKey : Bytes → Bytes) (h : Header) (header : Bytes × Bytes) : Header :=
  let canonical := canonicalKey header.1
  if canonical = [] || !validHeaderName canonical || !validHeaderValue header.2 then h
  else if reservedHeaders.contains canonical then h
  else if platformHeaders.contains canonical then h
  else h.set canonical header.2

def Header.setDefault (h : Header) (name value : Bytes) : Header :=
  if h.get name = [] then h.set name value else h

/-- The same input with any texts in it. -/
structure HeaderStrings where
  eventID : Bytes
  deliveryID : Bytes
  eventType : Bytes
  attempt : ℤ
  timestamp : ℤ
  signature : Bytes
  custom : List (Bytes × Bytes)
  contentType : Bytes

def HeaderInput.strings (i : HeaderInput) : HeaderStrings :=
  ⟨i.eventID.1, i.deliveryID.1, i.eventType.1, i.attempt, i.timestamp, i.signature.1, i.custom,
    i.contentType.1⟩

/-- `BuildHeaders`: the customer's headers first, the platform's last and unconditionally. -/
def buildHeaders (canonicalKey : Bytes → Bytes) (i : HeaderStrings) : Header :=
  let h : Header := i.custom.foldl (addCustom canonicalKey) ∅
  let contentType := if i.contentType = [] then text "application/json" else i.contentType
  let h := h.setDefault (text "Content-Type") contentType
  let h := h.setDefault (text "User-Agent") UserAgent
  let h := h.setDefault (text "Accept") (text "*/*")
  let h := h.set (text "Webhook-Id") i.eventID
  let h := h.set (text "Webhook-Delivery-Id") i.deliveryID
  let h := h.set (text "Webhook-Event-Type") i.eventType
  let h := h.set (text "Webhook-Attempt") (text (toString i.attempt))
  let h := h.set (text "Webhook-Timestamp") (text (toString i.timestamp))
  h.set (text "Webhook-Signature") i.signature

def BuildHeaders (canonicalKey : Bytes → Bytes) (i : HeaderInput) : Header :=
  buildHeaders canonicalKey i.strings

def sensitiveHeaderNames : List Bytes :=
  [text "authorization", text "proxy-authorization", text "cookie", text "set-cookie",
    text "api-key", text "apikey", text "secret", text "token", text "password",
    text "credential"]

/-- ASCII, which is all a header name can hold. -/
def toLower (name : Bytes) : Bytes :=
  name.map fun c => if 'A'.toUInt8 ≤ c && c ≤ 'Z'.toUInt8 then c + 32 else c

def isSensitiveHeader (name : Bytes) : Bool :=
  sensitiveHeaderNames.any fun needle => decide (needle <:+: toLower name)

/-- `RedactHeaders`: values are replaced, never dropped. -/
def RedactHeaders (h : Header) : List (Bytes × Bytes) :=
  h.entries.map fun e =>
    (e.1, if isSensitiveHeader e.1 then text "[redacted]" else (text ", ").intercalate e.2)

/-- No name and no value holds a zero byte. -/
def Header.Clean (h : Header) : Prop :=
  ∀ e ∈ h.entries, (0 : UInt8) ∉ e.1 ∧ ∀ v ∈ e.2, (0 : UInt8) ∉ v

theorem zero_not_mem_text {s : String} (h : Char.ofNat 0 ∉ s.toList) : (0 : UInt8) ∉ text s :=
  fun hz => h (zero_mem_encode hz)

theorem zero_not_mem_toString (n : ℤ) : Char.ofNat 0 ∉ (toString n).toList := by
  have digits (m : ℕ) : Char.ofNat 0 ∉ m.repr.toList := by
    intro h
    rw [Nat.toList_repr] at h
    exact absurd (Nat.isDigit_of_mem_toDigits (by decide) (by decide) h) (by decide)
  change Char.ofNat 0 ∉ n.repr.toList
  cases n with
  | ofNat m => exact digits m
  | negSucc m =>
    rw [Int.repr, String.toList_append, List.mem_append]
    exact not_or.mpr ⟨by decide, digits _⟩

theorem zero_not_mem_validHeaderName {name : Bytes} (h : validHeaderName name = true) :
    (0 : UInt8) ∉ name := by
  intro hz
  have token := List.all_eq_true.mp (Bool.and_eq_true_iff.mp h).2 0 hz
  exact absurd token (by decide)

theorem zero_not_mem_validHeaderValue {v : Bytes} (h : validHeaderValue v = true) :
    (0 : UInt8) ∉ v := by
  intro hz
  exact absurd (List.all_eq_true.mp h 0 hz) (by decide)

namespace Header.Clean

theorem empty : Header.Clean ∅ := List.forall_mem_nil _

theorem set {h : Header} (clean : h.Clean) {name value : Bytes} (hn : (0 : UInt8) ∉ name)
    (hv : (0 : UInt8) ∉ value) : (h.set name value).Clean := by
  intro e he
  rw [Header.set, AList.entries_insert, List.mem_cons] at he
  obtain rfl | old := he
  · exact ⟨hn, fun v hm => List.mem_singleton.mp hm ▸ hv⟩
  · exact clean e ((List.kerase_sublist _ _).subset old)

theorem setDefault {h : Header} (clean : h.Clean) {name value : Bytes} (hn : (0 : UInt8) ∉ name)
    (hv : (0 : UInt8) ∉ value) : (h.setDefault name value).Clean := by
  unfold Header.setDefault
  split
  · exact clean.set hn hv
  · exact clean

theorem addCustom {h : Header} (clean : h.Clean) (canonicalKey : Bytes → Bytes)
    (header : Bytes × Bytes) : (addCustom canonicalKey h header).Clean := by
  unfold Headers.addCustom
  dsimp only
  split_ifs with malformed
  any_goals exact clean
  simp only [Bool.or_eq_true, Bool.not_eq_true', not_or, Bool.not_eq_false] at malformed
  exact clean.set (zero_not_mem_validHeaderName malformed.1.2)
    (zero_not_mem_validHeaderValue malformed.2)

theorem addAllCustom (canonicalKey : Bytes → Bytes) (custom : List (Bytes × Bytes)) :
    ∀ {h : Header}, h.Clean → (custom.foldl (Headers.addCustom canonicalKey) h).Clean := by
  induction custom with
  | nil => exact id
  | cons header custom ih => exact fun clean => ih (clean.addCustom canonicalKey header)

end Header.Clean

theorem clean_BuildHeaders (canonicalKey : Bytes → Bytes) (i : HeaderInput) :
    (BuildHeaders canonicalKey i).Clean := by
  have custom := Header.Clean.addAllCustom canonicalKey i.custom Header.Clean.empty
  have contentType : (0 : UInt8) ∉
      if i.contentType.1 = [] then text "application/json" else i.contentType.1 := by
    split
    · decide
    · exact i.contentType.2
  have attempt := zero_not_mem_text (zero_not_mem_toString i.attempt)
  have timestamp := zero_not_mem_text (zero_not_mem_toString i.timestamp)
  unfold BuildHeaders buildHeaders
  refine Header.Clean.set ?_ (by decide) i.signature.2
  refine Header.Clean.set ?_ (by decide) timestamp
  refine Header.Clean.set ?_ (by decide) attempt
  refine Header.Clean.set ?_ (by decide) i.eventType.2
  refine Header.Clean.set ?_ (by decide) i.deliveryID.2
  refine Header.Clean.set ?_ (by decide) i.eventID.2
  refine Header.Clean.setDefault ?_ (by decide) (by decide)
  refine Header.Clean.setDefault ?_ (by decide) (by decide)
  exact custom.setDefault (by decide) contentType

theorem Header.Clean.redacted {h : Header} (clean : h.Clean) :
    ∀ e ∈ RedactHeaders h, (0 : UInt8) ∉ e.1 ∧ (0 : UInt8) ∉ e.2 := by
  intro p hp
  obtain ⟨e, he, rfl⟩ := List.mem_map.mp hp
  obtain ⟨name, values⟩ := clean e he
  refine ⟨name, ?_⟩
  dsimp only
  split
  · decide
  · intro hz
    obtain sep | ⟨v, hv, inside⟩ := mem_of_mem_intercalate hz
    · exact absurd sep (by decide)
    · exact values v hv inside

end Hookubit.Worker.Headers
