/- sources: endpoints/endpoint-headers.ts (isReservedHeader, rejectCustomHeaders)
   digest: The control plane's check of the custom headers of an endpoint. -/

import Hookubit.Data.HttpHeader
import Hookubit.Data.JsText

/-!
Names and values are lists of code units. A name is lower-cased only after the check that leaves
it ASCII, so only ASCII letters have a lower case here.
-/

set_option autoImplicit false
set_option relaxedAutoImplicit false

namespace Hookubit.Endpoints.EndpointHeaders

open Data.HttpHeader Data.JsText
open Data.Utf8 (Bytes)

def MAX_CUSTOM_HEADERS : ℕ := 20

def MAX_HEADER_NAME_LENGTH : ℕ := 128

def MAX_HEADER_VALUE_LENGTH : ℕ := 1024

def MAX_CUSTOM_HEADERS_BYTES : ℕ := 8192

def toLowerCase (s : Units) : Units := s.map fun u => if 65 ≤ u ∧ u ≤ 90 then u + 32 else u

def RESERVED_HEADER_NAMES : List Units :=
  [literal "authorization", literal "host", literal "content-length", literal "transfer-encoding"]

def RESERVED_HEADER_PREFIX : Units := literal "webhook-"

def isNameUnit (u : UInt16) : Bool :=
  (literal "!#$%&'*+-.^_`|~").contains u || (48 ≤ u && u ≤ 57) || (65 ≤ u && u ≤ 90) ||
    (97 ≤ u && u ≤ 122)

def isValueUnit (u : UInt16) : Bool := u == 9 || (0x20 ≤ u && u ≤ 0x7E) || (0x80 ≤ u && u ≤ 0xFF)

structure CustomHeaderRejection where
  header : Units
  reason : String
  deriving DecidableEq

def isReservedHeader (name : Units) : Bool :=
  let lower := toLowerCase (trim name)
  RESERVED_HEADER_PREFIX.isPrefixOf lower || RESERVED_HEADER_NAMES.contains lower

/-- What a caller may pass. An object has its entries in the order of `Object.entries`. -/
inductive Headers
  | missing
  | notObject
  | object (entries : List (Units × JsValue))
  deriving DecidableEq

/-- The loop, with the names seen and the bytes counted so far. -/
def rejectEntries (seen : List Units) (bytes : ℕ) :
    List (Units × JsValue) → Option CustomHeaderRejection
  | [] =>
      if MAX_CUSTOM_HEADERS_BYTES < bytes then
        some ⟨[], "custom headers must total at most 8192 bytes"⟩
      else none
  | (name, value) :: rest =>
      let lower := toLowerCase name
      if name.length = 0 ∨ MAX_HEADER_NAME_LENGTH < name.length then
        some ⟨name, "header name must be 1-128 characters"⟩
      else if ¬name.all isNameUnit then
        some ⟨name, "header name contains characters that are not allowed"⟩
      else if isReservedHeader name then
        some ⟨name, "this header is reserved by the platform and cannot be overridden. " ++
          "Webhook-* carries the signature and delivery identity; Authorization, Host, " ++
          "Content-Length and Transfer-Encoding frame or authenticate the request itself."⟩
      else if seen.contains lower then
        some ⟨name, "duplicate header name (names are case-insensitive)"⟩
      else
        match value with
        | .other => some ⟨name, "header value must be a string"⟩
        | .string value =>
            if MAX_HEADER_VALUE_LENGTH < value.length then
              some ⟨name, "header value must be at most 1024 characters"⟩
            else if ¬value.all isValueUnit then
              some ⟨name,
                "header value contains control characters (a CR or LF here is header injection)"⟩
            else
              rejectEntries (lower :: seen)
                (bytes + ((utf8 name).length + (utf8 value).length + 4)) rest

def rejectCustomHeaders : Headers → Option CustomHeaderRejection
  | .missing => none
  | .notObject => some ⟨[], "custom_headers must be an object of string values"⟩
  | .object entries =>
      if MAX_CUSTOM_HEADERS < entries.length then
        some ⟨[], "at most 20 custom headers are allowed"⟩
      else rejectEntries [] 0 entries

/-- A header that passes the checks of its own. -/
structure CustomHeader where
  name : Units
  value : Units
  named : name ≠ []
  token : ∀ u ∈ name, isNameUnit u = true
  free : isReservedHeader name = false
  plain : ∀ u ∈ value, isValueUnit u = true

namespace CustomHeader

def entry (h : CustomHeader) : Units × JsValue := (h.name, .string h.value)

/-- What no two headers of a map share. -/
def key (h : CustomHeader) : Units := toLowerCase h.name

/-- The header as the data plane reads it back. -/
def stored (h : CustomHeader) : Bytes × Bytes := (utf8 h.name, utf8 h.value)

end CustomHeader

theorem exists_of_rejectEntries {entries : List (Units × JsValue)} {seen : List Units} {bytes : ℕ}
    (h : rejectEntries seen bytes entries = none) :
    ∃ headers : List CustomHeader, entries = headers.map CustomHeader.entry ∧
      (headers.map CustomHeader.key).Nodup ∧ ∀ k ∈ headers.map CustomHeader.key, k ∉ seen := by
  induction entries generalizing seen bytes with
  | nil => exact ⟨[], rfl, List.nodup_nil, by simp⟩
  | cons entry rest ih =>
    obtain ⟨name, value⟩ := entry
    simp only [rejectEntries] at h
    split at h
    · cases h
    rename_i sized
    split at h
    · cases h
    rename_i token
    split at h
    · cases h
    rename_i free
    split at h
    · cases h
    rename_i fresh
    cases value with
    | other => cases h
    | string value =>
      simp only at h
      split at h
      · cases h
      split at h
      · cases h
      rename_i plain
      obtain ⟨headers, rfl, distinct, apart⟩ := ih h
      have fresh : toLowerCase name ∉ seen := by simpa using fresh
      refine ⟨⟨name, value, ?_, ?_, ?_, ?_⟩ :: headers, rfl, ?_, ?_⟩
      · rintro rfl
        exact sized (.inl rfl)
      · simpa using token
      · simpa using free
      · simpa using plain
      · refine List.nodup_cons.mpr ⟨fun inside => ?_, distinct⟩
        exact apart _ inside List.mem_cons_self
      · intro k inside
        obtain rfl | later := List.mem_cons.mp inside
        · exact fresh
        · exact fun old => apart k later (List.mem_cons_of_mem _ old)

theorem exists_of_rejectCustomHeaders {entries : List (Units × JsValue)}
    (h : rejectCustomHeaders (.object entries) = none) :
    ∃ headers : List CustomHeader, entries = headers.map CustomHeader.entry ∧
      (headers.map CustomHeader.key).Nodup := by
  rw [rejectCustomHeaders] at h
  split at h
  · cases h
  · obtain ⟨headers, same, distinct, -⟩ := exists_of_rejectEntries h
    exact ⟨headers, same, distinct⟩

section Bytes

theorem unit_of_byte : ∀ x : UInt8, isNameUnit x.toUInt16 = validHeaderFieldByte x ∧
    (x < 0x20 → x ≠ 9 → isValueUnit x.toUInt16 = false) := by
  decide +kernel

theorem lt_of_isNameUnit {u : UInt16} (h : isNameUnit u = true) : u < 128 := by
  have marks : (literal "!#$%&'*+-.^_`|~").all (· < 128) = true := rfl
  simp only [isNameUnit, Bool.or_eq_true, Bool.and_eq_true, decide_eq_true_eq,
    List.contains_iff_mem] at h
  rcases h with ((mark | digit) | capital) | small
  · exact of_decide_eq_true (List.all_eq_true.mp marks u mark)
  · exact UInt16.lt_of_le_of_lt digit.2 (by decide)
  · exact UInt16.lt_of_le_of_lt capital.2 (by decide)
  · exact UInt16.lt_of_le_of_lt small.2 (by decide)

variable (h : CustomHeader)

theorem CustomHeader.widen_name : widen (utf8 h.name) = h.name := by
  obtain ⟨b, same, ascii⟩ := exists_widen fun u inside => lt_of_isNameUnit (h.token u inside)
  rw [same, utf8_widen ascii]

theorem CustomHeader.token_name : (utf8 h.name).all validHeaderFieldByte = true := by
  rw [List.all_eq_true]
  intro x inside
  rw [← (unit_of_byte x).1]
  exact h.token _ (h.widen_name ▸ mem_widen.mpr inside)

theorem CustomHeader.not_mem_value {x : UInt8} (control : x < 0x20) (other : x ≠ 9) :
    x ∉ utf8 h.value := by
  have ascii : x < 128 := UInt8.lt_trans control (by decide)
  rw [ascii_mem_utf8 ascii]
  intro inside
  have allowed := h.plain _ inside
  rw [(unit_of_byte x).2 control other] at allowed
  cases allowed

end Bytes

end Hookubit.Endpoints.EndpointHeaders
