/- sources: worker/deliver.go, worker/store.go, egress/client.go, egress/ssrf.go
   digest: The texts an attempt is recorded with, and which of them PostgreSQL takes. -/

import Hookubit.Data.Json
import Hookubit.Worker.Headers
import Hookubit.Worker.Store

/-!
The rest of an attempt's row is in `Worker.Store`; this module follows its text values, as bytes,
from the result of the attempt to the arguments of the INSERT. The worker's id and the trace's
are the worker's own and are left out.
-/

set_option autoImplicit false
set_option relaxedAutoImplicit false

namespace Hookubit.Worker.AttemptText

open Data.Utf8 Retry.Backoff Worker.Headers Worker.StateMachine Worker.Store

/-- A byte of a header value as HTTP carries it: tab, printable ASCII, or above ASCII. -/
def isFieldByte (c : UInt8) : Bool := c == 9 || (0x20 ≤ c && c ≤ 0x7E) || 0x80 ≤ c

/-- `egress.Response`, with what the HTTP parser guarantees of its headers. -/
structure Response where
  statusCode : ℤ
  headers : Header
  body : Bytes
  truncated : Bool
  names : ∀ e ∈ headers.entries, validHeaderName e.1 = true
  values : ∀ e ∈ headers.entries, ∀ v ∈ e.2, v.all isFieldByte = true

/-- An error: how the worker classifies it, and its `Error()`. -/
structure Failure where
  kind : DeliveryError
  text : Bytes

def blockedTargetError (target reason : Bytes) : Bytes :=
  text "egress blocked: " ++ reason ++ text " (" ++ target ++ text ")"

/-- A refused redirect, as `http.Client` returns it: `CheckRedirect`'s error behind the request's
method and its quoted URL. -/
def redirectRefused (quotedURL target : Bytes) : Failure where
  kind := ⟨false, false, false, false, true, false, false, false, false, false, false⟩
  text := text "Post " ++ quotedURL ++ text ": " ++
    blockedTargetError target (text "redirect not permitted")

/-- What an attempt came to: an answer, a failed request, or no request at all. -/
inductive Result
  | answered (resp : Response)
  | failed (doErr : Failure)
  | unsent (cause : Failure)

def Result.error : Result → Option Failure
  | .answered _ => none
  | .failed doErr => some doErr
  | .unsent cause => some cause

/-- `storableText`: cut, without zero bytes, repaired, and marked when cut. -/
def storableText (b : Bytes) (max : ℤ) (truncated : Bool) : Bytes :=
  let cut : Bool := 0 < max && max < b.length
  let b := if cut then b.take max.toNat else b
  let s := b.filter fun x => !(x == 0)
  let s := if validString s then s else toValidUTF8 (text "�") s
  if truncated || cut then s ++ text "\n…[truncated]" else s

def storableBody (maxStoredBody : ℤ) (resp : Response) : Bytes :=
  if resp.body = [] then [] else storableText resp.body maxStoredBody resp.truncated

def truncate (s : Bytes) (max : ℕ) : Bytes :=
  if s.length ≤ max then s else s.take max ++ text "…"

/-- The text values of an `AttemptRecord`. -/
structure AttemptTexts where
  requestHeaders : List (Bytes × Bytes)
  responseHeaders : List (Bytes × Bytes)
  responseBody : Bytes
  errorCode : Bytes
  errorMessage : Bytes

/-- How a delivery is being attempted: all that its record is made from but the result. -/
structure Attempting where
  job : Job
  headers : HeaderInput
  canonicalKey : Bytes → Bytes
  maxStoredBody : ℤ
  started : ℤ
  finished : ℤ
  rng : Option ℚ

/-- The record `attempt` builds, or `recordNonHTTP` in its place. -/
def Attempting.record (a : Attempting) (retryAfter : Option ℤ) : Result → AttemptTexts
  | .answered resp =>
      let outcome : Outcome := ⟨resp.statusCode, none, retryAfter⟩
      ⟨RedactHeaders (BuildHeaders a.canonicalKey a.headers), RedactHeaders resp.headers,
        storableBody a.maxStoredBody resp,
        text (attempted a.job () a.started a.finished outcome a.rng).1.errorCode, []⟩
  | .failed doErr =>
      let outcome : Outcome := ⟨0, some doErr.kind, none⟩
      ⟨RedactHeaders (BuildHeaders a.canonicalKey a.headers), [], [],
        text (attempted a.job () a.started a.finished outcome a.rng).1.errorCode,
        truncate doErr.text 1024⟩
  | .unsent cause =>
      ⟨[], [], [],
        text (recordNonHTTP a.job () a.started a.finished cause.kind a.rng).1.errorCode,
        truncate cause.text 1024⟩

/-- An argument of the INSERT: `text`, or `jsonb` given by the object it was encoded from. -/
inductive Value
  | null
  | text (s : Bytes)
  | jsonb (object : List (Bytes × Bytes))

def jsonOrNil (m : List (Bytes × Bytes)) : Value := if m = [] then .null else .jsonb m

def textOrNil (s : Bytes) : Value := if s = [] then .null else .text s

def insertAttempt (a : AttemptTexts) : List Value :=
  [jsonOrNil a.requestHeaders, jsonOrNil a.responseHeaders, textOrNil a.responseBody,
    textOrNil a.errorCode, textOrNil a.errorMessage]

/-- UTF-8 without a zero byte. -/
def Storable (s : Bytes) : Prop := Valid s ∧ (0 : UInt8) ∉ s

/-- What PostgreSQL accepts. A `jsonb` is refused for its encoding, and for an escaped zero
character in one of its strings. -/
def Value.Accepted : Value → Prop
  | .null => True
  | .text s => Storable s
  | .jsonb m => Storable (Data.Json.marshal m) ∧ ∀ e ∈ m, (0 : UInt8) ∉ e.1 ∧ (0 : UInt8) ∉ e.2

theorem Storable.append {s t : Bytes} (hs : Storable s) (ht : Storable t) : Storable (s ++ t) :=
  ⟨hs.1.append ht.1, by simp [hs.2, ht.2]⟩

theorem storable_text {s : String} (h : Char.ofNat 0 ∉ s.toList) : Storable (text s) :=
  ⟨valid_encode _, zero_not_mem_text h⟩

theorem storable_nil : Storable [] := ⟨valid_nil, List.not_mem_nil⟩

theorem storable_storableText (b : Bytes) (max : ℤ) (truncated : Bool) :
    Storable (storableText b max truncated) := by
  have repaired (b : Bytes) : Storable
      (let s := b.filter fun x => !(x == 0)
       if validString s then s else toValidUTF8 (text "�") s) := by
    have clean : (0 : UInt8) ∉ b.filter fun x => !(x == 0) := by simp
    dsimp only
    split
    · rename_i valid
      exact ⟨(valid_iff _).mpr valid, clean⟩
    · refine ⟨valid_toValidUTF8 (valid_encode _) _, fun hz => ?_⟩
      obtain inserted | old := mem_toValidUTF8 hz
      · exact absurd inserted (by decide)
      · exact clean old
  unfold storableText
  dsimp only
  split
  · exact (repaired _).append (storable_text (by decide))
  · exact repaired _

theorem storable_storableBody (maxStoredBody : ℤ) (resp : Response) :
    Storable (storableBody maxStoredBody resp) := by
  unfold storableBody
  split
  · exact storable_nil
  · exact storable_storableText _ _ _

/-- The mark after a cut starts a rune, so it neither completes nor hides a broken one. -/
theorem storable_truncate_iff (s : Bytes) (max : ℕ) :
    Storable (truncate s max) ↔ Storable (s.take max) := by
  unfold truncate
  split
  · rename_i fits
    rw [List.take_of_length_le fits]
  · constructor
    · rintro ⟨valid, clean⟩
      have mark : text "…" = String.utf8EncodeChar '…' ++ [] := by decide
      rw [mark] at valid
      exact ⟨valid_append_rune valid, fun hz => clean (List.mem_append_left _ hz)⟩
    · exact fun h => h.append (storable_text (by decide))

theorem accepted_textOrNil (s : Bytes) : (textOrNil s).Accepted ↔ Storable s := by
  unfold textOrNil
  split
  · rename_i empty
    exact iff_of_true trivial (empty ▸ storable_nil)
  · exact Iff.rfl

theorem accepted_jsonOrNil {m : List (Bytes × Bytes)}
    (h : ∀ e ∈ m, (0 : UInt8) ∉ e.1 ∧ (0 : UInt8) ∉ e.2) : (jsonOrNil m).Accepted := by
  unfold jsonOrNil
  split
  · trivial
  · exact ⟨⟨Data.Json.valid_marshal m, Data.Json.zero_not_mem_marshal m⟩, h⟩

theorem Response.clean (resp : Response) : resp.headers.Clean := by
  intro e he
  refine ⟨zero_not_mem_validHeaderName (resp.names e he), fun v hv hz => ?_⟩
  exact absurd (List.all_eq_true.mp (resp.values e he v hv) 0 hz) (by decide)

theorem zero_not_mem_errorCode (status : ℤ) (err : Option DeliveryError) :
    Char.ofNat 0 ∉ (ErrorCode status err).toList := by
  unfold ErrorCode
  cases err with
  | none =>
    dsimp only
    split
    · decide
    · rw [String.toList_append, List.mem_append]
      exact not_or.mpr ⟨by decide, zero_not_mem_toString status⟩
  | some err =>
    dsimp only
    repeat' split
    all_goals decide

theorem decide_errorCode (i : DecisionInput) (rng : Option ℚ) :
    (Decide i rng).errorCode = ErrorCode i.outcome.httpStatus i.outcome.err := by
  unfold Decide
  dsimp only
  split
  · rename_i success
    rw [success.1, ErrorCode, if_pos success.2]
  · repeat' split
    all_goals rfl

theorem storable_decided (i : DecisionInput) (rng : Option ℚ) :
    Storable (text (Decide i rng).errorCode) := by
  rw [decide_errorCode]
  exact storable_text (zero_not_mem_errorCode _ _)

theorem accepted_record_iff (a : Attempting) (retryAfter : Option ℤ) (r : Result) :
    (∀ v ∈ insertAttempt (a.record retryAfter r), v.Accepted) ↔
      Storable (a.record retryAfter r).errorMessage := by
  have request := accepted_jsonOrNil (clean_BuildHeaders a.canonicalKey a.headers).redacted
  have code (i : DecisionInput) := (accepted_textOrNil _).mpr (storable_decided i a.rng)
  have empty : (jsonOrNil []).Accepted := trivial
  have blank : (textOrNil []).Accepted := trivial
  simp only [insertAttempt, List.mem_cons, List.not_mem_nil, or_false, forall_eq_or_imp,
    forall_eq, accepted_textOrNil (AttemptTexts.errorMessage _)]
  cases r with
  | answered resp =>
    have body := (accepted_textOrNil _).mpr (storable_storableBody a.maxStoredBody resp)
    exact ⟨fun h => h.2.2.2.2, fun h => ⟨request, accepted_jsonOrNil resp.clean.redacted, body,
      code _, h⟩⟩
  | failed doErr =>
    exact ⟨fun h => h.2.2.2.2, fun h => ⟨request, empty, blank, code _, h⟩⟩
  | unsent cause =>
    exact ⟨fun h => h.2.2.2.2, fun h => ⟨empty, empty, blank, code _, h⟩⟩

/-- An attempt can be recorded exactly when the part of its error's text that is kept is UTF-8
without a zero byte. -/
theorem attempt_recordable_iff (a : Attempting) (retryAfter : Option ℤ) (r : Result) :
    (∀ v ∈ insertAttempt (a.record retryAfter r), v.Accepted) ↔
      ∀ e ∈ r.error, Storable (e.text.take 1024) := by
  rw [accepted_record_iff]
  cases r with
  | answered resp => simp [Attempting.record, Result.error, storable_nil]
  | failed doErr => simp [Attempting.record, Result.error, storable_truncate_iff]
  | unsent cause => simp [Attempting.record, Result.error, storable_truncate_iff]

/-- A redirect whose `Location` has a byte that is not UTF-8: the refusal quotes it as it came. -/
def rawRedirect : Failure :=
  redirectRefused (text "\"https://hook.example/?\\xff\"") (text "https://hook.example/?" ++ [0xFF])

theorem not_storable_rawRedirect : ¬Storable (truncate rawRedirect.text 1024) := by
  have broken : validString (truncate rawRedirect.text 1024) = false := by decide +kernel
  exact fun h => Bool.eq_false_iff.mp broken ((valid_iff _).mp h.1)

theorem raw_redirect_unrecordable :
    ∃ a : Attempting, ∃ v ∈ insertAttempt (a.record none (.failed rawRedirect)), ¬v.Accepted := by
  refine ⟨⟨⟨1, DefaultPolicy, none, none⟩, ⟨⟨[], by decide⟩, ⟨[], by decide⟩, ⟨[], by decide⟩, 1,
    0, ⟨[], by decide⟩, [], ⟨[], by decide⟩⟩, id, 0, 0, 0, none⟩,
    textOrNil (truncate rawRedirect.text 1024), by simp [insertAttempt, Attempting.record], ?_⟩
  exact mt (accepted_textOrNil _).mp not_storable_rawRedirect

end Hookubit.Worker.AttemptText
