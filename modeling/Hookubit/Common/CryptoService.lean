/- sources: common/crypto.service.ts
   digest: How the control plane encrypts and decrypts with its keyring. -/

import Hookubit.Crypto.Envelope
import Hookubit.Data.JsText
import Hookubit.Data.Utf8Decode

set_option autoImplicit false
set_option relaxedAutoImplicit false

namespace Hookubit.Common.CryptoService

open Crypto.Envelope Crypto.HeldKeys Data.Base64 Data.IdealAead Data.JsText
open Data.Utf8 (Bytes encode)

/-- The associated data, or nothing when part of the context is missing. -/
def aad (context : EncryptionContext UInt16) : Option Bytes :=
  if context.Complete then some (utf8 (context.joined 0x3A)) else none

def toBase64url (b : Bytes) : Units := (encodeRaw .urlSafe b).map UInt16.ofNat

def fromBase64url (s : Units) : Bytes := decodeLenient (s.map UInt16.toNat)

/-- One call of `encrypt`, with the ring of the process and the random bytes it draws. -/
structure Call where
  ring : Keyring UInt16.toNat
  iv : Iv
  plaintext : Units
  context : EncryptionContext UInt16

def Call.sealing (call : Call) : Option (Sealing Key) :=
  (aad call.context).map fun data => ⟨call.ring.primary, call.iv, data, utf8 call.plaintext⟩

def Call.encrypt (gcm : Gcm) (call : Call) : Option Units :=
  call.sealing.map fun s =>
    [0x2E].intercalate [widen envelopeVersion, call.ring.primaryKid, toBase64url call.iv,
      toBase64url (gcm.output s).2, toBase64url (gcm.output s).1]

def sealings (calls : List Call) : List (Sealing Key) := calls.filterMap Call.sealing

inductive DecryptError
  | malformedCiphertext
  | noKey (kid : Units)
  | incompleteContext
  | malformedTag
  | malformedIv
  | authentication
  deriving DecidableEq

variable (gcm : Gcm) (calls : List Call)

def openEnvelope (key : Key) (ivB64 tagB64 dataB64 : Units) (data : Bytes) :
    Except DecryptError Units :=
  if (fromBase64url tagB64).length ≠ tagBytes then .error .malformedTag
  else if (fromBase64url ivB64).length ≠ ivBytes then .error .malformedIv
  else
    match gcm.opened (sealings calls) key (fromBase64url ivB64) data
        (fromBase64url dataB64, fromBase64url tagB64) with
    | none => .error .authentication
    | some plaintext => .ok (utf16 (Data.Utf8Decode.decode plaintext))

def decrypt (ring : Keyring UInt16.toNat) (encoded : Units) (context : EncryptionContext UInt16) :
    Except DecryptError Units :=
  match encoded.splitOn 0x2E with
  | [version, kid, ivB64, tagB64, dataB64] =>
    if version ≠ widen envelopeVersion ∨ kid = [] ∨ ivB64 = [] ∨ tagB64 = [] ∨ dataB64 = [] then
      .error .malformedCiphertext
    else
      match ring.lookup kid with
      | none => .error (.noKey kid)
      | some key =>
        match aad context with
        | none => .error .incompleteContext
        | some data => openEnvelope gcm calls key ivB64 tagB64 dataB64 data
  | _ => .error .malformedCiphertext

end Hookubit.Common.CryptoService
