/- sources: worker/crypto.go
   digest: How the data plane decodes base64 and opens an envelope with its keyring. -/

import Hookubit.Crypto.Envelope
import Hookubit.Data.ByteText
import Mathlib.Data.List.DropRight

set_option autoImplicit false
set_option relaxedAutoImplicit false

namespace Hookubit.Worker.Crypto

open Crypto.Envelope Crypto.HeldKeys Data.Base64 Data.ByteText Data.IdealAead Data.Utf8

/-- `strings.TrimRight(s, "=")`. -/
def TrimRight (s : Bytes) : Bytes := s.rdropWhile (· == 0x3D)

def AAD (context : EncryptionContext UInt8) : Option Bytes :=
  if context.Complete then some (context.joined 0x3A) else none

/-- An envelope part, padded or not. -/
def decodeB64URL (s : Bytes) : Option Bytes := decodeRaw .urlSafe ((TrimRight s).map UInt8.toNat)

inductive DecryptError
  | parts (got : ℕ)
  | version (got : Bytes)
  | emptyPart
  | noKey (kid : Bytes)
  | malformedIv
  | malformedTag
  | malformedBody
  | incompleteContext
  | authentication (kid aad : Bytes)
  deriving DecidableEq

variable (gcm : Gcm) (made : List (Sealing Key))

/-- `Open` of Go's GCM, which takes the tag from the end of the ciphertext. -/
def Open (key : Key) (iv sealed aad : Bytes) : Option Bytes :=
  if sealed.length < tagBytes then none
  else gcm.opened made key iv aad (sealed.splitAt (sealed.length - tagBytes))

def Decrypt (ring : Keyring UInt8.toNat) (envelope : Bytes) (context : EncryptionContext UInt8) :
    Except DecryptError Bytes :=
  match envelope.splitOn 0x2E with
  | [version, kid, ivPart, tagPart, dataPart] =>
    if version ≠ envelopeVersion then .error (.version version)
    else if kid = [] ∨ ivPart = [] ∨ tagPart = [] ∨ dataPart = [] then .error .emptyPart
    else
      match ring.lookup kid with
      | none => .error (.noKey kid)
      | some key =>
        match (decodeB64URL ivPart).filter (·.length == ivBytes) with
        | none => .error .malformedIv
        | some iv =>
          match (decodeB64URL tagPart).filter (·.length == tagBytes) with
          | none => .error .malformedTag
          | some tag =>
            match decodeB64URL dataPart with
            | none => .error .malformedBody
            | some ciphertext =>
              match AAD context with
              | none => .error .incompleteContext
              | some aad =>
                match Open gcm made key iv (ciphertext ++ tag) aad with
                | none => .error (.authentication kid aad)
                | some plaintext => .ok plaintext
  | parts => .error (.parts parts.length)

end Hookubit.Worker.Crypto
