/- sources: common/crypto.service.ts, worker/crypto.go
   digest: What either service decrypts was encrypted for that row, and what was encrypted
     decrypts. -/

import Hookubit.Common.CryptoService
import Hookubit.Worker.Crypto

set_option autoImplicit false
set_option relaxedAutoImplicit false

namespace Hookubit.Crypto.CiphertextBinding

open Common.CryptoService Crypto.Envelope Crypto.HeldKeys
open Data.Base64
open Data.IdealAead Data.JsText
open Data.Utf8
open Worker.Crypto (AAD Decrypt Open TrimRight decodeB64URL)

section Contexts

def stored (c : EncryptionContext UInt16) : EncryptionContext UInt8 :=
  ⟨utf8 c.table, utf8 c.id, utf8 c.owner⟩

variable {c d : EncryptionContext UInt16}

theorem complete_stored : (stored c).Complete ↔ c.Complete := by
  simp [EncryptionContext.Complete, stored, utf8_eq_nil]

theorem plain_stored (plain : c.Plain 0x3A) : (stored c).Plain 0x3A := by
  have absent {s : Units} (h : (0x3A : UInt16) ∉ s) : (0x3A : UInt8) ∉ utf8 s := fun inside =>
    h ((ascii_mem_utf8 (x := 0x3A) (by decide)).mp inside)
  simp only [EncryptionContext.Plain, stored, List.forall_mem_cons, List.not_mem_nil, false_implies,
    implies_true, and_true] at plain ⊢
  exact ⟨absent plain.1, absent plain.2.1, absent plain.2.2⟩

theorem AAD_stored (c : EncryptionContext UInt16) : AAD (stored c) = aad c := by
  have bytes : utf8 (c.joined 0x3A) = (stored c).joined 0x3A :=
    utf8_intercalate (x := 0x3A) (by decide) [c.table, c.id, c.owner]
  rw [AAD, aad, bytes]
  exact if_congr complete_stored rfl rfl

theorem AAD_eq_some {b : EncryptionContext UInt8} {data : Bytes} :
    AAD b = some data ↔ b.Complete ∧ b.joined 0x3A = data := by
  rw [AAD, Option.ite_none_right_eq_some, Option.some_inj]

theorem stored_eq_of_aad {b : EncryptionContext UInt8} {data : Bytes} (plain : b.Plain 0x3A)
    (hb : AAD b = some data) (hc : aad c = some data) : stored c = b := by
  rw [← AAD_stored] at hc
  exact EncryptionContext.eq_of_joined_eq plain
    ((AAD_eq_some.mp hc).2.trans (AAD_eq_some.mp hb).2.symm)

end Contexts

theorem dot_notMem_toBase64url (b : Bytes) : (0x2E : UInt16) ∉ toBase64url b := by
  have table : ∀ n < 64, UInt16.ofNat (Alphabet.urlSafe.character n) ≠ 0x2E := by decide
  rw [toBase64url, encodeRaw, List.map_map, List.mem_map]
  rintro ⟨n, inside, same⟩
  exact table n (lt_of_mem_sextetsOf n inside) same

theorem lt_of_mem_encodeRaw {b : Bytes} : ∀ n ∈ encodeRaw .urlSafe b, n < 128 := by
  have table : ∀ n < 64, Alphabet.urlSafe.character n < 128 := by decide
  rw [encodeRaw, List.forall_mem_map]
  exact fun n inside => table n (lt_of_mem_sextetsOf n inside)

theorem fromBase64url_toBase64url (b : Bytes) : fromBase64url (toBase64url b) = b := by
  have codes : (toBase64url b).map UInt16.toNat = encodeRaw .urlSafe b := by
    rw [toBase64url, List.map_map]
    refine (List.map_congr_left fun n inside => ?_).trans (List.map_id _)
    exact UInt16.toNat_ofNat_of_lt' ((lt_of_mem_encodeRaw n inside).trans (by decide))
  rw [fromBase64url, codes, decodeLenient_encodeRaw]

theorem toBase64url_ne_nil {b : Bytes} (nonempty : b ≠ []) : toBase64url b ≠ [] := by
  have filled : (sextetsOf b).length ≠ 0 := by
    have := List.length_pos_iff.mpr nonempty
    rw [length_sextetsOf]
    omega
  intro empty
  apply filled
  simpa [toBase64url, encodeRaw] using congrArg List.length empty

theorem utf8_toBase64url (b : Bytes) :
    utf8 (toBase64url b) = (encodeRaw .urlSafe b).map UInt8.ofNat := by
  have wide : toBase64url b = widen ((encodeRaw .urlSafe b).map UInt8.ofNat) := by
    rw [toBase64url, widen, List.map_map]
    refine List.map_congr_left fun n inside => ?_
    have small := lt_of_mem_encodeRaw n inside
    apply UInt16.toNat_inj.mp
    rw [UInt16.toNat_ofNat_of_lt' (small.trans (by decide)), Function.comp_apply,
      UInt8.toNat_toUInt16, UInt8.toNat_ofNat_of_lt' (small.trans (by decide))]
  rw [wide, utf8_widen]
  rw [List.forall_mem_map]
  intro n inside
  have small := lt_of_mem_encodeRaw n inside
  rw [UInt8.lt_iff_toNat_lt, UInt8.toNat_ofNat_of_lt' (small.trans (by decide))]
  exact small

theorem decodeB64URL_toBase64url (b : Bytes) : decodeB64URL (utf8 (toBase64url b)) = some b := by
  have codes : (utf8 (toBase64url b)).map UInt8.toNat = encodeRaw .urlSafe b := by
    rw [utf8_toBase64url, List.map_map]
    refine (List.map_congr_left fun n inside => ?_).trans (List.map_id _)
    exact UInt8.toNat_ofNat_of_lt' ((lt_of_mem_encodeRaw n inside).trans (by decide))
  have unpadded : TrimRight (utf8 (toBase64url b)) = utf8 (toBase64url b) := by
    refine List.rdropWhile_eq_self_iff.mpr fun some last => ?_
    have listed := List.mem_map_of_mem (f := UInt8.toNat) (List.getLast_mem some)
    rw [eq_of_beq last, codes] at listed
    exact padding_notMem (spells_encodeRaw .urlSafe b) listed
  rw [decodeB64URL, unpadded, codes, decodeRaw_encodeRaw]

theorem dot_notMem_kid (ring : Keyring UInt16.toNat) : (0x2E : UInt16) ∉ ring.primaryKid := by
  intro inside
  obtain ⟨e, listed, same⟩ := List.mem_map.mp ring.held
  have letters := (isKid_iff.mp (ring.named e listed)).2.2
  rw [same] at letters
  exact absurd (letters _ (List.mem_map_of_mem inside)) (by decide)

theorem kid_ne_nil (ring : Keyring UInt16.toNat) : ring.primaryKid ≠ [] := by
  obtain ⟨e, listed, same⟩ := List.mem_map.mp ring.held
  have filled := (isKid_iff.mp (ring.named e listed)).1
  rw [same] at filled
  simpa using filled

section RoundTrip

variable {gcm : Gcm} {calls : List Call} {call : Call}

def parts (gcm : Gcm) (call : Call) (s : Sealing Key) : List Units :=
  [widen envelopeVersion, call.ring.primaryKid, toBase64url call.iv, toBase64url (gcm.output s).2,
    toBase64url (gcm.output s).1]

theorem dot_notMem_parts (s : Sealing Key) : ∀ part ∈ parts gcm call s, (0x2E : UInt16) ∉ part := by
  simp only [parts, List.forall_mem_cons, List.not_mem_nil, false_implies, implies_true, and_true]
  exact ⟨by decide, dot_notMem_kid call.ring, dot_notMem_toBase64url _, dot_notMem_toBase64url _,
    dot_notMem_toBase64url _⟩

def Call.sealed (call : Call) : Sealing Key :=
  ⟨call.ring.primary, call.iv, utf8 (call.context.joined 0x3A), utf8 call.plaintext⟩

theorem aad_of_complete {c : EncryptionContext UInt16} (complete : c.Complete) :
    aad c = some (utf8 (c.joined 0x3A)) := if_pos complete

theorem sealing_of_complete (complete : call.context.Complete) :
    call.sealing = some (Call.sealed call) := by
  rw [Call.sealing, aad_of_complete complete]
  rfl

theorem encrypt_of_complete (complete : call.context.Complete) :
    call.encrypt gcm = some ([0x2E].intercalate (parts gcm call (Call.sealed call))) := by
  rw [Call.encrypt, sealing_of_complete complete]
  rfl

theorem opened_sealed (listed : call ∈ calls) (complete : call.context.Complete) :
    gcm.opened (sealings calls) call.ring.primary call.iv (utf8 (call.context.joined 0x3A))
      (gcm.output (Call.sealed call)) = some (utf8 call.plaintext) :=
  opened_output (List.mem_filterMap.mpr ⟨call, listed, sealing_of_complete complete⟩)

theorem ciphertext_ne_nil (filled : call.plaintext ≠ []) :
    (gcm.output (Call.sealed call)).1 ≠ [] := by
  rw [← List.length_pos_iff, Aead.output, gcm.length_ciphertext, List.length_pos_iff]
  exact fun empty => filled (utf8_eq_nil.mp empty)

theorem tag_ne_nil : (gcm.output (Call.sealed call)).2 ≠ [] := by
  rw [← List.length_pos_iff, Aead.output, gcm.length_tag]
  decide

theorem iv_ne_nil (iv : Iv) : iv.val ≠ [] := by
  rw [← List.length_pos_iff, iv.property]
  decide

variable {ring : Keyring UInt16.toNat}

theorem decrypt_encrypted (listed : call ∈ calls) (complete : call.context.Complete)
    (filled : call.plaintext ≠ [])
    (held : ring.lookup call.ring.primaryKid = some call.ring.primary) :
    decrypt gcm calls ring ([0x2E].intercalate (parts gcm call (Call.sealed call))) call.context =
      .ok (utf16 (Data.Utf8Decode.decode (utf8 call.plaintext))) := by
  have whole : ¬(widen envelopeVersion ≠ widen envelopeVersion ∨ call.ring.primaryKid = [] ∨
      toBase64url call.iv = [] ∨ toBase64url (gcm.output (Call.sealed call)).2 = [] ∨
        toBase64url (gcm.output (Call.sealed call)).1 = []) := by
    simp [kid_ne_nil, toBase64url_ne_nil (iv_ne_nil call.iv), toBase64url_ne_nil tag_ne_nil,
      toBase64url_ne_nil (ciphertext_ne_nil filled)]
  have tag : (gcm.output (Call.sealed call)).2.length = tagBytes := gcm.length_tag ..
  rw [decrypt, List.splitOn_intercalate 0x2E (dot_notMem_parts _) (by simp [parts])]
  simp only [parts]
  rw [if_neg whole]
  simp only [held, aad_of_complete complete, openEnvelope, fromBase64url_toBase64url, tag,
    call.iv.property, ne_eq, not_true_eq_false, if_false, Prod.mk.eta,
    opened_sealed listed complete]

theorem splitAt_append {α : Type} (a b : List α) :
    (a ++ b).splitAt ((a ++ b).length - b.length) = (a, b) := by
  have size : (a ++ b).length - b.length = a.length := by simp
  rw [size, List.splitAt_eq, List.take_left, List.drop_left]

theorem Open_append {made : List (Sealing Key)} {key : Key} {iv ciphertext tag aad : Bytes}
    (size : tag.length = tagBytes) :
    Open gcm made key iv (ciphertext ++ tag) aad =
      gcm.opened made key iv aad (ciphertext, tag) := by
  have enough : ¬(ciphertext ++ tag).length < tagBytes := by
    rw [List.length_append]
    omega
  have cut : (ciphertext ++ tag).splitAt ((ciphertext ++ tag).length - tagBytes) =
      (ciphertext, tag) := by
    rw [← size, splitAt_append]
  rw [Open, if_neg enough, cut]

theorem Decrypt_encrypted (listed : call ∈ calls) (complete : call.context.Complete)
    (filled : call.plaintext ≠ []) {ring : Keyring UInt8.toNat}
    (held : ring.lookup (utf8 call.ring.primaryKid) = some call.ring.primary) :
    Decrypt gcm (sealings calls) ring
        (utf8 ([0x2E].intercalate (parts gcm call (Call.sealed call)))) (stored call.context) =
      .ok (utf8 call.plaintext) := by
  have bytes : utf8 ([0x2E].intercalate (parts gcm call (Call.sealed call))) =
      [0x2E].intercalate ((parts gcm call (Call.sealed call)).map utf8) :=
    utf8_intercalate (x := 0x2E) (by decide) _
  have dots : ∀ part ∈ (parts gcm call (Call.sealed call)).map utf8, (0x2E : UInt8) ∉ part := by
    rw [List.forall_mem_map]
    intro part inside dot
    exact dot_notMem_parts _ part inside ((ascii_mem_utf8 (x := 0x2E) (by decide)).mp dot)
  have version : utf8 (widen envelopeVersion) = envelopeVersion := by
    have text : envelopeVersion = [0x76, 0x31] := rfl
    rw [text, utf8_widen (by simp)]
  have whole : ¬(utf8 call.ring.primaryKid = [] ∨ utf8 (toBase64url call.iv) = [] ∨
      utf8 (toBase64url (gcm.output (Call.sealed call)).2) = [] ∨
        utf8 (toBase64url (gcm.output (Call.sealed call)).1) = []) := by
    simp [utf8_eq_nil, kid_ne_nil, toBase64url_ne_nil (iv_ne_nil call.iv),
      toBase64url_ne_nil tag_ne_nil, toBase64url_ne_nil (ciphertext_ne_nil filled)]
  have tag : (gcm.output (Call.sealed call)).2.length = tagBytes := gcm.length_tag ..
  rw [Decrypt, bytes, List.splitOn_intercalate 0x2E dots (by simp [parts])]
  simp only [parts, List.map_cons, List.map_nil, version, ne_eq, not_true_eq_false, if_false,
    if_neg whole, held, decodeB64URL_toBase64url, Option.filter_some, call.iv.property, tag,
    beq_self_eq_true, if_true, AAD_stored, aad_of_complete complete, Open_append tag, Prod.mk.eta,
    opened_sealed listed complete]

end RoundTrip

section Binding

variable {gcm : Gcm} {calls : List Call} {ring : Keyring UInt16.toNat}

theorem decrypt_congr {encoded : Units}
    {context context' : EncryptionContext UInt16} (same : aad context = aad context') :
    decrypt gcm calls ring encoded context = decrypt gcm calls ring encoded context' := by
  simp only [decrypt, same]

theorem decrypt_eq_ok {encoded : Units} {context : EncryptionContext UInt16}
    {result : Units} (h : decrypt gcm calls ring encoded context = .ok result) :
    ∃ kid key nonce data out plaintext, (encoded.splitOn 0x2E)[1]? = some kid ∧
      ring.lookup kid = some key ∧ aad context = some data ∧
        gcm.opened (sealings calls) key nonce data out = some plaintext ∧
          result = utf16 (Data.Utf8Decode.decode plaintext) := by
  unfold decrypt at h
  split at h
  · rename_i version kid ivB64 tagB64 dataB64 pieces
    split at h
    · cases h
    · split at h
      · cases h
      · rename_i key held
        split at h
        · cases h
        · rename_i data whole
          unfold openEnvelope at h
          split_ifs at h
          split at h
          · cases h
          · rename_i plaintext found
            exact ⟨kid, key, _, data, _, plaintext, by rw [pieces]; rfl, held, whole, found,
              (Except.ok.inj h).symm⟩
  · cases h

theorem Decrypt_eq_ok {made : List (Sealing Key)} {ring : Keyring UInt8.toNat} {envelope : Bytes}
    {context : EncryptionContext UInt8} {result : Bytes}
    (h : Decrypt gcm made ring envelope context = .ok result) :
    ∃ kid key nonce data out, (envelope.splitOn 0x2E)[1]? = some kid ∧ ring.lookup kid = some key ∧
      AAD context = some data ∧ gcm.opened made key nonce data out = some result := by
  unfold Decrypt at h
  split at h
  · rename_i version kid ivPart tagPart dataPart pieces
    split_ifs at h
    split at h
    · cases h
    · rename_i key held
      split at h
      · cases h
      · rename_i iv _
        split at h
        · cases h
        · rename_i tag sized
          split at h
          · cases h
          · rename_i ciphertext _
            split at h
            · cases h
            · rename_i data whole
              split at h
              · cases h
              · rename_i plaintext found
                obtain rfl := Except.ok.inj h
                obtain ⟨-, size⟩ := Option.filter_eq_some_iff.mp sized
                rw [Open_append (by simpa using size)] at found
                exact ⟨kid, key, iv, data, _, by rw [pieces]; rfl, held, whole, found⟩
  · cases h

theorem exists_call {key : Key} {nonce data plaintext : Bytes} {out : Bytes × Bytes}
    (h : gcm.opened (sealings calls) key nonce data out = some plaintext) :
    ∃ call ∈ calls, aad call.context = some data ∧ call.ring.primary = key ∧
      utf8 call.plaintext = plaintext := by
  obtain ⟨s, listed, ⟨keys, -, same, -⟩, text⟩ := exists_of_opened h
  obtain ⟨call, made, sealed⟩ := List.mem_filterMap.mp listed
  obtain ⟨bytes, given, rfl⟩ := Option.map_eq_some_iff.mp sealed
  exact ⟨call, made, same ▸ given, keys, text⟩

def WellFormed (c : EncryptionContext UInt16) : Prop :=
  ∃ table id owner : List Char, c = ⟨utf16 table, utf16 id, utf16 owner⟩

theorem eq_of_stored_eq {c d : EncryptionContext UInt16} (hc : WellFormed c) (hd : WellFormed d)
    (same : stored c = stored d) : c = d := by
  have read {t u : List Char} (h : utf8 (utf16 t) = utf8 (utf16 u)) : utf16 t = utf16 u := by
    rw [utf8, utf8, scalars_utf16, scalars_utf16] at h
    rw [encode_injective h]
  obtain ⟨table, id, owner, rfl⟩ := hc
  obtain ⟨table', id', owner', rfl⟩ := hd
  obtain ⟨tables, ids, owners⟩ := (EncryptionContext.mk.injEq ..).mp same
  rw [read tables, read ids, read owners]

/-- What a call encrypts under a whole context decrypts under it in both services, with any ring that
holds the key under its id; and whatever either service decrypts under a context without colons was
encrypted by a call for that context, with the key that the ring holds under the envelope's id. The
context and the plaintext are the call's as UTF-8 has them. -/
theorem ciphertext_bound_to_row (gcm : Gcm) (calls : List Call) :
    (∀ call ∈ calls, ∀ text : List Char, text ≠ [] → call.plaintext = utf16 text →
      call.context.Complete → ∃ envelope, call.encrypt gcm = some envelope ∧
        (∀ ring : Keyring UInt16.toNat,
          ring.lookup call.ring.primaryKid = some call.ring.primary →
            decrypt gcm calls ring envelope call.context = .ok call.plaintext) ∧
        ∀ ring : Keyring UInt8.toNat,
          ring.lookup (utf8 call.ring.primaryKid) = some call.ring.primary →
            Decrypt gcm (sealings calls) ring (utf8 envelope) (stored call.context) =
              .ok (encode text)) ∧
    (∀ ring encoded context result, context.Plain 0x3A →
      decrypt gcm calls ring encoded context = .ok result →
        ∃ call ∈ calls, ∃ kid, (encoded.splitOn 0x2E)[1]? = some kid ∧
          ring.lookup kid = some call.ring.primary ∧ stored call.context = stored context ∧
            (WellFormed call.context → WellFormed context → call.context = context) ∧
              result = utf16 (scalars call.plaintext)) ∧
    ∀ ring envelope context result, context.Plain 0x3A →
      Decrypt gcm (sealings calls) ring envelope context = .ok result →
        ∃ call ∈ calls, ∃ kid, (envelope.splitOn 0x2E)[1]? = some kid ∧
          ring.lookup kid = some call.ring.primary ∧ stored call.context = context ∧
            result = utf8 call.plaintext := by
  refine ⟨?_, ?_, ?_⟩
  · intro call listed text something written complete
    have filled : call.plaintext ≠ [] := by
      rw [written]
      exact fun empty => something (utf16_eq_nil.mp empty)
    have bytes : utf8 call.plaintext = encode text := by rw [written, utf8, scalars_utf16]
    refine ⟨_, encrypt_of_complete complete, fun ring held => ?_, fun ring held => ?_⟩
    · rw [decrypt_encrypted listed complete filled held, bytes, Data.Utf8Decode.decode_encode,
        written]
    · rw [Decrypt_encrypted listed complete filled held, bytes]
  · intro ring encoded context result plain h
    obtain ⟨kid, key, nonce, data, out, plaintext, named, held, given, found, rfl⟩ :=
      decrypt_eq_ok h
    obtain ⟨call, listed, whole, rfl, rfl⟩ := exists_call found
    have same : stored call.context = stored context :=
      stored_eq_of_aad (plain_stored plain) ((AAD_stored context).trans given) whole
    refine ⟨call, listed, kid, named, held, same, fun hc hd => eq_of_stored_eq hc hd same, ?_⟩
    rw [utf8, Data.Utf8Decode.decode_encode]
  · intro ring envelope context result plain h
    obtain ⟨kid, key, nonce, data, out, named, held, given, found⟩ := Decrypt_eq_ok h
    obtain ⟨call, listed, whole, rfl, rfl⟩ := exists_call found
    exact ⟨call, listed, kid, named, held, stored_eq_of_aad plain given whole, rfl⟩

end Binding

/-- A cipher that hides nothing, to compute with. -/
def openCipher : Gcm where
  encipher := fun _ _ _ plaintext => (plaintext, List.replicate tagBytes 0)
  length_ciphertext := fun _ _ _ _ => rfl
  length_tag := fun _ _ _ _ => List.length_replicate
  faithful := fun _ _ _ _ _ same => congrArg Prod.fst same

def zeroKey : Key := ⟨List.replicate keyBytes 0, List.length_replicate⟩

theorem isKid_k1 : isKid (([0x6B, 0x31] : Units).map UInt16.toNat) = true := by decide

def k1Ring : Keyring UInt16.toNat := .single [0x6B, 0x31] zeroKey isKid_k1

def sampleCall (id plaintext : Units) : Call where
  ring := k1Ring
  iv := ⟨List.replicate ivBytes 0, List.length_replicate⟩
  plaintext := plaintext
  context := ⟨[0x74], id, [0x65]⟩

theorem complete_sampleCall {id : Units} (filled : id ≠ []) (plaintext : Units) :
    (sampleCall id plaintext).context.Complete :=
  ⟨by simp [sampleCall], filled, by simp [sampleCall]⟩

theorem lookup_k1Ring (id plaintext : Units) :
    k1Ring.lookup (sampleCall id plaintext).ring.primaryKid =
      some (sampleCall id plaintext).ring.primary := by
  rw [Keyring.primary, Option.some_get]
  rfl

theorem secret_decrypts : ∃ envelope,
    (sampleCall [0x69] (utf16 ['s'])).encrypt openCipher = some envelope ∧
      decrypt openCipher [sampleCall [0x69] (utf16 ['s'])] k1Ring envelope
        (sampleCall [0x69] (utf16 ['s'])).context = .ok (utf16 ['s']) := by
  obtain ⟨envelope, written, node, -⟩ :=
    (ciphertext_bound_to_row openCipher [sampleCall [0x69] (utf16 ['s'])]).1 _
      (List.mem_singleton_self _) ['s'] (by simp) rfl (complete_sampleCall (by simp) _)
  exact ⟨envelope, written, node k1Ring (lookup_k1Ring [0x69] _)⟩

/-- A row id that is half of a surrogate pair authenticates like the replacement character, so the
envelope decrypts for a row that nothing was encrypted for; and such a half in the plaintext is
replaced as well, so what is decrypted is not what was encrypted. -/
theorem replaced_id_decrypts :
    (∃ ring encoded context result, context.Plain 0x3A ∧
      decrypt openCipher [sampleCall [0xD800] [0x73]] ring encoded context = .ok result ∧
        ∀ call ∈ [sampleCall [0xD800] [0x73]], call.context ≠ context) ∧
    ∃ ring encoded context result, context.Plain 0x3A ∧
      decrypt openCipher [sampleCall [0x69] [0xD800]] ring encoded context = .ok result ∧
        ∀ call ∈ [sampleCall [0x69] [0xD800]], call.plaintext ≠ result := by
  constructor
  · have accepted : decrypt openCipher [sampleCall [0xD800] [0x73]] k1Ring _ _ = _ :=
      decrypt_encrypted (List.mem_singleton_self _) (complete_sampleCall (by simp) _) (by decide)
        (lookup_k1Ring [0xD800] [0x73])
    have replaced : aad (sampleCall [0xD800] [0x73]).context = aad ⟨[0x74], [0xFFFD], [0x65]⟩ := by
      decide
    rw [decrypt_congr replaced] at accepted
    refine ⟨_, _, _, _, ?_, accepted, ?_⟩
    · simp [EncryptionContext.Plain]
    · simp [sampleCall]
  · have accepted : decrypt openCipher [sampleCall [0x69] [0xD800]] k1Ring _ _ = _ :=
      decrypt_encrypted (List.mem_singleton_self _) (complete_sampleCall (by simp) _) (by decide)
        (lookup_k1Ring [0x69] [0xD800])
    refine ⟨_, _, _, _, ?_, accepted, ?_⟩
    · simp [EncryptionContext.Plain, sampleCall]
    · rw [List.forall_mem_singleton]
      decide

end Hookubit.Crypto.CiphertextBinding
