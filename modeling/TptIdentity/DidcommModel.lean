import Mathlib.Data.List.Sort
import TptIdentity.DidcommKeyWrap
import TptIdentity.GoBase64
import TptIdentity.GoJsonStruct

/-!
# Package didcomm: envelopes

Packing (`packEnvelope`) and unpacking (`unpack`) of encrypted envelopes. Of the randomness,
read 0 is the content key, then come the ephemeral keys, and last the nonce. A decoded
`[]jweRecip` keeps its backing array.
-/

namespace TptIdentity.Didcomm

open Go

def mediaTypeEncrypted : Bytes := "application/didcomm-encrypted+json"

def algAnoncrypt : Bytes := "ECDH-ES+A256KW"

def algAuthcrypt : Bytes := "ECDH-1PU+A256KW"

def encXC20P : Bytes := "XC20P"

/-! ## Data -/

structure Recipient where
  kid : Bytes
  pubKey : Array32

structure JwkOKP where
  kty : Bytes
  crv : Bytes
  x : Bytes

structure JweRecipHeader where
  kid : Bytes
  epk : Option JwkOKP

structure JweRecip where
  header : JweRecipHeader
  encryptedKey : Bytes

structure Envelope where
  protectedB64 : Bytes
  recipients : Slice JweRecip
  iv : Bytes
  ciphertext : Bytes
  tag : Bytes

structure ProtectedHeader where
  typ : Bytes
  alg : Bytes
  enc : Bytes
  skid : Bytes
  apu : Bytes
  apv : Bytes

namespace JwkOKP

def zero : JwkOKP := ⟨[], [], []⟩

def toValue (k : JwkOKP) : Value :=
  .obj [("kty", .str k.kty), ("crv", .str k.crv), ("x", .str k.x)]

def assign (name : Bytes) (j : Json) (k : JwkOKP) : Option JwkOKP :=
  if name = "kty" then (decodeStr k.kty j).map fun s => { k with kty := s }
  else if name = "crv" then (decodeStr k.crv j).map fun s => { k with crv := s }
  else if name = "x" then (decodeStr k.x j).map fun s => { k with x := s }
  else some k

end JwkOKP

namespace JweRecipHeader

def zero : JweRecipHeader := ⟨[], none⟩

def toValue (h : JweRecipHeader) : Value :=
  .obj (("kid", .str h.kid) :: h.epk.toList.map fun k => ("epk", k.toValue))

def assign (name : Bytes) (j : Json) (h : JweRecipHeader) : Option JweRecipHeader :=
  if name = "kid" then (decodeStr h.kid j).map fun s => { h with kid := s }
  else if name = "epk" then
    (decodePtr (decodeStruct JwkOKP.assign) JwkOKP.zero j h.epk).map fun k => { h with epk := k }
  else some h

end JweRecipHeader

namespace JweRecip

def zero : JweRecip := ⟨JweRecipHeader.zero, []⟩

def toValue (r : JweRecip) : Value :=
  .obj [("header", r.header.toValue), ("encrypted_key", .str r.encryptedKey)]

def assign (name : Bytes) (j : Json) (r : JweRecip) : Option JweRecip :=
  if name = "header" then
    (decodeStruct JweRecipHeader.assign j r.header).map fun h => { r with header := h }
  else if name = "encrypted_key" then
    (decodeStr r.encryptedKey j).map fun s => { r with encryptedKey := s }
  else some r

end JweRecip

namespace Envelope

def zero : Envelope := ⟨[], Slice.ofList [], [], [], []⟩

def toValue (e : Envelope) : Value :=
  .obj [("protected", .str e.protectedB64),
    ("recipients", .arr (e.recipients.toList.map JweRecip.toValue)),
    ("iv", .str e.iv), ("ciphertext", .str e.ciphertext), ("tag", .str e.tag)]

def assign (name : Bytes) (j : Json) (e : Envelope) : Option Envelope :=
  if name = "protected" then
    (decodeStr e.protectedB64 j).map fun s => { e with protectedB64 := s }
  else if name = "recipients" then
    (decodeSlice (decodeStruct JweRecip.assign) JweRecip.zero j e.recipients).map fun l =>
      { e with recipients := l }
  else if name = "iv" then (decodeStr e.iv j).map fun s => { e with iv := s }
  else if name = "ciphertext" then
    (decodeStr e.ciphertext j).map fun s => { e with ciphertext := s }
  else if name = "tag" then (decodeStr e.tag j).map fun s => { e with tag := s }
  else some e

def unmarshal (s : Bytes) : Res Envelope := unmarshalInto (decodeStruct assign) zero s

end Envelope

namespace ProtectedHeader

def zero : ProtectedHeader := ⟨[], [], [], [], [], []⟩

def toValue (h : ProtectedHeader) : Value :=
  .obj ([(str "typ", .str h.typ), (str "alg", .str h.alg), (str "enc", .str h.enc)]
    ++ omitEmpty "skid" h.skid ++ omitEmpty "apu" h.apu ++ omitEmpty "apv" h.apv)

def assign (name : Bytes) (j : Json) (h : ProtectedHeader) : Option ProtectedHeader :=
  if name = "typ" then (decodeStr h.typ j).map fun s => { h with typ := s }
  else if name = "alg" then (decodeStr h.alg j).map fun s => { h with alg := s }
  else if name = "enc" then (decodeStr h.enc j).map fun s => { h with enc := s }
  else if name = "skid" then (decodeStr h.skid j).map fun s => { h with skid := s }
  else if name = "apu" then (decodeStr h.apu j).map fun s => { h with apu := s }
  else if name = "apv" then (decodeStr h.apv j).map fun s => { h with apv := s }
  else some h

def unmarshal (s : Bytes) : Res ProtectedHeader := unmarshalInto (decodeStruct assign) zero s

end ProtectedHeader

/-! ## Key agreement -/

def kdfBytes (z alg apu apv : Bytes) : Bytes :=
  uint32Bytes 1 ++ z ++ uint32Bytes alg.length ++ alg ++ uint32Bytes apu.length ++ apu
    ++ uint32Bytes apv.length ++ apv ++ uint32Bytes 256

def partyInfo (b64 : Bytes) (format : String) : Res Bytes :=
  if b64 ≠ [] then (decodeB64 b64).wrapErr format [] else .ok []

def kdfInput (z alg apuB64 apvB64 : Bytes) : Res Bytes := do
  let apu ← partyInfo apuB64 "concat-kdf: decode apu: %w"
  let apv ← partyInfo apvB64 "concat-kdf: decode apv: %w"
  return kdfBytes z alg apu apv

variable (P : JoseCrypto)

def concatKDF (z alg apuB64 apvB64 : Bytes) : Res Array32 := do
  let h ← kdfInput z alg apuB64 apvB64
  return P.sha256 h

def ecdhESKEKSender (ephPriv recipPub : Array32) (alg apvB64 : Bytes) : Res Array32 := do
  let z ← P.x25519 ephPriv recipPub
  concatKDF P z.val alg [] apvB64

def ecdhESKEKRecipient (recipPriv ephPub : Array32) (alg apvB64 : Bytes) : Res Array32 := do
  let z ← P.x25519 recipPriv ephPub
  concatKDF P z.val alg [] apvB64

def ecdh1PUKEKSender (ephPriv senderPriv recipPub : Array32) (alg apuB64 apvB64 : Bytes) :
    Res Array32 := do
  let ze ← P.x25519 ephPriv recipPub
  let zs ← P.x25519 senderPriv recipPub
  concatKDF P (ze.val ++ zs.val) alg apuB64 apvB64

def ecdh1PUKEKRecipient (ephPub recipPriv senderPub : Array32) (alg apuB64 apvB64 : Bytes) :
    Res Array32 := do
  let ze ← P.x25519 recipPriv ephPub
  let zs ← P.x25519 recipPriv senderPub
  concatKDF P (ze.val ++ zs.val) alg apuB64 apvB64

/-! ## Packing -/

def computeAPV (sortedKIDs : List Bytes) : Array32 :=
  P.sha256 ([46].intercalate sortedKIDs)

def clamp (priv : Array32) : Array32 :=
  ⟨(priv.val.modify 0 (· &&& 248)).modify 31 fun b => b &&& 127 ||| 64, by simp [priv.property]⟩

def generateX25519 (rnd : Rand) (i : Nat) : Res (Array32 × Array32) := do
  let priv ← rnd.read32 i
  let pub ← P.x25519 (clamp priv) P.basepoint
  return (clamp priv, pub)

def packHeader (recipients : List Recipient) (senderKID : Bytes) (senderPriv : Option Array32) :
    ProtectedHeader where
  typ := mediaTypeEncrypted
  alg := if senderPriv.isSome then algAuthcrypt else algAnoncrypt
  enc := encXC20P
  skid := if senderPriv.isSome then senderKID else []
  apu := if senderPriv.isSome then encodeB64 senderKID else []
  apv := encodeB64 (computeAPV P ((recipients.map (·.kid)).insertionSort (· ≤ ·))).val

def senderKEK (hdr : ProtectedHeader) (senderPriv : Option Array32) (ephPriv recipPub : Array32) :
    Res Array32 :=
  match senderPriv with
  | some senderPriv => ecdh1PUKEKSender P ephPriv senderPriv recipPub hdr.alg hdr.apu hdr.apv
  | none => ecdhESKEKSender P ephPriv recipPub hdr.alg hdr.apv

def packRecipient (hdr : ProtectedHeader) (senderPriv : Option Array32) (cek : Array32) (rnd : Rand)
    (i : Nat) (r : Recipient) : Res JweRecip := do
  let (ephPriv, ephPub) ← (generateX25519 P rnd i).wrapErr "didcomm: ephem key: %w" []
  let kek ← (senderKEK P hdr senderPriv ephPriv r.pubKey).wrapErr "didcomm: kek for %s: %w" [r.kid]
  let wrapped ← (aesKeyWrap P kek.val cek.val).wrapErr "didcomm: key wrap for %s: %w" [r.kid]
  return ⟨⟨r.kid, some ⟨"OKP", "X25519", encodeB64 ephPub.val⟩⟩, encodeB64 wrapped⟩

def packRecipients (P : JoseCrypto) (hdr : ProtectedHeader) (senderPriv : Option Array32)
    (cek : Array32) (rnd : Rand) : Nat → List Recipient → Res (List JweRecip)
  | _, [] => .ok []
  | i, r :: rs => do
    let e ← packRecipient P hdr senderPriv cek rnd i r
    let es ← packRecipients P hdr senderPriv cek rnd (i + 1) rs
    return e :: es

def packEnvelope (msg : Bytes) (recipients : List Recipient) (senderKID : Bytes)
    (senderPriv : Option Array32) (rnd : Rand) : Res Bytes :=
  if recipients.length = 0 then .err (.new "didcomm: at least one recipient required" [])
  else do
    let hdr := packHeader P recipients senderKID senderPriv
    let protJSON ← (marshal hdr.toValue).wrapErr "didcomm: marshal header: %w" []
    let protB64 := encodeB64 protJSON
    let cek ← (rnd.read32 0).wrapErr "didcomm: gen cek: %w" []
    let jweRecipients ← packRecipients P hdr senderPriv cek rnd 1 recipients
    let iv ← (rnd.read (recipients.length + 1) JoseCrypto.nonceSizeX).wrapErr
      "didcomm: gen iv: %w" []
    let sealed := P.aeadSeal cek iv msg protB64
    let tagOff := sealed.length - JoseCrypto.overhead
    marshal (Envelope.toValue ⟨protB64, Slice.ofList jweRecipients, encodeB64 iv,
      encodeB64 (sealed.take tagOff), encodeB64 (sealed.drop tagOff)⟩)

/-! ## Unpacking -/

/-- The key-encryption key that `unpack` derives for an entry; none where the
loop goes on to the next entry. -/
def recipientKEK (hdr : ProtectedHeader) (senderPub recipPriv ephPub : Array32) : Option Array32 :=
  if hdr.alg = algAnoncrypt then
    (ecdhESKEKRecipient P recipPriv ephPub hdr.alg hdr.apv).toOption
  else if hdr.alg = algAuthcrypt then
    (ecdh1PUKEKRecipient P ephPub recipPriv senderPub hdr.alg hdr.apu hdr.apv).toOption
  else none

def decode32 (s : Bytes) : Option Array32 := (decodeB64 s).toOption.bind Array32.ofBytes

def unwrapCEK (hdr : ProtectedHeader) (senderPub : Array32)
    (recipKeyFn : Bytes → Except Err Array32) (r : JweRecip) : Option Array32 := do
  let recipPriv ← (recipKeyFn r.header.kid).toOption
  let epk ← r.header.epk
  let ephPub ← decode32 epk.x
  let kek ← recipientKEK P hdr senderPub recipPriv ephPub
  let encKey ← (decodeB64 r.encryptedKey).toOption
  let cek ← (aesKeyUnwrap P kek.val encKey).toOption
  Array32.ofBytes cek

def resolveSender (senderPubFn : Option (Bytes → Except Err Array32)) (skid : Bytes) :
    Res Array32 :=
  if skid ≠ [] then
    match senderPubFn with
    | none => .err (.new "didcomm: authcrypt envelope requires senderPubFn" [])
    | some f =>
      match f skid with
      | .ok pub => .ok pub
      | .error e => .err (.wrap "didcomm: resolve sender key %s: %w" [skid] e)
  else .ok default

def decryptContent (env : Envelope) (cek : Array32) : Res Bytes := do
  let iv ← (decodeB64 env.iv).wrapErr "didcomm: decode iv: %w" []
  let ct ← (decodeB64 env.ciphertext).wrapErr "didcomm: decode ciphertext: %w" []
  let tag ← (decodeB64 env.tag).wrapErr "didcomm: decode tag: %w" []
  (P.openWith cek iv (ct ++ tag) env.protectedB64).wrapErr "didcomm: decrypt content: %w" []

def unpack (envelope : Bytes) (recipKeyFn : Bytes → Except Err Array32)
    (senderPubFn : Option (Bytes → Except Err Array32)) : Res (Bytes × Bytes) := do
  let env ← (Envelope.unmarshal envelope).wrapErr "didcomm: parse envelope: %w" []
  let protJSON ← (decodeB64 env.protectedB64).wrapErr "didcomm: decode protected header: %w" []
  let hdr ← (ProtectedHeader.unmarshal protJSON).wrapErr "didcomm: parse protected header: %w" []
  let senderPub ← resolveSender senderPubFn hdr.skid
  match env.recipients.toList.findSome? (unwrapCEK P hdr senderPub recipKeyFn) with
  | none => .err (.new "didcomm: no matching recipient key found" [])
  | some cek => do
    let plaintext ← decryptContent P env cek
    return (plaintext, hdr.skid)

end TptIdentity.Didcomm
