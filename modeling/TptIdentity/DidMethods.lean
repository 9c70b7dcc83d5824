import TptIdentity.GoBase58
import TptIdentity.VcRoundTrip

/-!
# Package did: the methods key, peer and web

How a DID and its document are made from keys, and how a `did:key` is resolved from its own
text. `go-multibase` is a parameter (`Multibase`).
-/

namespace TptIdentity.Did

open Go

/-! ## Multibase -/

structure Multibase where
  encode : Bytes → Res Bytes
  decode : Bytes → Res Bytes

namespace Multibase

structure Lossless (M : Multibase) : Prop where
  base58btc : ∀ raw enc, raw ≠ [] → M.encode raw = .ok enc → M.decode enc = .ok raw
  base64url : ∀ raw, M.decode ("u" ++ encodeB64 raw) = .ok raw

/-- A leading `z` stands for base58btc. Whether nothing behind it is an error is
left open. -/
structure Base58btc (M : Multibase) : Prop where
  encode_eq : ∀ raw, M.encode raw = .ok (122 :: encodeBase58 raw)
  decode_some : ∀ t raw, t ≠ [] → decodeBase58 t = some raw → M.decode (122 :: t) = .ok raw
  decode_none : ∀ t, decodeBase58 t = none → ∃ e, M.decode (122 :: t) = .err e
  decode_empty : ∀ raw, M.decode [122] = .ok raw → raw = []

def go : Multibase where
  encode raw := .ok (122 :: encodeBase58 raw)
  decode
    | 122 :: t =>
      match decodeBase58 t with
      | some raw => .ok raw
      | none => .err (.new "invalid base58 digit" [])
    | 117 :: t => decodeB64 t
    | _ => .err (.new "selected encoding not supported" [])

theorem go_base58btc : go.Base58btc where
  encode_eq _ := rfl
  decode_some t raw _ h := by simp [go, h]
  decode_none t h := ⟨.new "invalid base58 digit" [], by simp [go, h]⟩
  decode_empty raw h := by
    have hnil : go.decode [122] = .ok [] := by rfl
    exact (Res.ok.inj (hnil.symm.trans h)).symm

theorem go_lossless : go.Lossless where
  base58btc raw enc _ h := by
    obtain rfl := Res.ok.inj h
    simp [go, decodeBase58_encodeBase58]
  base64url raw := decodeB64_encodeB64 raw

namespace Base58btc

variable {M : Multibase}

theorem encode_of_decode (hM : M.Base58btc) {t raw : Bytes} (h : M.decode (122 :: t) = .ok raw)
    (hraw : raw ≠ []) : M.encode raw = .ok (122 :: t) := by
  have ht : t ≠ [] := fun hnil => hraw (hM.decode_empty raw (hnil ▸ h))
  cases hdec : decodeBase58 t with
  | none =>
    obtain ⟨e, he⟩ := hM.decode_none t hdec
    exact absurd (he.symm.trans h) (Res.err_ne_ok e raw)
  | some raw' =>
    obtain rfl := Res.ok.inj ((hM.decode_some t raw' ht hdec).symm.trans h)
    rw [hM.encode_eq, encodeBase58_of_decodeBase58 hdec]

theorem decode_of_encode (hM : M.Base58btc) {raw enc : Bytes} (hraw : raw ≠ [])
    (h : M.encode raw = .ok enc) : M.decode enc = .ok raw := by
  obtain rfl := Res.ok.inj ((hM.encode_eq raw).symm.trans h)
  have hdec := decodeBase58_encodeBase58 raw
  refine hM.decode_some _ raw (fun hnil => hraw ?_) hdec
  rw [hnil] at hdec
  exact (Option.some.inj hdec).symm

end Base58btc

end Multibase

def uvarintLoop : Nat → Nat → Bytes
  | 0, _ => []
  | n + 1, x =>
    if 0x80 ≤ x then UInt8.ofNat (x ||| 0x80) :: uvarintLoop n (x >>> 7) else [UInt8.ofNat x]

def uvarint (x : Nat) : Bytes := uvarintLoop 10 x

def toMultibase (M : Multibase) (key : Bytes) (codec : Nat) : Bytes :=
  let raw := uvarint codec ++ key
  (M.encode raw).getD ("u" ++ encodeB64 raw)

/-! ## Documents from keys -/

structure CreateOptions where
  domain : Bytes
  signingPub : Bytes
  encPub : Bytes

/-- One signing key, and an encryption key where there is one (its ID and its multibase text). -/
def documentOf (did sigKeyID sigPubMB : Bytes) (enc : Option (Bytes × Bytes)) (now : Option Time) :
    Document where
  context := some defaultContext
  id := did
  controller := []
  verificationMethod :=
    ⟨sigKeyID, "Ed25519VerificationKey2020", did, some sigPubMB, false, none⟩
      :: enc.toList.map fun e =>
        ⟨e.1, "X25519KeyAgreementKey2020", did, some e.2, false, none⟩
  authentication := [sigKeyID]
  keyAgreement := enc.toList.map (·.1)
  assertionMethod := [sigKeyID]
  service := []
  created := now
  updated := now

/-! ## The method key -/

namespace KeyMethod

def encodeKeyDID (M : Multibase) (pub : Bytes) : Res Bytes := do
  let mb ← (M.encode (0xed :: 0x01 :: pub)).wrapErr "did:key encode: %w" []
  return "did:key:" ++ mb

def keyDocument (M : Multibase) (did sigPub encPub : Bytes) : Document :=
  documentOf did (did ++ "#" ++ trimPrefix did "did:key:") (toMultibase M sigPub 0xed)
    (if encPub.length = 32 then some (did ++ "#enc", toMultibase M encPub 0xec) else none) none

def create (M : Multibase) (opts : CreateOptions) : Res (Bytes × Document) :=
  if opts.signingPub.length ≠ Ed25519.publicKeySize then
    .err (.new "did:key requires a 32-byte Ed25519 public key" [])
  else do
    let did ← encodeKeyDID M opts.signingPub
    return (did, keyDocument M did opts.signingPub opts.encPub)

def resolve (M : Multibase) (did : Bytes) : Res Document :=
  if !hasPrefix did "did:key:" then .err (.new "did:key: invalid DID %q" [did])
  else do
    let raw ← (M.decode (trimPrefix did "did:key:")).wrapErr "did:key decode: %w" []
    if raw.length < 3 then .err (.new "did:key: too short" [])
    else if (Vc.decodeUvarint raw).1 ≠ 0xed then
      .err (.new "did:key: unsupported multicodec 0x%x" [utoa (Vc.decodeUvarint raw).1])
    else
      let pubKey := raw.drop (Vc.decodeUvarint raw).2
      if pubKey.length ≠ Ed25519.publicKeySize then
        .err (.new "did:key: invalid ed25519 key length" [])
      else .ok (keyDocument M did pubKey [])

end KeyMethod

/-! ## The method peer -/

namespace PeerMethod

def create (docs : Map Document) (opts : CreateOptions) : Res (Bytes × Document × Map Document) :=
  if opts.signingPub.length ≠ Ed25519.publicKeySize then
    .err (.new "did:peer requires a 32-byte Ed25519 public key" [])
  else
    let mb := "u" ++ encodeB64 (0xed :: 0x01 :: opts.signingPub)
    let did := "did:peer:0" ++ mb
    let encMB := "z" ++ encodeB64 (0xec :: 0x01 :: opts.encPub)
    let doc := documentOf did (did ++ "#key-1") mb
      (if opts.encPub.length = 32 then some (did ++ "#key-2", encMB) else none) none
    .ok (did, doc, docs.set did doc)

end PeerMethod

/-! ## The method web -/

namespace WebMethod

def create (M : Multibase) (now : Time) (opts : CreateOptions) : Res (Bytes × Document) :=
  if opts.domain = [] then .err (.new "did:web requires a domain" [])
  else if opts.signingPub = [] then .err (.new "did:web requires a signing public key" [])
  else
    let did := "did:web:" ++ opts.domain
    .ok (did, documentOf did (did ++ "#signing-key-1") (toMultibase M opts.signingPub 0xed)
      (if opts.encPub ≠ [] then some (did ++ "#enc-key-1", toMultibase M opts.encPub 0xec)
        else none) (some now))

end WebMethod

inductive Method where
  | key
  | peer
  | web
deriving DecidableEq, Repr

def Method.create (M : Multibase) (docs : Map Document) (now : Time) (opts : CreateOptions) :
    Method → Res (Bytes × Document)
  | .key => KeyMethod.create M opts
  | .peer => do
    let (did, doc, _) ← PeerMethod.create docs opts
    return (did, doc)
  | .web => WebMethod.create M now opts

/-! ## Reading keys -/

def Document.toVc (doc : Document) : Vc.Document :=
  ⟨doc.verificationMethod.map fun vm => ⟨vm.id, vm.type, vm.publicKeyMultibase, vm.revoked⟩⟩

def x25519KeyBytes (M : Multibase) (mb : Bytes) : Res Bytes :=
  match M.decode mb with
  | .err _ => (decodeB64 (mb.drop 1)).wrapErr "decode x25519 key multibase: %w" []
  | r => r

def decodeX25519Multibase (M : Multibase) (mb : Bytes) : Res Bytes :=
  if mb.length < 2 then .err (.new "x25519 key too short" [])
  else do
    let raw ← x25519KeyBytes M mb
    if raw.length < 34 ∨ raw.take 2 ≠ [0xec, 0x01] then
      .err (.new ("x25519 key has unexpected multicodec prefix "
        ++ "(expected x25519-pub 0xEC 0x01)") [])
    else .ok ((raw.drop 2).take 32)

def extractX25519KeyFromDoc (M : Multibase) (doc : Document) (kid : Bytes) : Res Bytes :=
  match doc.verificationMethod.find? fun vm => vm.id = kid with
  | some vm =>
    if vm.type ≠ "X25519KeyAgreementKey2020" then
      .err (.new "key %q has type %q, want X25519KeyAgreementKey2020" [kid, vm.type])
    else
      match vm.publicKeyMultibase with
      | some mb => decodeX25519Multibase M mb
      | none => .err (.new "key %q has no publicKeyMultibase" [kid])
  | none => .err (.new "key %q not found in DID document" [kid])

end TptIdentity.Did
