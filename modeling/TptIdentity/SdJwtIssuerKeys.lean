import TptIdentity.SdJwtSpec
import TptIdentity.VcRoundTrip

/-!
# Which key of the issuer verifies a token

Credentials are verified with the method that the proof names, SD-JWTs with the first active
one, whatever `kid` says. So a token valid for its `kid` is accepted just if the first active
key verifies it as well (`SignedByKid.accepted_iff`).
-/

namespace TptIdentity.Vc

open Go List

/-! ## Active methods -/

def VerificationMethod.isActive (vm : VerificationMethod) : Bool :=
  !vm.revoked && vm.publicKeyMultibase.isSome && vm.type = "Ed25519VerificationKey2020"

def Document.active (doc : Document) : List VerificationMethod :=
  doc.verificationMethod.filter VerificationMethod.isActive

def Document.FirstKey (R : Resolver) (doc : Document) (key : Bytes) : Prop :=
  ∃ vm mb, doc.active.head? = some vm ∧ vm.publicKeyMultibase = some mb
    ∧ decodeMultibaseEd25519 R mb = .ok key

theorem isActive_iff {vm : VerificationMethod} : vm.isActive ↔ vm.revoked = false
    ∧ (∃ mb, vm.publicKeyMultibase = some mb) ∧ vm.type = "Ed25519VerificationKey2020" := by
  simp [VerificationMethod.isActive, Option.isSome_iff_exists, and_assoc]

theorem resolveSigningKey_eq_ok {R : Resolver} {did key : Bytes} :
    resolveSigningKey R did = .ok key
      ↔ ∃ doc, R.resolve did = .ok doc ∧ doc.FirstKey R key := by
  unfold resolveSigningKey
  rw [Res.bind_eq_ok]
  refine exists_congr fun doc => ?_
  rw [Res.wrapErr_eq_ok]
  refine and_congr_right fun _ => ?_
  have hfilter : (doc.verificationMethod.filter fun vm => !vm.revoked
      && vm.publicKeyMultibase.isSome && vm.type = str "Ed25519VerificationKey2020")
      = doc.active := rfl
  rw [hfilter, Document.FirstKey]
  cases hactive : doc.active with
  | nil => simp
  | cons vm vms =>
    have hmem : vm ∈ doc.active := by simp [hactive]
    obtain ⟨-, ⟨mb, hmb⟩, -⟩ := isActive_iff.mp (mem_filter.mp hmem).2
    simp [hmb]

/-! ## Tokens that name their key -/

def headerKid (jwt : Bytes) : Res Bytes :=
  match splitN dot 3 jwt with
  | [header, _, _] => do
    let raw ← decodeB64 header
    let m ← unmarshalMap raw
    return strOrEmpty (m.get "kid")
  | _ => .err (.new "malformed JWT" [])

structure SignedByKid (C : Crypto) (R : Resolver) (now : Int64) (token nonce audience : Bytes)
    (parsed : ParsedSDJWT) (rawClaims : Map Value) (doc : Document) (kid pub : Bytes) : Prop where
  parse : parseSDJWT token = .ok parsed
  payload : parseSDJWTPayload parsed.jwt = .ok rawClaims
  issuer : strOrEmpty (rawClaims.get "iss") ≠ []
  document : R.resolve (strOrEmpty (rawClaims.get "iss")) = .ok doc
  header : headerKid parsed.jwt = .ok kid
  key : extractEd25519Key R doc kid = .ok pub
  signature : verifySDJWTSig C parsed.jwt pub = .ok ()
  notExpired : isExpired rawClaims now = false
  disclose : ∃ disclosed,
    discloseSegments C (sdDigests rawClaims) parsed.disclosures Map.empty = .ok disclosed
  keyBinding : ∃ kbVerified, checkKeyBinding C parsed rawClaims nonce audience = .ok kbVerified

namespace SignedByKid

variable {C : Crypto} {R : Resolver} {now : Int64} {token nonce audience : Bytes}
  {parsed : ParsedSDJWT} {rawClaims : Map Value} {doc : Document} {kid pub : Bytes}

theorem accepted_of_firstKey
    (h : SignedByKid C R now token nonce audience parsed rawClaims doc kid pub) {key : Bytes}
    (hkey : doc.FirstKey R key) (hsig : verifySDJWTSig C parsed.jwt key = .ok ()) :
    (verify C R now token nonce audience).isOk := by
  obtain ⟨disclosed, hdisclose⟩ := h.disclose
  obtain ⟨kbVerified, hkb⟩ := h.keyBinding
  exact Res.isOk_iff.mpr ⟨_, verify_eq_ok.mpr ⟨parsed, rawClaims, key, disclosed, kbVerified,
    h.parse, h.payload, h.issuer, resolveSigningKey_eq_ok.mpr ⟨doc, h.document, hkey⟩, hsig,
    h.notExpired, hdisclose, hkb, rfl⟩⟩

/-- A token that the named key signed is accepted exactly if the first active key of the document
verifies it. -/
theorem accepted_iff (h : SignedByKid C R now token nonce audience parsed rawClaims doc kid pub) :
    (verify C R now token nonce audience).isOk = true
      ↔ ∃ key, doc.FirstKey R key ∧ verifySDJWTSig C parsed.jwt key = .ok () := by
  constructor
  · intro hok
    obtain ⟨r, hr⟩ := Res.isOk_iff.mp hok
    obtain ⟨parsed', rawClaims', key, disclosed, kbVerified, hv⟩ := verify_eq_ok.mp hr
    obtain rfl := Res.ok.inj (h.parse.symm.trans hv.parse)
    obtain rfl : rawClaims = rawClaims' := Res.ok.inj (h.payload.symm.trans hv.payload)
    obtain ⟨doc', hdoc, hkey⟩ := resolveSigningKey_eq_ok.mp hv.resolve
    obtain rfl : doc = doc' := Res.ok.inj (h.document.symm.trans hdoc)
    exact ⟨key, hkey, hv.signature⟩
  · rintro ⟨key, hkey, hsig⟩
    exact h.accepted_of_firstKey hkey hsig

end SignedByKid

/-! ## A document with two keys -/

namespace Sample

def twoKeys : Document :=
  ⟨[⟨"key-1", "Ed25519VerificationKey2020", some "z1", false⟩,
    ⟨"key-2", "Ed25519VerificationKey2020", some "z2", false⟩]⟩

def twoKeyResolver : Resolver where
  resolve _ := .ok twoKeys
  multibaseDecode mb :=
    .ok (0xed :: 0x01 :: replicate 32 (if mb = "z1" then 1 else 2))

def issuerClaims : Map Value := Map.empty.set "iss" (.str issuerDID)

def signedBy (key kid : Bytes) : Bytes :=
  (signSDJWT Crypto.standIn issuerClaims key kid "vc+sd-jwt").getD []

theorem exists_signedByKid (key kid pub : Bytes) (htilde : tilde ∉ signedBy key kid)
    (hclaims : (parseSDJWTPayload (signedBy key kid) >>= fun raw =>
      .ok (strOrEmpty (raw.get "iss"), isExpired raw 0)) = .ok (issuerDID, false))
    (hheader : headerKid (signedBy key kid) = .ok kid)
    (hkey : extractEd25519Key twoKeyResolver twoKeys kid = .ok pub)
    (hsig : verifySDJWTSig Crypto.standIn (signedBy key kid) pub = .ok ()) :
    ∃ rawClaims, SignedByKid Crypto.standIn twoKeyResolver 0 (signedBy key kid ++ [tilde]) [] []
      ⟨signedBy key kid, [], []⟩ rawClaims twoKeys kid pub := by
  obtain ⟨raw, hraw, hclaims⟩ := Res.bind_eq_ok.mp hclaims
  obtain ⟨hiss, hexp⟩ := Prod.mk.inj (Res.ok.inj hclaims)
  have hissuer : strOrEmpty (raw.get "iss") ≠ [] := by
    rw [hiss]
    decide
  have hparse : parseSDJWT (signedBy key kid ++ [tilde]) = .ok ⟨signedBy key kid, [], []⟩ := by
    simpa using parseSDJWT_presentation [] htilde not_mem_nil (.inl rfl)
  exact ⟨raw, hparse, hraw, hissuer, rfl, hheader, hkey, hsig, hexp, ⟨_, rfl⟩, ⟨_, rfl⟩⟩

end Sample

open Sample

theorem accepted_first_key : ∃ rawClaims, SignedByKid Crypto.standIn twoKeyResolver 0
      (signedBy issuerKey "key-1" ++ [tilde]) [] []
      ⟨signedBy issuerKey "key-1", [], []⟩ rawClaims twoKeys
      "key-1" (replicate 32 1)
    ∧ (verify Crypto.standIn twoKeyResolver 0
      (signedBy issuerKey "key-1" ++ [tilde]) [] []).isOk = true := by
  have hsig : verifySDJWTSig Crypto.standIn (signedBy issuerKey "key-1")
      (replicate 32 1) = .ok () := by
    decide +kernel
  obtain ⟨rawClaims, h⟩ := exists_signedByKid issuerKey "key-1"
    (replicate 32 1) (by decide +kernel) (by decide +kernel) (by decide +kernel)
    (by decide +kernel) hsig
  have hfirst : twoKeys.FirstKey twoKeyResolver (replicate 32 1) :=
    ⟨_, _, rfl, rfl, by decide +kernel⟩
  exact ⟨rawClaims, h, h.accepted_iff.mpr ⟨_, hfirst, hsig⟩⟩

theorem refused_second_key : ∃ rawClaims, SignedByKid Crypto.standIn twoKeyResolver 0
      (signedBy holderKey "key-2" ++ [tilde]) [] []
      ⟨signedBy holderKey "key-2", [], []⟩ rawClaims twoKeys
      "key-2" (replicate 32 2)
    ∧ (verify Crypto.standIn twoKeyResolver 0
      (signedBy holderKey "key-2" ++ [tilde]) [] []).isOk = false := by
  obtain ⟨rawClaims, h⟩ := exists_signedByKid holderKey "key-2"
    (replicate 32 2) (by decide +kernel) (by decide +kernel) (by decide +kernel)
    (by decide +kernel) (by decide +kernel)
  exact ⟨rawClaims, h, by decide +kernel⟩

end TptIdentity.Vc
