import TptIdentity.BridgeModel
import TptIdentity.JwtModel

/-!
# Upstream ID tokens

`verifyIDToken` looks a key up by `kid` and of the claims at the expiry and the subject.
`verifyIDToken_forUs_iff` says which tokens this is sound for. The JWKS and the signature
schemes are parameters.
-/

namespace TptIdentity.OidcRp

open Go Oidc Bridge Res Option

structure Config where
  name : Bytes
  issuer : Bytes
  clientID : Bytes
deriving DecidableEq, Repr

/-! ## Keys -/

/-- `jwkKey`, without the fields that nothing reads. -/
structure JwkKey where
  kty : Bytes
  kid : Bytes
  n : Bytes
  e : Bytes
  crv : Bytes
  x : Bytes
  y : Bytes
deriving DecidableEq, Repr

inductive Curve where
  | p256 | p384 | p521
deriving DecidableEq, Repr

def Curve.bitSize : Curve → Nat
  | .p256 => 256
  | .p384 => 384
  | .p521 => 521

structure RsaPublicKey where
  n : Nat
  e : Int64
deriving DecidableEq, Repr

structure EcdsaPublicKey where
  curve : Curve
  x : Nat
  y : Nat
deriving DecidableEq, Repr

inductive PublicKey where
  | rsa (key : RsaPublicKey)
  | ecdsa (key : EcdsaPublicKey)
  | ed25519 (key : Bytes)
deriving DecidableEq, Repr

def exponent (eb : Bytes) : Int64 := eb.foldl (fun e b => e <<< 8 ||| Int64.ofNat b.toNat) 0

def curveOf (crv : Bytes) : Res Curve :=
  if crv = "P-256" then .ok .p256
  else if crv = "P-384" then .ok .p384
  else if crv = "P-521" then .ok .p521
  else .err (.new "unsupported EC curve: %s" [crv])

/-- Neither a point nor the length of an Ed25519 key is checked. -/
def jwkToPublicKey (k : JwkKey) : Res PublicKey :=
  if k.kty = "RSA" then do
    let nb ← decodeB64 k.n
    let eb ← decodeB64 k.e
    return .rsa ⟨beNat nb, exponent eb⟩
  else if k.kty = "EC" then do
    let xb ← decodeB64 k.x
    let yb ← decodeB64 k.y
    let curve ← curveOf k.crv
    return .ecdsa ⟨curve, beNat xb, beNat yb⟩
  else if k.kty = "OKP" then do
    let xb ← decodeB64 k.x
    return .ed25519 xb
  else .err (.new "unsupported key type: %s" [k.kty])

def JwkKey.Matches (kid : Bytes) (k : JwkKey) : Prop := kid = [] ∨ k.kid = kid
deriving Decidable

def matchingKey (kid : Bytes) (keys : List JwkKey) : Option PublicKey :=
  keys.findSome? fun k => if k.Matches kid then (jwkToPublicKey k).toOption else none

/-! ## Signatures -/

inductive Hash where
  | sha256 | sha384 | sha512
deriving DecidableEq, Repr

structure Schemes where
  ed25519 : Ed25519
  digest : Hash → Bytes → Bytes
  verifyPSS : RsaPublicKey → Hash → Bytes → Bytes → Res Unit
  verifyPKCS1v15 : RsaPublicKey → Hash → Bytes → Bytes → Res Unit
  ecdsaVerify : EcdsaPublicKey → Bytes → Nat → Nat → Bool

def rsaHash (alg : Bytes) : Option Hash :=
  if alg = "RS256" ∨ alg = "PS256" then some .sha256
  else if alg = "RS384" ∨ alg = "PS384" then some .sha384
  else if alg = "RS512" ∨ alg = "PS512" then some .sha512
  else none

variable {alg token : Bytes} {room : Nat} {header : Map Bytes} (C : Schemes) (pub : RsaPublicKey)
  (hash : Hash)

def verifyRSA (pub : RsaPublicKey) (alg msg sig : Bytes) : Res Unit :=
  match rsaHash alg with
  | none => .err (.new "unsupported RSA alg: %s" [alg])
  | some hash =>
    if (str "PS").isPrefixOf alg then C.verifyPSS pub hash (C.digest hash msg) sig
    else C.verifyPKCS1v15 pub hash (C.digest hash msg) sig

/-- The room after the bytes that `DecodeString` returns: what is not used of its buffer is zero. -/
def spare (text decoded : Bytes) : Nat := text.length * 6 / 8 - decoded.length

def slice (b : Bytes) (room lo hi : Nat) : Res Bytes :=
  if hi ≤ b.length + room then .ok (((b ++ List.replicate room 0).take hi).drop lo)
  else .panics "slice bounds out of range"

def derLength (inner : Bytes) : Option Nat :=
  match inner with
  | tag :: len :: _ => if tag = 0x02 then some len.toNat else none
  | _ => none

/-- For a slice with some room after its end. The length of the sequence is not read. -/
def parseDERSignature (der : Bytes) (room : Nat) : Res (Nat × Nat) :=
  if der.length < 2 ∨ der.head? ≠ some 0x30 then .err (.new "not a DER sequence" [])
  else
    let inner := der.drop 2
    match derLength inner with
    | none => .err (.new "expected integer" [])
    | some rLen => do
      let r ← slice inner room 2 (2 + rLen)
      if inner.length < 2 + rLen then .panics "slice bounds out of range"
      else
        let inner := inner.drop (2 + rLen)
        match derLength inner with
        | none => .err (.new "expected second integer" [])
        | some sLen => do
          let s ← slice inner room 2 (2 + sLen)
          return (beNat r, beNat s)

def ecdsaHash (alg : Bytes) : Option Hash :=
  if alg = "ES256" then some .sha256
  else if alg = "ES384" then some .sha384
  else if alg = "ES512" then some .sha512
  else none

def ecdsaIntegers (curve : Curve) (sig : Bytes) (room : Nat) : Res (Nat × Nat) :=
  let keySize := (curve.bitSize + 7) / 8
  if sig.length = 2 * keySize then .ok (beNat (sig.take keySize), beNat (sig.drop keySize))
  else (parseDERSignature sig room).wrapErr "parse ecdsa sig: %w" []

def verifyECDSA (pub : EcdsaPublicKey) (alg msg sig : Bytes) (room : Nat) : Res Unit :=
  match ecdsaHash alg with
  | none => .err (.new "unsupported ECDSA alg: %s" [alg])
  | some hash => do
    let rs ← ecdsaIntegers pub.curve sig room
    if C.ecdsaVerify pub (C.digest hash msg) rs.1 rs.2 = true then .ok ()
    else .err (.new "invalid ecdsa signature" [])

def entry (header : Map Bytes) (name : String) : Bytes := (header.get (str name)).getD []

/-- What `DecodeString` returns, also next to an error. -/
def decodedPart (text : Bytes) : Bytes :=
  match decodeB64 text with
  | .ok raw => raw
  | _ =>
    let valid := (text.filter fun c => c ≠ 10 ∧ c ≠ 13).takeWhile isB64
    (decodeB64 (valid.take (valid.length / 4 * 4))).getD []

/-- What `json.Unmarshal` leaves, also next to an error; a member that is no string is empty. -/
def unmarshaledPart (raw : Bytes) : Map Bytes :=
  match (parse raw : Option Json) with
  | some (.obj m) => m.foldl (fun acc e => acc.set e.1 ((decodeStr [] e.2).getD [])) Map.empty
  | _ => Map.empty

/-- It reads the header again and ignores errors. -/
def verifyJWTSignature (token : Bytes) (pub : PublicKey) : Res Unit :=
  match splitN 46 3 token with
  | [header, payload, sigText] => do
    let sigInput := header ++ 46 :: payload
    let sig ← decodeB64 sigText
    let alg := entry (unmarshaledPart (decodedPart header)) "alg"
    match pub with
    | .rsa pk => verifyRSA C pk alg sigInput sig
    | .ecdsa pk => verifyECDSA C pk alg sigInput sig (spare sigText sig)
    | .ed25519 pk =>
      let valid ← C.ed25519.verifyWith pk sigInput sig
      if valid = true then .ok () else .err (.new "invalid ed25519 signature" [])
  | _ => .err (.new "malformed jwt" [])

/-! ## Tokens -/

def parseRawClaims (token : Bytes) : Res (Map Value) :=
  match splitN 46 3 token with
  | [_, payload, _] => do
    let raw ← decodeB64 payload
    unmarshalMap raw
  | _ => .err (.new "malformed jwt" [])

def copiedClaims : List Bytes :=
  ["email", "given_name", "family_name", "name", "picture"]

def copyClaim (raw : Map Value) (claims : Map Bytes) (field : Bytes) : Map Bytes :=
  match raw.get field with
  | some (.str v) => claims.set field v
  | _ => claims

def externalIdentity (cfg : Config) (idToken : Bytes) (claims : Claims) : ExternalIdentity where
  provider := cfg.name
  externalID := claims.subject
  claims :=
    let first := Map.empty.set "iss" claims.issuer
    match parseRawClaims idToken with
    | .ok raw => copiedClaims.foldl (copyClaim raw) first
    | _ => first
  duress := false

def verifyIDToken (cfg : Config) (jwks : Res (List JwkKey)) (now : Int) (idToken : Bytes) :
    Res ExternalIdentity := do
  let header ← (parseHeader idToken).wrapErr "oidc_rp: parse token header: %w" []
  let keys ← jwks.wrapErr "oidc_rp: fetch jwks: %w" []
  match matchingKey (entry header "kid") keys with
  | none =>
    .err (.new "oidc_rp: no matching key for kid=%q alg=%q"
      [entry header "kid", entry header "alg"])
  | some pubKey => do
    let _ ← (verifyJWTSignature C idToken pubKey).wrapErr "oidc_rp: verify signature: %w" []
    let claims ← (parseUnverified idToken).wrapErr "oidc_rp: parse claims: %w" []
    if claims.expiresAt.toInt < unix now then .err (.new "oidc_rp: id_token expired" [])
    else if claims.subject = [] then .err (.new "oidc_rp: missing sub claim" [])
    else return externalIdentity cfg idToken claims

/-! ## What a valid signature is -/

def Hash.rs : Hash → Bytes
  | .sha256 => "RS256"
  | .sha384 => "RS384"
  | .sha512 => "RS512"

def Hash.ps : Hash → Bytes
  | .sha256 => "PS256"
  | .sha384 => "PS384"
  | .sha512 => "PS512"

def Hash.es : Hash → Bytes
  | .sha256 => "ES256"
  | .sha384 => "ES384"
  | .sha512 => "ES512"

def PublicKey.Verifies (alg msg sig : Bytes) (room : Nat) : PublicKey → Prop
  | .rsa pk => ∃ hash,
      alg = hash.rs ∧ C.verifyPKCS1v15 pk hash (C.digest hash msg) sig = .ok ()
        ∨ alg = hash.ps ∧ C.verifyPSS pk hash (C.digest hash msg) sig = .ok ()
  | .ecdsa pk => ∃ hash r s,
      alg = hash.es ∧ ecdsaIntegers pk.curve sig room = .ok (r, s)
        ∧ C.ecdsaVerify pk (C.digest hash msg) r s = true
  | .ed25519 pk => pk.length = Ed25519.publicKeySize ∧ C.ed25519.verify pk msg sig = true

def SignedWith (token alg : Bytes) (pub : PublicKey) : Prop :=
  ∃ header payload sigText sig, splitN 46 3 token = [header, payload, sigText]
    ∧ decodeB64 sigText = .ok sig
    ∧ pub.Verifies C alg (header ++ 46 :: payload) sig (spare sigText sig)

theorem rsaHash_eq_some {hash : Hash} :
    rsaHash alg = some hash ↔ alg = hash.rs ∨ alg = hash.ps := by
  constructor
  · unfold rsaHash
    intro h
    split at h
    · next hname => exact some.inj h ▸ hname
    · split at h
      · next hname => exact some.inj h ▸ hname
      · split at h
        · next hname => exact some.inj h ▸ hname
        · cases h
  · rintro (rfl | rfl)
    · cases hash <;> rfl
    · cases hash <;> rfl

theorem ecdsaHash_eq_some {hash : Hash} : ecdsaHash alg = some hash ↔ alg = hash.es := by
  constructor
  · unfold ecdsaHash
    intro h
    split at h
    · next hname => exact some.inj h ▸ hname
    · split at h
      · next hname => exact some.inj h ▸ hname
      · split at h
        · next hname => exact some.inj h ▸ hname
        · cases h
  · rintro rfl
    cases hash <;> rfl

theorem isPSS_rs : (str "PS").isPrefixOf hash.rs = false := by
  cases hash <;> rfl

theorem isPSS_ps : (str "PS").isPrefixOf hash.ps = true := by
  cases hash <;> rfl

section Signed

variable {C : Schemes} {alg msg sig : Bytes}

theorem verifyRSA_rs :
    verifyRSA C pub hash.rs msg sig = C.verifyPKCS1v15 pub hash (C.digest hash msg) sig := by
  rw [verifyRSA, rsaHash_eq_some.mpr (.inl rfl)]
  simp only [isPSS_rs, Bool.false_eq_true, if_false]

theorem verifyRSA_ps :
    verifyRSA C pub hash.ps msg sig = C.verifyPSS pub hash (C.digest hash msg) sig := by
  rw [verifyRSA, rsaHash_eq_some.mpr (.inr rfl)]
  simp only [isPSS_ps, if_true]

theorem verifyRSA_eq_ok {pub : RsaPublicKey} :
    verifyRSA C pub alg msg sig = .ok () ↔ (PublicKey.rsa pub).Verifies C alg msg sig room := by
  constructor
  · intro h
    cases hhash : rsaHash alg with
    | none =>
      rw [verifyRSA, hhash] at h
      cases h
    | some hash =>
      rcases rsaHash_eq_some.mp hhash with rfl | rfl
      · rw [verifyRSA_rs] at h
        exact ⟨hash, .inl ⟨rfl, h⟩⟩
      · rw [verifyRSA_ps] at h
        exact ⟨hash, .inr ⟨rfl, h⟩⟩
  · rintro ⟨hash, ⟨rfl, h⟩ | ⟨rfl, h⟩⟩
    · rw [verifyRSA_rs]
      exact h
    · rw [verifyRSA_ps]
      exact h

theorem verifyECDSA_eq_ok {pub : EcdsaPublicKey} :
    verifyECDSA C pub alg msg sig room = .ok ()
      ↔ (PublicKey.ecdsa pub).Verifies C alg msg sig room := by
  constructor
  · intro h
    unfold verifyECDSA at h
    split at h
    · cases h
    · next hash hhash =>
      obtain ⟨⟨r, s⟩, hints, h⟩ := bind_eq_ok.mp h
      split at h
      · next hvalid => exact ⟨hash, r, s, ecdsaHash_eq_some.mp hhash, hints, hvalid⟩
      · cases h
  · rintro ⟨hash, r, s, rfl, hints, hvalid⟩
    rw [verifyECDSA, ecdsaHash_eq_some.mpr rfl]
    exact bind_eq_ok.mpr ⟨(r, s), hints, if_pos hvalid⟩

theorem ed25519_eq_ok {pub : Bytes} :
    (do
      let valid ← C.ed25519.verifyWith pub msg sig
      if valid = true then .ok () else .err (.new "invalid ed25519 signature" []) : Res Unit)
        = .ok ()
      ↔ (PublicKey.ed25519 pub).Verifies C alg msg sig room := by
  rw [bind_eq_ok]
  constructor
  · rintro ⟨valid, hverify, h⟩
    obtain ⟨hlength, rfl⟩ := Ed25519.verifyWith_eq_ok.mp hverify
    split at h
    · next hvalid => exact ⟨hlength, hvalid⟩
    · cases h
  · rintro ⟨hlength, hvalid⟩
    exact ⟨true, Ed25519.verifyWith_eq_ok.mpr ⟨hlength, hvalid.symm⟩, rfl⟩

theorem foldl_of_foldlM {m : List (Bytes × Json)} {acc : Map Bytes}
    (h : m.foldlM (fun acc e => (decodeStr [] e.2).map (acc.set e.1)) acc = some header) :
    m.foldl (fun acc e => acc.set e.1 ((decodeStr [] e.2).getD [])) acc = header := by
  induction m generalizing acc with
  | nil => exact some.inj h
  | cons e m ih =>
    obtain ⟨acc', hacc', h⟩ := bind_eq_some_iff.mp h
    obtain ⟨x, hx, rfl⟩ := map_eq_some_iff.mp hacc'
    rw [List.foldl_cons, hx]
    exact ih h

theorem unmarshaledPart_eq {h p t : Bytes} (hsplit : splitN 46 3 token = [h, p, t])
    (hheader : parseHeader token = .ok header) : unmarshaledPart (decodedPart h) = header := by
  unfold parseHeader at hheader
  rw [hsplit] at hheader
  obtain ⟨raw, hraw, hheader⟩ := bind_eq_ok.mp hheader
  rw [wrapErr_eq_ok] at hraw hheader
  obtain ⟨j, hj, hmap⟩ := unmarshalInto_eq_ok.mp hheader
  rw [decodedPart, hraw]
  unfold unmarshaledPart
  rw [hj]
  cases j with
  | obj m => exact foldl_of_foldlM hmap
  | null => exact some.inj hmap
  | bool | num | str | arr => cases hmap

theorem verifyJWTSignature_eq_ok {pub : PublicKey} (hheader : parseHeader token = .ok header) :
    verifyJWTSignature C token pub = .ok () ↔ SignedWith C token (entry header "alg") pub := by
  have hcheck : ∀ h p t, splitN 46 3 token = [h, p, t] →
      (verifyJWTSignature C token pub = .ok () ↔ ∃ sig, decodeB64 t = .ok sig
        ∧ pub.Verifies C (entry header "alg") (h ++ 46 :: p) sig (spare t sig)) := by
    intro h p t hsplit
    unfold verifyJWTSignature
    simp only [hsplit, unmarshaledPart_eq hsplit hheader, bind_eq_ok]
    refine exists_congr fun sig => and_congr_right fun _ => ?_
    cases pub with
    | rsa pk => exact verifyRSA_eq_ok
    | ecdsa pk => exact verifyECDSA_eq_ok
    | ed25519 pk => exact ed25519_eq_ok
  constructor
  · intro hok
    have hthree : ∃ h p t, splitN 46 3 token = [h, p, t] := by
      unfold verifyJWTSignature at hok
      split at hok
      · next h p t hsplit => exact ⟨h, p, t, hsplit⟩
      · cases hok
    obtain ⟨h, p, t, hsplit⟩ := hthree
    obtain ⟨sig, hsig, hverifies⟩ := (hcheck h p t hsplit).mp hok
    exact ⟨h, p, t, sig, hsplit, hsig, hverifies⟩
  · rintro ⟨h, p, t, sig, hsplit, hsig, hverifies⟩
    exact (hcheck h p t hsplit).mpr ⟨sig, hsig, hverifies⟩

end Signed

theorem matchingKey_eq_some {kid : Bytes} {keys : List JwkKey} {pub : PublicKey}
    (h : matchingKey kid keys = some pub) :
    ∃ k ∈ keys, k.Matches kid ∧ jwkToPublicKey k = .ok pub := by
  obtain ⟨k, hk, hfound⟩ := List.exists_of_findSome?_eq_some h
  split at hfound
  · next hmatches => exact ⟨k, hk, hmatches, toOption_eq_some.mp hfound⟩
  · cases hfound

/-! ## Which tokens are accepted -/

/-- What `verifyIDToken` asks for. -/
structure Genuine (C : Schemes) (jwks : Res (List JwkKey)) (now : Int) (token : Bytes)
    (claims : Claims) : Prop where
  signed : ∃ header keys pub, parseHeader token = .ok header ∧ jwks = .ok keys
    ∧ matchingKey (entry header "kid") keys = some pub
    ∧ SignedWith C token (entry header "alg") pub
  parsed : parseUnverified token = .ok claims
  unexpired : unix now ≤ claims.expiresAt.toInt
  subject : claims.subject ≠ []

/-- The token is from the configured issuer, for this client, unexpired, and signed with a key of
the JWKS that matches its `kid`. -/
structure ForUs (C : Schemes) (cfg : Config) (jwks : Res (List JwkKey)) (now : Int)
    (token : Bytes) : Prop where
  claims : ∃ claims, parseUnverified token = .ok claims ∧ claims.issuer = cfg.issuer
    ∧ claims.audience = cfg.clientID ∧ unix now ≤ claims.expiresAt.toInt
  signed : ∃ header keys k pub, parseHeader token = .ok header ∧ jwks = .ok keys ∧ k ∈ keys
    ∧ k.Matches (entry header "kid") ∧ jwkToPublicKey k = .ok pub
    ∧ SignedWith C token (entry header "alg") pub

section Tokens

variable {C : Schemes} {cfg : Config} {jwks : Res (List JwkKey)} {now : Int} {token : Bytes}

theorem verifyIDToken_eq_ok {ext : ExternalIdentity} :
    verifyIDToken C cfg jwks now token = .ok ext
      ↔ ∃ claims, Genuine C jwks now token claims ∧ ext = externalIdentity cfg token claims := by
  constructor
  · intro h
    obtain ⟨header, hheader, h⟩ := bind_eq_ok.mp h
    obtain ⟨keys, hkeys, h⟩ := bind_eq_ok.mp h
    rw [wrapErr_eq_ok] at hheader hkeys
    split at h
    · cases h
    · next pub hpub =>
      obtain ⟨_, hsigned, h⟩ := bind_eq_ok.mp h
      obtain ⟨claims, hclaims, h⟩ := bind_eq_ok.mp h
      rw [wrapErr_eq_ok] at hsigned hclaims
      split at h
      · cases h
      · next hunexpired =>
        split at h
        · cases h
        · next hsubject =>
          have hsigned' := (verifyJWTSignature_eq_ok hheader).mp hsigned
          exact ⟨claims, ⟨⟨header, keys, pub, hheader, hkeys, hpub, hsigned'⟩, hclaims,
            Int.not_lt.mp hunexpired, hsubject⟩, (ok.inj h).symm⟩
  · rintro ⟨claims, ⟨⟨header, keys, pub, hheader, hkeys, hpub, hsigned⟩, hclaims, hunexpired,
      hsubject⟩, rfl⟩
    refine bind_eq_ok.mpr ⟨header, wrapErr_eq_ok.mpr hheader,
      bind_eq_ok.mpr ⟨keys, wrapErr_eq_ok.mpr hkeys, ?_⟩⟩
    rw [hpub]
    refine bind_eq_ok.mpr ⟨(), wrapErr_eq_ok.mpr ((verifyJWTSignature_eq_ok hheader).mpr hsigned),
      bind_eq_ok.mpr ⟨claims, wrapErr_eq_ok.mpr hclaims, ?_⟩⟩
    rw [if_neg (Int.not_lt.mpr hunexpired), if_neg hsubject]
    rfl

/-- An accepted ID token is for us exactly if it names our issuer and client, which is not checked.
-/
theorem verifyIDToken_forUs_iff (C : Schemes) (cfg : Config) (jwks : Res (List JwkKey))
    (now : Int) (token : Bytes) :
    (∀ ext, verifyIDToken C cfg jwks now token = .ok ext → ForUs C cfg jwks now token)
      ↔ ∀ claims, Genuine C jwks now token claims →
          claims.issuer = cfg.issuer ∧ claims.audience = cfg.clientID := by
  constructor
  · intro hsound claims hgenuine
    obtain ⟨claims', hclaims', hissuer, haudience, -⟩ :=
      (hsound _ (verifyIDToken_eq_ok.mpr ⟨claims, hgenuine, rfl⟩)).claims
    obtain rfl := ok.inj (hgenuine.parsed.symm.trans hclaims')
    exact ⟨hissuer, haudience⟩
  · intro hclaims ext hok
    obtain ⟨claims, hgenuine, -⟩ := verifyIDToken_eq_ok.mp hok
    obtain ⟨hissuer, haudience⟩ := hclaims claims hgenuine
    obtain ⟨header, keys, pub, hheader, hkeys, hpub, hsigned⟩ := hgenuine.signed
    obtain ⟨k, hk, hmatches, hkey⟩ := matchingKey_eq_some hpub
    exact ⟨⟨claims, hgenuine.parsed, hissuer, haudience, hgenuine.unexpired⟩,
      ⟨header, keys, k, pub, hheader, hkeys, hk, hmatches, hkey, hsigned⟩⟩

end Tokens

namespace UpstreamSample

def cfg : Config := ⟨"google", "https://idp.example", "tpt-identity"⟩

def schemes : Schemes where
  ed25519 := Crypto.standIn.ed25519
  digest _ b := b
  verifyPSS _ _ _ _ := .err (.new "crypto/rsa: verification error" [])
  verifyPKCS1v15 _ _ _ _ := .err (.new "crypto/rsa: verification error" [])
  ecdsaVerify _ _ _ _ := false

def signingKey : Bytes := List.replicate 64 7

def jwks : List JwkKey :=
  [⟨"OKP", "k1", [], [], "Ed25519", encodeB64 (signingKey.drop 32), []⟩]

def tokenFor (client : String) : Bytes :=
  (signJWT schemes.ed25519
    (.obj { Claims.zero with
      issuer := cfg.issuer, subject := "bob", audience := str client, expiresAt := 60 }.members)
    signingKey "k1").getD []

end UpstreamSample

open UpstreamSample in
theorem otherClient_accepted :
    (verifyIDToken schemes cfg (.ok jwks) 0 (tokenFor "photo-app")).toOption.map
        ExternalIdentity.externalID = some (str "bob")
      ∧ ¬ForUs schemes cfg (.ok jwks) 0 (tokenFor "photo-app") := by
  have haudience : (parseUnverified (tokenFor "photo-app")).toOption.map Claims.audience
      = some (str "photo-app") := by decide +kernel
  refine ⟨by decide +kernel, fun h => ?_⟩
  obtain ⟨claims, hparsed, -, hours, -⟩ := h.claims
  rw [hparsed] at haudience
  exact absurd ((some.inj haudience).symm.trans hours) (by decide +kernel)

end TptIdentity.OidcRp
