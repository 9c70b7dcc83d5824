import TptIdentity.GoJson
import TptIdentity.SchemaRegistry
import TptIdentity.VcKeys

/-!
# Package vc: SD-JWT

Disclosures, issuance, presentation, parsing and verification. Where Go iterates over a map the
order is an argument; salts come from a `Rand`, and clock readings are arguments. A nil key is
`none`, and so is a zero time.
-/

namespace TptIdentity.Vc

open Go

def tilde : UInt8 := 126

def dot : UInt8 := 46

/-! ## Disclosures -/

structure Disclosure where
  salt : Bytes
  key : Bytes
  value : Value

def newDisclosure (rnd : Rand) (i : Nat) (key : Bytes) (value : Value) : Res Disclosure := do
  let salt ← (rnd.read i 16).wrapErr "sdjwt: generate salt: %w" []
  return ⟨encodeB64 salt, key, value⟩

variable (C : Crypto) (schemas : Schema.Registry)

namespace Disclosure

def toArray (d : Disclosure) : Value := .arr [.str d.salt, .str d.key, d.value]

def encode (d : Disclosure) : Res Bytes := do
  let b ← (marshal d.toArray).wrapErr "sdjwt: encode disclosure: %w" []
  return encodeB64 b

def digest (d : Disclosure) : Res Bytes := do
  let enc ← d.encode
  return encodeB64 (C.sha256 enc)

end Disclosure

def parseDisclosure (encoded : Bytes) : Res Disclosure := do
  let raw ← (decodeB64 encoded).wrapErr "sdjwt: decode disclosure: %w" []
  let arr ← (unmarshalSlice raw).wrapErr "sdjwt: unmarshal disclosure: %w" []
  match arr with
  | [.str salt, .str key, value] => .ok ⟨salt, key, value⟩
  | [.str _, _, _] => .err (.new "sdjwt: disclosure key must be a string" [])
  | [_, _, _] => .err (.new "sdjwt: disclosure salt must be a string" [])
  | _ => .err (.new "sdjwt: disclosure must have 3 elements [salt, key, value]" [])

/-! ## Signing -/

def signSDJWT (claims : Map Value) (key kid typ : Bytes) : Res Bytes := do
  let header : Map Value := ((Map.empty.set "alg" (.str "EdDSA")).set
    "typ" (.str typ)).set "kid" (.str kid)
  let headerJSON ← marshal (.obj header.entries)
  let payloadJSON ← marshal (.obj claims.entries)
  let sigInput := encodeB64 headerJSON ++ dot :: encodeB64 payloadJSON
  let sig ← C.ed25519.signWith key sigInput
  return sigInput ++ dot :: encodeB64 sig

def verifySDJWTSig (jwt pub : Bytes) : Res Unit :=
  match splitN dot 3 jwt with
  | [header, payload, sigText] => do
    let sig ← (decodeB64 sigText).wrapErr "decode signature: %w" []
    let valid ← C.ed25519.verifyWith pub (header ++ dot :: payload) sig
    if valid then .ok () else .err (.new "invalid signature" [])
  | _ => .err (.new "malformed JWT" [])

/-- `parseSDJWTPayload`. The map is returned as `json.Unmarshal` leaves it. -/
def parseSDJWTPayload (jwt : Bytes) : Res (Map Value) :=
  match splitN dot 3 jwt with
  | [_, payload, _] => do
    let raw ← (decodeB64 payload).wrapErr "decode payload: %w" []
    unmarshalMap raw
  | _ => .err (.new "malformed JWT" [])

/-! ## Tokens and presentations -/

structure SDJWTToken where
  jwt : Bytes
  disclosures : List Disclosure

namespace SDJWTToken

def serializeWith (t : SDJWTToken) (discs : List Disclosure) : Bytes :=
  List.intercalate [tilde] (t.jwt :: discs.map fun d => d.encode.getD []) ++ [tilde]

def selected (t : SDJWTToken) (revealKeys : List Bytes) : List Disclosure :=
  t.disclosures.filter fun d => revealKeys.contains d.key

def present (t : SDJWTToken) (revealKeys : List Bytes) : Bytes :=
  t.serializeWith (t.selected revealKeys)

def kbClaims (t : SDJWTToken) (revealKeys : List Bytes) (nonce audience : Bytes) (now : Int64) :
    Map Value :=
  let forHash := trimSuffix (t.present revealKeys) [tilde]
  let sdHash := encodeB64 (C.sha256 forHash)
  (((Map.empty.set "nonce" (.str nonce)).set "aud" (.str audience)).set
    "iat" (.int (unix now.toInt))).set "sd_hash" (.str sdHash)

def presentWithKeyBinding (t : SDJWTToken) (revealKeys : List Bytes)
    (holderKey holderKID nonce audience : Bytes) (now : Int64) : Res Bytes := do
  let kbJWT ← (signSDJWT C (t.kbClaims C revealKeys nonce audience now) holderKey holderKID
    "kb+jwt").wrapErr "sdjwt: sign kb-jwt: %w" []
  return t.present revealKeys ++ kbJWT

end SDJWTToken

/-! ## Issuance -/

structure SDJWTIssueOptions where
  issuerDID : Bytes
  issuerKey : Option Bytes
  verificationMethodID : Bytes
  subjectDID : Bytes
  schemaID : Bytes
  selectiveClaims : Map Value
  alwaysVisibleClaims : Map Value
  validFor : Int64

def errEphemeralIssuer : Err :=
  .new ("did:key is ephemeral and cannot be used as issuer for persistent credentials; "
    ++ "use did:web or did:peer") []

def discloseClaims (C : Crypto) (rnd : Rand) : Nat → List (Bytes × Value) →
    Res (List (Disclosure × Bytes))
  | _, [] => .ok []
  | i, (k, v) :: claims => do
    let d ← newDisclosure rnd i k v
    let digest ← d.digest C
    let rest ← discloseClaims C rnd (i + 1) claims
    return (d, digest) :: rest

namespace SDJWTIssueOptions

def validity (opts : SDJWTIssueOptions) : Int :=
  if opts.validFor.toInt ≤ 0 then day else opts.validFor.toInt

def checkSchema (opts : SDJWTIssueOptions) : Res Unit :=
  if opts.schemaID ≠ [] then do
    let _ ← (Schema.getSchema schemas opts.schemaID).wrapErr "sdjwt: unknown schema %q: %w"
      [opts.schemaID]
    return ()
  else .ok ()

def computedClaims (opts : SDJWTIssueOptions) (sdDigests : List Bytes) (now : Int64) : Map Value :=
  let payload : Map Value := (((((Map.empty.set "iss" (.str opts.issuerDID)).set
    "sub" (.str opts.subjectDID)).set
    "iat" (.int (unix now.toInt))).set
    "exp" (.int (unix (now.toInt + opts.validity)))).set
    "_sd_alg" (.str "sha-256")).set
    "_sd" (.arr (sdDigests.map .str))
  if opts.schemaID ≠ [] then
    payload.set "vct"
      (.str ((Schema.getSchema schemas opts.schemaID).getD ⟨[], 0, [], false, []⟩).versionedID)
  else payload

def payload (opts : SDJWTIssueOptions) (sdDigests : List Bytes) (now : Int64) : Map Value :=
  (opts.computedClaims schemas sdDigests now).setAll opts.alwaysVisibleClaims.entries

end SDJWTIssueOptions

def issueSDJWT (opts : SDJWTIssueOptions) (order : List (Bytes × Value)) (now : Int64)
    (rnd : Rand) : Res SDJWTToken :=
  if hasPrefix opts.issuerDID "did:key:" then .err errEphemeralIssuer
  else if opts.issuerDID = [] ∨ opts.issuerKey = none then
    .err (.new "sdjwt: issuer DID and key are required" [])
  else if opts.subjectDID = [] then .err (.new "sdjwt: subject DID is required" [])
  else do
    opts.checkSchema schemas
    let discs ← discloseClaims C rnd 0 order
    let jwt ← (signSDJWT C (opts.payload schemas (discs.map (·.2)) now)
      (opts.issuerKey.getD []) opts.verificationMethodID "vc+sd-jwt").wrapErr
      "sdjwt: sign: %w" []
    return ⟨jwt, discs.map (·.1)⟩

/-! ## Parsing -/

structure ParsedSDJWT where
  jwt : Bytes
  disclosures : List Bytes
  kbToken : Bytes

/-- The last segment with two dots is the KB-JWT. -/
def parseSegments : List Bytes → ParsedSDJWT → ParsedSDJWT
  | [], result => result
  | p :: parts, result =>
    if p = [] then parseSegments parts result
    else if p.count dot = 2 then parseSegments parts { result with kbToken := p }
    else parseSegments parts { result with disclosures := result.disclosures ++ [p] }

def parseSDJWT (token : Bytes) : Res ParsedSDJWT :=
  if token = [] then .err (.new "sdjwt: empty token" [])
  else
    match token.splitOn tilde with
    | jwt :: p :: parts => .ok (parseSegments (p :: parts) ⟨jwt, [], []⟩)
    | _ => .err (.new "sdjwt: not an SD-JWT — missing ~ separator" [])

/-! ## Verification -/

structure SDJWTVerifyResult where
  issuerDID : Bytes
  subjectDID : Bytes
  schemaID : Bytes
  disclosedClaims : Map Value
  alwaysClaims : Map Value
  issuedAt : Option Int
  expiresAt : Option Int
  keyBindingVerified : Bool

def strOrEmpty : Option Value → Bytes
  | some (.str s) => s
  | _ => []

def sdHashOf (parsed : ParsedSDJWT) : Bytes :=
  encodeB64 (C.sha256 (List.intercalate [tilde] (parsed.jwt :: parsed.disclosures) ++ [tilde]))

def extractHolderKey (claims : Map Value) : Res (Option Bytes) :=
  match claims.get (str "cnf") with
  | some (.obj cnf) =>
    match assoc (str "jwk") cnf with
    | some (.obj jwk) =>
      if strOrEmpty (assoc (str "kty") jwk) ≠ str "OKP" then
        .err (.new "sdjwt: cnf.jwk kty %q unsupported — expected OKP"
          [strOrEmpty (assoc (str "kty") jwk)])
      else
        match assoc (str "x") jwk with
        | some (.str x) => do
          let raw ← (decodeB64 x).wrapErr "sdjwt: decode cnf.jwk x: %w" []
          if raw.length ≠ Ed25519.publicKeySize then
            .err (.new "sdjwt: cnf.jwk x must be 32 bytes, got %d" [utoa raw.length])
          else .ok (some raw)
        | _ => .err (.new "sdjwt: cnf.jwk missing x coordinate" [])
    | _ => .ok none
  | _ => .ok none

def verifyKBJWT (parsed : ParsedSDJWT) (holderPub : Option Bytes)
    (expectedNonce expectedAud : Bytes) : Res Unit := do
  let kbClaims ← (parseSDJWTPayload parsed.kbToken).wrapErr "parse kb claims: %w" []
  let nonce := strOrEmpty (kbClaims.get "nonce")
  let aud := strOrEmpty (kbClaims.get "aud")
  if expectedNonce ≠ [] ∧ nonce ≠ expectedNonce then
    .err (.new "nonce mismatch: got %q, want %q" [nonce, expectedNonce])
  else if expectedAud ≠ [] ∧ aud ≠ expectedAud then
    .err (.new "audience mismatch: got %q, want %q" [aud, expectedAud])
  else if strOrEmpty (kbClaims.get "sd_hash") ≠ sdHashOf C parsed then
    .err (.new "sd_hash mismatch — presentation was tampered" [])
  else
    match holderPub with
    | some pub => (verifySDJWTSig C parsed.kbToken pub).wrapErr "kb-jwt signature: %w" []
    | none => .ok ()

def sdDigests (claims : Map Value) : List Bytes :=
  match claims.get "_sd" with
  | some (.arr l) => l.filterMap fun
      | .str s => some s
      | _ => none
  | _ => []

def discloseSegments (C : Crypto) (digests : List Bytes) : List Bytes → Map Value →
    Res (Map Value)
  | [], disclosed => .ok disclosed
  | enc :: encs, disclosed => do
    let d ← (parseDisclosure enc).wrapErr "sdjwt: %w" []
    let digest ← d.digest C
    if digest ∉ digests then
      .err (.new "sdjwt: disclosure %q not in _sd hashes — possible forgery" [d.key])
    else discloseSegments C digests encs (disclosed.set d.key d.value)

def checkKeyBinding (parsed : ParsedSDJWT) (rawClaims : Map Value)
    (expectedNonce expectedAudience : Bytes) : Res Bool :=
  if parsed.kbToken ≠ [] then
    match extractHolderKey rawClaims with
    | .ok (some holderPub) => do
      (verifyKBJWT C parsed (some holderPub) expectedNonce expectedAudience).wrapErr
        "sdjwt: kb-jwt: %w" []
      return true
    | .panics r => .panics r
    | _ => .err (.new "sdjwt: kb-jwt: no cnf holder key in token" [])
  else if expectedNonce ≠ [] ∨ expectedAudience ≠ [] then
    .err (.new
      "sdjwt: key binding JWT required (nonce/audience expected) but not present" [])
  else .ok false

def skip : List Bytes :=
  ["iss", "sub", "iat", "exp", "_sd", "_sd_alg", "vct", "cnf"]

def numericDate : Option Value → Option Int
  | some (.num f) => some f.toInt64
  | _ => none

def isExpired (rawClaims : Map Value) (now : Int64) : Bool :=
  match numericDate (rawClaims.get "exp") with
  | some exp => unix now.toInt > exp
  | none => false

def verifyResult (rawClaims disclosed : Map Value) (kbVerified : Bool) : SDJWTVerifyResult where
  issuerDID := strOrEmpty (rawClaims.get "iss")
  subjectDID := strOrEmpty (rawClaims.get "sub")
  schemaID := strOrEmpty (rawClaims.get "vct")
  disclosedClaims := disclosed
  alwaysClaims := rawClaims.filterKeys fun k => !skip.contains k
  issuedAt := numericDate (rawClaims.get "iat")
  expiresAt := numericDate (rawClaims.get "exp")
  keyBindingVerified := kbVerified

def verify (R : Resolver) (now : Int64) (token expectedNonce expectedAudience : Bytes) :
    Res SDJWTVerifyResult := do
  let parsed ← parseSDJWT token
  let rawClaims ← (parseSDJWTPayload parsed.jwt).wrapErr "sdjwt: parse payload: %w" []
  let issuerDID := strOrEmpty (rawClaims.get "iss")
  if issuerDID = [] then .err (.new "sdjwt: missing iss claim" [])
  else do
    let pub ← (resolveSigningKey R issuerDID).wrapErr "sdjwt: resolve issuer key: %w" []
    (verifySDJWTSig C parsed.jwt pub).wrapErr "sdjwt: %w" []
    if isExpired rawClaims now then .err (.new "sdjwt: credential expired" [])
    else do
      let disclosed ← discloseSegments C (sdDigests rawClaims) parsed.disclosures Map.empty
      let kbVerified ← checkKeyBinding C parsed rawClaims expectedNonce expectedAudience
      return verifyResult rawClaims disclosed kbVerified

end TptIdentity.Vc
