import TptIdentity.OidcModel
import TptIdentity.SdJwtModel
import TptIdentity.TptCrypto

/-!
# Package vc: credentials

`Issue` signs the SHA-256 hashes of the canonical JSON of the proof options and of the
credential (`eddsa-jcs-2022`), `Verify` computes them again from the struct. Validation against
a schema is a parameter.
-/

namespace TptIdentity.Vc

open Go

/-! ## The structs -/

structure CredentialStatus where
  id : Bytes
  type : Bytes
  statusPurpose : Bytes
  statusListIndex : Int64
  statusListCredential : Bytes

structure CredentialSubject where
  id : Bytes
  claims : Map Bytes

structure CredentialSchema where
  id : Bytes
  type : Bytes

structure Credential where
  context : Option (List Bytes)
  id : Bytes
  type : Option (List Bytes)
  issuer : Bytes
  validFrom : Time
  validUntil : Option Time
  credentialSubject : CredentialSubject
  credentialSchema : Option CredentialSchema
  credentialStatus : Option CredentialStatus

structure Proof where
  type : Bytes
  cryptosuite : Bytes
  created : Bytes
  verificationMethod : Bytes
  proofPurpose : Bytes
  proofValue : Bytes

structure VerifiableCredential extends Credential where
  proof : Option Proof

/-! ## JSON

`value` is what `json.Marshal` writes for a struct, `assign` what
`json.Unmarshal` does with one member; names are matched up to case. -/

namespace CredentialStatus

def zero : CredentialStatus := ⟨[], [], [], 0, []⟩

def value (s : CredentialStatus) : Value :=
  .obj [("id", .str s.id), ("type", .str s.type), ("statusPurpose", .str s.statusPurpose),
    ("statusListIndex", .int s.statusListIndex.toInt),
    ("statusListCredential", .str s.statusListCredential)]

def assign (name : Bytes) (j : Json) (s : CredentialStatus) : Option CredentialStatus :=
  if name = "id" then (decodeStr s.id j).map fun x => { s with id := x }
  else if name = "type" then (decodeStr s.type j).map fun x => { s with type := x }
  else if name = "statuspurpose" then
    (decodeStr s.statusPurpose j).map fun x => { s with statusPurpose := x }
  else if name = "statuslistindex" then
    (decodeInt64 s.statusListIndex j).map fun x => { s with statusListIndex := x }
  else if name = "statuslistcredential" then
    (decodeStr s.statusListCredential j).map fun x => { s with statusListCredential := x }
  else some s

end CredentialStatus

namespace CredentialSubject

def zero : CredentialSubject := ⟨[], .empty⟩

def value (s : CredentialSubject) : Value :=
  .obj (("id", .str s.id) :: optionalStringMap "claims" s.claims)

def assign (name : Bytes) (j : Json) (s : CredentialSubject) : Option CredentialSubject :=
  if name = "id" then (decodeStr s.id j).map fun x => { s with id := x }
  else if name = "claims" then
    (decodeStringMapOver s.claims j).map fun x => { s with claims := x }
  else some s

end CredentialSubject

namespace CredentialSchema

def zero : CredentialSchema := ⟨[], []⟩

def value (s : CredentialSchema) : Value :=
  .obj [("id", .str s.id), ("type", .str s.type)]

def assign (name : Bytes) (j : Json) (s : CredentialSchema) : Option CredentialSchema :=
  if name = "id" then (decodeStr s.id j).map fun x => { s with id := x }
  else if name = "type" then (decodeStr s.type j).map fun x => { s with type := x }
  else some s

end CredentialSchema

namespace Credential

def zero : Credential :=
  ⟨none, [], none, [], .utc (-62135596800000000000), none, .zero, none, none⟩

def members (c : Credential) : List (Bytes × Value) :=
  (str "@context", stringsValue c.context) :: omitEmpty (str "id") c.id
    ++ [(str "type", stringsValue c.type), (str "issuer", .str c.issuer),
      (str "validFrom", timeValue c.validFrom)]
    ++ optionalTime (str "validUntil") c.validUntil
    ++ [(str "credentialSubject", c.credentialSubject.value)]
    ++ c.credentialSchema.toList.map (fun s => (str "credentialSchema", s.value))
    ++ c.credentialStatus.toList.map (fun s => (str "credentialStatus", s.value))

def value (c : Credential) : Value := .obj c.members

def assign (name : Bytes) (j : Json) (c : Credential) : Option Credential :=
  if name = "@context" then (decodeStrings c.context j).map fun x => { c with context := x }
  else if name = "id" then (decodeStr c.id j).map fun x => { c with id := x }
  else if name = "type" then (decodeStrings c.type j).map fun x => { c with type := x }
  else if name = "issuer" then (decodeStr c.issuer j).map fun x => { c with issuer := x }
  else if name = "validfrom" then
    (decodeTime c.validFrom j).map fun x => { c with validFrom := x }
  else if name = "validuntil" then
    (decodePtr (fun j t => decodeTime t j) zero.validFrom j c.validUntil).map fun x =>
      { c with validUntil := x }
  else if name = "credentialsubject" then
    (decodeStruct CredentialSubject.assign j c.credentialSubject).map fun x =>
      { c with credentialSubject := x }
  else if name = "credentialschema" then
    (decodePtr (decodeStruct CredentialSchema.assign) .zero j c.credentialSchema).map fun x =>
      { c with credentialSchema := x }
  else if name = "credentialstatus" then
    (decodePtr (decodeStruct CredentialStatus.assign) .zero j c.credentialStatus).map fun x =>
      { c with credentialStatus := x }
  else some c

end Credential

namespace Proof

def zero : Proof := ⟨[], [], [], [], [], []⟩

def value (p : Proof) : Value :=
  .obj ((str "type", .str p.type) :: omitEmpty (str "cryptosuite") p.cryptosuite
    ++ [(str "created", .str p.created), (str "verificationMethod", .str p.verificationMethod),
      (str "proofPurpose", .str p.proofPurpose), (str "proofValue", .str p.proofValue)])

def assign (name : Bytes) (j : Json) (p : Proof) : Option Proof :=
  if name = "type" then (decodeStr p.type j).map fun x => { p with type := x }
  else if name = "cryptosuite" then
    (decodeStr p.cryptosuite j).map fun x => { p with cryptosuite := x }
  else if name = "created" then (decodeStr p.created j).map fun x => { p with created := x }
  else if name = "verificationmethod" then
    (decodeStr p.verificationMethod j).map fun x => { p with verificationMethod := x }
  else if name = "proofpurpose" then
    (decodeStr p.proofPurpose j).map fun x => { p with proofPurpose := x }
  else if name = "proofvalue" then
    (decodeStr p.proofValue j).map fun x => { p with proofValue := x }
  else some p

end Proof

namespace VerifiableCredential

def zero : VerifiableCredential := ⟨.zero, none⟩

def value (vc : VerifiableCredential) : Value :=
  .obj (vc.members ++ vc.proof.toList.map fun p => (str "proof", p.value))

def assign (name : Bytes) (j : Json) (vc : VerifiableCredential) : Option VerifiableCredential :=
  if name = "proof" then
    (decodePtr (decodeStruct Proof.assign) .zero j vc.proof).map fun x => { vc with proof := x }
  else (vc.toCredential.assign name j).map fun c => { vc with toCredential := c }

def unmarshal (s : Bytes) : Res VerifiableCredential := unmarshalInto (decodeStruct assign) zero s

end VerifiableCredential

/-! ## Issuing -/

/-- Package schema, as far as credentials need it: the registry, and `Validate`. -/
structure Schemas where
  registry : Schema.Registry
  validate : Bytes → Map Bytes → Res Unit

structure IssueOptions where
  issuerDID : Bytes
  issuerKey : Bytes
  verificationMethodID : Bytes
  subjectDID : Bytes
  schemaID : Bytes
  claims : Map Bytes
  validFor : Int
  statusListCredential : Bytes
  statusListIndex : Int64

def contextVC : Bytes := "https://www.w3.org/ns/credentials/v2"

def contextTpt : Bytes := "https://tpt-identity.org/ns/v1"

def typeVC : Bytes := "VerifiableCredential"

def defaultContext : List Bytes := [contextVC, contextTpt]

def IssueOptions.status (opts : IssueOptions) : Option CredentialStatus :=
  if opts.statusListCredential ≠ [] then
    some {
      id := opts.statusListCredential ++ "#" ++ itoa opts.statusListIndex.toInt
      type := "BitstringStatusListEntry"
      statusPurpose := "revocation"
      statusListIndex := opts.statusListIndex
      statusListCredential := opts.statusListCredential }
  else none

def IssueOptions.credential (opts : IssueOptions) (uuid versionedSchemaID : Bytes) (now : Int) :
    Credential where
  context := some defaultContext
  id := "urn:uuid:" ++ uuid
  type := some [typeVC, versionedSchemaID]
  issuer := opts.issuerDID
  validFrom := .utc now
  validUntil := if opts.validFor ≠ 0 then some (.utc (now + opts.validFor)) else none
  credentialSubject := ⟨opts.subjectDID, opts.claims⟩
  credentialSchema := some ⟨versionedSchemaID, "TptCredentialSchema"⟩
  credentialStatus := opts.status

def IssueOptions.proof (opts : IssueOptions) (now : Int) : Proof where
  type := "DataIntegrityProof"
  cryptosuite := "eddsa-jcs-2022"
  created := (Time.utc now).rfc3339 false
  verificationMethod := opts.verificationMethodID
  proofPurpose := "assertionMethod"
  proofValue := []

def Proof.options (p : Proof) : Map Bytes :=
  Map.empty.setAll [("type", p.type), ("cryptosuite", p.cryptosuite), ("created", p.created),
    ("verificationMethod", p.verificationMethod), ("proofPurpose", p.proofPurpose)]

def hashData (sha256 : Bytes → Bytes) (optionsFormat documentFormat : String) (p : Proof)
    (cred : Credential) : Res Bytes := do
  let proofOptionsBytes ← (Tptcrypto.jcs (stringMapValue p.options)).wrapErr optionsFormat []
  let documentBytes ← (Tptcrypto.jcs cred.value).wrapErr documentFormat []
  return sha256 proofOptionsBytes ++ sha256 documentBytes

def issue (C : Crypto) (schemas : Schemas) (env : Oidc.Env) (opts : IssueOptions) :
    Res VerifiableCredential :=
  if hasPrefix opts.issuerDID "did:key:" then .err errEphemeralIssuer
  else do
    (schemas.validate opts.schemaID opts.claims).wrapErr "issue: %w" []
    let s ← (Schema.getSchema schemas.registry opts.schemaID).wrapErr "issue: %w" []
    let now := env.clock 0
    let uuid ← newUUID env.rand 0
    let cred := opts.credential uuid s.versionedID now
    let proof := opts.proof now
    let data ← hashData C.sha256 "issue: jcs proof options: %w" "issue: jcs document: %w" proof cred
    let sig ← C.ed25519.signWith opts.issuerKey data
    return ⟨cred, some { proof with proofValue := encodeB64 sig }⟩

/-! ## Verifying -/

def extractEd25519Key (R : Resolver) (doc : Document) (vmID : Bytes) : Res Bytes :=
  match doc.verificationMethod.find? fun vm => vm.id = vmID with
  | some vm =>
    if vm.revoked then .err (.new "key %q is revoked" [vmID])
    else if vm.type ≠ "Ed25519VerificationKey2020" then
      .err (.new "key %q has type %q, expected Ed25519VerificationKey2020" [vmID, vm.type])
    else
      match vm.publicKeyMultibase with
      | some mb => decodeMultibaseEd25519 R mb
      | none => .err (.new "key %q has no publicKeyMultibase" [vmID])
  | none => .err (.new "verification method %q not found in DID document" [vmID])

def verifyDataIntegrity (C : Crypto) (pub : Bytes) (cred : Credential) (proof : Proof) :
    Res Unit := do
  let sig ← (decodeB64 proof.proofValue).wrapErr "decode proof value: %w" []
  let data ← hashData C.sha256 "jcs proof options: %w" "jcs document: %w" proof cred
  if ← C.ed25519.verifyWith pub data sig then .ok ()
  else .err (.new "signature invalid" [])

structure Verifier where
  resolver : Resolver
  statusChecker : Option (CredentialStatus → Option Err)

def newVerifier (R : Resolver) : Verifier := ⟨R, none⟩

def verifySignature (C : Crypto) (sha512 : Bytes → Bytes) (pub : Bytes) (cred : Credential)
    (proof : Proof) : Res Unit :=
  if proof.type = "DataIntegrityProof" ∧ proof.cryptosuite = "eddsa-jcs-2022" then
    (verifyDataIntegrity C pub cred proof).wrapErr "verify: %w" []
  else if proof.type = "Ed25519Signature2020" then do
    let sig ← (decodeB64 proof.proofValue).wrapErr "verify: decode proof value: %w" []
    (Tptcrypto.verifyJSON sha512 C.ed25519 pub cred.value sig).wrapErr
      "verify: signature invalid: %w" []
  else .err (.new "verify: unsupported proof type %q / cryptosuite %q"
    [proof.type, proof.cryptosuite])

def Verifier.checkStatus (v : Verifier) (vc : VerifiableCredential) : Res Unit :=
  match vc.credentialStatus, v.statusChecker with
  | some status, some fn =>
    match fn status with
    | some e => .err (.wrap "verify: credential revoked: %w" [] e)
    | none => .ok ()
  | _, _ => .ok ()

def Verifier.verify (v : Verifier) (C : Crypto) (sha512 : Bytes → Bytes) (clock : Nat → Int)
    (vc : VerifiableCredential) : Res Unit :=
  match vc.proof with
  | none => .err (.new "verify: no proof" [])
  | some proof =>
    if clock 0 < vc.validFrom.nanos then .err (.new "verify: credential is not yet valid" [])
    else if ∃ t ∈ vc.validUntil, t.nanos < clock 1 then
      .err (.new "verify: credential has expired" [])
    else do
      let doc ← (v.resolver.resolve vc.issuer).wrapErr "verify: resolve issuer DID: %w" []
      let pub ← (extractEd25519Key v.resolver doc proof.verificationMethod).wrapErr
        "verify: %w" []
      verifySignature C sha512 pub vc.toCredential proof
      v.checkStatus vc

/-! ## The store -/

open Store

def saveCredential (vc : VerifiableCredential) : Proc DB (Res Unit) :=
  match marshal vc.value with
  | .ok b =>
    let row : CredentialRow := ⟨vc.id, vc.credentialSubject.id, vc.validFrom.nanos, b⟩
    .query fun db =>
      ((db.credentials.insert row).1, { db with credentials := (db.credentials.insert row).2 })
  | .err e => return .err e
  | .panics reason => return .panics reason

def getCredential (id : Bytes) : Proc DB (Res VerifiableCredential) := do
  let r ← .select fun db => found (db.credentials.find id)
  return (r.wrapErr "get credential: %w" []).bind fun row =>
    VerifiableCredential.unmarshal row.credential

end TptIdentity.Vc
