import TptIdentity.AdminModel
import TptIdentity.ConsentPolicy
import TptIdentity.GoBase64
import TptIdentity.TptCrypto

/-!
# The consent endpoints

Grants and receipts as the store keeps them, and the handlers under `/api/v1/consents`. The
store has no column for when a grant was revoked, and none for the expiry of a receipt.
-/

namespace TptIdentity

open Go

namespace Store

def GrantRow.ofGrant (g : Grant) : GrantRow :=
  { id := g.id
    subjectDID := g.subjectDID
    relyingDID := g.relyingDID
    level := g.level
    scopeID := g.scopeID
    grantedAt := g.grantedAt
    expiresAt := g.expiresAt
    explicitlyConfirmed := if g.explicitlyConfirmed then 1 else 0 }

def GrantRow.scan (r : GrantRow) : Grant :=
  { id := r.id
    subjectDID := r.subjectDID
    relyingDID := r.relyingDID
    level := r.level
    scopeID := r.scopeID
    grantedAt := r.grantedAt
    expiresAt := r.expiresAt
    revokedAt := none
    explicitlyConfirmed := decide (r.explicitlyConfirmed = 1) }

theorem GrantRow.scan_ofGrant (g : Grant) :
    (GrantRow.ofGrant g).scan = { g with revokedAt := none } := by
  cases hconf : g.explicitlyConfirmed <;> simp [GrantRow.ofGrant, GrantRow.scan, hconf]

def saveGrant (g : Grant) : Proc DB (Res Unit) :=
  .query fun db =>
    ((db.consentGrants.insert (.ofGrant g)).1,
      { db with consentGrants := (db.consentGrants.insert (.ofGrant g)).2 })

def DB.grantsOf (db : DB) (subjectDID : Bytes) : List Grant :=
  ((db.consentGrants.rows.filter fun r => r.subjectDID = subjectDID).insertionSort
    fun a b => b.grantedAt ≤ a.grantedAt).map GrantRow.scan

def listGrants (subjectDID : Bytes) : Proc DB (Res (List Grant)) :=
  .select fun db => .ok (db.grantsOf subjectDID)

def deleteGrant (id : Bytes) : Proc DB (Res Unit) :=
  .exec fun db => { db with consentGrants := db.consentGrants.delete id }

end Store

namespace Consent

open Store Oidc Admin

/-! ## Receipts -/

abbrev LegalBasis := Bytes

def legalBasisConsent : LegalBasis := "consent"

structure Receipt where
  id : Bytes
  subjectDID : Bytes
  relyingDID : Bytes
  schemaID : Bytes
  accessedAt : Time
  legalBasis : LegalBasis
  purpose : Bytes
  expiresAt : Option Time
  revokedAt : Option Time
  signature : Bytes
  signedBy : Bytes
deriving DecidableEq, Repr

structure IssueOptions where
  subjectDID : Bytes
  relyingDID : Bytes
  schemaID : Bytes
  purpose : Bytes
  legalBasis : LegalBasis
  expiresAt : Option Time
  signerKey : Bytes
  signerKeyID : Bytes

def receiptPayload (r : Receipt) : Map Bytes :=
  let p := Map.empty.setAll [("id", r.id), ("subjectDid", r.subjectDID),
    ("relyingDid", r.relyingDID), ("schemaId", r.schemaID),
    ("accessedAt", r.accessedAt.rfc3339 false), ("legalBasis", r.legalBasis),
    ("purpose", r.purpose), ("signedBy", r.signedBy)]
  match r.expiresAt with
  | some expiresAt => p.set "expiresAt" (expiresAt.rfc3339 false)
  | none => p

section Issue

variable (sha512 : Bytes → Bytes) (E : Ed25519)

def issue (env : Env) (opts : IssueOptions) : Res Receipt := do
  let uuid ← newUUID env.rand 0
  let r : Receipt :=
    { id := "urn:uuid:" ++ uuid
      subjectDID := opts.subjectDID
      relyingDID := opts.relyingDID
      schemaID := opts.schemaID
      accessedAt := .utc (env.clock 0)
      legalBasis := opts.legalBasis
      purpose := opts.purpose
      expiresAt := opts.expiresAt
      revokedAt := none
      signature := []
      signedBy := opts.signerKeyID }
  let sig ← (Tptcrypto.signJSON sha512 E opts.signerKey
    (stringMapValue (receiptPayload r))).wrapErr "receipt sign: %w" []
  .ok { r with signature := encodeB64 sig }

end Issue

end Consent

namespace Store

open Consent

def ReceiptRow.ofReceipt (r : Receipt) : ReceiptRow :=
  { id := r.id
    subjectDID := r.subjectDID
    relyingDID := r.relyingDID
    schemaID := r.schemaID
    accessedAt := r.accessedAt.nanos
    legalBasis := r.legalBasis
    purpose := r.purpose
    signedBy := r.signedBy
    signature := r.signature }

def ReceiptRow.scan (row : ReceiptRow) : Receipt :=
  { id := row.id
    subjectDID := row.subjectDID
    relyingDID := row.relyingDID
    schemaID := row.schemaID
    accessedAt := .utc row.accessedAt
    legalBasis := row.legalBasis
    purpose := row.purpose
    expiresAt := none
    revokedAt := none
    signature := row.signature
    signedBy := row.signedBy }

def saveReceipt (r : Receipt) : Proc DB (Res Unit) :=
  .query fun db =>
    ((db.consentReceipts.insert (.ofReceipt r)).1,
      { db with consentReceipts := (db.consentReceipts.insert (.ofReceipt r)).2 })

def DB.receiptsOf (db : DB) (subjectDID : Bytes) : List Receipt :=
  ((db.consentReceipts.rows.filter fun r => r.subjectDID = subjectDID).insertionSort
    fun a b => b.accessedAt ≤ a.accessedAt).map ReceiptRow.scan

def listReceipts (subjectDID : Bytes) : Proc DB (Res (List Receipt)) :=
  .select fun db => .ok (db.receiptsOf subjectDID)

end Store

namespace Consent

open Store Oidc Admin

/-! ## Handlers -/

def grantValue (g : Grant) : Value :=
  .obj ([(str "id", .str g.id), (str "subjectDid", .str g.subjectDID),
      ("relyingDid", .str g.relyingDID), ("level", .str g.level),
      ("scopeId", .str g.scopeID), ("grantedAt", timeValue (.utc g.grantedAt))]
    ++ optionalTime "expiresAt" (g.expiresAt.map .utc)
    ++ optionalTime "revokedAt" (g.revokedAt.map .utc)
    ++ [(str "explicitlyConfirmed", .bool g.explicitlyConfirmed)])

/-- A slice that was appended to: nil, and so `null`, without elements. -/
def sliceValue (l : List Value) : Value := if l.isEmpty then .null else .arr l

def handleListGrants (subjectDID : Bytes) : Proc DB Response :=
  if subjectDID = [] then return .error 400 "subject query parameter required"
  else do
    match ← listGrants subjectDID with
    | .ok grants => return .json 200 (sliceValue (grants.map grantValue))
    | .err e => return errorOf 500 "list grants: " e
    | .panics _ => return internalError

/-- What `s, _ := schema.GetSchema(id)` says; an unknown ID gives the zero schema. -/
def extraSensitive (schemas : Schema.Registry) (id : Bytes) : Bool :=
  ((Schema.getSchema schemas id).getD ⟨[], 0, [], false, []⟩).extraSensitive

def handleCreateGrant (schemas : Schema.Registry) (body : Res Grant) : Proc DB Response :=
  match body with
  | .ok g =>
    if g.level = grantCategory ∧ g.explicitlyConfirmed = false then
      return .error 400 (str ("category grants require explicitlyConfirmed=true — the user must "
        ++ "explicitly approve sharing all schemas in this category"))
    else if g.level = grantSchema ∧ extraSensitive schemas g.scopeID = true
        ∧ g.explicitlyConfirmed = false then
      return .error 400
        "this schema is extra-sensitive and requires explicitlyConfirmed=true"
    else do
      match ← saveGrant g with
      | .ok _ => return .json 201 (grantValue g)
      | .err e => return errorOf 500 "save grant: " e
      | .panics _ => return internalError
  | .err e => return errorOf 400 "bad request: " e
  | .panics _ => return internalError

def handleRevokeGrant (id : Bytes) : Proc DB Response := do
  match ← deleteGrant id with
  | .ok _ => return .text 204 []
  | .err e => return errorOf 500 "revoke grant: " e
  | .panics _ => return internalError

end Consent

end TptIdentity
