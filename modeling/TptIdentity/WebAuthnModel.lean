import TptIdentity.BridgeModel

/-!
# Package api: passkeys

The handlers that register and delete WebAuthn credentials: a session is left in memory and
taken out again, the attestation is checked, and the key is anchored in the DID document. The
library is a parameter.
-/

namespace TptIdentity.WebAuthn

open Go Store Oidc Bridge

/-! ## The library -/

structure User where
  subjectDID : Bytes
  creds : List WebAuthnCredential

structure Credential where
  id : Bytes
  publicKey : Bytes
  attestationType : Bytes
  aaguid : Bytes
  signCount : UInt32
  transport : List Bytes
deriving DecidableEq, Repr

/-- What is used of package webauthn; `S` are its sessions. -/
structure Library (S : Type) where
  beginRegistration : Rand → User → Res (Value × S)
  finishRegistration : User → S → Bytes → Res Credential

structure Server (S : Type) where
  webAuthn : Option (Library S)
  subjectFromBearer : Bytes → Res Bytes

structure SessionEntry (S : Type) where
  session : S
  expiresAt : Int

variable {S : Type}

/-! ## Anchoring -/

def webAuthnType : Bytes := "WebAuthnPublicKey2023"

def vmID (subjectDID credID : Bytes) : Bytes := subjectDID ++ "#webauthn-" ++ credID.take 8

def verificationMethod (subjectDID credID pubKey : Bytes) : Did.VerificationMethod where
  id := vmID subjectDID credID
  type := webAuthnType
  controller := subjectDID
  publicKeyMultibase := some ("u" ++ encodeB64 pubKey)
  revoked := false
  notBefore := none

def minimalDocument (subjectDID : Bytes) : Did.Document :=
  { Did.Document.zero with context := some Did.defaultContext, id := subjectDID }

def anchored (doc : Did.Document) (vm : Did.VerificationMethod) : Did.Document :=
  { doc with
    verificationMethod := doc.verificationMethod ++ [vm]
    authentication := doc.authentication ++ [vm.id] }

def hasMethod (doc : Did.Document) (id : Bytes) : Bool :=
  doc.verificationMethod.any fun vm => vm.id = id

/-- `anchorWebAuthnKey` from the document on. That it cannot be saved is ignored. -/
def anchorIn (doc : Did.Document) (now : Int) (subjectDID credID pubKey : Bytes) : Proc DB Unit :=
  if hasMethod doc (vmID subjectDID credID) then return ()
  else do
    let doc := anchored doc (verificationMethod subjectDID credID pubKey)
    let _ ← saveDocument doc.id doc.value now
    return ()

/-- `anchorWebAuthnKey`. That the document cannot be read is taken as that there is none. -/
def anchorWebAuthnKey (now : Int) (subjectDID credID pubKey : Bytes) : Proc DB Unit := do
  let r ← getDocument subjectDID
  anchorIn (r.getD (minimalDocument subjectDID)) now subjectDID credID pubKey

/-! ## Registration -/

def waRandomID (rand : Rand) (i : Nat) : Bytes :=
  encodeHex ((rand.read i 16).getD (List.replicate 16 0))

variable (srv : Server S) (env : Env)

def handleWebAuthnRegisterBegin (r : Request) : Proc DB (Reply × Option (Bytes × SessionEntry S)) :=
  match srv.webAuthn with
  | none => return (httpError 501 "webauthn not configured", none)
  | some lib =>
    match srv.subjectFromBearer (param r.header "Authorization") with
    | .ok subjectDID => do
      match ← listWebAuthnCredentials subjectDID with
      | .ok creds =>
        match lib.beginRegistration env.rand ⟨subjectDID, creds⟩ with
        | .ok (creation, session) =>
          return ({ response := .json 200 creation },
            some (waRandomID env.rand 1, ⟨session, env.clock 0 + 5 * minute⟩))
        | .err e => return (httpErrorOf 500 "begin registration failed: " e, none)
        | .panics _ => return (httpError 500 "", none)
      | _ => return (httpError 500 "internal error", none)
    | _ => return (httpError 401 "unauthorized", none)

def uuidText (b : Bytes) : Bytes :=
  let hex := encodeHex b
  hex.take 8 ++ 45 :: ((hex.drop 8).take 4 ++ 45 :: ((hex.drop 12).take 4
    ++ 45 :: ((hex.drop 16).take 4 ++ 45 :: hex.drop 20)))

def storedCredential (subjectDID : Bytes) (now : Int) (c : Credential) : WebAuthnCredential where
  credentialID := encodeB64 c.id
  subjectDID := subjectDID
  publicKeyCBOR := c.publicKey
  attestationType := c.attestationType
  aaguid := if c.aaguid.length = 16 then uuidText c.aaguid else []
  signCount := c.signCount
  name := []
  transports := c.transport
  createdAt := now
  lastUsedAt := none

def finishRegistration (lib : Library S) (env : Env) (subjectDID : Bytes) (session : S)
    (body : Bytes) : Proc DB Reply := do
  match ← listWebAuthnCredentials subjectDID with
  | .ok creds =>
    match lib.finishRegistration ⟨subjectDID, creds⟩ session body with
    | .ok credential =>
      let stored := storedCredential subjectDID (env.clock 1) credential
      match ← saveWebAuthnCredential stored with
      | .ok _ =>
        anchorWebAuthnKey (env.clock 2) subjectDID stored.credentialID credential.publicKey
        return { response := .json 201 (.obj [("credential_id", .str stored.credentialID),
          ("status", .str "registered"), ("subject_did", .str subjectDID)]) }
      | .err e => return httpErrorOf 500 "save credential: " e
      | .panics _ => return httpError 500 ""
    | .err e => return httpErrorOf 400 "registration failed: " e
    | .panics _ => return httpError 500 ""
  | _ => return httpError 500 "internal error"

/-- The sessions that are left, and what is done in the store. A session is taken out even if it
has expired. -/
def handleWebAuthnRegisterFinish (r : Request) (cookie : Option Bytes) (body : Bytes)
    (sessions : Map (SessionEntry S)) : Map (SessionEntry S) × Proc DB Reply :=
  match srv.webAuthn with
  | none => (sessions, return httpError 501 "webauthn not configured")
  | some lib =>
    match srv.subjectFromBearer (param r.header "Authorization") with
    | .ok subjectDID =>
      match cookie with
      | none =>
        (sessions, return httpError 400 "registration session not found — call begin first")
      | some id =>
        (sessions.delete id, match sessions.get id with
          | none => return httpError 400 "registration session expired"
          | some entry =>
            if env.clock 0 > entry.expiresAt then
              return httpError 400 "registration session expired"
            else finishRegistration lib env subjectDID entry.session body)
    | _ => (sessions, return httpError 401 "unauthorized")

/-! ## Deletion -/

def deleteCredentialOf (subjectDID credID : Bytes) : Proc DB Reply :=
  if credID = [] then return httpError 400 "credential id required"
  else do
    match ← getWebAuthnCredential credID with
    | .ok existing =>
      if existing.subjectDID ≠ subjectDID then return httpError 403 "forbidden"
      else
        match ← deleteWebAuthnCredential credID with
        | .ok _ => return { response := .text 204 [] }
        | _ => return httpError 500 "internal error"
    | _ => return httpError 404 "credential not found"

def handleDeleteWebAuthnCredential (r : Request) (credID : Bytes) : Proc DB Reply :=
  match srv.subjectFromBearer (param r.header "Authorization") with
  | .ok subjectDID => deleteCredentialOf subjectDID credID
  | _ => return httpError 401 "unauthorized"

/-! ## Runs -/

structure State (S : Type) where
  db : DB
  regSessions : Map (SessionEntry S)

inductive Step where
  | registerBegin (r : Request)
  | registerFinish (r : Request) (cookie : Option Bytes) (body : Bytes)
  | delete (r : Request) (credID : Bytes)

structure Call where
  env : Env
  faults : Faults
  step : Step

def Call.run (srv : Server S) (st : State S) (c : Call) : Reply × State S :=
  match c.step with
  | .registerBegin r =>
    let out := (handleWebAuthnRegisterBegin srv c.env r).run c.faults st.db
    (out.1.1, ⟨out.2, out.1.2.elim st.regSessions fun e => st.regSessions.set e.1 e.2⟩)
  | .registerFinish r cookie body =>
    let finish := handleWebAuthnRegisterFinish srv c.env r cookie body st.regSessions
    let out := finish.2.run c.faults st.db
    (out.1, ⟨out.2, finish.1⟩)
  | .delete r credID =>
    let out := (handleDeleteWebAuthnCredential srv r credID).run c.faults st.db
    (out.1, ⟨out.2, st.regSessions⟩)

def next (st : State S) (c : Call) : State S := (c.run srv st).2

end TptIdentity.WebAuthn
