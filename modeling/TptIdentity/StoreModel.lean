import Mathlib.Data.List.Sort
import TptIdentity.DidDocument
import TptIdentity.GoProc
import TptIdentity.GoTable

/-!
# Package store

The tables behind the endpoints, and the methods of `SQLiteStore`, whose calls are SQL
statements. A session saved under an ID that is taken keeps the client, the redirect URI and the
subject of the old row (`OIDCSession.merge`). A `DATETIME` is in nanoseconds since 1970.
-/

namespace TptIdentity.Store

open Go List

def errNoRows : Err := .new "sql: no rows in result set" []

def second : Int := 1000000000

def minute : Int := 60 * second

def hour : Int := 60 * minute

/-! ## Rows -/

structure OIDCSession where
  id : Bytes
  subjectDID : Bytes
  clientID : Bytes
  redirectURI : Bytes
  scope : Bytes
  nonce : Bytes
  state : Bytes
  code : Bytes
  codeChallenge : Bytes
  codeChallengeMethod : Bytes
  accessToken : Bytes
  refreshTokenHash : Bytes
  userAgent : Bytes
  ipAddress : Bytes
  lastUsedAt : Option Int
  createdAt : Int
  expiresAt : Int
deriving DecidableEq, Repr

def OIDCSession.merge (old new : OIDCSession) : OIDCSession :=
  { old with
    state := new.state
    code := new.code
    codeChallenge := new.codeChallenge
    codeChallengeMethod := new.codeChallengeMethod
    accessToken := new.accessToken
    refreshTokenHash := new.refreshTokenHash
    lastUsedAt := new.lastUsedAt
    expiresAt := new.expiresAt }

theorem OIDCSession.id_merge (old new : OIDCSession) : (old.merge new).id = old.id := rfl

structure OIDCClient where
  clientID : Bytes
  clientSecretHash : Bytes
  clientName : Bytes
  redirectURIs : List Bytes
  tokenEndpointAuthMethod : Bytes
  grantTypes : List Bytes
  responseTypes : List Bytes
  scope : Bytes
  backchannelLogoutURI : Bytes
  postLogoutRedirectURIs : List Bytes
  createdAt : Int
deriving DecidableEq, Repr

structure ClientRow where
  clientID : Bytes
  clientSecretHash : Bytes
  clientName : Bytes
  redirectURIs : Bytes
  tokenEndpointAuthMethod : Bytes
  grantTypes : Bytes
  responseTypes : Bytes
  scope : Bytes
  backchannelLogoutURI : Bytes
  postLogoutRedirectURIs : Bytes
  createdAt : Int
deriving DecidableEq, Repr

def stringsColumn (l : List Bytes) : Bytes := (Value.arr (l.map .str)).text

def unmarshalStrings (s : Bytes) : List Bytes :=
  if s = [] then []
  else ((unmarshalInto (decodeSlice (fun j old => decodeStr old j) []) (Slice.ofList []) s).getD
    (Slice.ofList [])).toList

theorem unmarshalStrings_stringsColumn {l : List Bytes} (h : ∀ s ∈ l, validUtf8 s) :
    unmarshalStrings (stringsColumn l) = l := by
  have htext : stringsColumn l ≠ [] := by
    cases l with
    | nil => exact cons_ne_nil _ _
    | cons s l => exact cons_ne_nil _ _
  have hwritable : (Value.arr (l.map .str)).Writable 1 :=
    writable_arr (List.forall_mem_map.mpr fun s _ => writable_str 0 s)
  have hdecode : List.Forall₂ (fun v e => decodeStr [] (Value.wire v) = some e)
      (l.map Value.str) l := by
    rw [forall₂_map_left_iff, forall₂_same]
    exact fun s hs => decodeStr_wire (h s hs)
  rw [unmarshalStrings, if_neg htext, stringsColumn,
    unmarshalInto_text hwritable (by decide) (decodeSlice_wire hdecode)]
  exact Slice.toList_ofList l

def ClientRow.ofClient (c : OIDCClient) : ClientRow :=
  { clientID := c.clientID
    clientSecretHash := c.clientSecretHash
    clientName := c.clientName
    redirectURIs := stringsColumn c.redirectURIs
    tokenEndpointAuthMethod := c.tokenEndpointAuthMethod
    grantTypes := stringsColumn c.grantTypes
    responseTypes := stringsColumn c.responseTypes
    scope := c.scope
    backchannelLogoutURI := c.backchannelLogoutURI
    postLogoutRedirectURIs := stringsColumn c.postLogoutRedirectURIs
    createdAt := c.createdAt }

def ClientRow.scan (r : ClientRow) : OIDCClient :=
  { clientID := r.clientID
    clientSecretHash := r.clientSecretHash
    clientName := r.clientName
    redirectURIs := unmarshalStrings r.redirectURIs
    tokenEndpointAuthMethod := r.tokenEndpointAuthMethod
    grantTypes := unmarshalStrings r.grantTypes
    responseTypes := unmarshalStrings r.responseTypes
    scope := r.scope
    backchannelLogoutURI := r.backchannelLogoutURI
    postLogoutRedirectURIs := unmarshalStrings r.postLogoutRedirectURIs
    createdAt := r.createdAt }

def ClientRow.merge (old new : ClientRow) : ClientRow :=
  { new with clientID := old.clientID, createdAt := old.createdAt }

theorem ClientRow.clientID_merge (old new : ClientRow) :
    (old.merge new).clientID = old.clientID := rfl

structure PARRequest where
  requestURI : Bytes
  clientID : Bytes
  params : Bytes
  expiresAt : Int
  createdAt : Int
deriving DecidableEq, Repr

structure MagicLinkToken where
  hash : Bytes
  email : Bytes
  expiresAt : Int
  createdAt : Int
deriving DecidableEq, Repr

structure ExternalProviderLink where
  subjectDID : Bytes
  provider : Bytes
  externalID : Bytes
  linkedAt : Int
  lastUsedAt : Int
deriving DecidableEq, Repr

def ExternalProviderLink.key (l : ExternalProviderLink) : Bytes × Bytes :=
  (l.provider, l.externalID)

def ExternalProviderLink.merge (old new : ExternalProviderLink) : ExternalProviderLink :=
  { old with subjectDID := new.subjectDID, lastUsedAt := new.lastUsedAt }

theorem ExternalProviderLink.key_merge (old new : ExternalProviderLink) :
    (old.merge new).key = old.key := rfl

structure Identity where
  did : Bytes
  method : Bytes
  signingKeyPath : Bytes
  encKeyPath : Bytes
  role : Bytes
  tenantID : Bytes
  createdAt : Int
  updatedAt : Int
deriving DecidableEq, Repr

def Identity.merge (old new : Identity) : Identity :=
  { new with did := old.did, method := old.method, createdAt := old.createdAt }

variable (old new : Identity)

theorem Identity.did_merge : (old.merge new).did = old.did := rfl

def Identity.updated (old new : Identity) : Identity :=
  { old with role := new.role, tenantID := new.tenantID, updatedAt := new.updatedAt }

theorem Identity.did_updated : (old.updated new).did = old.did := rfl

structure CredentialRow where
  id : Bytes
  subjectDID : Bytes
  validFrom : Int
  credential : Bytes
deriving DecidableEq, Repr

structure DocumentRow where
  did : Bytes
  document : Bytes
  cachedAt : Int
deriving DecidableEq, Repr

def DocumentRow.merge (old new : DocumentRow) : DocumentRow := { new with did := old.did }

theorem DocumentRow.did_merge (old new : DocumentRow) : (old.merge new).did = old.did := rfl

structure AuthFailure where
  subjectOrEmail : Bytes
  count : Nat
  lastFailureAt : Int
  lockedUntil : Option Int
deriving DecidableEq, Repr

def AuthFailure.merge (old new : AuthFailure) : AuthFailure :=
  { new with subjectOrEmail := old.subjectOrEmail }

theorem AuthFailure.subjectOrEmail_merge (old new : AuthFailure) :
    (old.merge new).subjectOrEmail = old.subjectOrEmail := rfl

structure PasswordRow where
  identifier : Bytes
  hash : Bytes
deriving DecidableEq, Repr

structure DuressConfig where
  subjectDID : Bytes
  hash : Bytes
deriving DecidableEq, Repr

structure RefreshToken where
  hash : Bytes
  subjectDID : Bytes
  clientID : Bytes
  scope : Bytes
  issuedAt : Int
  expiresAt : Int
  usedAt : Option Int
deriving DecidableEq, Repr

def RefreshToken.merge (old new : RefreshToken) : RefreshToken := { old with usedAt := new.usedAt }

theorem RefreshToken.hash_merge (old new : RefreshToken) : (old.merge new).hash = old.hash := rfl

structure DeviceCode where
  deviceCode : Bytes
  userCode : Bytes
  clientID : Bytes
  scope : Bytes
  subjectDID : Bytes
  approved : Bool
  denied : Bool
  expiresAt : Int
  intervalSecs : Int
  createdAt : Int
deriving DecidableEq, Repr

/-- The columns of a device code that are ever updated, taken from `new`. -/
def DeviceCode.merge (old new : DeviceCode) : DeviceCode :=
  { old with subjectDID := new.subjectDID, approved := new.approved, denied := new.denied }

theorem DeviceCode.deviceCode_merge (old new : DeviceCode) :
    (old.merge new).deviceCode = old.deviceCode := rfl

structure PasswordResetToken where
  hash : Bytes
  identifier : Bytes
  expiresAt : Int
  createdAt : Int
deriving DecidableEq, Repr

structure WebhookSubscription where
  id : Bytes
  url : Bytes
  eventTypes : List Bytes
  secretHash : Bytes
  tenantID : Bytes
  createdAt : Int
deriving DecidableEq, Repr

structure WebhookRow where
  id : Bytes
  url : Bytes
  eventTypes : Bytes
  secretHash : Bytes
  tenantID : Bytes
  createdAt : Int
deriving DecidableEq, Repr

def WebhookRow.ofSubscription (sub : WebhookSubscription) : WebhookRow :=
  ⟨sub.id, sub.url, stringsColumn sub.eventTypes, sub.secretHash, sub.tenantID, sub.createdAt⟩

def WebhookRow.scan (r : WebhookRow) : WebhookSubscription :=
  ⟨r.id, r.url, unmarshalStrings r.eventTypes, r.secretHash, r.tenantID, r.createdAt⟩

def WebhookRow.merge (old new : WebhookRow) : WebhookRow :=
  { old with url := new.url, eventTypes := new.eventTypes }

theorem WebhookRow.id_merge (old new : WebhookRow) : (old.merge new).id = old.id := rfl

structure AuditEvent where
  seq : Nat
  eventType : Bytes
  payload : Bytes
  hash : Bytes
  prevHash : Bytes
deriving DecidableEq, Repr

/-- The key is drawn from a sequence that is never reset (`AUTOINCREMENT`). -/
structure AuditLog where
  rows : List AuditEvent
  sequence : Nat
  ordered : rows.Pairwise fun a b => a.seq < b.seq
  drawn : ∀ e ∈ rows, e.seq ≤ sequence

structure RecoveryConfig where
  subjectDID : Bytes
  threshold : Int
  guardianDIDs : List Bytes
  createdAt : Int
deriving DecidableEq, Repr

structure RecoveryConfigRow where
  subjectDID : Bytes
  threshold : Int
  guardianDIDs : Bytes
  createdAt : Int
deriving DecidableEq, Repr

def RecoveryConfigRow.scan (r : RecoveryConfigRow) : RecoveryConfig :=
  ⟨r.subjectDID, r.threshold, unmarshalStrings r.guardianDIDs, r.createdAt⟩

def RecoveryConfigRow.merge (old new : RecoveryConfigRow) : RecoveryConfigRow :=
  { new with subjectDID := old.subjectDID }

theorem RecoveryConfigRow.subjectDID_merge (old new : RecoveryConfigRow) :
    (old.merge new).subjectDID = old.subjectDID := rfl

structure RecoveryRequest where
  id : Bytes
  subjectDID : Bytes
  startedAt : Int
  sharesCollected : Int
  completed : Bool
deriving DecidableEq, Repr

def RecoveryRequest.merge (old new : RecoveryRequest) : RecoveryRequest :=
  { old with sharesCollected := new.sharesCollected, completed := new.completed }

theorem RecoveryRequest.id_merge (old new : RecoveryRequest) : (old.merge new).id = old.id := rfl

structure RecoveryShare where
  requestID : Bytes
  guardianDID : Bytes
  shareHash : Bytes
  collectedAt : Int
deriving DecidableEq, Repr

def RecoveryShare.key (s : RecoveryShare) : Bytes × Bytes := (s.requestID, s.guardianDID)

/-- A row of `consent_grants`. There is no column for `RevokedAt`. -/
structure GrantRow where
  id : Bytes
  subjectDID : Bytes
  relyingDID : Bytes
  level : Bytes
  scopeID : Bytes
  grantedAt : Int
  expiresAt : Option Int
  explicitlyConfirmed : Int
deriving DecidableEq, Repr

/-- A row of `consent_receipts`. There is no column for `ExpiresAt`. -/
structure ReceiptRow where
  id : Bytes
  subjectDID : Bytes
  relyingDID : Bytes
  schemaID : Bytes
  accessedAt : Int
  legalBasis : Bytes
  purpose : Bytes
  signedBy : Bytes
  signature : Bytes
deriving DecidableEq, Repr

/-- A row of `webauthn_credentials`. The column of the transports holds their JSON. -/
structure WebAuthnCredential where
  credentialID : Bytes
  subjectDID : Bytes
  publicKeyCBOR : Bytes
  attestationType : Bytes
  aaguid : Bytes
  signCount : UInt32
  name : Bytes
  transports : List Bytes
  createdAt : Int
  lastUsedAt : Option Int
deriving DecidableEq, Repr

/-- What `SaveWebAuthnCredential` makes of a row whose credential is known: the subject
and the key stay. -/
def WebAuthnCredential.merge (old new : WebAuthnCredential) : WebAuthnCredential :=
  { old with signCount := new.signCount, name := new.name, lastUsedAt := new.lastUsedAt }

theorem WebAuthnCredential.credentialID_merge (old new : WebAuthnCredential) :
    (old.merge new).credentialID = old.credentialID := rfl

/-! ## The database -/

structure DB where
  sessions : Table OIDCSession.id
  clients : Table ClientRow.clientID
  parRequests : Table PARRequest.requestURI
  magicLinkTokens : Table MagicLinkToken.hash
  externalLinks : Table ExternalProviderLink.key
  identities : Table Identity.did
  documents : Table DocumentRow.did
  authFailures : Table AuthFailure.subjectOrEmail
  passwords : Table PasswordRow.identifier
  duressConfigs : Table DuressConfig.subjectDID
  refreshTokens : Table RefreshToken.hash
  deviceCodes : Table DeviceCode.deviceCode
  passwordResetTokens : Table PasswordResetToken.hash
  webhookSubscriptions : Table WebhookRow.id
  auditLog : AuditLog
  recoveryConfigs : Table RecoveryConfigRow.subjectDID
  recoveryRequests : Table RecoveryRequest.id
  recoveryShares : Table RecoveryShare.key
  credentials : Table CredentialRow.id
  consentGrants : Table GrantRow.id
  consentReceipts : Table ReceiptRow.id
  webAuthnCredentials : Table WebAuthnCredential.credentialID

variable (db : DB) (sha256 : Bytes → Bytes)

def AuditLog.empty : AuditLog := ⟨[], 0, List.Pairwise.nil, fun _ h => absurd h not_mem_nil⟩

def DB.empty : DB :=
  ⟨.empty, .empty, .empty, .empty, .empty, .empty, .empty, .empty, .empty, .empty, .empty, .empty,
    .empty, .empty, .empty, .empty, .empty, .empty, .empty, .empty, .empty, .empty⟩

def found {α : Type} : Option α → Res α
  | some a => .ok a
  | none => .err errNoRows

/-! ### Sessions -/

def DB.putSession (db : DB) (sess : OIDCSession) : DB :=
  { db with sessions := db.sessions.upsert OIDCSession.merge OIDCSession.id_merge sess }

theorem DB.find_putSession (sess : OIDCSession) (id : Bytes) :
    (db.putSession sess).sessions.find id
      = if id = sess.id then some ((db.sessions.find id).elim sess (OIDCSession.merge · sess))
        else db.sessions.find id :=
  Table.find_upsert _ _ OIDCSession.id_merge _ _

def saveSession (sess : OIDCSession) : Proc DB (Res Unit) := .exec fun db => db.putSession sess

def DB.sessionByCode (db : DB) (code : Bytes) : Option OIDCSession :=
  db.sessions.rows.find? fun sess => sess.code = code

def getSessionByCode (code : Bytes) : Proc DB (Res OIDCSession) := do
  let r ← .select fun db => found (db.sessionByCode code)
  return r.wrapErr "scan session: %w" []

def listSessionsBySubject (now : Int) (subjectDID : Bytes) : Proc DB (Res (List OIDCSession)) :=
  .select fun db =>
    .ok ((db.sessions.rows.filter fun sess => sess.subjectDID = subjectDID ∧ sess.expiresAt > now)
      |>.insertionSort fun a b => b.createdAt ≤ a.createdAt)

def deleteSession (id : Bytes) : Proc DB (Res Unit) :=
  .exec fun db => { db with sessions := db.sessions.delete id }

def purgeExpiredSessions (now : Int) : Proc DB (Res Unit) :=
  .exec fun db =>
    { db with sessions := db.sessions.deleteWhere fun sess => sess.expiresAt < now }

/-! ### Clients -/

def DB.putClient (db : DB) (c : OIDCClient) : DB :=
  { db with clients := db.clients.upsert ClientRow.merge ClientRow.clientID_merge (.ofClient c) }

def saveClient (c : OIDCClient) : Proc DB (Res Unit) := .exec fun db => db.putClient c

def DB.client (db : DB) (clientID : Bytes) : Option OIDCClient :=
  (db.clients.find clientID).map ClientRow.scan

theorem DB.client_putClient (c : OIDCClient) {id : Bytes} (h : id ≠ c.clientID) :
    (db.putClient c).client id = db.client id :=
  congrArg (Option.map ClientRow.scan)
    ((Table.find_upsert _ _ ClientRow.clientID_merge _ _).trans (if_neg h))

def getClient (clientID : Bytes) : Proc DB (Res OIDCClient) := do
  let r ← .select fun db => found (db.client clientID)
  return r.wrapErr "scan client: %w" []

def listClients : Proc DB (Res (List OIDCClient)) :=
  .select fun db =>
    .ok ((db.clients.rows.insertionSort fun a b => b.createdAt ≤ a.createdAt).map ClientRow.scan)

def deleteClient (clientID : Bytes) : Proc DB (Res Unit) :=
  .exec fun db => { db with clients := db.clients.delete clientID }

/-! ### Refresh tokens -/

def DB.putRefreshToken (db : DB) (t : RefreshToken) : DB :=
  { db with
    refreshTokens := db.refreshTokens.upsert RefreshToken.merge RefreshToken.hash_merge t }

theorem DB.find_putRefreshToken (t : RefreshToken) (hash : Bytes) :
    (db.putRefreshToken t).refreshTokens.find hash
      = if hash = t.hash then
          some ((db.refreshTokens.find hash).elim t (RefreshToken.merge · t))
        else db.refreshTokens.find hash :=
  Table.find_upsert _ _ RefreshToken.hash_merge _ _

def saveRefreshToken (t : RefreshToken) : Proc DB (Res Unit) :=
  .exec fun db => db.putRefreshToken t

def getRefreshToken (hash : Bytes) : Proc DB (Res RefreshToken) := do
  let r ← .select fun db => found (db.refreshTokens.find hash)
  return r.wrapErr "get refresh token: %w" []

def deleteRefreshToken (hash : Bytes) : Proc DB (Res Unit) :=
  .exec fun db => { db with refreshTokens := db.refreshTokens.delete hash }

/-! ### Device codes -/

def saveDeviceCode (dc : DeviceCode) : Proc DB (Res Unit) :=
  .query fun db =>
    if db.deviceCodes.rows.any fun row =>
        row.userCode = dc.userCode ∧ row.deviceCode ≠ dc.deviceCode then
      (.err Table.constraintFailed, db)
    else
      (.ok (), { db with
        deviceCodes := db.deviceCodes.upsert DeviceCode.merge DeviceCode.deviceCode_merge dc })

def getDeviceCode (deviceCode : Bytes) : Proc DB (Res DeviceCode) := do
  let r ← .select fun db => found (db.deviceCodes.find deviceCode)
  return r.wrapErr "scan device code: %w" []

def getDeviceCodeByUserCode (userCode : Bytes) : Proc DB (Res DeviceCode) := do
  let r ← .select fun db => found (db.deviceCodes.rows.find? fun dc => dc.userCode = userCode)
  return r.wrapErr "scan device code: %w" []

def updateDeviceCode (dc : DeviceCode) : Proc DB (Res Unit) :=
  .exec fun db =>
    { db with
      deviceCodes := db.deviceCodes.update dc.deviceCode (DeviceCode.merge · dc)
        (DeviceCode.deviceCode_merge · dc) }

def deleteDeviceCode (deviceCode : Bytes) : Proc DB (Res Unit) :=
  .exec fun db => { db with deviceCodes := db.deviceCodes.delete deviceCode }

/-! ### Pushed authorization requests -/

def savePARRequest (req : PARRequest) : Proc DB (Res Unit) :=
  .query fun db =>
    let (r, parRequests) := db.parRequests.insert req
    (r, { db with parRequests })

def getPARRequest (requestURI : Bytes) : Proc DB (Res PARRequest) := do
  let r ← .select fun db => found (db.parRequests.find requestURI)
  return r.wrapErr "get par request: %w" []

def deletePARRequest (requestURI : Bytes) : Proc DB (Res Unit) :=
  .exec fun db => { db with parRequests := db.parRequests.delete requestURI }

/-! ### Magic link tokens -/

def saveMagicLinkToken (t : MagicLinkToken) : Proc DB (Res Unit) :=
  .query fun db =>
    let (r, magicLinkTokens) := db.magicLinkTokens.insert t
    (r, { db with magicLinkTokens })

def getMagicLinkToken (hash : Bytes) : Proc DB (Res MagicLinkToken) := do
  let r ← .select fun db => found (db.magicLinkTokens.find hash)
  return r.wrapErr "get magic link token: %w" []

def deleteMagicLinkToken (hash : Bytes) : Proc DB (Res Unit) :=
  .exec fun db => { db with magicLinkTokens := db.magicLinkTokens.delete hash }

/-! ### Identities -/

def saveExternalLink (l : ExternalProviderLink) : Proc DB (Res Unit) :=
  .exec fun db =>
    { db with
      externalLinks := db.externalLinks.upsert ExternalProviderLink.merge
        ExternalProviderLink.key_merge l }

def getExternalLink (provider externalID : Bytes) : Proc DB (Res ExternalProviderLink) := do
  let r ← .select fun db => found (db.externalLinks.find (provider, externalID))
  return r.wrapErr "get external link: %w" []

def listExternalLinks (subjectDID : Bytes) : Proc DB (Res (List ExternalProviderLink)) :=
  .select fun db =>
    .ok ((db.externalLinks.rows.filter fun l => l.subjectDID = subjectDID).insertionSort
      fun a b => b.linkedAt ≤ a.linkedAt)

def deleteExternalLink (provider externalID : Bytes) : Proc DB (Res Unit) :=
  .exec fun db => { db with externalLinks := db.externalLinks.delete (provider, externalID) }

def saveIdentity (id : Identity) : Proc DB (Res Unit) :=
  let row := { id with role := if id.role = [] then "user" else id.role }
  .exec fun db =>
    { db with identities := db.identities.upsert Identity.merge Identity.did_merge row }

def getIdentity (did : Bytes) : Proc DB (Res Identity) := do
  let r ← .select fun db => found (db.identities.find did)
  return r.wrapErr "get identity: %w" []

def updateIdentity (id : Identity) : Proc DB (Res Unit) :=
  .exec fun db =>
    { db with
      identities := db.identities.update id.did
        (Identity.updated · id) (Identity.did_updated · id) }

/-- `ListCredentials`, the newest first, of which the callers here read the IDs. -/
def listCredentials (credentialID : Bytes → Res Bytes) (subjectDID : Bytes) :
    Proc DB (Res (List Bytes)) :=
  .select fun db =>
    ((db.credentials.rows.filter fun row => row.subjectDID = subjectDID).insertionSort
      fun a b => b.validFrom ≤ a.validFrom).mapM fun row => credentialID row.credential

def deleteCredential (id : Bytes) : Proc DB (Res Unit) :=
  .exec fun db => { db with credentials := db.credentials.delete id }

def saveDocument (did : Bytes) (doc : Value) (now : Int) : Proc DB (Res Unit) :=
  match marshal doc with
  | .ok b =>
    .exec fun db =>
      { db with
        documents := db.documents.upsert DocumentRow.merge DocumentRow.did_merge ⟨did, b, now⟩ }
  | .err e => return .err e
  | .panics r => return .panics r

def readDocument (r : Res Bytes) : Res Did.Document :=
  (r.wrapErr "get document: %w" []).bind Did.Document.unmarshal

def DB.document (db : DB) (id : Bytes) : Res Did.Document :=
  readDocument (found ((db.documents.find id).map DocumentRow.document))

def getDocument (id : Bytes) : Proc DB (Res Did.Document) := do
  let r ← .select fun db => found ((db.documents.find id).map DocumentRow.document)
  return readDocument r

/-! ### WebAuthn credentials -/

def DB.putWebAuthnCredential (db : DB) (c : WebAuthnCredential) : DB :=
  { db with
    webAuthnCredentials := db.webAuthnCredentials.upsert WebAuthnCredential.merge
      WebAuthnCredential.credentialID_merge c }

def saveWebAuthnCredential (c : WebAuthnCredential) : Proc DB (Res Unit) :=
  .exec fun db => db.putWebAuthnCredential c

def getWebAuthnCredential (credentialID : Bytes) : Proc DB (Res WebAuthnCredential) := do
  let r ← .select fun db => found (db.webAuthnCredentials.find credentialID)
  return r.wrapErr "scan webauthn credential: %w" []

def listWebAuthnCredentials (subjectDID : Bytes) : Proc DB (Res (List WebAuthnCredential)) :=
  .select fun db =>
    .ok ((db.webAuthnCredentials.rows.filter fun c => c.subjectDID = subjectDID).insertionSort
      fun a b => b.createdAt ≤ a.createdAt)

def deleteWebAuthnCredential (credentialID : Bytes) : Proc DB (Res Unit) :=
  .exec fun db => { db with webAuthnCredentials := db.webAuthnCredentials.delete credentialID }

/-! ### Passwords and lockout -/

def getPasswordHash (identifier : Bytes) : Proc DB (Res Bytes) := do
  let r ← .select fun db => found ((db.passwords.find identifier).map PasswordRow.hash)
  return r.wrapErr "get password hash: %w" []

def PasswordRow.merge (old new : PasswordRow) : PasswordRow := { old with hash := new.hash }

theorem PasswordRow.identifier_merge (old new : PasswordRow) :
    (old.merge new).identifier = old.identifier := rfl

def savePasswordHash (identifier hash : Bytes) : Proc DB (Res Unit) :=
  .exec fun db =>
    { db with
      passwords := db.passwords.upsert PasswordRow.merge PasswordRow.identifier_merge
        ⟨identifier, hash⟩ }

def getDuressHash (subjectDID : Bytes) : Proc DB (Res Bytes) :=
  .select fun db => found ((db.duressConfigs.find subjectDID).map DuressConfig.hash)

def DuressConfig.merge (old new : DuressConfig) : DuressConfig := { old with hash := new.hash }

theorem DuressConfig.subjectDID_merge (old new : DuressConfig) :
    (old.merge new).subjectDID = old.subjectDID := rfl

def saveDuressConfig (subjectDID hash : Bytes) : Proc DB (Res Unit) :=
  .exec fun db =>
    { db with
      duressConfigs := db.duressConfigs.upsert DuressConfig.merge DuressConfig.subjectDID_merge
        ⟨subjectDID, hash⟩ }

def lockThreshold1 : Nat := 5

def lockDuration1 : Int := 5 * minute

def lockThreshold2 : Nat := 10

def lockDuration2 : Int := 30 * minute

def lockThreshold3 : Nat := 20

def lockedUntil (count : Nat) (now : Int) : Option Int :=
  if lockThreshold3 ≤ count then some (now + 100 * 365 * 24 * hour)
  else if lockThreshold2 ≤ count then some (now + lockDuration2)
  else if lockThreshold1 ≤ count then some (now + lockDuration1)
  else none

def recordAuthFailure (subjectOrEmail : Bytes) (now : Int) : Proc DB (Res Unit) := do
  let r ← .select fun db => found ((db.authFailures.find subjectOrEmail).map AuthFailure.count)
  let count := r.getD 0 + 1
  .exec fun db =>
    { db with
      authFailures := db.authFailures.upsert AuthFailure.merge AuthFailure.subjectOrEmail_merge
        ⟨subjectOrEmail, count, now, lockedUntil count now⟩ }

def getAuthFailures (subjectOrEmail : Bytes) : Proc DB (Res (Nat × Option Int)) :=
  .select fun db =>
    .ok ((db.authFailures.find subjectOrEmail).elim (0, none)
      fun row => (row.count, row.lockedUntil))

def clearAuthFailures (subjectOrEmail : Bytes) : Proc DB (Res Unit) :=
  .exec fun db => { db with authFailures := db.authFailures.delete subjectOrEmail }

/-! ### Password reset tokens -/

def savePasswordResetToken (t : PasswordResetToken) : Proc DB (Res Unit) :=
  .query fun db =>
    ((db.passwordResetTokens.insert t).1,
      { db with passwordResetTokens := (db.passwordResetTokens.insert t).2 })

def getPasswordResetToken (hash : Bytes) : Proc DB (Res PasswordResetToken) := do
  let r ← .select fun db => found (db.passwordResetTokens.find hash)
  return r.wrapErr "get password reset token: %w" []

def deletePasswordResetToken (hash : Bytes) : Proc DB (Res Unit) :=
  .exec fun db => { db with passwordResetTokens := db.passwordResetTokens.delete hash }

/-! ### Webhook subscriptions -/

def saveWebhookSubscription (sub : WebhookSubscription) : Proc DB (Res Unit) :=
  .exec fun db =>
    { db with
      webhookSubscriptions := db.webhookSubscriptions.upsert WebhookRow.merge WebhookRow.id_merge
        (.ofSubscription sub) }

def WebhookSubscription.listed (eventType : Bytes) (sub : WebhookSubscription) : Bool :=
  decide (eventType = []) || sub.eventTypes.any fun et => et = "*" || et = eventType

def listWebhookSubscriptions (eventType : Bytes) : Proc DB (Res (List WebhookSubscription)) :=
  .select fun db =>
    .ok ((db.webhookSubscriptions.rows.map WebhookRow.scan).filter
      (WebhookSubscription.listed eventType))

def deleteWebhookSubscription (id : Bytes) : Proc DB (Res Unit) :=
  .exec fun db => { db with webhookSubscriptions := db.webhookSubscriptions.delete id }

/-! ### The audit log -/

def auditMessage (eventType payload prevHash : Bytes) : Bytes :=
  prevHash ++ (marshal (.obj [("event_type", .str eventType), ("payload", .str payload),
    ("prev_hash", .str prevHash)])).getD []

def auditHash (eventType payload prevHash : Bytes) : Bytes :=
  encodeHex (sha256 (auditMessage eventType payload prevHash))

def AuditLog.append (log : AuditLog) (eventType payload hash prevHash : Bytes) : AuditLog where
  rows := log.rows ++ [⟨log.sequence + 1, eventType, payload, hash, prevHash⟩]
  sequence := log.sequence + 1
  ordered := List.pairwise_append.mpr ⟨log.ordered, pairwise_singleton _ _,
    fun e he _ h => List.mem_singleton.mp h ▸ Nat.lt_succ_of_le (log.drawn e he)⟩
  drawn e he := (List.mem_append.mp he).elim (fun h => Nat.le_succ_of_le (log.drawn e h))
    fun h => List.mem_singleton.mp h ▸ Nat.le_refl _

def appendAuditEvent (eventType payload prevHash : Bytes) : Proc DB (Res AuditEvent) :=
  let hash := auditHash sha256 eventType payload prevHash
  .query fun db =>
    (.ok ⟨db.auditLog.sequence + 1, eventType, payload, hash, prevHash⟩,
      { db with auditLog := db.auditLog.append eventType payload hash prevHash })

def getAuditHead : Proc DB (Res AuditEvent) :=
  .select fun db => found db.auditLog.rows.getLast?

def AuditLog.page (log : AuditLog) (limit offset : Int) : List AuditEvent :=
  let rows := log.rows.drop offset.toNat
  if limit < 0 then rows else rows.take limit.toNat

def listAuditEvents (limit offset : Int) : Proc DB (Res (List AuditEvent × Nat)) := do
  match ← Proc.select fun db : DB => .ok db.auditLog.rows.length with
  | .ok total => .select fun db => .ok (db.auditLog.page limit offset, total)
  | .err e => return .err e
  | .panics reason => return .panics reason

/-! ### Guardian recovery -/

def saveRecoveryConfig (cfg : RecoveryConfig) (now : Int) : Proc DB (Res Unit) :=
  .exec fun db =>
    { db with
      recoveryConfigs := db.recoveryConfigs.upsert RecoveryConfigRow.merge
        RecoveryConfigRow.subjectDID_merge
        ⟨cfg.subjectDID, cfg.threshold, stringsColumn cfg.guardianDIDs, now⟩ }

def getRecoveryConfig (subjectDID : Bytes) : Proc DB (Res RecoveryConfig) :=
  .select fun db => found ((db.recoveryConfigs.find subjectDID).map RecoveryConfigRow.scan)

def saveRecoveryRequest (req : RecoveryRequest) (now : Int) : Proc DB (Res Unit) :=
  .query fun db =>
    ((db.recoveryRequests.insert { req with startedAt := now }).1, { db with
        recoveryRequests := (db.recoveryRequests.insert { req with startedAt := now }).2 })

def getRecoveryRequest (id : Bytes) : Proc DB (Res RecoveryRequest) :=
  .select fun db => found (db.recoveryRequests.find id)

def updateRecoveryRequest (req : RecoveryRequest) : Proc DB (Res Unit) :=
  .exec fun db =>
    { db with
      recoveryRequests := db.recoveryRequests.update req.id (RecoveryRequest.merge · req)
        (RecoveryRequest.id_merge · req) }

def DB.putRecoveryShare (db : DB) (share : RecoveryShare) : DB :=
  { db with
    recoveryShares := db.recoveryShares.upsert (fun old _ => old) (fun _ _ => rfl) share }

def saveRecoveryShare (share : RecoveryShare) (now : Int) : Proc DB (Res Unit) :=
  .exec fun db => db.putRecoveryShare { share with collectedAt := now }

end TptIdentity.Store
