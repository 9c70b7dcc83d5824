import TptIdentity.BridgeState

/-!
# Package bridge and the login endpoints

The mapper from external identities to DIDs, the providers, and the handlers that log a user in.
What an upstream provider answers is an argument (`Upstream`). All logins end in
`finishBridgeAuth`.
-/

namespace TptIdentity.Bridge

open Go Store Oidc

/-! ## External identities -/

structure ExternalIdentity where
  provider : Bytes
  externalID : Bytes
  claims : Map Bytes
  duress : Bool

structure Upstream where
  authorizationURL : Bytes → Res Bytes
  exchangeCode : Bytes → Res ExternalIdentity
  prepareAuth : Res (Bytes × Bytes)
  processACS : List Bytes → Res ExternalIdentity

structure Event where
  type : Bytes
  payload : List (Bytes × Bytes)
deriving DecidableEq, Repr

structure Reply where
  response : Response
  published : List Event := []

def httpError (status : Nat) (text : String) : Reply := { response := .error status (str text) }

def httpErrorOf (status : Nat) (text : String) (e : Err) : Reply :=
  { response := .error status (str text ++ e.text) }

/-! ## The mapper -/

def isNotFound (e : Err) : Bool :=
  e.is errNoRows || contains e.text "no rows" || contains e.text "not found"

variable (srv : Server) (env : Env)

def toMultibase (key : Bytes) : Bytes :=
  let raw := 0xed :: 0x01 :: key
  (srv.multibaseEncode raw).getD ("u" ++ encodeB64 raw)

def encodeKeyDID (pub : Bytes) : Res Bytes := do
  let mb ← (srv.multibaseEncode (0xed :: 0x01 :: pub)).wrapErr "did:key encode: %w" []
  return "did:key:" ++ mb

def keyDocument (did pub : Bytes) : Value :=
  let sigKeyID := did ++ "#" ++ trimPrefix did "did:key:"
  .obj [("@context", .arr [.str "https://www.w3.org/ns/did/v1",
      .str "https://w3id.org/security/suites/ed25519-2020/v1",
      .str "https://w3id.org/security/suites/x25519-2020/v1"]), ("id", .str did),
    ("verificationMethod", .arr [.obj [("id", .str sigKeyID),
      ("type", .str "Ed25519VerificationKey2020"), ("controller", .str did),
      ("publicKeyMultibase", .str (toMultibase srv pub))]]),
    ("authentication", .arr [.str sigKeyID]), ("assertionMethod", .arr [.str sigKeyID])]

def createKeyDID (pub : Bytes) : Res (Bytes × Value) :=
  if pub.length ≠ 32 then .err (.new "did:key requires a 32-byte Ed25519 public key" [])
  else do
    let did ← encodeKeyDID srv pub
    return (did, keyDocument srv did pub)

def newKeyDID (rand : Rand) : Res (Bytes × Value) := do
  let seed ← (rand.read 0 32).wrapErr "bridge: generate key: %w" []
  (createKeyDID srv (srv.publicKey seed)).wrapErr "bridge: create did:key: %w" []

def createIdentity : Proc DB (Res Bytes) :=
  match newKeyDID srv env.rand with
  | .ok (did, doc) => do
    let now := env.clock 0
    match ← saveIdentity ⟨did, "key", [], [], "user", [], now, now⟩ with
    | .ok _ =>
      let saved ← saveDocument did doc (env.clock 1)
      return (saved.wrapErr "bridge: save did document: %w" []).bind fun _ => .ok did
    | r => return (r.wrapErr "bridge: save identity: %w" []).bind fun _ => .ok did
  | .err e => return .err e
  | .panics reason => return .panics reason

def findOrCreate (ext : ExternalIdentity) : Proc DB (Res (Bytes × Bool)) := do
  match ← getExternalLink ext.provider ext.externalID with
  | .ok link =>
    let _ ← saveExternalLink { link with lastUsedAt := env.clock 0 }
    return .ok (link.subjectDID, false)
  | .err e =>
    if isNotFound e then
      match ← createIdentity srv env with
      | .ok subjectDID =>
        let now := env.clock 2
        let saved ← saveExternalLink ⟨subjectDID, ext.provider, ext.externalID, now, now⟩
        return (saved.wrapErr "bridge: save external link: %w" []).bind fun _ =>
          .ok (subjectDID, true)
      | .err e => return .err e
      | .panics reason => return .panics reason
    else return .err (.wrap "bridge: lookup external link: %w" [] e)
  | .panics reason => return .panics reason

def linkIdentity (now : Int) (subjectDID : Bytes) (ext : ExternalIdentity) :
    Proc DB (Res Unit) := do
  match ← getExternalLink ext.provider ext.externalID with
  | .ok existing =>
    if existing.subjectDID ≠ subjectDID then
      return .err (.new "bridge: external identity already linked to a different DID" [])
    else return .ok ()
  | .err e =>
    if isNotFound e then saveExternalLink ⟨subjectDID, ext.provider, ext.externalID, now, now⟩
    else return .err (.wrap "bridge: check existing link: %w" [] e)
  | .panics reason => return .panics reason

def unlinkIdentity (subjectDID provider externalID : Bytes) : Proc DB (Res Unit) := do
  match ← listExternalLinks subjectDID with
  | .ok links =>
    if links.length ≤ 1 then return .err (.new "bridge: cannot unlink last auth method" [])
    else deleteExternalLink provider externalID
  | .err e => return .err (.wrap "bridge: list links: %w" [] e)
  | .panics reason => return .panics reason

/-! ## Providers -/

def normaliseEmail (email : Bytes) : Bytes := toLower srv.lower (trimSpace email)

def hashMagicToken (raw : Bytes) : Bytes := encodeHex (srv.sha256 raw)

def magicLinkTTL : Int := 15 * minute

def generateToken (email : Bytes) : Proc DB (Res (Bytes × Int)) :=
  match randomHex env.rand 0 32 with
  | .ok raw => do
    let expiry := env.clock 0 + magicLinkTTL
    let saved ← saveMagicLinkToken
      ⟨hashMagicToken srv raw, normaliseEmail srv email, expiry, env.clock 1⟩
    return saved.bind fun _ => .ok (raw, expiry)
  | .err e => return .err e
  | .panics reason => return .panics reason

def verifyToken (now : Int) (rawToken : Bytes) : Proc DB (Res ExternalIdentity) := do
  let hash := hashMagicToken srv rawToken
  match ← getMagicLinkToken hash with
  | .ok t =>
    if now > t.expiresAt then
      let _ ← deleteMagicLinkToken hash
      return .err (.new "magiclink: token expired" [])
    else
      let _ ← deleteMagicLinkToken hash
      return .ok
        { provider := "magiclink-email"
          externalID := t.email
          claims := Map.empty.set "email" t.email
          duress := false }
  | _ => return .err (.new "magiclink: invalid or expired token" [])

def hashPassword (password salt : Bytes) : Bytes :=
  srv.argon2IDKey password salt 3 (64 * 1024) 4 32

def verifyArgon2 (password stored : Bytes) : Res Unit :=
  match splitN 58 2 stored with
  | [saltHex, hashHex] =>
    match decodeHex saltHex with
    | .ok salt =>
      match decodeHex hashHex with
      | .ok expected =>
        if hashPassword srv password salt ≠ expected then .err (.new "mismatch" [])
        else .ok ()
      | _ => .err (.new "invalid hash" [])
    | _ => .err (.new "invalid salt" [])
  | _ => .err (.new "invalid hash format" [])

def verifyCredentials (identifier password : Bytes) : Proc DB (Res ExternalIdentity) := do
  match ← getPasswordHash (normaliseEmail srv identifier) with
  | .ok storedHash =>
    match verifyArgon2 srv password storedHash with
    | .ok _ =>
      return .ok
        { provider := "password"
          externalID := normaliseEmail srv identifier
          claims := Map.empty.set "identifier" identifier
          duress := false }
    | _ => return .err (.new "password: invalid credentials" [])
  | _ => return .err (.new "password: invalid credentials" [])

def argon2HashDuress (pass salt : Bytes) : Bytes :=
  encodeHex (srv.argon2IDKey pass salt 3 (64 * 1024) 4 32)

def checkDuress (subjectDID provided : Bytes) : Proc DB Bool := do
  match ← getDuressHash subjectDID with
  | .ok stored =>
    match cut 58 stored with
    | some (saltHex, hashStored) =>
      match decodeHex saltHex with
      | .ok salt => return argon2HashDuress srv provided salt = hashStored
      | _ => return false
    | none => return false
  | _ => return false

/-! ## Finishing a login -/

def codeRedirect (redirectURI code origState : Bytes) : Response :=
  .redirect (redirectURI ++ "?code=" ++ code
    ++ if origState ≠ [] then "&state=" ++ origState else [])

def finishSession (r : Request) (ext : ExternalIdentity) (st : BridgeState) (subjectDID : Bytes) :
    Proc DB Reply := do
  let published :=
    if ext.duress then
      [⟨"session.duress", [("provider", ext.provider), ("subject_did", subjectDID)]⟩]
    else []
  if st.clientID ≠ [] ∧ st.redirectURI ≠ [] then
    match ← issueSessionForDIDCtx env r subjectDID st.clientID st.redirectURI st.scope st.nonce
        st.codeChallenge st.codeChallengeMethod with
    | .ok code => return ⟨codeRedirect st.redirectURI code st.origState, published⟩
    | .err e => return { httpErrorOf 500 "session error: " e with published }
    | .panics _ => return { httpError 500 "" with published }
  else
    return ⟨.json 200 (.obj [("did", .str subjectDID), ("provider", .str ext.provider)]), published⟩

def finishBridgeAuth (r : Request) (ext : ExternalIdentity) (st : BridgeState) : Proc DB Reply := do
  if st.linkFor ≠ [] then
    match ← linkIdentity (env.clock 0) st.linkFor ext with
    | .ok _ =>
      return { response := .json 200 (.obj [("provider", .str ext.provider),
        ("status", .str "linked")]) }
    | .err e => return httpErrorOf 409 "link failed: " e
    | .panics _ => return httpError 500 ""
  else
    match ← findOrCreate srv env ext with
    | .ok (subjectDID, _) => finishSession (env.drop 3) r ext st subjectDID
    | .err e => return httpErrorOf 500 "identity resolution failed: " e
    | .panics _ => return httpError 500 ""

/-! ## Starting a login -/

def redirectState (now : Int) (r : Request) : BridgeState :=
  { clientID := param r.query "client_id"
    redirectURI := param r.query "redirect_uri"
    scope := param r.query "scope"
    nonce := param r.query "nonce"
    origState := param r.query "state"
    codeChallenge := param r.query "code_challenge"
    codeChallengeMethod := param r.query "code_challenge_method"
    linkFor :=
      match srv.subjectFromBearer (param r.header "Authorization") with
      | .ok subjectDID => if param r.query "link" = "true" then subjectDID else []
      | _ => []
    authnRequestID := []
    createdAt := Int64.ofInt (unix now) }

def startRedirectBridge (now : Int) (r : Request) (up : Upstream) : Reply :=
  match signBridgeState srv (redirectState srv now r) with
  | .ok stateToken =>
    match up.authorizationURL stateToken with
    | .ok authURL => { response := .redirect authURL }
    | .err e => httpErrorOf 502 "upstream error: " e
    | .panics _ => httpError 500 ""
  | _ => httpError 500 "internal error"

def samlState (now : Int) (r : Request) (requestID : Bytes) : BridgeState :=
  { clientID := param r.query "client_id"
    redirectURI := param r.query "redirect_uri"
    scope := param r.query "scope"
    nonce := param r.query "nonce"
    origState := param r.query "state"
    codeChallenge := []
    codeChallengeMethod := []
    linkFor := []
    authnRequestID := requestID
    createdAt := Int64.ofInt (unix now) }

def startSAMLBridge (now : Int) (r : Request) (up : Upstream) : Reply :=
  match up.prepareAuth with
  | .ok (idpURL, requestID) =>
    match signBridgeState srv (samlState now r requestID) with
    | .ok relayState =>
      let sep := if contains idpURL "?" then str "&" else str "?"
      { response := .redirect (idpURL ++ sep ++ "RelayState=" ++ queryEscape relayState) }
    | _ => httpError 500 "internal error"
  | .err e => httpErrorOf 502 "saml error: " e
  | .panics _ => httpError 500 ""

def handleBridgeStart (provider : Bytes) (r : Request) (up : Upstream) : Reply :=
  match srv.bridges provider with
  | none => httpError 404 "unknown provider"
  | some .redirect => startRedirectBridge srv (env.clock 0) r up
  | some .saml => startSAMLBridge srv (env.clock 0) r up
  | some _ => httpError 400 "provider does not support browser-based authentication"

/-! ## Completing a login -/

def handleBridgeCallback (provider : Bytes) (r : Request) (up : Upstream) : Proc DB Reply :=
  match srv.bridges provider with
  | none => return httpError 404 "unknown provider"
  | some .redirect =>
    let code := param r.query "code"
    let rawState := param r.query "state"
    if code = [] ∨ rawState = [] then return httpError 400 "missing code or state"
    else
      match verifyBridgeState srv (env.clock 0) rawState with
      | .ok st =>
        match up.exchangeCode code with
        | .ok ext => finishBridgeAuth srv (env.drop 1) r ext st
        | .err e => return httpErrorOf 401 "upstream auth failed: " e
        | .panics _ => return httpError 500 ""
      | .err e => return httpErrorOf 400 "invalid state: " e
      | .panics _ => return httpError 500 ""
  | some _ => return httpError 400 "provider does not support callback flow"

def optionalState (now : Int) (token : Bytes) : BridgeState :=
  if token = [] then .zero else (verifyBridgeState srv now token).getD .zero

def handleSAMLACS (provider : Bytes) (r : Request) (up : Upstream) : Proc DB Reply :=
  match srv.bridges provider with
  | none => return httpError 404 "unknown provider"
  | some .saml =>
    match r.form with
    | none => return httpError 400 "malformed form data"
    | some form =>
      let st := optionalState srv (env.clock 0) (param form "RelayState")
      let requestIDs := if st.authnRequestID ≠ [] then [st.authnRequestID] else []
      match up.processACS requestIDs with
      | .ok ext => finishBridgeAuth srv (env.drop 1) r ext st
      | .err e => return httpErrorOf 401 "SAML authentication failed: " e
      | .panics _ => return httpError 500 ""
  | some _ => return httpError 400 "provider is not a SAML provider"

structure PasswordRequest where
  identifier : Bytes
  password : Bytes
  clientID : Bytes
  redirectURI : Bytes
  scope : Bytes
  nonce : Bytes
  state : Bytes
  codeChallenge : Bytes
  codeChallengeMethod : Bytes
deriving DecidableEq, Repr

def PasswordRequest.bridgeState (req : PasswordRequest) (now : Int) : BridgeState :=
  { clientID := req.clientID
    redirectURI := req.redirectURI
    scope := req.scope
    nonce := req.nonce
    origState := req.state
    codeChallenge := req.codeChallenge
    codeChallengeMethod := req.codeChallengeMethod
    linkFor := []
    authnRequestID := []
    createdAt := Int64.ofInt (unix now) }

def withDuress (ext : ExternalIdentity) (password : Bytes) : Proc DB ExternalIdentity := do
  match ← findOrCreate srv env ext with
  | .ok (subjectDID, _) =>
    let isDuress ← checkDuress srv subjectDID password
    return { ext with duress := ext.duress || isDuress }
  | _ => return ext

def handlePasswordAuth (r : Request) : Option PasswordRequest → Proc DB Reply
  | none => return httpError 400 "invalid request"
  | some req =>
    if req.identifier = [] ∨ req.password = [] then
      return httpError 400 "identifier and password required"
    else
      match srv.bridges "password" with
      | none => return httpError 404 "password authentication not configured"
      | some .password => do
        match ← verifyCredentials srv req.identifier req.password with
        | .ok ext =>
          let _ ← clearAuthFailures req.identifier
          let ext ← withDuress srv env ext req.password
          finishBridgeAuth srv (env.drop 4) r ext (req.bridgeState (env.clock 3))
        | _ =>
          let _ ← recordAuthFailure req.identifier (env.clock 0)
          return httpError 401 "invalid credentials"
      | some _ => return httpError 500 "password provider misconfigured"

structure MagicLinkRequest where
  email : Bytes
  clientID : Bytes
  redirectURI : Bytes
  scope : Bytes
  nonce : Bytes
deriving DecidableEq, Repr

def MagicLinkRequest.bridgeState (req : MagicLinkRequest) (now : Int) : BridgeState :=
  { clientID := req.clientID
    redirectURI := req.redirectURI
    scope := req.scope
    nonce := req.nonce
    origState := []
    codeChallenge := []
    codeChallengeMethod := []
    linkFor := []
    authnRequestID := []
    createdAt := Int64.ofInt (unix now) }

def verifyURL (req : MagicLinkRequest) (rawToken : Bytes) (now : Int) : Bytes :=
  srv.issuer ++ str "/auth/magiclink/verify?token=" ++ rawToken
    ++ if req.clientID ≠ [] then
        match signBridgeState srv (req.bridgeState now) with
        | .ok stateToken => str "&state=" ++ stateToken
        | _ => []
      else []

def handleMagicLinkRequest : Option MagicLinkRequest → Proc DB Reply
  | none => return httpError 400 "invalid request"
  | some req =>
    if req.email = [] then return httpError 400 "email required"
    else do
      match ← generateToken srv env req.email with
      | .ok (rawToken, expiresAt) =>
        return { response := .json 202 (.obj [("expires_at", .str (srv.formatRFC3339 expiresAt)),
          (str "verify_url", .str (verifyURL srv req rawToken (env.clock 2)))]) }
      | _ => return httpError 500 "internal error"

def handleMagicLinkVerify (r : Request) : Proc DB Reply := do
  let rawToken := param r.query "token"
  if rawToken = [] then return httpError 400 "missing token"
  else
    match ← verifyToken srv (env.clock 0) rawToken with
    | .ok ext =>
      finishBridgeAuth srv (env.drop 2) r ext
        (optionalState srv (env.clock 1) (param r.query "state"))
    | _ => return httpError 401 "invalid or expired token"

end TptIdentity.Bridge
