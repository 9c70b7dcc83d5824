import TptIdentity.JwtModel
import TptIdentity.OidcModel

/-!
# Package oidc: the token endpoint

`TokenHandler` with its five grants, and the device flow. Which tokens a handler signed is part
of its answer (`Answer`), also when it ends in an error. The device grant asks for no secret,
the exchange only when the request names a client.
-/

namespace TptIdentity.Oidc

open Go Store

def idTokenTTL : Int := hour

def accessTokenTTL : Int := hour

def refreshTokenTTL : Int := 30 * 24 * hour

structure Answer where
  response : Response
  signed : List SignedToken := []
deriving Repr

def Answer.success (a : Answer) : Bool :=
  match a.response with
  | .json 200 _ => true
  | _ => false

theorem wp_unsuccessful {a : Answer} {Q : Answer → DB → Prop} {db : DB} (h : a.success = false) :
    (pure a : Proc DB Answer).wp (fun a db' => a.success → Q a db') db := by
  intro hsuccess
  rw [h] at hsuccess
  cases hsuccess

def refuse (code desc : String) : Answer := { response := writeError code desc }

def refuseWith (code : String) (desc : Bytes) : Answer :=
  { response := .oauthError (str code) desc }

def failed (signed : List SignedToken) : Answer := { response := internalError, signed }

/-! ## Helpers -/

variable (p : Provider) (env : Env)

def hashToken (raw : Bytes) : Bytes := encodeHex (p.sha256 raw)

def generateRefreshToken (rand : Rand) : Res (Bytes × Bytes) := do
  let raw ← randomHex rand 0 32
  return (raw, hashToken p raw)

def verifyPKCE (challenge verifier : Bytes) : Bool :=
  encodeB64 (p.sha256 verifier) = challenge

def tokenResponse (accessToken idToken refreshToken scope : Bytes) (ttl : Int) : Response :=
  .json 200 (.obj ([(str "access_token", .str accessToken), (str "expires_in", .int (ttl / second))]
    ++ omitEmpty "id_token" idToken
    ++ [(str "refresh_token", .str refreshToken), (str "scope", .str scope),
        (str "token_type", .str (str "Bearer"))]))

/-! ## The authorization code grant -/

def issueSessionTokens (sess : OIDCSession) : Proc DB Answer :=
  match issueIDToken p (env.clock 1) sess.subjectDID sess.clientID sess.nonce idTokenTTL none with
  | .ok idToken =>
    match issueAccessToken p .code (env.clock 2) sess.subjectDID sess.clientID accessTokenTTL with
    | .ok accessToken =>
      match generateRefreshToken p env.rand with
      | .ok (rawRefresh, refreshHash) => do
        match ← saveRefreshToken
            { hash := refreshHash, subjectDID := sess.subjectDID, clientID := sess.clientID
              scope := sess.scope, issuedAt := env.clock 3
              expiresAt := env.clock 4 + refreshTokenTTL, usedAt := none } with
        | .ok _ =>
          let _ ← deleteSession sess.id
          return ⟨tokenResponse accessToken.token idToken.token rawRefresh sess.scope
            accessTokenTTL, [idToken, accessToken]⟩
        | _ => return failed [idToken, accessToken]
      | _ => return failed [idToken, accessToken]
    | _ => return failed [idToken]
  | _ => return failed []

def handleAuthCodeExchange (r : Request) (form : Map Bytes) : Proc DB Answer :=
  let code := param form "code"
  let clientID := param form "client_id"
  let codeVerifier := param form "code_verifier"
  if code = [] then return refuse "invalid_request" "missing code"
  else do
    match ← getSessionByCode code with
    | .ok sess =>
      if env.clock 0 > sess.expiresAt then
        return refuse "invalid_grant" "code not found or expired"
      else if clientID ≠ [] ∧ clientID ≠ sess.clientID then
        return refuse "invalid_grant" "client_id mismatch"
      else if codeVerifier = [] then
        return refuse "invalid_grant" "code_verifier is required (PKCE)"
      else if sess.codeChallenge = [] then
        return refuse "invalid_grant" "no PKCE challenge found for this code"
      else if verifyPKCE p sess.codeChallenge codeVerifier = false then
        return refuse "invalid_grant" "code_verifier mismatch"
      else
        match ← validateClientAuth p.sha256 r form sess.clientID with
        | .ok _ => issueSessionTokens p env sess
        | .err e => return refuseWith "invalid_client" e.text
        | .panics _ => return failed []
    | _ => return refuse "invalid_grant" "code not found or expired"

/-! ## The refresh grant -/

def issueRefreshedTokens (rt : RefreshToken) : Proc DB Answer :=
  match issueAccessToken p .refresh (env.clock 2) rt.subjectDID rt.clientID accessTokenTTL with
  | .ok accessToken =>
    match generateRefreshToken p env.rand with
    | .ok (rawRefresh, refreshHash) => do
      match ← saveRefreshToken
          { hash := refreshHash, subjectDID := rt.subjectDID, clientID := rt.clientID
            scope := rt.scope, issuedAt := env.clock 3
            expiresAt := env.clock 4 + refreshTokenTTL, usedAt := none } with
      | .ok _ =>
        return ⟨tokenResponse accessToken.token [] rawRefresh rt.scope accessTokenTTL,
          [accessToken]⟩
      | _ => return failed [accessToken]
    | _ => return failed [accessToken]
  | _ => return failed []

def refreshed (rt : RefreshToken) (hash : Bytes) : RefreshToken where
  hash := hash
  subjectDID := rt.subjectDID
  clientID := rt.clientID
  scope := rt.scope
  issuedAt := env.clock 3
  expiresAt := env.clock 4 + refreshTokenTTL
  usedAt := none

/-- The old token is marked as used, whatever comes of it. -/
def rotateRefreshToken (rt : RefreshToken) : Proc DB Answer := do
  let _ ← saveRefreshToken { rt with usedAt := some (env.clock 1) }
  issueRefreshedTokens p env rt

def handleRefreshTokenGrant (r : Request) (form : Map Bytes) : Proc DB Answer :=
  let rawToken := param form "refresh_token"
  if rawToken = [] then return refuse "invalid_request" "missing refresh_token"
  else do
    let hash := hashToken p rawToken
    match ← getRefreshToken hash with
    | .ok rt =>
      if env.clock 0 > rt.expiresAt then
        let _ ← deleteRefreshToken hash
        return refuse "invalid_grant" "refresh token expired"
      else if rt.usedAt.isSome then
        let _ ← deleteRefreshToken hash
        return refuse "invalid_grant" "refresh token already used"
      else
        match ← validateClientAuth p.sha256 r form rt.clientID with
        | .ok _ => rotateRefreshToken p env rt
        | .err e => return refuseWith "invalid_client" e.text
        | .panics _ => return failed []
    | _ => return refuse "invalid_grant" "refresh token not found"

/-! ## The client credentials grant -/

def namedClient (r : Request) (form : Map Bytes) : Bytes :=
  let clientID := param form "client_id"
  if clientID = [] then
    match r.basicAuth with
    | some (id, _) => id
    | none => []
  else clientID

def handleClientCredentialsGrant (r : Request) (form : Map Bytes) : Proc DB Answer :=
  let clientID := namedClient r form
  if clientID = [] then return refuse "invalid_client" "client_id required"
  else do
    match ← validateClientAuth p.sha256 r form clientID with
    | .ok _ =>
      match ← getClient clientID with
      | .ok client =>
        if client.tokenEndpointAuthMethod = "none" then
          return refuse "unauthorized_client"
            "public clients may not use client_credentials grant"
        else
          let scope := param form "scope"
          let scope := if scope = [] then client.scope else scope
          match issueAccessToken p .clientCredentials (env.clock 0) clientID clientID
              accessTokenTTL with
          | .ok accessToken =>
            return ⟨.json 200 (.obj [("access_token", .str accessToken.token),
              ("expires_in", .int (accessTokenTTL / second)), ("scope", .str scope),
              ("token_type", .str "Bearer")]), [accessToken]⟩
          | _ => return failed []
      | _ => return refuse "invalid_client" "unknown client"
    | .err e => return refuseWith "invalid_client" e.text
    | .panics _ => return failed []

/-! ## The device grant -/

def deviceCodeTTL : Int := 15 * minute

def devicePollInterval : Int := 5

def issueDeviceTokens (deviceCode : Bytes) (dc : DeviceCode) : Proc DB Answer :=
  match issueAccessToken p .device (env.clock 1) dc.subjectDID dc.clientID accessTokenTTL with
  | .ok accessToken =>
    match generateRefreshToken p env.rand with
    | .ok (rawRefresh, refreshHash) => do
      match ← saveRefreshToken
          { hash := refreshHash, subjectDID := dc.subjectDID, clientID := dc.clientID
            scope := dc.scope, issuedAt := env.clock 2
            expiresAt := env.clock 3 + refreshTokenTTL, usedAt := none } with
      | .ok _ =>
        let _ ← deleteDeviceCode deviceCode
        return ⟨tokenResponse accessToken.token [] rawRefresh dc.scope accessTokenTTL,
          [accessToken]⟩
      | _ => return failed [accessToken]
    | _ => return failed [accessToken]
  | _ => return failed []

def handleDeviceGrant (form : Map Bytes) : Proc DB Answer :=
  let deviceCode := param form "device_code"
  let clientID := param form "client_id"
  if deviceCode = [] then return refuse "invalid_request" "device_code required"
  else do
    match ← getDeviceCode deviceCode with
    | .ok dc =>
      if clientID ≠ [] ∧ clientID ≠ dc.clientID then
        return refuse "invalid_client" "client_id mismatch"
      else if env.clock 0 > dc.expiresAt then
        let _ ← deleteDeviceCode deviceCode
        return refuse "expired_token" "device_code expired"
      else if dc.denied then
        let _ ← deleteDeviceCode deviceCode
        return refuse "access_denied" "user denied the request"
      else if dc.approved = false then
        return refuse "authorization_pending"
          "The user has not yet approved the device request; keep polling."
      else issueDeviceTokens p env deviceCode dc
    | _ => return refuse "invalid_grant" "device_code not found"

def deviceRefreshToken (dc : DeviceCode) (hash : Bytes) : RefreshToken where
  hash := hash
  subjectDID := dc.subjectDID
  clientID := dc.clientID
  scope := dc.scope
  issuedAt := env.clock 2
  expiresAt := env.clock 3 + refreshTokenTTL
  usedAt := none

section DeviceGrant

open Proc

variable {p : Provider} {env : Env} {form : Map Bytes} {code : Bytes} {dc : DeviceCode}
  {Q : Answer → DB → Prop} {db : DB}

theorem wp_issueDeviceTokens
    (hfails : ∀ signed, (∀ t ∈ signed, issueAccessToken p .device (env.clock 1) dc.subjectDID
      dc.clientID accessTokenTTL = .ok t) → Q (failed signed) db)
    (hissues : ∀ access raw hash, issueAccessToken p .device (env.clock 1) dc.subjectDID
        dc.clientID accessTokenTTL = .ok access →
      generateRefreshToken p env.rand = .ok (raw, hash) → ∀ codes,
      codes = db.deviceCodes ∨ codes = db.deviceCodes.delete code →
      Q ⟨tokenResponse access.token [] raw dc.scope accessTokenTTL, [access]⟩
        { db.putRefreshToken (deviceRefreshToken env dc hash) with deviceCodes := codes }) :
    (issueDeviceTokens p env code dc).wp Q db := by
  unfold issueDeviceTokens
  split
  · next access haccess =>
    have hsigned := hfails [access] (List.forall_mem_singleton.mpr haccess)
    split
    · next raw hash hdrawn =>
      refine wp_exec_bind ?_ fun e => hsigned
      exact wp_exec_bind (hissues _ _ _ haccess hdrawn _ (.inr rfl))
        fun e => hissues _ _ _ haccess hdrawn _ (.inl rfl)
    · exact hsigned
  · exact hfails [] (List.forall_mem_nil _)

theorem wp_handleDeviceGrant (hrefuses : ∀ error desc, Q (refuse error desc) db)
    (hdeletes : ∀ error desc, Q (refuse error desc)
      { db with deviceCodes := db.deviceCodes.delete (param form "device_code") })
    (hissues : ∀ dc, db.deviceCodes.find (param form "device_code") = some dc →
      dc.approved = true → (issueDeviceTokens p env (param form "device_code") dc).wp Q db) :
    (handleDeviceGrant p env form).wp Q db := by
  have hdelete : ∀ error desc,
      (deleteDeviceCode (param form "device_code") >>= fun _ => pure (refuse error desc)).wp Q db :=
    fun error desc => wp_exec_bind (hdeletes error desc) fun e => hrefuses error desc
  refine wp_ite (fun _ => hrefuses ..) fun _ => ?_
  refine wp_lookup_bind ?_ fun e => hrefuses ..
  cases hfind : db.deviceCodes.find (param form "device_code") with
  | none => exact hrefuses ..
  | some dc =>
    refine wp_ite (fun _ => hrefuses ..) fun _ => wp_ite (fun _ => hdelete ..) fun _ => ?_
    refine wp_ite (fun _ => hdelete ..) fun _ => wp_ite (fun _ => hrefuses ..) fun h => ?_
    exact hissues dc hfind (Bool.eq_true_of_not_eq_false h)

end DeviceGrant

def userCodeChars : Bytes := "ABCDEFGHJKLMNPQRSTUVWXYZ23456789"

def generateUserCode (intn : Nat → Fin 32) : Bytes :=
  let b := (List.range 8).map fun i => userCodeChars.getD (intn i) 0
  b.take 4 ++ "-" ++ b.drop 4

def deviceAuthorizationHandler (intn : Nat → Fin 32) (r : Request) : Proc DB Answer :=
  match r.form with
  | none => return refuse "invalid_request" "could not parse form"
  | some form => do
    let clientID := param form "client_id"
    if clientID = [] then return refuse "invalid_client" "client_id required"
    else
      match ← validateClientAuth p.sha256 r form clientID with
      | .ok _ =>
        match randomHex env.rand 0 32 with
        | .ok devCode =>
          let userCode := generateUserCode intn
          let saved ← saveDeviceCode
            { deviceCode := devCode, userCode, clientID, scope := param form "scope"
              subjectDID := [], approved := false, denied := false
              expiresAt := env.clock 0 + deviceCodeTTL, intervalSecs := devicePollInterval
              createdAt := env.clock 1 }
          match saved with
          | .ok _ =>
            let verificationURI := p.issuer ++ "/device"
            return { response := .json 200 (.obj [("device_code", .str devCode),
              ("expires_in", .int (deviceCodeTTL / second)), ("interval", .int devicePollInterval),
              ("user_code", .str userCode), ("verification_uri", .str verificationURI),
              ("verification_uri_complete", .str (verificationURI ++ "?user_code=" ++ userCode))]) }
          | _ => return failed []
        | _ => return failed []
      | .err e => return refuseWith "invalid_client" e.text
      | .panics _ => return failed []

def deviceVerifyHandler (r : Request) : Proc DB Answer := do
  let userCode := param r.query "user_code"
  if userCode = [] then
    return { response := .json 200 (.obj [("prompt", .str (str
      ("Enter the user_code shown on your device at this URL, "
        ++ "then POST to /device/approve.")))]) }
  else
    match ← getDeviceCodeByUserCode (toUpper p.upper userCode) with
    | .ok dc =>
      if env.clock 0 > dc.expiresAt then
        return refuse "invalid_request" "user_code not found or expired"
      else
        return { response := .json 200 (.obj [("client_id", .str dc.clientID),
          ("message", .str (str ("Authenticate and POST to /device/approve with "
            ++ "\x7buser_code, subject_did\x7d to approve."))), ("scope", .str dc.scope)]) }
    | _ => return refuse "invalid_request" "user_code not found or expired"

def deviceApproveHandler (r : Request) : Proc DB Answer :=
  match r.form with
  | none => return refuse "invalid_request" "could not parse form"
  | some form => do
    let userCode := toUpper p.upper (param form "user_code")
    let subjectDID := param form "subject_did"
    if userCode = [] ∨ subjectDID = [] then
      return refuse "invalid_request" "user_code and subject_did required"
    else
      match ← getDeviceCodeByUserCode userCode with
      | .ok dc =>
        if env.clock 0 > dc.expiresAt then
          return refuse "invalid_request" "user_code not found or expired"
        else
          match ← updateDeviceCode { dc with subjectDID, approved := true } with
          | .ok _ =>
            return { response := .json 200 (.obj [("status", .str "approved")]) }
          | _ => return failed []
      | _ => return refuse "invalid_request" "user_code not found or expired"

/-! ## Token exchange -/

def scopeIsSubset (requested allowed : Bytes) : Bool :=
  (fields requested).all fun s => (fields allowed).contains s

def ttAccessToken : String := "urn:ietf:params:oauth:token-type:access_token"

def callerClient (r : Request) (form : Map Bytes) : Bytes :=
  match r.basicAuth with
  | some (user, _) => user
  | none => param form "client_id"

def exchangeExtra (now : Int) (audience scope actorToken callerClientID : Bytes) : Map Value :=
  let extra := Map.empty.set "aud" (.str audience)
  let extra := if scope = [] then extra else extra.set "scope" (.str scope)
  let act := fun sub : Bytes => extra.set "act" (.obj [("sub", .str sub)])
  if actorToken ≠ [] then
    match p.verify now actorToken with
    | .ok actClaims => act actClaims.subject
    | _ => extra
  else if callerClientID ≠ [] then act callerClientID
  else extra

def exchangeToken (form : Map Bytes) (claims : Claims) (callerClientID : Bytes) : Answer :=
  let requestedScope := param form "scope"
  if requestedScope ≠ [] ∧ scopeIsSubset requestedScope claims.scope = false then
    refuse "invalid_scope" "requested scope exceeds subject_token scope"
  else
    let effectiveScope := if requestedScope ≠ [] then requestedScope else claims.scope
    let audience := param form "audience"
    let audience := if audience = [] then p.issuer else audience
    let extra := exchangeExtra p (env.clock 1) audience effectiveScope (param form "actor_token")
      callerClientID
    match issueJWTWithExtra p (.access .exchange) (env.clock 2) claims.subject audience
        accessTokenTTL extra with
    | .ok accessToken =>
      ⟨.json 200 (.obj [("access_token", .str accessToken.token),
        ("expires_in", .int (accessTokenTTL / second)),
        ("issued_token_type", .str (str ttAccessToken)),
        ("scope", .str effectiveScope), ("token_type", .str "Bearer")]), [accessToken]⟩
    | _ => failed []

def handleTokenExchange (r : Request) (form : Map Bytes) : Proc DB Answer :=
  let subjectToken := param form "subject_token"
  let requestedTokenType := param form "requested_token_type"
  if subjectToken = [] then return refuse "invalid_request" "subject_token required"
  else if param form "subject_token_type" ≠ str ttAccessToken then
    return refuse "invalid_request" ("subject_token_type must be " ++ ttAccessToken)
  else if requestedTokenType ≠ [] ∧ requestedTokenType ≠ str ttAccessToken then
    return refuse "invalid_request" ("requested_token_type must be " ++ ttAccessToken)
  else
    match p.verify (env.clock 0) subjectToken with
    | .ok claims => do
      let callerClientID := callerClient r form
      if callerClientID = [] then return exchangeToken p env form claims callerClientID
      else
        match ← validateClientAuth p.sha256 r form callerClientID with
        | .ok _ => return exchangeToken p env form claims callerClientID
        | .err e => return refuseWith "invalid_client" e.text
        | .panics _ => return failed []
    | .err e =>
      return refuseWith "invalid_request" ("subject_token invalid: " ++ e.text)
    | .panics _ => return failed []

/-! ## The endpoint -/

def grantType (form : Map Bytes) : Bytes :=
  let grantType := param form "grant_type"
  if grantType = [] then "authorization_code" else grantType

def tokenHandler (r : Request) : Proc DB Answer :=
  match r.form with
  | none => return { response := .error 400 "bad request" }
  | some form =>
    if grantType form = "authorization_code" then handleAuthCodeExchange p env r form
    else if grantType form = "refresh_token" then handleRefreshTokenGrant p env r form
    else if grantType form = "client_credentials" then
      handleClientCredentialsGrant p env r form
    else if grantType form = "urn:ietf:params:oauth:grant-type:device_code" then
      handleDeviceGrant p env form
    else if grantType form = "urn:ietf:params:oauth:grant-type:token-exchange" then
      handleTokenExchange p env r form
    else
      return refuse "unsupported_grant_type"
        ("supported: authorization_code, refresh_token, client_credentials, "
          ++ "urn:ietf:params:oauth:grant-type:device_code, "
          ++ "urn:ietf:params:oauth:grant-type:token-exchange")

end TptIdentity.Oidc
