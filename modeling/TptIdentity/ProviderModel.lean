import TptIdentity.TokenModel

/-!
# Package oidc: use and revocation of tokens

The endpoints that accept and revoke tokens, and the remaining ones that sign with the key. A
revoked token is remembered by the hash of its text until its expiry, and only
`IntrospectHandler` asks for it.
-/

namespace TptIdentity.Oidc

open Go Store

/-! ## Accepting tokens -/

def bearerToken (authHeader : Bytes) : Bytes := trimPrefix authHeader "Bearer "

variable {now : Int} (p : Provider) (env : Env)

def subjectFromBearer (now : Int) (authHeader : Bytes) : Res Bytes :=
  let bearer := bearerToken authHeader
  if bearer = [] then .err (.new "no bearer token" [])
  else do
    let claims ← p.verify now bearer
    return claims.subject

theorem bearerToken_append (token : Bytes) : bearerToken ("Bearer " ++ token) = token :=
  trimPrefix_append ..

theorem ne_nil_of_verify {p : Provider} {token : Bytes} {claims : Claims}
    (h : p.verify now token = .ok claims) : token ≠ [] := by
  rintro rfl
  obtain ⟨_, _, _, _, hsplit, -⟩ := verify_eq_ok.mp h
  cases hsplit

theorem subjectFromBearer_eq_ok {p : Provider} {authHeader subject : Bytes} :
    subjectFromBearer p now authHeader = .ok subject
      ↔ ∃ claims, p.verify now (bearerToken authHeader) = .ok claims
        ∧ claims.subject = subject := by
  unfold subjectFromBearer
  dsimp only
  split
  · next hnil =>
    rw [hnil]
    constructor
    · intro h
      cases h
    · rintro ⟨claims, h, -⟩
      exact absurd rfl (ne_nil_of_verify h)
  · simp only [Res.bind_eq_ok, Res.pure_eq_ok, Res.ok.injEq]

def amrValue : Option (Slice Bytes) → Value
  | some l => .arr (l.toList.map .str)
  | none => .null

def userinfoHandler (r : Request) : Answer :=
  let bearer := bearerToken (param r.header "Authorization")
  if bearer = [] then { response := .error 401 "unauthorized" }
  else
    match p.verify (env.clock 0) bearer with
    | .ok claims =>
      { response := .json 200 (.obj [("amr", amrValue claims.amr),
        ("did", .str claims.did), ("sub", .str claims.subject)]) }
    | .err e => { response := .error 401 ("invalid token: " ++ e.text) }
    | .panics _ => failed []

/-! ## Step-up authentication -/

def acrLevel (acr : Bytes) : Option Nat :=
  if acr = "mfa" then some 3
  else if acr = "pwd" then some 2
  else if acr = "social" then some 1
  else if acr = [] then some 0
  else none

def acrNeeded (need : Bytes) : Nat :=
  (fields need).foldl (fun needLevel v => max needLevel ((acrLevel v).getD 0)) 0

def acrSatisfies (have_ need : Bytes) : Bool := acrNeeded need ≤ (acrLevel have_).getD 0

def stepUpHandler (r : Request) : Answer :=
  let bearer := param r.query "access_token"
  let bearer := if bearer = [] then bearerToken (param r.header "Authorization") else bearer
  if bearer = [] then refuse "invalid_request" "access_token required"
  else
    match p.verify (env.clock 0) bearer with
    | .ok claims =>
      let requiredACR := param r.query "acr_values"
      if requiredACR = [] then refuse "invalid_request" "acr_values required"
      else if acrSatisfies claims.acr requiredACR then
        let extra := (Map.empty.set "acr" (.str claims.acr)).set "scope"
          (.str claims.scope)
        match issueJWTWithExtra p (.access .stepUp) (env.clock 1) claims.subject claims.audience
            accessTokenTTL extra with
        | .ok token =>
          ⟨.json 200 (.obj [("access_token", .str token.token),
            ("acr", .str claims.acr), ("expires_in", .int (accessTokenTTL / second)),
            ("token_type", .str "Bearer")]), [token]⟩
        | _ => failed []
      else
        let nonce := param r.query "nonce"
        let authorizeURL := p.issuer ++ "/authorize?response_type=code&acr_values="
          ++ requiredACR ++ if nonce ≠ [] then "&nonce=" ++ nonce else []
        { response := .json 401 (.obj [("acr_values", .str requiredACR),
          ("authorize_url", .str authorizeURL), ("error", .str "insufficient_user_authentication"),
          ("error_description", .str (str
            "The current authentication level does not satisfy the required ACR: "
              ++ requiredACR)), ("max_age", .int 0)]) }
    | .err e => refuseWith "invalid_token" ("access_token invalid: " ++ e.text)
    | .panics _ => failed []

/-! ## Revocation -/

/-- `time.Unix(sec, 0)`. Package time counts seconds from the year 1, in an int64. -/
def timeUnix (sec : Int64) : Int := ((sec + 62135596800).toInt - 62135596800) * second

def isAccessTokenRevoked (now : Int) (token : Bytes) (revoked : Map Int) : Bool × Map Int :=
  let h := hashToken p token
  match revoked.get h with
  | none => (false, revoked)
  | some expiresAt => if now > expiresAt then (false, revoked.delete h) else (true, revoked)

def revokeAccessToken (now : Int) (token : Bytes) (revoked : Map Int) : Map Int :=
  match parseUnverified token with
  | .ok claims =>
    let expiry := timeUnix claims.expiresAt
    if now < expiry then revoked.set (hashToken p token) expiry else revoked
  | _ => revoked

/-- Whether a token was revoked. A token of another client is left alone. -/
def revokeRefreshToken (clientID token : Bytes) : Proc DB Bool := do
  let hash := hashToken p token
  match ← getRefreshToken hash with
  | .ok rt =>
    if clientID ≠ [] ∧ rt.clientID ≠ clientID then return false
    else
      let _ ← deleteRefreshToken hash
      return true
  | _ => return false

def revokeToken (form : Map Bytes) (clientID : Bytes) (revoked : Map Int) :
    Proc DB (Answer × Map Int) := do
  let token := param form "token"
  let hint := param form "token_type_hint"
  let done ←
    if hint = [] ∨ hint = "refresh_token" then revokeRefreshToken p clientID token
    else pure false
  let revoked :=
    if done = false ∧ (hint = [] ∨ hint = "access_token") then
      revokeAccessToken p (env.clock 0) token revoked
    else revoked
  return ({ response := .json 200 (.obj []) }, revoked)

def revokeHandler (r : Request) (revoked : Map Int) : Proc DB (Answer × Map Int) :=
  match r.form with
  | none => return ({ response := .error 400 "bad request" }, revoked)
  | some form => do
    if param form "token" = [] then
      return (refuse "invalid_request" "token parameter is required", revoked)
    else
      let clientID := namedClient r form
      if clientID = [] then revokeToken p env form clientID revoked
      else
        match ← validateClientAuth p.sha256 r form clientID with
        | .ok _ => revokeToken p env form clientID revoked
        | .err e => return (refuseWith "invalid_client" e.text, revoked)
        | .panics _ => return (failed [], revoked)

/-! ## Introspection -/

def inactive : Response := .json 200 (.obj [("active", .bool false)])

def omitZero (name : Bytes) (n : Int64) : List (Bytes × Value) :=
  if n = 0 then [] else [(name, .int n.toInt)]

def activeResponse (claims : Claims) : Response :=
  .json 200 (.obj ([(str "active", .bool true)] ++ omitEmpty (str "sub") claims.subject
    ++ omitEmpty "client_id" claims.audience ++ omitZero "iat" claims.issuedAt
    ++ omitZero "exp" claims.expiresAt ++ omitEmpty "iss" claims.issuer
    ++ [(str "token_type", .str (str "Bearer"))]))

def introspectHandler (r : Request) (revoked : Map Int) : Answer × Map Int :=
  match r.form with
  | none => ({ response := .error 400 "bad request" }, revoked)
  | some form =>
    let token := param form "token"
    if token = [] then (refuse "invalid_request" "token parameter is required", revoked)
    else
      match p.verify (env.clock 0) token with
      | .ok verified =>
        let (isRevoked, revoked) := isAccessTokenRevoked p (env.clock 1) token revoked
        if isRevoked then ({ response := inactive }, revoked)
        else if unix (env.clock 2) > verified.expiresAt.toInt then
          ({ response := inactive }, revoked)
        else ({ response := activeResponse verified }, revoked)
      | _ => ({ response := inactive }, revoked)

/-! ## Logout -/

def deleteSessions : List OIDCSession → Proc DB Unit
  | [] => return ()
  | sess :: sessions => do
    if sess.refreshTokenHash ≠ [] then
      let _ ← deleteRefreshToken sess.refreshTokenHash
    let _ ← deleteSession sess.id
    deleteSessions sessions

def endSessions (subjectDID : Bytes) : Proc DB Unit := do
  match ← listSessionsBySubject (env.clock 1) subjectDID with
  | .ok sessions => deleteSessions sessions
  | _ => pure ()
  let _ ← purgeExpiredSessions (env.clock 2)
  return ()

def isRegisteredLogoutURI (uri : Bytes) : Proc DB Bool := do
  match ← listClients with
  | .ok clients => return clients.any fun c => c.postLogoutRedirectURIs.any fun u => u = uri
  | _ => return false

def hintedSubject (now : Int) (idTokenHint : Bytes) : Bytes :=
  if idTokenHint = [] then []
  else
    match p.verify now idTokenHint with
    | .ok claims => claims.subject
    | _ => []

def logoutHandler (r : Request) : Proc DB Answer := do
  let postLogoutURI := param r.query "post_logout_redirect_uri"
  let state := param r.query "state"
  let subjectDID := hintedSubject p (env.clock 0) (param r.query "id_token_hint")
  if subjectDID ≠ [] then
    endSessions env subjectDID
  let registered ←
    if postLogoutURI ≠ [] ∧ subjectDID ≠ [] then isRegisteredLogoutURI postLogoutURI
    else pure false
  let target := if registered then postLogoutURI else p.issuer
  let sep := if contains target "?" then str "&state=" else str "?state="
  return { response := .redirect (target ++ if state ≠ [] then sep ++ state else []) }

def logoutClaims (now : Int) (subjectDID clientID jti : Bytes) : Value :=
  .obj [("aud", .str clientID),
    ("events", .obj [("http://schemas.openid.net/event/backchannel-logout", .obj [])]),
    ("iat", .int (unix now)), ("iss", .str p.issuer), ("jti", .str jti), ("sub", .str subjectDID)]

/-- No request can be built, or each attempt ends with a status or an error. -/
inductive Delivery where
  | unbuildable (err : Err)
  | attempts (outcome : Nat → Res Nat)

def attemptError : Res Nat → Option Err
  | .ok status =>
    if status < 300 then none
    else some (.new "backchannel: server returned HTTP %d" [itoa status])
  | .err e => some e
  | .panics _ => none

def deliver : Delivery → Option Err
  | .unbuildable err => some (.wrap "backchannel: build request: %w" [] err)
  | .attempts outcome => do
    let _ ← attemptError (outcome 0)
    let _ ← attemptError (outcome 1)
    attemptError (outcome 2)

def sendBackChannelLogout (clientID subjectDID : Bytes) (delivery : Delivery) :
    Proc DB (Option Err × List SignedToken) := do
  match ← getClient clientID with
  | .ok client =>
    if client.backchannelLogoutURI = [] then return (none, [])
    else
      match randomHex env.rand 0 16 with
      | .ok jti =>
        match p.sign .logoutToken subjectDID clientID
            (logoutClaims p (env.clock 0) subjectDID clientID jti) with
        | .ok logoutToken => return (deliver delivery, [logoutToken])
        | .err e => return (some (.wrap "backchannel: sign logout token: %w" [] e), [])
        | .panics _ => return (none, [])
      | .err e => return (some (.wrap "backchannel: generate jti: %w" [] e), [])
      | .panics _ => return (none, [])
  | _ => return (none, [])

end TptIdentity.Oidc
