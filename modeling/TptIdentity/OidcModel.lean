import TptIdentity.StoreModel

/-!
# Package oidc: registration, pushed requests, authorization

The endpoints that create clients and authorization codes, and `IssueSessionForDIDCtx`, which
checks nothing. Form and query values are maps to the first value of a name; a JSON body is
given decoded.
-/

namespace TptIdentity.Oidc

open Go Store

/-! ## Requests and responses -/

structure Request where
  query : Map Bytes
  /-- `r.Form` after `ParseForm`, `none` when it fails. -/
  form : Option (Map Bytes)
  header : Map Bytes
  basicAuth : Option (Bytes × Bytes)
  remoteAddr : Bytes

def param (m : Map Bytes) (name : String) : Bytes := (m.get (str name)).getD []

structure Env where
  rand : Rand
  clock : Nat → Int

variable (sha256 : Bytes → Bytes) (env : Env)

def Env.drop (n : Nat) : Env :=
  ⟨⟨fun i => env.rand.fails (n + i), fun i => env.rand.byte (n + i)⟩, fun i => env.clock (n + i)⟩

inductive Response where
  /-- `http.Error`. -/
  | error (status : Nat) (text : Bytes)
  /-- `writeError`. -/
  | oauthError (code desc : Bytes)
  /-- `http.Redirect` with status 302. -/
  | redirect (location : Bytes)
  | json (status : Nat) (body : Value)
  /-- `w.Write` of a body that is not JSON. -/
  | text (status : Nat) (body : Bytes)
deriving Repr

def Response.isRedirect : Response → Bool
  | .redirect _ => true
  | _ => false

def writeError (code desc : String) : Response := .oauthError (str code) (str desc)

def internalError : Response := .error 500 "internal error"

/-! ## Helpers -/

def randomHex (rand : Rand) (i n : Nat) : Res Bytes := do return encodeHex (← rand.read i n)

def randomID (rand : Rand) (i : Nat) : Bytes := "sess_" ++ (randomHex rand i 16).getD []

def hashSecret (s : Bytes) : Bytes := encodeHex (sha256 s)

def containsURI (list : List Bytes) (uri : Bytes) : Bool := list.any fun u => u = uri

def remoteIP (r : Request) : Bytes :=
  let fwd := param r.header "X-Forwarded-For"
  if fwd ≠ [] then (splitN 44 2 fwd).headD []
  else
    match lastIndex r.remoteAddr ":" with
    | some idx => if 0 < idx then r.remoteAddr.take idx else r.remoteAddr
    | none => r.remoteAddr

def codeTTL : Int := 5 * minute

/-! ## Client registration -/

structure RegisterClientRequest where
  clientName : Bytes
  redirectURIs : List Bytes
  tokenEndpointAuthMethod : Bytes
  grantTypes : List Bytes
  responseTypes : List Bytes
  scope : Bytes
  backchannelLogoutURI : Bytes
deriving DecidableEq, Repr

def RegisterClientRequest.authMethod (req : RegisterClientRequest) : Bytes :=
  if req.tokenEndpointAuthMethod = [] then "client_secret_basic"
  else req.tokenEndpointAuthMethod

def RegisterClientRequest.client (req : RegisterClientRequest) (clientID secretHash : Bytes)
    (createdAt : Int) : OIDCClient :=
  { clientID
    clientSecretHash := secretHash
    clientName := req.clientName
    redirectURIs := req.redirectURIs
    tokenEndpointAuthMethod := req.authMethod
    grantTypes :=
      if req.grantTypes = [] then ["authorization_code", "refresh_token"]
      else req.grantTypes
    responseTypes := if req.responseTypes = [] then ["code"] else req.responseTypes
    scope := req.scope
    backchannelLogoutURI := req.backchannelLogoutURI
    postLogoutRedirectURIs := []
    createdAt }

def registerClientResponse (c : OIDCClient) (clientSecret : Bytes) (issuedAt : Int) : Value :=
  .obj ([(str "client_id", .str c.clientID)]
    ++ omitEmpty "client_secret" clientSecret
    ++ [(str "client_name", .str c.clientName),
        (str "redirect_uris", .arr (c.redirectURIs.map .str)),
        (str "token_endpoint_auth_method", .str c.tokenEndpointAuthMethod),
        (str "grant_types", .arr (c.grantTypes.map .str)),
        (str "response_types", .arr (c.responseTypes.map .str))]
    ++ omitEmpty "backchannel_logout_uri" c.backchannelLogoutURI
    ++ [(str "client_id_issued_at", .int (unix issuedAt))])

def newSecret (rand : Rand) (authMethod : Bytes) : Res Bytes :=
  if authMethod ≠ "none" then randomHex rand 1 32 else .ok []

def registerClientHandler : Option RegisterClientRequest → Proc DB Response
  | none => return writeError "invalid_client_metadata" "invalid request body"
  | some req =>
    if req.redirectURIs = [] then
      return writeError "invalid_client_metadata" "redirect_uris required"
    else if req.clientName = [] then
      return writeError "invalid_client_metadata" "client_name required"
    else
      match randomHex env.rand 0 16, newSecret env.rand req.authMethod with
      | .ok clientID, .ok clientSecret => do
        let secretHash :=
          if req.authMethod ≠ "none" then hashSecret sha256 clientSecret else []
        let client := req.client clientID secretHash (env.clock 0)
        match ← saveClient client with
        | .ok _ => return .json 201 (registerClientResponse client clientSecret (env.clock 1))
        | _ => return internalError
      | _, _ => return internalError

/-! ## Pushed authorization requests -/

def providedSecret (r : Request) (form : Map Bytes) (clientID : Bytes) : Bytes :=
  match r.basicAuth with
  | some (user, pass) => if user = clientID then pass else param form "client_secret"
  | none => param form "client_secret"

def validateClientAuth (r : Request) (form : Map Bytes) (clientID : Bytes) :
    Proc DB (Res Unit) := do
  match ← getClient clientID with
  | .ok client =>
    if client.tokenEndpointAuthMethod = "none" then return .ok ()
    else if providedSecret r form clientID = [] then
      return .err (.new "client authentication required" [])
    else if hashSecret sha256 (providedSecret r form clientID) ≠ client.clientSecretHash then
      return .err (.new "invalid client credentials" [])
    else return .ok ()
  | _ => return .err (.new "unknown client" [])

def parTTL : Int := 90 * second

def parParams (form : Map Bytes) : Value :=
  .obj ((form.entries.filter fun e => e.2 ≠ []).map fun e => (e.1, .str e.2))

def pushRequest (form : Map Bytes) (clientID : Bytes) : Proc DB Response :=
  match randomHex env.rand 0 32 with
  | .ok requestID => do
    let requestURI := "urn:ietf:params:oauth:request_uri:" ++ requestID
    match ← savePARRequest ⟨requestURI, clientID, (parParams form).text, env.clock 0 + parTTL,
        env.clock 1⟩ with
    | .ok _ =>
      return .json 201 (.obj [("expires_in", .int (parTTL / second)),
        ("request_uri", .str requestURI)])
    | _ => return internalError
  | _ => return internalError

def parHandler (r : Request) : Proc DB Response :=
  match r.form with
  | none => return writeError "invalid_request" "could not parse form"
  | some form => do
    let clientID := param form "client_id"
    if clientID = [] then return writeError "invalid_client" "client_id required"
    else
      match ← validateClientAuth sha256 r form clientID with
      | .ok _ =>
        let redirectURI := param form "redirect_uri"
        if redirectURI = [] then pushRequest env form clientID
        else
          match ← getClient clientID with
          | .ok client =>
            if containsURI client.redirectURIs redirectURI then pushRequest env form clientID
            else
              return writeError "invalid_request"
                "redirect_uri not registered for this client"
          | _ => return writeError "invalid_client" "unknown client"
      | .err e => return .oauthError "invalid_client" e.text
      | .panics _ => return internalError

def resolvePARRequest (now : Int) (requestURI : Bytes) : Proc DB (Res (Map Bytes)) := do
  match ← getPARRequest requestURI with
  | .ok par =>
    if now > par.expiresAt then
      let _ ← deletePARRequest requestURI
      return .err (.new "par: request_uri expired" [])
    else
      let _ ← deletePARRequest requestURI
      match unmarshalInto (fun j _ => decodeStringMap j) Map.empty par.params with
      | .ok params => return .ok params
      | _ => return .err (.new "par: malformed params" [])
  | _ => return .err (.new "par: request_uri not found" [])

/-! ## Authorization -/

def authorize (r : Request) (q : Map Bytes) : Proc DB Response :=
  let clientID := param q "client_id"
  let redirectURI := param q "redirect_uri"
  let state := param q "state"
  let codeChallenge := param q "code_challenge"
  let codeChallengeMethod := param q "code_challenge_method"
  let subjectDID := param r.header "X-Subject-DID"
  if clientID = [] ∨ redirectURI = [] ∨ subjectDID = [] then
    return .error 400 "missing required parameters"
  else if state = [] then return writeError "invalid_request" "state parameter is required"
  else if codeChallenge = [] then
    return writeError "invalid_request" "code_challenge is required (PKCE, RFC 7636)"
  else if codeChallengeMethod ≠ "S256" then
    return writeError "invalid_request" "code_challenge_method must be S256"
  else do
    match ← getClient clientID with
    | .ok client =>
      if containsURI client.redirectURIs redirectURI = false then
        return writeError "invalid_request" "redirect_uri not registered for this client"
      else
        match randomHex env.rand 0 32 with
        | .ok code =>
          let saved ← saveSession
            { id := randomID env.rand 1, subjectDID, clientID, redirectURI
              scope := param q "scope", nonce := param q "nonce", state, code
              codeChallenge, codeChallengeMethod
              accessToken := [], refreshTokenHash := []
              userAgent := param r.header "User-Agent", ipAddress := remoteIP r
              lastUsedAt := none
              createdAt := env.clock 1, expiresAt := env.clock 2 + codeTTL }
          match saved with
          | .ok _ =>
            return .redirect (redirectURI ++ "?code=" ++ code
              ++ if state ≠ [] then "&state=" ++ state else [])
          | _ => return internalError
        | _ => return internalError
    | _ => return writeError "unauthorized_client" "unknown client_id"

/-- `GET /authorize`. Pushed parameters take precedence over those of the query. -/
def authorizeHandler (r : Request) : Proc DB Response :=
  let requestURI := param r.query "request_uri"
  if requestURI = [] then authorize env r r.query
  else do
    match ← resolvePARRequest (env.clock 0) requestURI with
    | .ok params => authorize env r (r.query.setAll params.entries)
    | .err e => return .oauthError "invalid_request" e.text
    | .panics _ => return internalError

def issueSessionForDIDCtx (r : Request) (subjectDID clientID redirectURI scope nonce
    codeChallenge codeChallengeMethod : Bytes) : Proc DB (Res Bytes) :=
  match randomHex env.rand 0 32 with
  | .ok code => do
    let saved ← saveSession
      { id := randomID env.rand 1, subjectDID, clientID, redirectURI, scope, nonce
        state := [], code, codeChallenge, codeChallengeMethod
        accessToken := [], refreshTokenHash := []
        userAgent := param r.header "User-Agent", ipAddress := remoteIP r
        lastUsedAt := none
        createdAt := env.clock 0, expiresAt := env.clock 1 + codeTTL }
    return saved.bind fun _ => .ok code
  | .err e => return .err e
  | .panics reason => return .panics reason

end TptIdentity.Oidc
