import TptIdentity.ProviderModel

/-!
# Package oidc: OpenID for Verifiable Presentations

A verifier creates a request, a wallet fetches it as a signed object and posts its response, the
verifier asks for it. Both are kept in memory (`OID4VPStore`), and a timer removes expired ones.
-/

namespace TptIdentity.Oidc

open Go Store

structure OID4VPRequest where
  id : Bytes
  clientID : Bytes
  responseType : Bytes
  responseMode : Bytes
  responseURI : Bytes
  nonce : Bytes
  presentationDefinition : Value
  expiresAt : Int
  createdAt : Int

structure OID4VPResponse where
  requestID : Bytes
  vpToken : Bytes
  state : Bytes
  receivedAt : Int

structure OID4VPStore where
  requests : Map OID4VPRequest
  responses : Map OID4VPResponse

def newOID4VPStore : OID4VPStore := ⟨.empty, .empty⟩

def OID4VPStore.evict (s : OID4VPStore) (now : Int) : OID4VPStore :=
  let expired := fun id => (s.requests.get id).any fun req => req.expiresAt < now
  ⟨s.requests.filterKeys fun id => !expired id, s.responses.filterKeys fun id => !expired id⟩

structure CreateRequest where
  clientID : Bytes
  presentationDefinition : Value
  expiresIn : Int64
  responseMode : Bytes

def CreateRequest.ttl (req : CreateRequest) : Int :=
  let ttl := (req.expiresIn * 1000000000).toInt
  if ttl ≤ 0 then 5 * minute else ttl

def isNil : Value → Bool
  | .null => true
  | _ => false

variable (p : Provider) (env : Env)

def CreateRequest.request (req : CreateRequest) : OID4VPRequest :=
  { id := (randomHex env.rand 0 16).getD []
    clientID := req.clientID
    responseType := "vp_token"
    responseMode := if req.responseMode = [] then "direct_post" else req.responseMode
    responseURI := p.issuer ++ "/oid4vp/responses"
    nonce := (randomHex env.rand 1 16).getD []
    presentationDefinition := req.presentationDefinition
    expiresAt := env.clock 0 + req.ttl
    createdAt := env.clock 1 }

def createRequestHandler (body : Option CreateRequest) (s : OID4VPStore) : Answer × OID4VPStore :=
  match body with
  | none => (refuse "invalid_request" "invalid JSON body", s)
  | some req =>
    if isNil req.presentationDefinition then
      (refuse "invalid_request" "presentation_definition required", s)
    else
      let pReq := req.request p env
      let requestURI := p.issuer ++ "/oid4vp/requests/" ++ pReq.id
      let deepLink := "openid4vp://?request_uri=" ++ requestURI ++ "&client_id="
        ++ req.clientID
      ({ response := .json 200 (.obj [("deep_link", .str deepLink),
          ("expires_at", .str (p.formatTime pReq.expiresAt)), ("nonce", .str pReq.nonce),
          ("qr_data", .str deepLink), ("request_id", .str pReq.id),
          ("request_uri", .str requestURI)]) }, { s with requests := s.requests.set pReq.id pReq })

def OID4VPRequest.extra (pReq : OID4VPRequest) : Map Value :=
  ((((((Map.empty.set "response_type" (.str pReq.responseType)).set
    "response_mode" (.str pReq.responseMode)).set
    "response_uri" (.str pReq.responseURI)).set "client_id" (.str pReq.clientID)).set
    "nonce" (.str pReq.nonce)).set
    "presentation_definition" pReq.presentationDefinition).set "state" (.str pReq.id)

def getRequestHandler (id : Bytes) (s : OID4VPStore) : Answer :=
  match s.requests.get id with
  | none => { response := .error 404 "request not found" }
  | some pReq =>
    if env.clock 0 > pReq.expiresAt then { response := .error 410 "request expired" }
    else
      match issueJWTWithExtra p .requestObject (env.clock 2) pReq.clientID p.issuer
          (pReq.expiresAt - env.clock 1) pReq.extra with
      | .ok reqJWT => ⟨.text 200 reqJWT.token, [reqJWT]⟩
      | _ => failed []

def postResponseHandler (r : Request) (s : OID4VPStore) : Answer × OID4VPStore :=
  match r.form with
  | none => (refuse "invalid_request" "could not parse form", s)
  | some form =>
    let vpToken := param form "vp_token"
    let state := param form "state"
    if vpToken = [] then (refuse "invalid_request" "vp_token required", s)
    else
      ({ response := .json 200 (.obj [("redirect_uri",
          .str (p.issuer ++ "/oid4vp/responses/" ++ state ++ "/result"))]) },
        { s with responses := s.responses.set state ⟨state, vpToken, state, env.clock 0⟩ })

def getResponseHandler (id : Bytes) (s : OID4VPStore) : Answer :=
  match s.responses.get id with
  | none =>
    { response := .json 202 (.obj [("message", .str "Waiting for wallet to submit presentation."),
      ("status", .str "pending")]) }
  | some resp =>
    { response := .json 200 (.obj [("received_at", .str (p.formatTime resp.receivedAt)),
      ("status", .str "complete"), ("vp_token", .str resp.vpToken)]) }

end TptIdentity.Oidc
