import TptIdentity.AdminModel
import TptIdentity.EventsModel
import TptIdentity.GoCrypto
import TptIdentity.GoNet

/-!
# Webhooks

The store keeps the SHA-256 of a signing secret. Each delivery carries an HMAC of its body, and
the README has a function that checks it, `verifyWebhook`. URLs, the resolver and the receiver
are parameters.
-/

namespace TptIdentity.Webhooks

open Go Store Events Oidc

/-! ## The URL -/

def webhookPrivateRanges : List (IP × Nat) :=
  [([10, 0, 0, 0], 8), ([172, 16, 0, 0], 12), ([192, 168, 0, 0], 16),
    ([127, 0, 0, 0], 8), (ip6Loopback, 128), (ip6 [0xfc], 7),
    ([169, 254, 0, 0], 16), (ip6 [0xfe, 0x80], 10),
    ([100, 64, 0, 0], 10), ([198, 18, 0, 0], 15), ([0, 0, 0, 0], 8)]

def webhookIsPrivateIP (ip : IP) : Bool :=
  isLoopback ip || isLinkLocalUnicast ip || isLinkLocalMulticast ip
    || webhookPrivateRanges.any fun block => blockContains block ip

structure Net where
  /-- `url.ParseRequestURI`: the scheme and the host name. -/
  parseRequestURI : Bytes → Option (Bytes × Bytes)
  /-- `LookupHost`: the addresses, as far as `net.ParseIP` can read them. -/
  lookupHost : Bytes → Res (List (Option IP))

def validateWebhookURL (net : Net) (rawURL : Bytes) : Res Unit :=
  match net.parseRequestURI rawURL with
  | none => .err (.new "malformed URL" [])
  | some (scheme, host) =>
    if scheme ≠ "https" ∧ scheme ≠ "http" then
      .err (.new "scheme must be http or https" [])
    else
      ((net.lookupHost host).wrapErr "cannot resolve host: %w" []).bind fun ips =>
        if ips.any (fun ip => (ip.map webhookIsPrivateIP).getD false) then
          .err (.new "host resolves to a private/loopback address" [])
        else .ok ()

/-! ## Registration -/

structure RegisterWebhookRequest where
  url : Bytes
  eventTypes : List Bytes

def randomWebhookSecret (rand : Rand) : Res Bytes := do
  return "whsec_" ++ encodeHex (← rand.read 0 32)

variable (sha256 : Bytes → Bytes)

def sha256WebhookSecret (s : Bytes) : Bytes := encodeHex (sha256 s)

def randomWebhookID (rand : Rand) : Res Bytes := do return "wh_" ++ encodeHex (← rand.read 1 8)

def registered (sub : WebhookSubscription) (signingSecret : Bytes) : Value :=
  .obj [("id", .str sub.id), ("url", .str sub.url), ("event_types", .arr (sub.eventTypes.map .str)),
    ("signing_secret", .str signingSecret),
    ("created_at", .str ((Time.utc sub.createdAt).rfc3339 false))]

def handleRegisterWebhook (net : Net) (env : Env) : Option RegisterWebhookRequest → Proc DB Response
  | none => return .error 400 "invalid request"
  | some req =>
    if req.url = [] then return .error 400 "url required"
    else
      match validateWebhookURL net req.url with
      | .ok _ =>
        let eventTypes := if req.eventTypes = [] then [str "*"] else req.eventTypes
        match randomWebhookSecret env.rand, randomWebhookID env.rand with
        | .ok rawSecret, .ok id => do
          let sub : WebhookSubscription :=
            ⟨id, req.url, eventTypes, sha256WebhookSecret sha256 rawSecret, [], env.clock 0⟩
          match ← saveWebhookSubscription sub with
          | .ok _ => return .json 201 (registered sub rawSecret)
          | _ => return .error 500 "internal error"
        | _, _ => return .error 500 "internal error"
      | .err e => return Admin.errorOf 400 "invalid url: " e
      | .panics reason => return .error 500 (str reason)

def handleDeleteWebhook (id : Bytes) : Proc DB Response := do
  match ← deleteWebhookSubscription id with
  | .ok _ => return .text 204 []
  | _ => return .error 404 "not found"

/-! ## Delivery -/

structure Outgoing where
  url : Bytes
  header : Map Bytes
  body : Bytes

def computeHMAC (body secretHash : Bytes) : Bytes :=
  encodeHex (hmacSHA256 sha256 secretHash body)

def extractEventID (body : Bytes) : Bytes :=
  let assign name j id := if name = str "id" then decodeStr id j else some id
  (unmarshalInto (decodeStruct assign) [] body).getD []

/-- Whether the URL can be used, and for each attempt the status or an error. -/
structure Client where
  newRequest : Bytes → Option Err
  respond : Nat → Res Nat

def request (d : Events.Delivery) : Outgoing where
  url := d.sub.url
  header := ((Map.empty.set (str "Content-Type") (str "application/json")).set
    (str "X-TPT-Signature-256") (str "sha256=" ++ computeHMAC sha256 d.body d.sub.secretHash)).set
    (str "X-TPT-Event-ID") (extractEventID d.body)
  body := d.body

/-- The requests of the attempts that are left, and what the delivery hook is told. -/
def attempts (client : Client) (req : Outgoing) : Nat → Nat → List Outgoing × Option Bool
  | 0, _ => ([], some false)
  | left + 1, attempt =>
    match client.newRequest req.url with
    | some _ => ([], none)
    | none =>
      let rest := attempts client req left (attempt + 1)
      match client.respond attempt with
      | .ok status => if 200 ≤ status ∧ status < 300 then ([req], some true)
          else (req :: rest.1, rest.2)
      | _ => (req :: rest.1, rest.2)

def deliver (client : Client) (d : Events.Delivery) : List Outgoing × Option Bool :=
  attempts client (request sha256 d) 3 0

theorem signature_request (d : Events.Delivery) :
    param (request sha256 d).header "X-TPT-Signature-256"
      = str "sha256=" ++ computeHMAC sha256 d.body d.sub.secretHash := by
  rfl

theorem eq_of_mem_attempts {client : Client} {req sent : Outgoing} :
    ∀ {left attempt : Nat}, sent ∈ (attempts client req left attempt).1 → sent = req
  | 0, _, h => by cases h
  | left + 1, attempt, h => by
    unfold attempts at h
    split at h
    · cases h
    · split at h
      · split at h
        · exact List.mem_singleton.mp h
        · rcases List.mem_cons.mp h with h | h
          · exact h
          · exact eq_of_mem_attempts h
      · rcases List.mem_cons.mp h with h | h
        · exact h
        · exact eq_of_mem_attempts h

/-! ## The receiver -/

def verifyWebhook (r : Outgoing) (signingSecret : Bytes) : Bool :=
  param r.header "X-TPT-Signature-256"
    = "sha256=" ++ encodeHex (hmacSHA256 sha256 signingSecret r.body)

end TptIdentity.Webhooks
