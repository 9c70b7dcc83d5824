import TptIdentity.GoBase64
import TptIdentity.OidcModel

/-!
# Signed bridge states

What the last request of a login needs of the first travels as an HMAC over the base64 text of a
JSON object (`signBridgeState`), and is read back until it expires (`verifyBridgeState_eq`).
-/

namespace TptIdentity.Bridge

open Go Oidc

inductive ProviderKind where
  | redirect
  | saml
  | password
  | other
deriving DecidableEq, Repr

/-- The configuration of a server, and what it takes from other packages. -/
structure Server where
  issuer : Bytes
  apiKey : Bytes
  bridges : Bytes → Option ProviderKind
  sha256 : Bytes → Bytes
  hmacSHA256 : Bytes → Bytes → Bytes
  argon2IDKey : Bytes → Bytes → Nat → Nat → Nat → Nat → Bytes
  lower : Nat → Nat
  publicKey : Bytes → Bytes
  multibaseEncode : Bytes → Res Bytes
  formatRFC3339 : Int → Bytes
  subjectFromBearer : Bytes → Res Bytes

structure BridgeState where
  clientID : Bytes
  redirectURI : Bytes
  scope : Bytes
  nonce : Bytes
  origState : Bytes
  codeChallenge : Bytes
  codeChallengeMethod : Bytes
  linkFor : Bytes
  authnRequestID : Bytes
  createdAt : Int64
deriving DecidableEq, Repr

namespace BridgeState

def zero : BridgeState := ⟨[], [], [], [], [], [], [], [], [], 0⟩

def members (st : BridgeState) : List (Bytes × Value) :=
  [(str "client_id", .str st.clientID), (str "redirect_uri", .str st.redirectURI),
    (str "scope", .str st.scope), (str "nonce", .str st.nonce)]
    ++ omitEmpty "orig_state" st.origState
    ++ omitEmpty "code_challenge" st.codeChallenge
    ++ omitEmpty "code_challenge_method" st.codeChallengeMethod
    ++ omitEmpty "link_for" st.linkFor
    ++ omitEmpty "authn_request_id" st.authnRequestID
    ++ [(str "created_at", .int st.createdAt.toInt)]

def assign (name : Bytes) (j : Json) (st : BridgeState) : Option BridgeState :=
  if name = "client_id" then
    (decodeStr st.clientID j).map fun s => { st with clientID := s }
  else if name = "redirect_uri" then
    (decodeStr st.redirectURI j).map fun s => { st with redirectURI := s }
  else if name = "scope" then (decodeStr st.scope j).map fun s => { st with scope := s }
  else if name = "nonce" then (decodeStr st.nonce j).map fun s => { st with nonce := s }
  else if name = "orig_state" then
    (decodeStr st.origState j).map fun s => { st with origState := s }
  else if name = "code_challenge" then
    (decodeStr st.codeChallenge j).map fun s => { st with codeChallenge := s }
  else if name = "code_challenge_method" then
    (decodeStr st.codeChallengeMethod j).map fun s => { st with codeChallengeMethod := s }
  else if name = "link_for" then (decodeStr st.linkFor j).map fun s => { st with linkFor := s }
  else if name = "authn_request_id" then
    (decodeStr st.authnRequestID j).map fun s => { st with authnRequestID := s }
  else if name = "created_at" then
    (decodeInt64 st.createdAt j).map fun t => { st with createdAt := t }
  else some st

def unmarshal (raw : Bytes) : Res BridgeState := unmarshalInto (decodeStruct assign) zero raw

end BridgeState

variable (srv : Server) (st : BridgeState)

def stateSignature (payload : Bytes) : Bytes :=
  encodeHex (srv.hmacSHA256 srv.apiKey payload)

def signBridgeState (st : BridgeState) : Res Bytes := do
  let b ← marshal (.obj st.members)
  let payload := encodeB64 b
  return payload ++ 46 :: stateSignature srv payload

def verifyBridgeState (now : Int) (token : Bytes) : Res BridgeState :=
  match splitN 46 2 token with
  | [payload, sig] =>
    if sig ≠ stateSignature srv payload then .err (.new "invalid state token signature" [])
    else do
      let raw ← decodeB64 payload
      let st ← BridgeState.unmarshal raw
      if Int64.ofInt (unix now) - st.createdAt > 600 then .err (.new "state token expired" [])
      else return st
  | _ => .err (.new "invalid state token" [])

/-! ## Reading a state back -/

namespace BridgeState

def coerced (st : BridgeState) : BridgeState :=
  { clientID := coerce st.clientID
    redirectURI := coerce st.redirectURI
    scope := coerce st.scope
    nonce := coerce st.nonce
    origState := coerce st.origState
    codeChallenge := coerce st.codeChallenge
    codeChallengeMethod := coerce st.codeChallengeMethod
    linkFor := coerce st.linkFor
    authnRequestID := coerce st.authnRequestID
    createdAt := st.createdAt }

def fields (st : BridgeState) : Fields :=
  [("client_id", some (.str st.clientID)), ("redirect_uri", some (.str st.redirectURI)),
    ("scope", some (.str st.scope)), ("nonce", some (.str st.nonce)),
    ("orig_state", omitted st.origState), ("code_challenge", omitted st.codeChallenge),
    ("code_challenge_method", omitted st.codeChallengeMethod),
    ("link_for", omitted st.linkFor), ("authn_request_id", omitted st.authnRequestID),
    ("created_at", some (.int st.createdAt.toInt))]

variable (st : BridgeState)

theorem members_eq : st.members = st.fields.members := by
  simp only [members, fields, Fields.members_cons, Fields.members_nil, omitEmpty_eq,
    List.append_assoc, List.append_nil]
  rfl

theorem writable : (Value.obj st.members).Writable 1 := by
  rw [members_eq]
  refine writable_fields ?_
  simp only [fields, List.forall_mem_cons, Option.mem_some_iff, forall_eq']
  exact ⟨writable_str 0 _, writable_str 0 _, writable_str 0 _, writable_str 0 _,
    writable_omitted 0 _, writable_omitted 0 _, writable_omitted 0 _, writable_omitted 0 _,
    writable_omitted 0 _, writable_int 0 _, List.forall_mem_nil _⟩

theorem unmarshal_text : unmarshal (Value.obj st.members).text = .ok st.coerced := by
  have hwritable := st.writable
  rw [members_eq] at hwritable ⊢
  refine unmarshalInto_fields hwritable (by decide) ?_
  refine reads_field (decodeStr_wire_str [] _) ?_
  refine reads_field (decodeStr_wire_str [] _) ?_
  refine reads_field (decodeStr_wire_str [] _) ?_
  refine reads_field (decodeStr_wire_str [] _) ?_
  refine reads_field (readsAs_omitted _) ?_
  refine reads_field (readsAs_omitted _) ?_
  refine reads_field (readsAs_omitted _) ?_
  refine reads_field (readsAs_omitted _) ?_
  refine reads_field (readsAs_omitted _) ?_
  exact reads_field (decodeInt64_wire 0 _) (reads_nil _)

end BridgeState

def stateToken (st : BridgeState) : Bytes :=
  let payload := encodeB64 (Value.obj st.members).text
  payload ++ 46 :: stateSignature srv payload

theorem signBridgeState_eq : signBridgeState srv st = .ok (stateToken srv st) := by
  simp [signBridgeState, marshal, st.writable.supported, stateToken]

theorem verifyBridgeState_eq (now : Int) :
    verifyBridgeState srv now (stateToken srv st)
      = if Int64.ofInt (unix now) - st.createdAt > 600 then .err (.new "state token expired" [])
        else .ok st.coerced := by
  have hsplit : splitN 46 2 (stateToken srv st)
      = [encodeB64 (Value.obj st.members).text,
          stateSignature srv (encodeB64 (Value.obj st.members).text)] :=
    splitN_cut 0 _ (not_mem_encodeB64 (by decide) _)
  simp only [verifyBridgeState, hsplit, ne_eq, not_true_eq_false, if_false, decodeB64_encodeB64,
    Res.ok_bind, BridgeState.unmarshal_text]
  rfl

end TptIdentity.Bridge
