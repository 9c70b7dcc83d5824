import TptIdentity.GoBase64
import TptIdentity.GoCrypto
import TptIdentity.GoJsonStruct

/-!
# Package oidc: JSON Web Tokens

The claims of ID and access tokens, the functions that sign them, and `Verify`, which looks at
the signature and the expiry only. A signed token is modelled together with what signed it
(`SignedToken`).
-/

namespace TptIdentity.Oidc

open Go List Res Option

structure Provider where
  issuer : Bytes
  signingKey : Bytes
  keyID : Bytes
  sha256 : Bytes → Bytes
  ed25519 : Ed25519
  /-- `unicode.ToUpper`. -/
  upper : Nat → Nat
  /-- A time as JSON writes it. -/
  formatTime : Int → Bytes
  signingKey_length : signingKey.length = Ed25519.privateKeySize

variable {name : Bytes} {now ttl : Int} (p : Provider)

def Provider.signingPub : Bytes := p.signingKey.drop 32

theorem Provider.signingPub_length : p.signingPub.length = Ed25519.publicKeySize := by
  rw [signingPub, length_drop, p.signingKey_length]
  rfl

/-! ## Claims -/

structure Claims where
  issuer : Bytes
  subject : Bytes
  audience : Bytes
  issuedAt : Int64
  expiresAt : Int64
  nonce : Bytes
  did : Bytes
  amr : Option (Slice Bytes)
  acr : Bytes
  tokenType : Bytes
  scope : Bytes
deriving Repr

namespace Claims

def zero : Claims := ⟨[], [], [], 0, 0, [], [], none, [], [], []⟩

def amrMember (amr : Option (Slice Bytes)) : List (Bytes × Value) :=
  match amr.elim [] Slice.toList with
  | [] => []
  | l => [("amr", .arr (l.map .str))]

def members (c : Claims) : List (Bytes × Value) :=
  [(str "iss", .str c.issuer), (str "sub", .str c.subject), (str "aud", .str c.audience),
    (str "iat", .int c.issuedAt.toInt), (str "exp", .int c.expiresAt.toInt)]
    ++ omitEmpty "nonce" c.nonce
    ++ [(str "did", .str c.did)]
    ++ amrMember c.amr
    ++ omitEmpty "acr" c.acr
    ++ omitEmpty "token_type" c.tokenType
    ++ omitEmpty "scope" c.scope

def decodeStrings (old : Option (Slice Bytes)) : Json → Option (Option (Slice Bytes))
  | .null => some none
  | j =>
    (decodeSlice (fun j old => decodeStr old j) [] j (old.getD (Slice.ofList []))).map some

def assign (name : Bytes) (j : Json) (c : Claims) : Option Claims :=
  if name = "iss" then (decodeStr c.issuer j).map fun s => { c with issuer := s }
  else if name = "sub" then (decodeStr c.subject j).map fun s => { c with subject := s }
  else if name = "aud" then (decodeStr c.audience j).map fun s => { c with audience := s }
  else if name = "iat" then (decodeInt64 c.issuedAt j).map fun t => { c with issuedAt := t }
  else if name = "exp" then (decodeInt64 c.expiresAt j).map fun t => { c with expiresAt := t }
  else if name = "nonce" then (decodeStr c.nonce j).map fun s => { c with nonce := s }
  else if name = "did" then (decodeStr c.did j).map fun s => { c with did := s }
  else if name = "amr" then (decodeStrings c.amr j).map fun l => { c with amr := l }
  else if name = "acr" then (decodeStr c.acr j).map fun s => { c with acr := s }
  else if name = "token_type" then
    (decodeStr c.tokenType j).map fun s => { c with tokenType := s }
  else if name = "scope" then (decodeStr c.scope j).map fun s => { c with scope := s }
  else some c

def unmarshal (raw : Bytes) : Res Claims := unmarshalInto (decodeStruct assign) zero raw

end Claims

/-! ## Signing -/

inductive Grant where
  | code
  | refresh
  | device
  | clientCredentials
  | exchange
  | stepUp
deriving DecidableEq, Repr

/-- What a message was signed as. -/
inductive Path where
  | access (grant : Grant)
  | idToken
  | logoutToken
  | requestObject
  | sdJwt
  | proof
deriving DecidableEq, Repr

structure SignedToken where
  path : Path
  subject : Bytes
  audience : Bytes
  message : Bytes
  token : Bytes
deriving DecidableEq, Repr

variable {t : SignedToken}

def jwtHeader (keyID : Bytes) : Bytes :=
  encodeB64 (Value.obj [("alg", .str "EdDSA"), ("kid", .str keyID), ("typ", .str "JWT")]).text

def sigInput (keyID : Bytes) (claims : Value) : Bytes :=
  jwtHeader keyID ++ 46 :: encodeB64 claims.text

def signJWT (E : Ed25519) (claims : Value) (key keyID : Bytes) : Res Bytes := do
  let payload ← (marshal claims).wrapErr "jwt marshal: %w" []
  let sigInput := jwtHeader keyID ++ 46 :: encodeB64 payload
  let sig ← E.signWith key sigInput
  return sigInput ++ 46 :: encodeB64 sig

def Provider.sign (path : Path) (subject audience : Bytes) (claims : Value) : Res SignedToken := do
  let token ← signJWT p.ed25519 claims p.signingKey p.keyID
  return ⟨path, subject, audience, sigInput p.keyID claims, token⟩

def idClaims (now : Int) (subjectDID audience nonce : Bytes) (ttl : Int)
    (amr : Option (Slice Bytes)) : Claims :=
  { issuer := p.issuer
    subject := subjectDID
    audience
    issuedAt := Int64.ofInt (unix now)
    expiresAt := Int64.ofInt (unix (now + ttl))
    nonce
    did := subjectDID
    amr
    acr := []
    tokenType := "id"
    scope := [] }

def issueIDToken (now : Int) (subjectDID audience nonce : Bytes) (ttl : Int)
    (amr : Option (Slice Bytes)) : Res SignedToken :=
  p.sign .idToken subjectDID audience
    (.obj (idClaims p now subjectDID audience nonce ttl amr).members)

def accessClaims (now : Int) (subjectDID audience : Bytes) (ttl : Int) : Claims :=
  { issuer := p.issuer
    subject := subjectDID
    audience
    issuedAt := Int64.ofInt (unix now)
    expiresAt := Int64.ofInt (unix (now + ttl))
    nonce := []
    did := subjectDID
    amr := none
    acr := []
    tokenType := "access"
    scope := [] }

def issueAccessToken (grant : Grant) (now : Int) (subjectDID audience : Bytes) (ttl : Int) :
    Res SignedToken :=
  p.sign (.access grant) subjectDID audience
    (.obj (accessClaims p now subjectDID audience ttl).members)

def extraPayload (issuer subject clientID : Bytes) (now ttl : Int) (extra : Map Value) :
    Map Value :=
  (((((((Map.empty.set "iss" (.str issuer)).set "sub" (.str subject)).set
    "aud" (.str clientID)).set "iat" (.int (unix now))).set
    "exp" (.int (unix (now + ttl)))).set "did" (.str subject)).set
    "token_type" (.str "access")).setAll extra.entries

def issueJWTWithExtra (path : Path) (now : Int) (subject clientID : Bytes) (ttl : Int)
    (extra : Map Value) : Res SignedToken :=
  p.sign path subject clientID
    (.obj (extraPayload p.issuer subject clientID now ttl extra).entries)

/-! ## Checking -/

def parseUnverified (token : Bytes) : Res Claims :=
  match splitN 46 3 token with
  | [_, payload, _] => do
    let raw ← (decodeB64 payload).wrapErr "jwt: decode payload: %w" []
    (Claims.unmarshal raw).wrapErr "jwt: unmarshal: %w" []
  | _ => .err (.new "jwt: malformed token" [])

def parseHeader (token : Bytes) : Res (Map Bytes) :=
  match splitN 46 3 token with
  | [header, _, _] => do
    let raw ← (decodeB64 header).wrapErr "jwt: decode header: %w" []
    (unmarshalInto (fun j _ => decodeStringMap j) Map.empty raw).wrapErr
      "jwt: unmarshal header: %w" []
  | _ => .err (.new "jwt: malformed token" [])

def verify (E : Ed25519) (now : Int) (token pub : Bytes) : Res Claims :=
  match splitN 46 3 token with
  | [header, payload, sigText] => do
    let sig ← (decodeB64 sigText).wrapErr "jwt: decode signature: %w" []
    let valid ← E.verifyWith pub (header ++ 46 :: payload) sig
    if valid = false then .err (.new "jwt: invalid signature" [])
    else
      let claims ← parseUnverified token
      if unix now > claims.expiresAt.toInt then .err (.new "jwt: token expired" [])
      else return claims
  | _ => .err (.new "jwt: malformed token" [])

def Provider.verify (p : Provider) (now : Int) (token : Bytes) : Res Claims :=
  Oidc.verify p.ed25519 now token p.signingPub

/-! ## Reading claims back -/

variable {c : Claims}

namespace Claims

def coerced (c : Claims) : Claims :=
  { c with
    issuer := coerce c.issuer
    subject := coerce c.subject
    audience := coerce c.audience
    nonce := coerce c.nonce
    did := coerce c.did
    acr := coerce c.acr
    tokenType := coerce c.tokenType
    scope := coerce c.scope }

def fields (c : Claims) : Fields :=
  [("iss", some (.str c.issuer)), ("sub", some (.str c.subject)),
    ("aud", some (.str c.audience)), ("iat", some (.int c.issuedAt.toInt)),
    ("exp", some (.int c.expiresAt.toInt)), ("nonce", omitted c.nonce),
    ("did", some (.str c.did)), ("acr", omitted c.acr),
    ("token_type", omitted c.tokenType), ("scope", omitted c.scope)]

theorem members_eq (hamr : c.amr = none) : c.members = c.fields.members := by
  simp only [members, hamr, amrMember, elim_none, fields, Fields.members_cons,
    Fields.members_nil, omitEmpty_eq, append_assoc, append_nil]
  rfl

theorem writable (hamr : c.amr = none) : (Value.obj c.members).Writable 1 := by
  rw [members_eq hamr]
  refine writable_fields ?_
  simp only [fields, forall_mem_cons, mem_some_iff, forall_eq']
  exact ⟨writable_str 0 _, writable_str 0 _, writable_str 0 _, writable_int 0 _, writable_int 0 _,
    writable_omitted 0 _, writable_str 0 _, writable_omitted 0 _, writable_omitted 0 _,
    writable_omitted 0 _, forall_mem_nil _⟩

theorem unmarshal_text (hamr : c.amr = none) :
    unmarshal (Value.obj c.members).text = .ok c.coerced := by
  have hwritable := writable hamr
  rw [members_eq hamr] at hwritable ⊢
  have hcoerced : { c.coerced with amr := none } = c.coerced := by rw [coerced, hamr]
  refine unmarshalInto_fields hwritable (by decide) (hcoerced ▸ ?_)
  refine reads_field (decodeStr_wire_str [] _) ?_
  refine reads_field (decodeStr_wire_str [] _) ?_
  refine reads_field (decodeStr_wire_str [] _) ?_
  refine reads_field (decodeInt64_wire 0 _) ?_
  refine reads_field (decodeInt64_wire 0 _) ?_
  refine reads_field (readsAs_omitted _) ?_
  refine reads_field (decodeStr_wire_str [] _) ?_
  refine reads_field (readsAs_omitted _) ?_
  refine reads_field (readsAs_omitted _) ?_
  exact reads_field (readsAs_omitted _) (reads_nil _)

structure Assigns (name : Bytes) (j : Json) (c c' : Claims) : Prop where
  subject : decodeField "sub" name j c.subject = some c'.subject
  acr : decodeField "acr" name j c.acr = some c'.acr
  scope : decodeField "scope" name j c.scope = some c'.scope

theorem assigns_of_assign {j : Json} {c' : Claims} (h : assign name j c = some c') :
    Assigns name j c c' := by
  have hkeep : (name ≠ "sub" ∧ name ≠ "acr" ∧ name ≠ "scope") →
      (c'.subject = c.subject ∧ c'.acr = c.acr ∧ c'.scope = c.scope) → Assigns name j c c' := by
    rintro ⟨h₁, h₂, h₃⟩ ⟨hsubject, hacr, hscope⟩
    refine ⟨?_, ?_, ?_⟩
    · rw [decodeField, if_neg h₁, hsubject]
    · rw [decodeField, if_neg h₂, hacr]
    · rw [decodeField, if_neg h₃, hscope]
  -- a chain of conditions on the name is followed step by step
  have hcase : ∀ {field : Bytes} {x y : Option Claims},
      (name = field → x = some c' → Assigns name j c c') →
      (name ≠ field → y = some c' → Assigns name j c c') →
      (if name = field then x else y) = some c' → Assigns name j c c' := by
    intro field x y hx hy h
    by_cases hname : name = field
    · exact hx hname (by rwa [if_pos hname] at h)
    · exact hy hname (by rwa [if_neg hname] at h)
  have hother : ∀ {α : Type} {field : Bytes} {o : Option α} {f : α → Claims},
      (field ≠ "sub" ∧ field ≠ "acr" ∧ field ≠ "scope") →
      (∀ a, (f a).subject = c.subject ∧ (f a).acr = c.acr ∧ (f a).scope = c.scope) →
      name = field → o.map f = some c' → Assigns name j c c' := by
    intro α field o f hne hf hname hmap
    obtain ⟨a, -, rfl⟩ := map_eq_some_iff.mp hmap
    exact hkeep (hname ▸ hne) (hf a)
  revert h
  refine hcase (hother (by decide) fun _ => ⟨rfl, rfl, rfl⟩) fun _ => ?_
  refine hcase ?_ fun hsub => ?_
  · rintro rfl h
    obtain ⟨x, hx, rfl⟩ := map_eq_some_iff.mp h
    exact ⟨hx, rfl, rfl⟩
  iterate 6 refine hcase (hother (by decide) fun _ => ⟨rfl, rfl, rfl⟩) fun _ => ?_
  refine hcase ?_ fun hacr => ?_
  · rintro rfl h
    obtain ⟨x, hx, rfl⟩ := map_eq_some_iff.mp h
    exact ⟨rfl, hx, rfl⟩
  refine hcase (hother (by decide) fun _ => ⟨rfl, rfl, rfl⟩) fun _ => ?_
  refine hcase ?_ fun hscope h => ?_
  · rintro rfl h
    obtain ⟨x, hx, rfl⟩ := map_eq_some_iff.mp h
    exact ⟨rfl, rfl, hx⟩
  · obtain rfl := some.inj h
    exact hkeep ⟨hsub, hacr, hscope⟩ ⟨rfl, rfl, rfl⟩

theorem field_of_unmarshal {m : Map Value} {field : Claims → Bytes}
    (hfield : ∀ {k j c c'}, assign k j c = some c' →
      decodeField name k j (field c) = some (field c')) (hzero : field zero = [])
    (hname : IsFieldName name) (hnames : ∀ e ∈ m.entries, IsFieldName e.1)
    (hsup : (Value.obj m.entries).supported) (h : unmarshal (Value.obj m.entries).text = .ok c)
    {v : Bytes} (hv : m.get name = some (.str v) ∨ m.get name = none ∧ v = []) :
    field c = coerce v := by
  have hmembers : ∀ e ∈ m.entries, foldName (coerce e.1) = name → e.2 = .str v := by
    intro e he hfold
    rw [get_of_foldName hnames he hfold] at hv
    rcases hv with hv | ⟨hv, -⟩
    · exact some.inj hv
    · cases hv
  have hstart : field zero = coerce v ∨ ∃ e ∈ m.entries, foldName (coerce e.1) = name := by
    rcases hv with hv | ⟨-, rfl⟩
    · exact .inr ⟨_, Map.get_eq_some_iff.mp hv, foldName_coerce hname⟩
    · exact .inl hzero
  obtain ⟨j, hparse, hdecode⟩ := unmarshalInto_eq_ok.mp h
  rw [eq_wire_of_parse_text hsup hparse, decodeStruct_wire] at hdecode
  exact foldlM_field hfield hmembers hstart hdecode

theorem validUtf8_of_unmarshal {raw : Bytes} (h : unmarshal raw = .ok c) :
    validUtf8 c.subject ∧ validUtf8 c.acr ∧ validUtf8 c.scope := by
  refine invariant_of_unmarshalInto (P := fun c : Claims => validUtf8 c.subject
    ∧ validUtf8 c.acr ∧ validUtf8 c.scope) ⟨rfl, rfl, rfl⟩ ?_ h
  rintro k j c c' d hj ⟨hsubject, hacr, hscope⟩ hassign
  have h := assigns_of_assign hassign
  exact ⟨validUtf8_decodeField hj hsubject h.subject, validUtf8_decodeField hj hacr h.acr,
    validUtf8_decodeField hj hscope h.scope⟩

end Claims

/-! ## Signed tokens -/

section Signed

variable {p : Provider} {path : Path} {subject audience : Bytes} {claims : Value}

def Provider.token (p : Provider) (claims : Value) : Bytes :=
  sigInput p.keyID claims ++ 46 :: encodeB64 (p.ed25519.sign p.signingKey (sigInput p.keyID claims))

theorem Provider.sign_eq (h : claims.supported) :
    p.sign path subject audience claims
      = .ok ⟨path, subject, audience, sigInput p.keyID claims, p.token claims⟩ := by
  simp only [sign, signJWT, marshal_eq_ok h, wrapErr_ok, ok_bind, Ed25519.signWith,
    p.signingKey_length, if_true, pure_eq_ok, token, sigInput]

theorem Provider.sign_inv (h : p.sign path subject audience claims = .ok t) :
    claims.supported
      ∧ t = ⟨path, subject, audience, sigInput p.keyID claims, p.token claims⟩ := by
  have hsup : claims.supported := by
    by_contra hno
    simp [sign, signJWT, marshal, hno] at h
  rw [sign_eq hsup] at h
  exact ⟨hsup, (Res.ok.inj h).symm⟩

theorem not_mem_jwtHeader (keyID : Bytes) : (46 : UInt8) ∉ jwtHeader keyID :=
  not_mem_encodeB64 (by decide) _

theorem splitN_token (p : Provider) (claims : Value) :
    splitN 46 3 (p.token claims)
      = [jwtHeader p.keyID, encodeB64 claims.text,
          encodeB64 (p.ed25519.sign p.signingKey (sigInput p.keyID claims))] := by
  rw [Provider.token, sigInput, append_assoc, cons_append]
  rw [splitN_cut 1 _ (not_mem_jwtHeader _), splitN_cut 0 _ (not_mem_encodeB64 (by decide) _)]
  rfl

theorem parseUnverified_token (p : Provider) (claims : Value) :
    parseUnverified (p.token claims)
      = (Claims.unmarshal claims.text).wrapErr "jwt: unmarshal: %w" [] := by
  simp only [parseUnverified, splitN_token, decodeB64_encodeB64, wrapErr_ok, ok_bind]

theorem parseUnverified_idToken {nonce : Bytes}
    (h : issueIDToken p now subject audience nonce ttl none = .ok t) :
    parseUnverified t.token = .ok (idClaims p now subject audience nonce ttl none).coerced := by
  obtain ⟨-, rfl⟩ := Provider.sign_inv h
  rw [parseUnverified_token, Claims.unmarshal_text rfl, wrapErr_ok]

theorem parseUnverified_accessToken {grant : Grant}
    (h : issueAccessToken p grant now subject audience ttl = .ok t) :
    parseUnverified t.token = .ok (accessClaims p now subject audience ttl).coerced := by
  obtain ⟨-, rfl⟩ := Provider.sign_inv h
  rw [parseUnverified_token, Claims.unmarshal_text rfl, wrapErr_ok]

theorem verify_eq_ok {token : Bytes} :
    p.verify now token = .ok c ↔
      ∃ header payload sigText sig, splitN 46 3 token = [header, payload, sigText]
        ∧ decodeB64 sigText = .ok sig
        ∧ p.ed25519.verify p.signingPub (header ++ 46 :: payload) sig
        ∧ parseUnverified token = .ok c ∧ unix now ≤ c.expiresAt.toInt := by
  unfold Provider.verify verify
  split
  · next header payload sigText hsplit =>
    simp only [Ed25519.verifyWith, p.signingPub_length, if_true, ok_bind, bind_eq_ok,
      wrapErr_eq_ok, ite_err_eq_ok, pure_eq_ok, Res.ok.injEq]
    constructor
    · rintro ⟨sig, hsig, hvalid, c', hparse, hexp, rfl⟩
      exact ⟨header, payload, sigText, sig, hsplit, hsig, by simpa using hvalid, hparse,
        not_lt.mp hexp⟩
    · rintro ⟨_, _, _, sig, heq, hsig, hvalid, hparse, hexp⟩
      rw [hsplit] at heq
      cases heq
      exact ⟨sig, hsig, by simpa using hvalid, c, hparse, not_lt.mpr hexp, rfl⟩
  · next hno =>
    constructor
    · intro h
      cases h
    · rintro ⟨header, payload, sigText, _, hsplit, -⟩
      exact absurd hsplit (hno _ _ _)

end Signed

end TptIdentity.Oidc
