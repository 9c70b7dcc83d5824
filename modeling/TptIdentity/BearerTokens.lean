import TptIdentity.TokenSingleUse

/-!
# Bearer tokens

`SubjectFromBearer` accepts every message signed with the key whose second segment reads as
unexpired claims. So bearers are sound exactly as long as no other signed message reads as a
token (`bearersSound_iff`); an ID token always does.
-/

namespace TptIdentity.Oidc

open Go Store Proc List

variable {claims : Claims} {issuer subject clientID : Bytes} {now ttl : Int} {extra : Map Value}
  (pl : Platform)

theorem returns_step (env : Env) (st : State) (step : Step) :
    (step.proc pl env st).Returns fun out => AllMinted pl.provider out.answer := by
  have hanswer : ∀ {q : Proc DB Answer}, q.Returns (AllMinted pl.provider) →
      (q >>= fun a => pure (st.answer a)).Returns fun out => AllMinted pl.provider out.answer := by
    intro q h
    refine h.bind fun a ha => ?_
    exact returns_pure ha
  have hnone : ∀ {out : Outcome}, out.answer.signed = [] →
      (pure out : Proc DB Outcome).Returns fun out => AllMinted pl.provider out.answer :=
    fun h => returns_pure (allMinted_of_none h)
  cases step with
  | login now step => exact returns_bind (fun _ => hnone rfl) _
  | token r => exact hanswer (does_tokenHandler ..).returns
  | deviceAuthorization intn r => exact hanswer (does_deviceAuthorizationHandler ..).returns
  | deviceVerify r => exact hanswer (does_deviceVerifyHandler ..).returns
  | deviceApprove r => exact hanswer (does_deviceApproveHandler ..).returns
  | userinfo r => exact returns_pure allMinted_userinfoHandler
  | stepUp r => exact returns_pure allMinted_stepUpHandler
  | revoke r =>
    refine (does_revokeHandler pl.provider env r st.revoked).returns.bind fun out ha => ?_
    exact returns_pure ha
  | introspect r => exact returns_pure (allMinted_introspectHandler st.revoked)
  | logout r => exact hanswer (does_logoutHandler ..).returns
  | backChannelLogout clientID subjectDID delivery =>
    refine (does_sendBackChannelLogout pl.provider env clientID subjectDID
      delivery).returns.bind fun out ha => ?_
    exact returns_pure ha
  | createVPRequest body => exact returns_pure (allMinted_createRequestHandler body st.vp)
  | getVPRequest id => exact returns_pure (allMinted_getRequestHandler env id st.vp)
  | postVPResponse r => exact returns_pure (allMinted_postResponseHandler st.vp)
  | getVPResponse id => exact returns_pure (allMinted_getResponseHandler id st.vp)
  | evictVP => exact hnone rfl
  | deleteSession id => exact returns_bind (fun _ => hnone rfl) _
  | deleteClient id => exact returns_bind (fun _ => hnone rfl) _
  | issueSDJWT claims => exact returns_pure (allMinted_signedOnly fun _ h => .sdJwt h)
  | signProof hash => exact returns_pure (allMinted_signedOnly fun _ h => .proof h)

theorem minted_of_mem_signed {pl : Platform} (calls : List Call) :
    ∀ t ∈ (calls.foldl (afterCall pl) .initial).signed, Minted pl.provider t := by
  refine foldlRecOn calls (afterCall pl)
    (motive := fun st => ∀ t ∈ st.signed, Minted pl.provider t) ?_ fun st hst c _ t ht => ?_
  · intro t ht
    cases ht
  · rcases mem_append.mp ht with ht | ht
    · exact hst t ht
    · exact (returns_step pl c.env st c.step).run c.faults st.db t ht

/-! ## Reading access tokens -/

def Path.isAccess : Path → Bool
  | .access _ => true
  | _ => false

def Reads (message : Bytes) (claims : Claims) : Prop :=
  ∃ header payload raw, message = header ++ 46 :: payload ∧ (46 : UInt8) ∉ header
    ∧ (46 : UInt8) ∉ payload ∧ decodeB64 payload = .ok raw ∧ Claims.unmarshal raw = .ok claims

section Reading

variable {p : Provider}

theorem reads_sigInput_iff {payload : Value} :
    Reads (sigInput p.keyID payload) claims ↔ Claims.unmarshal payload.text = .ok claims := by
  constructor
  · rintro ⟨header, segment, raw, hmessage, hheader, -, hraw, hclaims⟩
    have hcut := cut_append segment hheader
    rw [← hmessage, sigInput, cut_append _ (not_mem_jwtHeader p.keyID)] at hcut
    obtain ⟨-, rfl⟩ := Prod.mk.inj (Option.some.inj hcut)
    rw [decodeB64_encodeB64] at hraw
    obtain rfl := Res.ok.inj hraw
    exact hclaims
  · intro hclaims
    exact ⟨_, _, _, rfl, not_mem_jwtHeader p.keyID, not_mem_encodeB64 (by decide) _,
      decodeB64_encodeB64 _, hclaims⟩

theorem get_extraPayload (issuer subject clientID : Bytes) (now ttl : Int) (extra : Map Value)
    (k : Bytes) :
    (extraPayload issuer subject clientID now ttl extra).get k
      = (extra.get k).or (if k = "token_type" then some (.str "access")
        else if k = "did" then some (.str subject)
        else if k = "exp" then some (.int (unix (now + ttl)))
        else if k = "iat" then some (.int (unix now))
        else if k = "aud" then some (.str clientID)
        else if k = "sub" then some (.str subject)
        else if k = "iss" then some (.str issuer)
        else none) := by
  rw [extraPayload, Map.get_setAll (Perm.refl _)]
  simp only [Map.get_set, Map.get_empty]

theorem isFieldName_extraPayload (hextra : ∀ k v, extra.get k = some v → k ∈ extraNames) :
    ∀ e ∈ (extraPayload issuer subject clientID now ttl extra).entries, IsFieldName e.1 := by
  have hfields : ∀ k ∈ extraNames, IsFieldName k := by decide
  intro e he
  have hget := Map.get_eq_some_iff.mpr he
  rw [get_extraPayload] at hget
  cases hcase : extra.get e.1 with
  | some v => exact hfields _ (hextra _ v hcase)
  | none =>
    rw [hcase, Option.none_or] at hget
    iterate 7
      split at hget
      · next hk => exact hk ▸ (by decide)
    cases hget

theorem sub_extraPayload (hextra : ∀ k v, extra.get k = some v → k ∈ extraNames) :
    (extraPayload issuer subject clientID now ttl extra).get "sub" = some (.str subject) := by
  have hnone : extra.get "sub" = none := by
    by_contra hsome
    obtain ⟨v, hv⟩ := Option.ne_none_iff_exists'.mp hsome
    exact absurd (hextra _ v hv) (by decide)
  rw [get_extraPayload, hnone, Option.none_or]
  rfl

theorem Minted.subject_of_reads {t : SignedToken} (h : Minted p t) (haccess : t.path.isAccess)
    (hreads : Reads t.message claims) : claims.subject = coerce t.subject := by
  cases h with
  | accessToken h =>
    obtain ⟨-, rfl⟩ := Provider.sign_inv h
    rw [reads_sigInput_iff, Claims.unmarshal_text rfl] at hreads
    obtain rfl := Res.ok.inj hreads
    rfl
  | extended hextra h =>
    obtain ⟨hsup, rfl⟩ := Provider.sign_inv h
    exact Claims.field_of_unmarshal (fun h => (Claims.assigns_of_assign h).subject) rfl (by decide)
      (isFieldName_extraPayload hextra) hsup (reads_sigInput_iff.mp hreads)
      (.inl (sub_extraPayload hextra))
  | idToken h | logoutToken h | requestObject h =>
    obtain ⟨-, rfl⟩ := Provider.sign_inv h
    cases haccess
  | sdJwt h | proof h =>
    obtain ⟨_, -, h⟩ := Res.bind_eq_ok.mp h
    obtain rfl := Res.ok.inj h
    cases haccess

end Reading

/-! ## Sound bearers -/

def messageOf (token : Bytes) : Option Bytes :=
  match splitN 46 3 token with
  | [header, payload, _] => some (header ++ 46 :: payload)
  | _ => none

theorem messageOf_eq_some {token message : Bytes} :
    messageOf token = some message
      ↔ ∃ header payload sigText, splitN 46 3 token = [header, payload, sigText]
        ∧ message = header ++ 46 :: payload := by
  unfold messageOf
  split
  · next header payload sigText hsplit =>
    simp [hsplit, eq_comm]
  · next hno =>
    constructor
    · intro h
      cases h
    · rintro ⟨header, payload, sigText, hsplit, -⟩
      exact absurd hsplit (hno _ _ _)

/-- What is accepted as a bearer token for `subject` was signed as an access token for it, if its
message was signed at all. -/
def BearersSound (st : State) (now : Int) : Prop :=
  ∀ authHeader subject message, subjectFromBearer pl.provider now authHeader = .ok subject →
    messageOf (bearerToken authHeader) = some message → (∃ t ∈ st.signed, t.message = message) →
      (∃ t ∈ st.signed, t.message = message ∧ t.path.isAccess = true ∧ coerce t.subject = subject)
        ∧ ∀ t ∈ st.signed, t.message = message → t.path.isAccess = true

section Bearers

variable {p : Provider} {now : Int} {token message : Bytes} {claims : Claims}

theorem reads_of_verify (h : p.verify now token = .ok claims)
    (hmessage : messageOf token = some message) :
    Reads message claims ∧ unix now ≤ claims.expiresAt.toInt := by
  obtain ⟨header, payload, sigText, hsplit, rfl⟩ := messageOf_eq_some.mp hmessage
  obtain ⟨_, _, _, _, -, -, -, hparse, hexp⟩ := verify_eq_ok.mp h
  rw [parseUnverified, hsplit] at hparse
  obtain ⟨raw, hraw, hclaims⟩ := Res.bind_eq_ok.mp hparse
  obtain ⟨-, hheader, hpayload⟩ := splitN_three.mp hsplit
  exact ⟨⟨header, payload, raw, rfl, hheader, hpayload, Res.wrapErr_eq_ok.mp hraw,
    Res.wrapErr_eq_ok.mp hclaims⟩, hexp⟩

theorem verify_of_reads (hkey : p.ed25519.KeyPair p.signingKey p.signingPub)
    (h : Reads message claims) (hexp : unix now ≤ claims.expiresAt.toInt) :
    ∃ token, messageOf token = some message ∧ p.verify now token = .ok claims := by
  obtain ⟨header, payload, raw, rfl, hheader, hpayload, hraw, hclaims⟩ := h
  have hsplit : splitN 46 3 ((header ++ 46 :: payload)
      ++ 46 :: encodeB64 (p.ed25519.sign p.signingKey (header ++ 46 :: payload)))
      = [header, payload, encodeB64 (p.ed25519.sign p.signingKey (header ++ 46 :: payload))] :=
    splitN_three.mpr ⟨by simp, hheader, hpayload⟩
  refine ⟨_, messageOf_eq_some.mpr ⟨header, payload, _, hsplit, rfl⟩,
    verify_eq_ok.mpr ⟨header, payload, _, _, hsplit, decodeB64_encodeB64 _, hkey _, ?_, hexp⟩⟩
  rw [parseUnverified, hsplit]
  simp only [hraw, hclaims, Res.wrapErr_ok, Res.ok_bind]

/-- Only access tokens are accepted as bearer tokens exactly at the times at which all other signed
messages that read as claims have expired. -/
theorem bearersSound_iff {pl : Platform}
    (hkey : pl.provider.ed25519.KeyPair pl.provider.signingKey pl.provider.signingPub)
    (calls : List Call) (now : Int) :
    BearersSound pl (calls.foldl (afterCall pl) .initial) now
      ↔ ∀ t ∈ (calls.foldl (afterCall pl) .initial).signed, t.path.isAccess = false →
        ∀ claims, Reads t.message claims → claims.expiresAt.toInt < unix now := by
  constructor
  · intro h t ht hother claims hreads
    by_contra hvalid
    obtain ⟨token, hmessage, hverify⟩ := verify_of_reads hkey hreads (not_lt.mp hvalid)
    have hbearer : subjectFromBearer pl.provider now ("Bearer " ++ token)
        = .ok claims.subject := by
      rw [subjectFromBearer_eq_ok, bearerToken_append]
      exact ⟨claims, hverify, rfl⟩
    have haccess := (h _ _ t.message hbearer ((bearerToken_append token).symm ▸ hmessage)
      ⟨t, ht, rfl⟩).2 t ht rfl
    rw [hother] at haccess
    cases haccess
  · intro h authHeader subject message hbearer hmessage hsigned
    obtain ⟨claims, hverify, rfl⟩ := subjectFromBearer_eq_ok.mp hbearer
    obtain ⟨hreads, hexp⟩ := reads_of_verify hverify hmessage
    have haccess : ∀ t ∈ (calls.foldl (afterCall pl) .initial).signed, t.message = message →
        t.path.isAccess = true := by
      rintro t ht rfl
      by_contra hother
      exact absurd (h t ht (eq_false_of_ne_true hother) claims hreads) (not_lt.mpr hexp)
    refine ⟨?_, haccess⟩
    obtain ⟨t, ht, rfl⟩ := hsigned
    exact ⟨t, ht, rfl, haccess t ht rfl,
      ((minted_of_mem_signed calls t ht).subject_of_reads (haccess t ht rfl) hreads).symm⟩

end Bearers

namespace Sample

theorem keyPair : provider.ed25519.KeyPair provider.signingKey provider.signingPub :=
  fun _ => rfl

def clientCalls : List Call :=
  [call 5 (.login 0 (.register
      (some ⟨"other", [Bridge.Sample.redirectURI], [], [], [], [], []⟩))),
    call 6 (.token { post [("grant_type", "client_credentials")] with
      basicAuth := some (encodeHex (replicate 16 5), encodeHex (replicate 32 5)) })]

def presentationCalls : List Call :=
  [call 8 (.createVPRequest (some ⟨"did:key:z1", .bool true, 0, []⟩)),
    call 9 (.getVPRequest (encodeHex (replicate 16 8)))]

end Sample

open Sample

theorem bearersSound_iff_sample :
    BearersSound platform (clientCalls.foldl (afterCall platform) .initial) 0
      ∧ ((clientCalls.foldl (afterCall platform) .initial).signed.map
          SignedToken.path) = [.access .clientCredentials] := by
  have hpaths : ((clientCalls.foldl (afterCall platform) .initial).signed.map
      SignedToken.path) = [.access .clientCredentials] := by
    decide
  refine ⟨(bearersSound_iff keyPair clientCalls 0).mpr fun t ht hother => ?_, hpaths⟩
  have hpath := mem_map_of_mem ht (f := SignedToken.path)
  rw [hpaths, mem_singleton] at hpath
  rw [hpath] at hother
  cases hother

/-- An ID token is a bearer token for the user, and so is a request object of a verifier with its
name. -/
theorem idToken_is_bearer :
    (∃ t ∈ (signIn.foldl (afterCall platform) .initial).signed,
        t.path = .idToken ∧ messageOf t.token = some t.message
          ∧ subjectFromBearer provider 0 ("Bearer " ++ t.token)
            = .ok "did:key:z1")
      ∧ (∃ t ∈ (presentationCalls.foldl (afterCall platform) .initial).signed,
        t.path = .requestObject ∧ messageOf t.token = some t.message
          ∧ subjectFromBearer provider 0 ("Bearer " ++ t.token)
            = .ok "did:key:z1")
      ∧ ¬BearersSound platform (signIn.foldl (afterCall platform) .initial) 0 := by
  have hid : ∃ t ∈ (signIn.foldl (afterCall platform) .initial).signed,
      t.path = .idToken ∧ messageOf t.token = some t.message
        ∧ subjectFromBearer provider 0 ("Bearer " ++ t.token)
          = .ok "did:key:z1" := by
    decide +kernel
  refine ⟨hid, by decide +kernel, fun h => ?_⟩
  obtain ⟨t, ht, hpath, hmessage, hbearer⟩ := hid
  have haccess := (h _ _ t.message hbearer ((bearerToken_append t.token).symm ▸ hmessage)
    ⟨t, ht, rfl⟩).2 t ht rfl
  rw [hpath] at haccess
  cases haccess

end TptIdentity.Oidc
