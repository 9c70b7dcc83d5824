import TptIdentity.TokenSingleUse

/-!
# Who gets tokens

What a successful request to the token endpoint has shown, one specification per grant. The
device and exchange grants authenticate no client (`GrantedTo`), and basic authentication is not
compared with the session (`codeGrant_other_client`).
-/

namespace TptIdentity.Oidc

open Go Store Proc List Option

/-! ## Client authentication -/

structure PresentsSecret (p : Provider) (r : Request) (form : Map Bytes) (clientID : Bytes)
    (client : OIDCClient) : Prop where
  given : providedSecret r form clientID ≠ []
  hash : hashSecret p.sha256 (providedSecret r form clientID) = client.clientSecretHash

variable {clientID raw subject audience : Bytes} {path : Path} {claims : Value} {sess : OIDCSession}
  {db' : DB} {a : Answer} {ttl now : Int} {rt : RefreshToken} (P : Bytes → Bytes → Prop)
  (p : Provider)

def Authenticated (r : Request) (form : Map Bytes) (db : DB) (clientID : Bytes) : Prop :=
  ∃ client, db.client clientID = some client
    ∧ (client.tokenEndpointAuthMethod ≠ "none" → PresentsSecret p r form clientID client)

variable {t : SignedToken}

section Specs

variable (p : Provider) (env : Env) (r : Request) (form : Map Bytes) (db : DB)

def DrawsNew : Prop := ∀ hash, Draws p env.rand hash → db.refreshTokens.find hash = none

theorem wp_validateClientAuth (clientID : Bytes) :
    (validateClientAuth p.sha256 r form clientID).wp
      (fun res db' => db' = db ∧ (res = .ok () → Authenticated p r form db clientID)) db := by
  refine wp_lookup_bind ?_ fun e => ⟨rfl, fun h => by cases h⟩
  cases hclient : db.client clientID with
  | none => exact ⟨rfl, fun h => by cases h⟩
  | some client =>
    simp only [found, Res.wrapErr_ok]
    split
    · next hnone => exact ⟨rfl, fun _ => ⟨client, hclient, fun h => absurd hnone h⟩⟩
    · split
      · exact ⟨rfl, fun h => by cases h⟩
      · next hgiven =>
        split
        · exact ⟨rfl, fun h => by cases h⟩
        · next hhash =>
          exact ⟨rfl, fun _ => ⟨client, hclient, fun _ => ⟨hgiven, not_not.mp hhash⟩⟩⟩

/-! ## The code grant -/

structure SessionTokens (sess : OIDCSession) (a : Answer) (raw : Bytes) (db' : DB) : Prop where
  tokens : ∃ idToken accessToken,
    issueIDToken p (env.clock 1) sess.subjectDID sess.clientID sess.nonce idTokenTTL none
        = .ok idToken
      ∧ issueAccessToken p .code (env.clock 2) sess.subjectDID sess.clientID accessTokenTTL
        = .ok accessToken
      ∧ a = ⟨tokenResponse accessToken.token idToken.token raw sess.scope accessTokenTTL,
          [idToken, accessToken]⟩
  drawn : generateRefreshToken p env.rand = .ok (raw, hashToken p raw)
  refreshTokens : db'.refreshTokens = (db.putRefreshToken
    { hash := hashToken p raw, subjectDID := sess.subjectDID, clientID := sess.clientID
      scope := sess.scope, issuedAt := env.clock 3
      expiresAt := env.clock 4 + refreshTokenTTL, usedAt := none }).refreshTokens

structure CodeGranted (sess : OIDCSession) (a : Answer) (raw : Bytes) (db' : DB) : Prop where
  session : db.sessionByCode (param form "code") = some sess
  unexpired : env.clock 0 ≤ sess.expiresAt
  named : param form "client_id" = [] ∨ param form "client_id" = sess.clientID
  challenge : sess.codeChallenge ≠ []
  digest : encodeB64 (p.sha256 (param form "code_verifier")) = sess.codeChallenge
  authenticated : Authenticated p r form db sess.clientID
  issued : SessionTokens p env db sess a raw db'

structure Refused (a : Answer) (db' : DB) : Prop where
  unsuccessful : a.success = false
  signed : ∀ t ∈ a.signed, ∃ sess, db.sessionByCode (param form "code") = some sess
    ∧ t.subject = sess.subjectDID ∧ t.audience = sess.clientID
  sessions : db'.sessions = db.sessions
  refreshTokens : db'.refreshTokens = db.refreshTokens

theorem generateRefreshToken_eq {rand : Rand} {hash : Bytes}
    (h : generateRefreshToken p rand = .ok (raw, hash)) : hash = hashToken p raw := by
  obtain ⟨_, -, h⟩ := Res.bind_eq_ok.mp h
  obtain ⟨rfl, rfl⟩ := Prod.mk.inj (Res.ok.inj h)
  rfl

theorem Provider.holder_of_sign {p : Provider} (h : p.sign path subject audience claims = .ok t) :
    t.subject = subject ∧ t.audience = audience := by
  obtain ⟨-, rfl⟩ := Provider.sign_inv h
  exact ⟨rfl, rfl⟩

theorem wp_issueSessionTokens (hsess : db.sessionByCode (param form "code") = some sess) :
    (issueSessionTokens p env sess).wp (fun a db' => Refused form db a db'
        ∨ a.success ∧ ∃ raw, SessionTokens p env db sess a raw db') db := by
  have hfailed : ∀ signed : List SignedToken,
      (∀ t ∈ signed, t.subject = sess.subjectDID ∧ t.audience = sess.clientID) →
      Refused form db (failed signed) db :=
    fun signed h => ⟨rfl, fun t ht => ⟨sess, hsess, h t ht⟩, rfl, rfl⟩
  unfold issueSessionTokens
  split
  · next idToken hid =>
    have hidToken := Provider.holder_of_sign hid
    split
    · next accessToken haccess =>
      have hboth := hfailed [idToken, accessToken] (forall_mem_cons.mpr
        ⟨hidToken, forall_mem_singleton.mpr (Provider.holder_of_sign haccess)⟩)
      split
      · next raw hash hdrawn =>
        obtain rfl := generateRefreshToken_eq p hdrawn
        refine wp_exec_bind ?_ fun e => .inl hboth
        refine wp_exec_bind ?_ fun e => ?_
        · exact .inr ⟨rfl, raw, ⟨_, _, hid, haccess, rfl⟩, hdrawn, rfl⟩
        · exact .inr ⟨rfl, raw, ⟨_, _, hid, haccess, rfl⟩, hdrawn, rfl⟩
      · exact .inl hboth
    · exact .inl (hfailed [idToken] (forall_mem_singleton.mpr hidToken))
  · exact .inl (hfailed [] (forall_mem_nil _))

theorem wp_handleAuthCodeExchange :
    (handleAuthCodeExchange p env r form).wp (fun a db' => Refused form db a db'
        ∨ a.success ∧ ∃ sess raw, CodeGranted p env r form db sess a raw db') db := by
  have hrefused : ∀ a : Answer, a.success = false → a.signed = [] → Refused form db a db :=
    fun a hno hnone => ⟨hno, by rw [hnone]; exact forall_mem_nil _, rfl, rfl⟩
  refine wp_ite (fun _ => .inl (hrefused _ rfl rfl)) fun _ => ?_
  refine wp_lookup_bind ?_ fun e => .inl (hrefused _ rfl rfl)
  cases hsess : db.sessionByCode (param form "code") with
  | none => exact .inl (hrefused _ rfl rfl)
  | some sess =>
    refine wp_ite (fun _ => .inl (hrefused _ rfl rfl)) fun hunexpired => ?_
    refine wp_ite (fun _ => .inl (hrefused _ rfl rfl)) fun hnamed => ?_
    refine wp_ite (fun _ => .inl (hrefused _ rfl rfl)) fun _ => ?_
    refine wp_ite (fun _ => .inl (hrefused _ rfl rfl)) fun hchallenge => ?_
    refine wp_ite (fun _ => .inl (hrefused _ rfl rfl)) fun hdigest => ?_
    refine wp_seq (wp_validateClientAuth ..) fun res db' h => ?_
    obtain ⟨rfl, hauth⟩ := h
    split
    · refine wp_mono (fun a db'' h => ?_) (wp_issueSessionTokens p env form db' hsess)
      rcases h with h | ⟨hsuccess, raw, h⟩
      · exact .inl h
      · exact .inr ⟨hsuccess, sess, raw, hsess, not_lt.mp hunexpired, by tauto, hchallenge,
          by simpa [verifyPKCE] using hdigest, hauth rfl, h⟩
    · exact .inl (hrefused _ rfl rfl)
    · exact .inl (hrefused _ rfl rfl)

end Specs

/-! ## Bound codes -/

def Carries (sess : OIDCSession) (token : Bytes) : Prop :=
  ∃ claims, parseUnverified token = .ok claims ∧ claims.subject = sess.subjectDID
    ∧ claims.audience = sess.clientID

structure NamesOnly (r : Request) (form : Map Bytes) (clientID : Bytes) : Prop where
  form : param form "client_id" = [] ∨ param form "client_id" = clientID
  basic : ∀ user pass, r.basicAuth = some (user, pass) → user = clientID

/-- The code is stored and unexpired, its challenge is the digest of the verifier, the request
authenticates as the client, and the tokens carry what the session says. -/
structure CodeBound (p : Provider) (env : Env) (r : Request) (form : Map Bytes) (db : DB)
    (a : Answer) (db' : DB) (sess : OIDCSession) : Prop where
  session : db.sessionByCode (param form "code") = some sess
  unexpired : env.clock 0 ≤ sess.expiresAt
  challenge : sess.codeChallenge ≠ []
  digest : encodeB64 (p.sha256 (param form "code_verifier")) = sess.codeChallenge
  authenticated : Authenticated p r form db sess.clientID
  named : NamesOnly r form sess.clientID
  tokens : ∃ accessToken idToken raw row,
    a.response = tokenResponse accessToken idToken raw sess.scope accessTokenTTL
      ∧ Carries sess accessToken ∧ Carries sess idToken
      ∧ db'.refreshTokens.find (hashToken p raw) = some row
      ∧ row.subjectDID = sess.subjectDID ∧ row.clientID = sess.clientID ∧ row.scope = sess.scope

def CodeGrantBound (env : Env) (r : Request) (form : Map Bytes) (db : DB) (a : Answer) (db' : DB) :
    Prop :=
  (a.success = true → ∃ sess, CodeBound p env r form db a db' sess)
    ∧ (a.success = false → db'.sessions = db.sessions ∧ db'.refreshTokens = db.refreshTokens)

/-- Basic authentication names the client of the session, and JSON leaves subject and client alone.
-/
structure Unambiguous (r : Request) (sess : OIDCSession) : Prop where
  basic : ∀ user pass, r.basicAuth = some (user, pass) → user = sess.clientID
  subject : coerce sess.subjectDID = sess.subjectDID
  client : coerce sess.clientID = sess.clientID

section Bound

variable {p : Provider} {env : Env} {r : Request} {form : Map Bytes} {db db' : DB} {a : Answer}
  {sess : OIDCSession} {raw : Bytes}

theorem tokenResponse_inj {access id refresh scope access' id' refresh' scope' : Bytes} {ttl' : Int}
    (h : tokenResponse access id refresh scope ttl
      = tokenResponse access' id' refresh' scope' ttl') : access = access' := by
  simp only [tokenResponse, cons_append, Response.json.injEq, Value.obj.injEq, true_and,
    cons.injEq, Prod.mk.injEq, Value.str.injEq] at h
  exact h.1

theorem carries_idToken
    (h : issueIDToken p now sess.subjectDID sess.clientID sess.nonce ttl none = .ok t)
    (hsubject : coerce sess.subjectDID = sess.subjectDID)
    (hclient : coerce sess.clientID = sess.clientID) : Carries sess t.token :=
  ⟨_, parseUnverified_idToken h, hsubject, hclient⟩

theorem carries_accessToken_iff {grant : Grant}
    (h : issueAccessToken p grant now sess.subjectDID sess.clientID ttl = .ok t) :
    Carries sess t.token
      ↔ coerce sess.subjectDID = sess.subjectDID ∧ coerce sess.clientID = sess.clientID := by
  constructor
  · rintro ⟨claims, hparse, hsubject, hclient⟩
    rw [parseUnverified_accessToken h] at hparse
    obtain rfl := Res.ok.inj hparse
    exact ⟨hsubject, hclient⟩
  · rintro ⟨hsubject, hclient⟩
    exact ⟨_, parseUnverified_accessToken h, hsubject, hclient⟩

theorem SessionTokens.row (h : SessionTokens p env db sess a raw db') (hfresh : DrawsNew p env db) :
    ∃ row, db'.refreshTokens.find (hashToken p raw) = some row
      ∧ row.subjectDID = sess.subjectDID ∧ row.clientID = sess.clientID
      ∧ row.scope = sess.scope := by
  have hnone := hfresh _ ⟨raw, h.drawn⟩
  rw [h.refreshTokens, DB.find_putRefreshToken, if_pos rfl, hnone]
  exact ⟨_, rfl, rfl, rfl, rfl⟩

theorem CodeGranted.codeBound_iff (h : CodeGranted p env r form db sess a raw db')
    (hfresh : DrawsNew p env db) :
    CodeBound p env r form db a db' sess ↔ Unambiguous r sess := by
  obtain ⟨idToken, accessToken, hid, haccess, rfl⟩ := h.issued.tokens
  constructor
  · intro hbound
    obtain ⟨access, id, raw', row, hresponse, hcarries, -⟩ := hbound.tokens
    obtain rfl := tokenResponse_inj hresponse
    obtain ⟨hsubject, hclient⟩ := (carries_accessToken_iff haccess).mp hcarries
    exact ⟨hbound.named.basic, hsubject, hclient⟩
  · intro hun
    obtain ⟨row, hrow, hsubject, hclient, hscope⟩ := h.issued.row hfresh
    exact ⟨h.session, h.unexpired, h.challenge, h.digest, h.authenticated, ⟨h.named, hun.basic⟩,
      accessToken.token, idToken.token, raw, row, rfl,
      (carries_accessToken_iff haccess).mpr ⟨hun.subject, hun.client⟩,
      carries_idToken hid hun.subject hun.client, hrow, hsubject, hclient, hscope⟩

theorem codeGrantBound_run (r : Request) (form : Map Bytes) (faults : Faults)
    (hfresh : DrawsNew p env db) :
    CodeGrantBound p env r form db ((handleAuthCodeExchange p env r form).run faults db).1
        ((handleAuthCodeExchange p env r form).run faults db).2
      ↔ (((handleAuthCodeExchange p env r form).run faults db).1.success →
        ∀ sess, db.sessionByCode (param form "code") = some sess → Unambiguous r sess) := by
  rcases wp_run (wp_handleAuthCodeExchange p env r form db) faults with
    hrefused | ⟨hsuccess, sess, raw, hgranted⟩
  · constructor
    · intro _ hsuccess
      rw [hrefused.unsuccessful] at hsuccess
      cases hsuccess
    · intro _
      refine ⟨fun hsuccess => ?_, fun _ => ⟨hrefused.sessions, hrefused.refreshTokens⟩⟩
      rw [hrefused.unsuccessful] at hsuccess
      cases hsuccess
  · constructor
    · rintro ⟨hbound, -⟩ - sess' hsess'
      obtain ⟨sess'', hbound⟩ := hbound hsuccess
      obtain rfl := some.inj (hsess'.symm.trans hgranted.session)
      obtain rfl := some.inj (hsess'.symm.trans hbound.session)
      exact (hgranted.codeBound_iff hfresh).mp hbound
    · intro hun
      refine ⟨fun _ => ⟨sess, (hgranted.codeBound_iff hfresh).mpr ?_⟩, fun hno => ?_⟩
      · exact hun hsuccess sess hgranted.session
      · rw [hsuccess] at hno
        cases hno

end Bound

section Runs

variable (pl : Platform)

def Call.ExchangesCode (c : Call) (r : Request) (form : Map Bytes) : Prop :=
  c.step = .token r ∧ r.form = some form ∧ grantType form = "authorization_code"

def Call.CodeGrantBound (st : State) (c : Call) : Prop :=
  ∀ r form, c.ExchangesCode r form →
    Oidc.CodeGrantBound pl.provider c.env r form st.db (c.answer pl st) (afterCall pl st c).db

def Call.Unambiguous (st : State) (c : Call) : Prop :=
  ∀ r form, c.ExchangesCode r form → (c.answer pl st).success = true →
    ∀ sess, st.db.sessionByCode (param form "code") = some sess → Oidc.Unambiguous r sess

end Runs

/-- The code grant is bound to client and verifier in a run exactly if no redemption authenticates
as another client and the texts are UTF-8. -/
theorem codeGrantBound_iff (pl : Platform) (st : State) (calls : List Call)
    (hfresh : EveryStep (afterCall pl) (fun st c => DrawsNew pl.provider c.env st.db) st calls) :
    EveryStep (afterCall pl) (fun st c => c.CodeGrantBound pl st) st calls
      ↔ EveryStep (afterCall pl) (fun st c => c.Unambiguous pl st) st calls := by
  refine everyStep_congr (fun st c hfresh => ?_) hfresh
  refine forall_congr' fun r => forall_congr' fun form => imp_congr_right fun hcode => ?_
  obtain ⟨env, faults, step⟩ := c
  obtain ⟨rfl, hform, hgrant⟩ := hcode
  have hhandler : tokenHandler pl.provider env r
      = handleAuthCodeExchange pl.provider env r form := by
    rw [tokenHandler, hform]
    exact if_pos hgrant
  have hiff := codeGrantBound_run r form faults hfresh
  rw [← hhandler] at hiff
  rw [afterCall, Call.answer, run_token]
  exact hiff

namespace Sample

def otherID : Bytes := encodeHex (replicate 16 5)

def otherSecret : Bytes := encodeHex (replicate 32 5)

def registerOther : Bridge.Call :=
  Bridge.Sample.call 5
    (.register (some ⟨"other", [Bridge.Sample.redirectURI], [], [], [], [], []⟩))

def twoClients : DB := Bridge.afterCall Bridge.Sample.server authorized registerOther

def redeemAsOther : Request := { redeem with basicAuth := some (otherID, otherSecret) }

end Sample

open Sample

theorem codeGrantBound_iff_sample :
    EveryStep (afterCall platform) (fun st c => c.CodeGrantBound platform st)
        (restarted authorized) [call 3 (.token redeem)]
      ∧ ((call 3 (.token redeem)).answer platform (restarted authorized)).success = true := by
  refine ⟨(codeGrantBound_iff platform (restarted authorized)
    [call 3 (.token redeem)] ⟨fun _ _ => rfl, trivial⟩).mpr ⟨?_, trivial⟩, by decide +kernel⟩
  rintro r form ⟨hstep, hform, -⟩ - sess hsess
  obtain rfl := Step.token.inj hstep
  obtain rfl := some.inj hform
  have hvalid : ∀ sess ∈ authorized.sessionByCode (formParam redeem "code"),
      coerce sess.subjectDID = sess.subjectDID ∧ coerce sess.clientID = sess.clientID := by
    decide +kernel
  exact ⟨nofun, (hvalid sess hsess).1, (hvalid sess hsess).2⟩

theorem codeGrant_other_client :
    ¬EveryStep (afterCall platform) (fun st c => c.CodeGrantBound platform st)
        (restarted twoClients) [call 3 (.token redeemAsOther)]
      ∧ ((validateClientAuth provider.sha256 redeemAsOther .empty otherID).run
          (fun _ => none) twoClients).1 = .ok () := by
  refine ⟨?_, by decide +kernel⟩
  rintro ⟨hbound, -⟩
  obtain ⟨sess, hsess⟩ :=
    (hbound redeemAsOther _ ⟨rfl, rfl, by decide +kernel⟩).1 (by decide +kernel)
  have hother : ∀ sess ∈ twoClients.sessionByCode (formParam redeemAsOther "code"),
      otherID ≠ sess.clientID := by decide +kernel
  exact hother sess hsess.session (hsess.named.basic _ _ rfl)

/-! ## All grants -/

def BoundTo (db : DB) (a : Answer) (db' : DB) (clientID : Bytes) : Prop :=
  (∃ t ∈ a.signed, t.audience = clientID)
    ∨ ∃ row ∈ db'.refreshTokens.rows, row.usedAt = none ∧ row ∉ db.refreshTokens.rows
      ∧ row.clientID = clientID

def RefreshesFor (db db' : DB) : Prop :=
  ∀ t ∈ db'.refreshTokens.rows, t.usedAt = none →
    t ∈ db.refreshTokens.rows ∨ P t.subjectDID t.clientID

/-- The signed tokens and the new refresh tokens are for a subject and a client in `P`. -/
structure IssuesFor (P : Bytes → Bytes → Prop) (db : DB) (a : Answer) (db' : DB) : Prop where
  signed : ∀ t ∈ a.signed, P t.subject t.audience
  refreshTokens : RefreshesFor P db db'
  granted : a.success = true → a.signed ≠ []

def DrawnFor (env : Env) (db : DB) : Prop :=
  ∀ hash, Draws p env.rand hash → ∀ old, db.refreshTokens.find hash = some old →
    P old.subjectDID old.clientID

abbrev GrantedTo (db : DB) (a : Answer) (db' : DB) (clientID : Bytes) : Prop :=
  IssuesFor (fun _ id => id = clientID) db a db'

theorem eq_of_boundTo {db : DB} {id : Bytes} (h : GrantedTo db a db' clientID)
    (hid : BoundTo db a db' id) : id = clientID := by
  rcases hid with ⟨t, ht, rfl⟩ | ⟨row, hrow, hunused, hnew, rfl⟩
  · exact h.signed t ht
  · exact (h.refreshTokens row hrow hunused).resolve_left hnew

section Grants

variable {P : Bytes → Bytes → Prop} {p : Provider} {env : Env} {r : Request} {form : Map Bytes}
  {db db₁ db' : DB}

theorem IssuesFor.grantedTo {x : Option Bytes} (h : IssuesFor (fun _ id => x = some id) db a db')
    (hsuccess : a.success) : ∃ id, x = some id ∧ GrantedTo db a db' id := by
  obtain ⟨t, ht⟩ := exists_mem_of_ne_nil _ (h.granted hsuccess)
  have hid := h.signed t ht
  refine ⟨t.audience, hid, fun t' ht' => ?_, fun row hrow hunused => ?_, h.granted⟩
  · exact some.inj ((h.signed t' ht').symm.trans hid)
  · exact (h.refreshTokens row hrow hunused).imp_right fun h => some.inj (h.symm.trans hid)

theorem holds_of_sign (h : p.sign path subject audience claims = .ok t) (hP : P subject audience) :
    P t.subject t.audience := by
  obtain ⟨hsubject, haudience⟩ := Provider.holder_of_sign h
  exact hsubject ▸ haudience ▸ hP

theorem refreshesFor_of_eq (h : db'.refreshTokens = db.refreshTokens) : RefreshesFor P db db' :=
  fun _ ht _ => .inl (h ▸ ht)

theorem RefreshesFor.trans (h : RefreshesFor P db db₁) (h' : RefreshesFor P db₁ db') :
    RefreshesFor P db db' := by
  intro t ht hunused
  rcases h' t ht hunused with ht | hP
  · exact h t ht hunused
  · exact .inr hP

theorem refreshesFor_putRefreshToken {t : RefreshToken} (ht : P t.subjectDID t.clientID)
    (hold : ∀ old, db.refreshTokens.find t.hash = some old → P old.subjectDID old.clientID) :
    RefreshesFor P db (db.putRefreshToken t) := by
  intro row hrow _
  rcases Table.mem_upsert RefreshToken.hash_merge hrow with hrow | rfl | ⟨old, -, hfind, rfl⟩
  · exact .inl hrow
  · exact .inr ht
  · exact .inr (hold old hfind)

theorem DrawsNew.drawnFor (h : DrawsNew p env db) : DrawnFor P p env db := by
  intro hash hdraws old hold
  rw [h hash hdraws] at hold
  cases hold

theorem DrawnFor.putRefreshToken (h : DrawnFor P p env db) {t : RefreshToken}
    (ht : P t.subjectDID t.clientID) : DrawnFor P p env (db.putRefreshToken t) := by
  intro hash hdraws old hold
  rw [DB.find_putRefreshToken] at hold
  split at hold
  · rw [← some.inj hold]
    cases hfind : db.refreshTokens.find hash with
    | none => exact ht
    | some old => exact h hash hdraws old hfind
  · exact h hash hdraws old hold

theorem issuesFor_refused (hno : a.success = false) (hnone : a.signed = [])
    (h : RefreshesFor P db db') : IssuesFor P db a db' := by
  refine ⟨?_, h, fun hsuccess => absurd (hno.symm.trans hsuccess) Bool.false_ne_true⟩
  rw [hnone]
  exact forall_mem_nil _

theorem CodeGranted.issuesFor (h : CodeGranted p env r form db sess a raw db')
    (hP : P sess.subjectDID sess.clientID) (hdrawn : DrawnFor P p env db) :
    IssuesFor P db a db' := by
  obtain ⟨idToken, accessToken, hid, haccess, rfl⟩ := h.issued.tokens
  refine ⟨forall_mem_cons.mpr ⟨holds_of_sign hid hP,
    forall_mem_singleton.mpr (holds_of_sign haccess hP)⟩, ?_,
    fun _ => cons_ne_nil _ _⟩
  intro t ht
  rw [h.issued.refreshTokens] at ht
  exact refreshesFor_putRefreshToken hP (hdrawn _ ⟨raw, h.issued.drawn⟩) t ht

theorem issuesFor_issueRefreshedTokens (hP : P rt.subjectDID rt.clientID)
    (hmarked : RefreshesFor P db db₁) (hdrawn : DrawnFor P p env db₁) :
    (issueRefreshedTokens p env rt).wp (IssuesFor P db) db₁ := by
  unfold issueRefreshedTokens
  split
  · next access haccess =>
    have hsigned : ∀ t ∈ [access], P t.subject t.audience :=
      forall_mem_singleton.mpr (holds_of_sign haccess hP)
    have hfailed : IssuesFor P db (failed [access]) db₁ :=
      ⟨hsigned, hmarked, fun _ => cons_ne_nil _ _⟩
    split
    · next raw hash hraw =>
      refine wp_exec_bind ⟨hsigned, ?_, fun _ => cons_ne_nil _ _⟩ fun e => hfailed
      exact hmarked.trans (refreshesFor_putRefreshToken (t := refreshed env rt hash) hP
        (hdrawn hash ⟨raw, hraw⟩))
    · exact hfailed
  · exact issuesFor_refused rfl rfl hmarked

theorem issuesFor_rotateRefreshToken (hP : P rt.subjectDID rt.clientID)
    (hfind : db.refreshTokens.find rt.hash = some rt) (hdrawn : DrawnFor P p env db) :
    (rotateRefreshToken p env rt).wp (IssuesFor P db) db := by
  refine wp_exec_bind ?_ fun _ => ?_
  · refine issuesFor_issueRefreshedTokens hP
      (refreshesFor_putRefreshToken hP fun old hold => ?_) (hdrawn.putRefreshToken hP)
    rw [some.inj (hold.symm.trans hfind)]
    exact hP
  · exact issuesFor_issueRefreshedTokens hP (refreshesFor_of_eq rfl) hdrawn

theorem wp_handleRefreshTokenGrant
    (htoken : ∀ rt, db.refreshTokens.find (hashToken p (param form "refresh_token")) = some rt →
      P rt.subjectDID rt.clientID)
    (hdrawn : DrawnFor P p env db) :
    (handleRefreshTokenGrant p env r form).wp (fun a db' => IssuesFor P db a db' ∧
      (a.success → ∀ rt,
        db.refreshTokens.find (hashToken p (param form "refresh_token")) = some rt →
          Authenticated p r form db rt.clientID)) db := by
  have hrefused : ∀ {a : Answer} {db' : DB} {C : Prop}, a.success = false → a.signed = [] →
      RefreshesFor P db db' → IssuesFor P db a db' ∧ (a.success → C) :=
    fun hno hnone h => ⟨issuesFor_refused hno hnone h,
      fun hsuccess => absurd (hno.symm.trans hsuccess) Bool.false_ne_true⟩
  have hkept : RefreshesFor P db db := refreshesFor_of_eq rfl
  refine wp_ite (fun _ => hrefused rfl rfl hkept) fun _ => ?_
  refine wp_lookup_bind ?_ fun e => hrefused rfl rfl hkept
  cases hfind : db.refreshTokens.find (hashToken p (param form "refresh_token")) with
  | none => exact hrefused rfl rfl hkept
  | some rt =>
    refine wp_ite (fun _ => ?_) fun _ => wp_ite (fun _ => ?_) fun _ => ?_
    · exact wp_exec_bind (hrefused rfl rfl fun _ ht _ => .inl (mem_of_mem_filter ht))
        fun e => hrefused rfl rfl hkept
    · exact wp_exec_bind (hrefused rfl rfl fun _ ht _ => .inl (mem_of_mem_filter ht))
        fun e => hrefused rfl rfl hkept
    refine wp_seq (wp_validateClientAuth ..) fun res db' h => ?_
    obtain ⟨rfl, hauth⟩ := h
    split
    · have hhash : rt.hash = hashToken p (param form "refresh_token") := Table.key_of_find hfind
      refine wp_mono (fun a _ h => ⟨h, fun _ rt' hrt' => ?_⟩)
        (issuesFor_rotateRefreshToken (htoken rt hfind) (hhash ▸ hfind) hdrawn)
      rw [← some.inj hrt']
      exact hauth rfl
    · exact hrefused rfl rfl hkept
    · exact hrefused rfl rfl hkept

theorem grantedTo_of_sign {response : Response} (ht : p.sign path subject clientID claims = .ok t) :
    GrantedTo db ⟨response, [t]⟩ db clientID :=
  ⟨forall_mem_singleton.mpr (Provider.holder_of_sign ht).2, refreshesFor_of_eq rfl,
    fun _ => cons_ne_nil _ _⟩

theorem wp_handleClientCredentialsGrant :
    (handleClientCredentialsGrant p env r form).wp (fun a db' => a.success →
        ∃ id, GrantedTo db a db' id ∧ Authenticated p r form db id) db := by
  refine wp_ite (fun _ => wp_unsuccessful rfl) fun _ => ?_
  refine wp_seq (wp_validateClientAuth ..) fun res db' h => ?_
  obtain ⟨rfl, hauth⟩ := h
  split
  · refine wp_lookup_bind ?_ fun e => wp_unsuccessful rfl
    cases hclient : db'.client (namedClient r form) with
    | none => exact wp_unsuccessful rfl
    | some client =>
      refine wp_ite (fun _ => wp_unsuccessful rfl) fun _ => ?_
      split
      · next haccess =>
        intro _
        exact ⟨_, grantedTo_of_sign haccess, hauth rfl⟩
      · exact wp_unsuccessful rfl
  · exact wp_unsuccessful rfl
  · exact wp_unsuccessful rfl

theorem issuesFor_handleDeviceGrant
    (hcode : ∀ dc, db.deviceCodes.find (param form "device_code") = some dc →
      P dc.subjectDID dc.clientID)
    (hdrawn : DrawnFor P p env db) : (handleDeviceGrant p env form).wp (IssuesFor P db) db := by
  refine wp_handleDeviceGrant (fun _ _ => issuesFor_refused rfl rfl (refreshesFor_of_eq rfl))
    (fun _ _ => issuesFor_refused rfl rfl (refreshesFor_of_eq rfl)) fun dc hfind _ => ?_
  have hP := hcode dc hfind
  refine wp_issueDeviceTokens (fun signed hsigned => ⟨fun t ht => ?_, refreshesFor_of_eq rfl,
    fun h => absurd h Bool.false_ne_true⟩) ?_
  · exact holds_of_sign (hsigned t ht) hP
  · intro access raw hash haccess hraw codes _
    refine ⟨forall_mem_singleton.mpr (holds_of_sign haccess hP), ?_,
      fun _ => cons_ne_nil _ _⟩
    exact refreshesFor_putRefreshToken (t := deviceRefreshToken env dc hash) hP
      (hdrawn hash ⟨raw, hraw⟩)

def exchangeAudience (p : Provider) (form : Map Bytes) : Bytes :=
  if param form "audience" = [] then p.issuer else param form "audience"

theorem exchangeToken_granted {claims : Claims} {caller : Bytes} :
    (exchangeToken p env form claims caller).success →
      GrantedTo db (exchangeToken p env form claims caller) db (exchangeAudience p form) := by
  unfold exchangeToken
  dsimp only
  split
  · intro h
    cases h
  · split
    · next haccess =>
      intro _
      exact grantedTo_of_sign haccess
    · intro h
      cases h

theorem wp_handleTokenExchange :
    (handleTokenExchange p env r form).wp
      (fun a db' => a.success → GrantedTo db a db' (exchangeAudience p form)) db := by
  refine wp_ite (fun _ => wp_unsuccessful rfl) fun _ => ?_
  refine wp_ite (fun _ => wp_unsuccessful rfl) fun _ => ?_
  refine wp_ite (fun _ => wp_unsuccessful rfl) fun _ => ?_
  split
  · refine wp_ite (fun _ => exchangeToken_granted) fun _ => ?_
    refine wp_seq (wp_validateClientAuth ..) fun res db' h => ?_
    obtain ⟨rfl, -⟩ := h
    split
    · exact exchangeToken_granted
    · exact wp_unsuccessful rfl
    · exact wp_unsuccessful rfl
  · exact wp_unsuccessful rfl
  · exact wp_unsuccessful rfl

end Grants

/-! ## Confidential clients -/

def SecretIfConfidential (r : Request) (form : Map Bytes) (db : DB) (id : Bytes) : Prop :=
  ∀ client, db.client id = some client → client.tokenEndpointAuthMethod ≠ "none" →
    PresentsSecret p r form id client

/-- A success presented the secret of every confidential client it hands tokens to. -/
def SecretsPresented (r : Request) (db : DB) (a : Answer) (db' : DB) : Prop :=
  a.success = true → ∃ form, r.form = some form ∧
    ∀ id, BoundTo db a db' id → SecretIfConfidential p r form db id

def uncheckedClient (form : Map Bytes) (db : DB) : Option Bytes :=
  if grantType form = "urn:ietf:params:oauth:grant-type:device_code" then
    (db.deviceCodes.find (param form "device_code")).map DeviceCode.clientID
  else if grantType form = "urn:ietf:params:oauth:grant-type:token-exchange" then
    some (exchangeAudience p form)
  else none

section Confidential

variable {p : Provider} {env : Env} {r : Request} {form : Map Bytes} {db : DB}

def Grants (p : Provider) (r : Request) (form : Map Bytes) (db : DB) (a : Answer) (db' : DB) :
    Prop :=
  ∃ id, GrantedTo db a db' id
    ∧ match uncheckedClient p form db with
      | some id' => id' = id
      | none => Authenticated p r form db id

theorem wp_tokenHandler (hform : r.form = some form) (hfresh : DrawsNew p env db) :
    (tokenHandler p env r).wp (fun a db' => a.success → Grants p r form db a db') db := by
  have hchecked : ∀ {a : Answer} {db' : DB} {grant : Bytes},
      grantType form = grant → grant ≠ "urn:ietf:params:oauth:grant-type:device_code" →
      grant ≠ "urn:ietf:params:oauth:grant-type:token-exchange" →
      (∃ id, GrantedTo db a db' id ∧ Authenticated p r form db id) → Grants p r form db a db' := by
    rintro a db' grant rfl hdevice hexchange ⟨id, hgranted, hauth⟩
    refine ⟨id, hgranted, ?_⟩
    rw [uncheckedClient, if_neg hdevice, if_neg hexchange]
    exact hauth
  rw [tokenHandler, hform]
  refine wp_ite (fun hgrant => ?_) fun _ => ?_
  · refine wp_mono (fun a db' h hsuccess => ?_) (wp_handleAuthCodeExchange p env r form db)
    rcases h with hrefused | ⟨-, sess, raw, hcode⟩
    · rw [hrefused.unsuccessful] at hsuccess
      cases hsuccess
    · exact hchecked hgrant (by decide) (by decide)
        ⟨sess.clientID, hcode.issuesFor rfl hfresh.drawnFor, hcode.authenticated⟩
  refine wp_ite (fun hgrant => ?_) fun _ => ?_
  · refine wp_mono (fun a db' h hsuccess => ?_) (wp_handleRefreshTokenGrant
      (P := fun _ id => Option.map _ _ = some id)
      (fun rt hrt => congrArg (Option.map RefreshToken.clientID) hrt) hfresh.drawnFor)
    obtain ⟨id, hid, hgranted⟩ := h.1.grantedTo hsuccess
    obtain ⟨rt, hrt, rfl⟩ := map_eq_some_iff.mp hid
    exact hchecked hgrant (by decide) (by decide) ⟨_, hgranted, h.2 hsuccess rt hrt⟩
  refine wp_ite (fun hgrant => ?_) fun _ => ?_
  · exact wp_mono (fun a db' h hsuccess => hchecked hgrant (by decide) (by decide) (h hsuccess))
      wp_handleClientCredentialsGrant
  refine wp_ite (fun hgrant => ?_) fun hdevice => ?_
  · refine wp_mono (fun a db' h hsuccess => ?_) (issuesFor_handleDeviceGrant
      (P := fun _ id => Option.map _ _ = some id)
      (fun dc hdc => congrArg (Option.map DeviceCode.clientID) hdc) hfresh.drawnFor)
    obtain ⟨id, hid, hgranted⟩ := h.grantedTo hsuccess
    refine ⟨id, hgranted, ?_⟩
    rw [uncheckedClient, if_pos hgrant, hid]
  refine wp_ite (fun hgrant => ?_) fun _ => wp_unsuccessful rfl
  refine wp_mono (fun a db' h hsuccess => ⟨_, h hsuccess, ?_⟩) wp_handleTokenExchange
  rw [uncheckedClient, if_neg hdevice, if_pos hgrant]

theorem Grants.secrets_iff (h : Grants p r form db a db') (hsuccess : a.success) :
    (∀ id, BoundTo db a db' id → SecretIfConfidential p r form db id)
      ↔ ∀ id, uncheckedClient p form db = some id → SecretIfConfidential p r form db id := by
  obtain ⟨id, hgranted, hshown⟩ := h
  constructor
  · intro hpresented id' hid'
    rw [hid'] at hshown
    obtain rfl : id' = id := hshown
    obtain ⟨t, ht⟩ := exists_mem_of_ne_nil _ (hgranted.granted hsuccess)
    exact hpresented id' (.inl ⟨t, ht, hgranted.signed t ht⟩)
  · intro hunchecked id' hid'
    obtain rfl := eq_of_boundTo hgranted hid'
    cases hcase : uncheckedClient p form db with
    | some id'' =>
      rw [hcase] at hshown
      obtain rfl : id'' = id' := hshown
      exact hunchecked id'' hcase
    | none =>
      rw [hcase] at hshown
      intro client hclient hconf
      obtain ⟨client', hclient', hauth⟩ := hshown
      obtain rfl := some.inj (hclient.symm.trans hclient')
      exact hauth hconf

end Confidential

/-- Confidential clients present their secrets exactly if they do in the device and exchange grants,
which do not ask for them. -/
theorem secretsPresented_iff (env : Env) (r : Request) (db : DB) (faults : Faults)
    (hfresh : DrawsNew p env db) :
    SecretsPresented p r db ((tokenHandler p env r).run faults db).1
        ((tokenHandler p env r).run faults db).2
      ↔ (((tokenHandler p env r).run faults db).1.success = true → ∀ form, r.form = some form →
        ∀ id, uncheckedClient p form db = some id → SecretIfConfidential p r form db id) := by
  cases hform : r.form with
  | none =>
    have hno : ((tokenHandler p env r).run faults db).1.success = false := by
      rw [tokenHandler, hform]
      rfl
    simp only [SecretsPresented, hno, Bool.false_eq_true, false_implies]
  | some form =>
    have hgrants := wp_run (wp_tokenHandler hform hfresh) faults
    refine forall_congr' fun hsuccess => ?_
    simp only [hform, some.injEq, exists_eq_left', forall_eq']
    exact (hgrants hsuccess).secrets_iff hsuccess

namespace Sample

def approved : State :=
  [call 6 (.deviceAuthorization (fun _ => 0)
      (post [("client_id", otherID), ("client_secret", otherSecret)])),
    call 7 (.deviceApprove (post [("user_code", "AAAA-AAAA"),
      ("subject_did", "did:key:z1")]))].foldl (afterCall platform) (restarted twoClients)

def poll : Request :=
  post [("grant_type", "urn:ietf:params:oauth:grant-type:device_code"),
    ("device_code", encodeHex (replicate 32 6))]

end Sample

theorem secretsPresented_iff_sample :
    SecretsPresented provider redeem authorized
        ((tokenHandler provider (env 3) redeem).run (fun _ => none) authorized).1
        ((tokenHandler provider (env 3) redeem).run (fun _ => none) authorized).2
      ∧ ((tokenHandler provider (env 3) redeem).run (fun _ => none)
          authorized).1.success = true := by
  refine ⟨(secretsPresented_iff _ _ _ _ _ fun _ _ => rfl).mpr fun _ form hform id hid => ?_,
    by decide +kernel⟩
  obtain rfl := some.inj hform
  cases hid

theorem device_without_secret :
    ¬SecretsPresented provider poll Sample.approved.db
        ((tokenHandler provider (env 8) poll).run (fun _ => none) Sample.approved.db).1
        ((tokenHandler provider (env 8) poll).run (fun _ => none) Sample.approved.db).2 := by
  intro h
  obtain ⟨form, hform, hpresented⟩ := h (by decide +kernel)
  obtain rfl := some.inj hform
  have hbound : ∃ t ∈ ((tokenHandler provider (env 8) poll).run
      (fun _ => none) Sample.approved.db).1.signed, t.audience = otherID := by
    decide +kernel
  have hconf : ∃ client ∈ Sample.approved.db.client otherID,
      client.tokenEndpointAuthMethod ≠ "none" := by decide +kernel
  obtain ⟨client, hclient, hmethod⟩ := hconf
  have hsecret := (hpresented otherID (.inl hbound) client hclient hmethod).given
  exact hsecret (by decide +kernel)

end TptIdentity.Oidc
