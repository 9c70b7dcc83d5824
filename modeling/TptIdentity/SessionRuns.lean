import TptIdentity.LoginSubjects

/-!
# Runs of the authorization endpoints

The requests that create clients, codes and logins, as steps of one system (`Step`, `Call`). A
code is issued in two ways. `/authorize` checks the client, the redirect and the challenge against
the registration before it saves the session. A login (bridge callback, SAML assertion, password,
magic link) takes all three from its bridge state, which was signed or stored earlier and is not
compared with the registration.

`Step.wp_proc` says once what each step may do to the tables; the invariant `AllBound` follows
for `/authorize` always and for a login if its state conforms. In a run whose drawn IDs are new,
all codes are bound exactly when every login that issues one has a conforming state
(`codesBound_iff`); a magic link for an unknown client breaks it (`magicLink_code_unbound`).
`verifyBridgeState_iff` says which states a callback accepts.
-/

namespace TptIdentity.Bridge

open Go Store Oidc Proc List

/-! ## Steps -/

inductive Step where
  | register (body : Option RegisterClientRequest)
  | pushRequest (r : Request)
  | authorize (r : Request)
  | bridgeStart (provider : Bytes) (r : Request) (up : Upstream)
  | bridgeCallback (provider : Bytes) (r : Request) (up : Upstream)
  | samlACS (provider : Bytes) (r : Request) (up : Upstream)
  | passwordAuth (r : Request) (body : Option PasswordRequest)
  | magicLinkRequest (body : Option MagicLinkRequest)
  | magicLinkVerify (r : Request)

variable {provider : Bytes} {up : Upstream} {r : Request} (srv : Server) (step : Step) (env : Env)

def Step.proc : Step → Proc DB Reply
  | .register body => do return { response := ← registerClientHandler srv.sha256 env body }
  | .pushRequest r => do return { response := ← parHandler srv.sha256 env r }
  | .authorize r => do return { response := ← authorizeHandler env r }
  | .bridgeStart provider r up => return handleBridgeStart srv env provider r up
  | .bridgeCallback provider r up => handleBridgeCallback srv env provider r up
  | .samlACS provider r up => handleSAMLACS srv env provider r up
  | .passwordAuth r body => handlePasswordAuth srv env r body
  | .magicLinkRequest body => handleMagicLinkRequest srv env body
  | .magicLinkVerify r => handleMagicLinkVerify srv env r

structure Login where
  state : BridgeState
  sessionID : Bytes
deriving DecidableEq, Repr

variable {l : Login}

def Step.login : Step → Option Login
  | .bridgeCallback _ r _ =>
    (verifyBridgeState srv (env.clock 0) (param r.query "state")).toOption.map fun st =>
      ⟨st, finishID (env.drop 1)⟩
  | .samlACS _ r _ =>
    r.form.map fun form =>
      ⟨optionalState srv (env.clock 0) (param form "RelayState"), finishID (env.drop 1)⟩
  | .passwordAuth _ body =>
    body.map fun req => ⟨req.bridgeState (env.clock 3), finishID (env.drop 4)⟩
  | .magicLinkVerify r =>
    some ⟨optionalState srv (env.clock 1) (param r.query "state"), finishID (env.drop 2)⟩
  | _ => none

def Step.subjects (db : DB) : Step → List Bytes
  | .authorize r =>
    param r.header "X-Subject-DID" :: sessionSubjects db (randomID env.rand 1)
  | .bridgeCallback _ r up =>
    (up.exchangeCode (param r.query "code")).toOption.toList.flatMap fun ext =>
      loginSubjects srv (env.drop 1) db ext.provider ext.externalID
  | .samlACS _ r up =>
    r.form.toList.flatMap fun form =>
      let st := optionalState srv (env.clock 0) (param form "RelayState")
      let requestIDs := if st.authnRequestID ≠ [] then [st.authnRequestID] else []
      (up.processACS requestIDs).toOption.toList.flatMap fun ext =>
        loginSubjects srv (env.drop 1) db ext.provider ext.externalID
  | .passwordAuth _ (some req) =>
    drawnSubjects srv env
      ++ loginSubjects srv (env.drop 4) db "password" (normaliseEmail srv req.identifier)
  | .magicLinkVerify r =>
    (db.magicLinkTokens.find (hashMagicToken srv (param r.query "token"))).toList.flatMap fun t =>
      loginSubjects srv (env.drop 2) db "magiclink-email" t.email
  | _ => []

def Step.Effect (S : Bytes → Prop) (srv : Server) (env : Env) (db : DB) (step : Step)
    (reply : Reply) (db' : DB) : Prop :=
  match step with
  | .register _ => Registered env.rand db db'
  | .authorize _ => Authorized S db db'
  | step =>
    match step.login srv env with
    | some l => LoginOutcome S db l.state l.sessionID reply db'
    | none => Keeps db db'

section Effect

variable {S : Bytes → Prop} {srv : Server} {env : Env} {db : DB} {r : Request}

theorem Step.effect_of_keeps (reply : Reply) {db' : DB} (hkeeps : Keeps db db')
    (hreply : reply.response.isRedirect = false) : step.Effect S srv env db reply db' := by
  unfold Step.Effect
  split
  · exact .inl hkeeps
  · exact .inl hkeeps
  · split
    · exact .kept hkeeps hreply
    · exact hkeeps

theorem Step.Effect.startsFor {step : Step} {reply : Reply} {db' : DB}
    (h : step.Effect S srv env db reply db') : StartsFor S db db' := by
  unfold Step.Effect at h
  split at h
  · rcases h with h | ⟨c, -, rfl⟩
    · exact h.startsFor
    · exact fun sess hsess => .inl hsess
  · exact h.startsFor
  · split at h
    · exact h.startsFor
    · exact Keeps.startsFor h

theorem wp_handleBridgeCallback
    (h : ∀ did ∈ (Step.bridgeCallback provider r up).subjects srv env db, S did) :
    (handleBridgeCallback srv env provider r up).wp
      ((Step.bridgeCallback provider r up).Effect S srv env db) db := by
  have hkept : ∀ reply : Reply, reply.response.isRedirect = false →
      (Step.bridgeCallback provider r up).Effect S srv env db reply db :=
    fun reply => Step.effect_of_keeps _ reply (Keeps.refl db)
  unfold handleBridgeCallback
  split
  · exact hkept _ rfl
  · refine wp_ite (fun _ => hkept _ rfl) fun _ => ?_
    split
    · next st hst =>
      split
      · next ext hext =>
        refine wp_mono (fun reply db' h => ?_) (wp_finishBridgeAuth r st (loginFor_of_mem
          fun did hdid => h did (mem_flatMap.mpr ⟨ext, mem_toList_of_ok hext, hdid⟩)))
        simpa only [Step.Effect, Step.login, hst, Res.toOption_ok, Option.map_some] using h
      · exact hkept _ rfl
      · exact hkept _ rfl
    · exact hkept _ rfl
    · exact hkept _ rfl
  · exact hkept _ rfl

theorem wp_handleSAMLACS (h : ∀ did ∈ (Step.samlACS provider r up).subjects srv env db, S did) :
    (handleSAMLACS srv env provider r up).wp
      ((Step.samlACS provider r up).Effect S srv env db) db := by
  have hkept : ∀ reply : Reply, reply.response.isRedirect = false →
      (Step.samlACS provider r up).Effect S srv env db reply db :=
    fun reply => Step.effect_of_keeps _ reply (Keeps.refl db)
  unfold handleSAMLACS
  split
  · exact hkept _ rfl
  · split
    · exact hkept _ rfl
    · next form hform =>
      dsimp only
      split
      · next ext hext =>
        refine wp_mono (fun reply db' h => ?_) (wp_finishBridgeAuth r _ (loginFor_of_mem
          fun did hdid => h did (mem_flatMap.mpr ⟨form, Option.mem_toList.mpr hform,
            mem_flatMap.mpr ⟨ext, mem_toList_of_ok hext, hdid⟩⟩)))
        simpa only [Step.Effect, Step.login, hform, Option.map_some] using h
      · exact hkept _ rfl
      · exact hkept _ rfl
  · exact hkept _ rfl

theorem wp_handlePasswordAuth {body : Option PasswordRequest}
    (h : ∀ did ∈ (Step.passwordAuth r body).subjects srv env db, S did) :
    (handlePasswordAuth srv env r body).wp ((Step.passwordAuth r body).Effect S srv env db) db := by
  cases body with
  | none => exact Keeps.refl db
  | some req =>
    obtain ⟨hnew, hlogin⟩ := forall_mem_append.mp h
    have hlogin := loginFor_of_mem hlogin
    refine wp_ite (fun _ => .kept (Keeps.refl db) rfl) fun _ => ?_
    split
    · exact .kept (Keeps.refl db) rfl
    · refine wp_seq (linkFor_verifyCredentials req.password hlogin.link) fun res db' h => ?_
      obtain ⟨rfl, hext⟩ := h
      split
      · next ext =>
        have hclear : (clearAuthFailures req.identifier).wp
            (fun _ db₁ => Keeps db' db₁ ∧ db₁.externalLinks = db'.externalLinks) db' :=
          ⟨⟨⟨rfl, rfl⟩, rfl⟩, fun _ => ⟨⟨rfl, rfl⟩, rfl⟩⟩
        refine wp_seq hclear fun _ db₁ h => ?_
        obtain ⟨hkeeps, hlinks⟩ := h
        have hduress := (aside_of_quiet (quiet_withDuress srv env ext req.password)).within.wp
          Aside.refl Aside.trans db₁
        refine (wp_bind ..).mpr (wp_mono (fun ext' db₂ h => ?_) (wp_and hduress
          (linkFor_withDuress req.password (newFor_of_mem hnew) ((hext ext rfl).of_eq hlinks))))
        have hkeeps₂ := hkeeps.trans h.1.keeps
        exact wp_mono (fun _ _ h => h.of_keeps hkeeps₂)
          (wp_finishBridgeAuth r _ ⟨hlogin.drawn, h.2, hlogin.session.of_keeps hkeeps₂⟩)
      · exact wp_bind_quiet (quiet_recordAuthFailure ..) fun _ db₁ hkeeps => .kept hkeeps rfl
    · exact .kept (Keeps.refl db) rfl

theorem wp_handleMagicLinkVerify (h : ∀ did ∈ (Step.magicLinkVerify r).subjects srv env db, S did) :
    (handleMagicLinkVerify srv env r).wp ((Step.magicLinkVerify r).Effect S srv env db) db := by
  refine wp_ite (fun _ => .kept (Keeps.refl db) rfl) fun _ => ?_
  refine wp_seq (wp_verifyToken ..) fun res db₁ h => ?_
  obtain ⟨⟨hkeeps, hlinks⟩, hext⟩ := h
  split
  · next ext =>
    obtain ⟨t, ht, hprovider, hemail⟩ := hext ext rfl
    have hlogin := loginFor_of_mem fun did hdid =>
      h did (mem_flatMap.mpr ⟨t, Option.mem_toList.mpr ht, hdid⟩)
    rw [← hprovider, ← hemail] at hlogin
    exact wp_mono (fun _ _ h => h.of_keeps hkeeps)
      (wp_finishBridgeAuth r _ (hlogin.of_keeps hkeeps hlinks))
  · exact .kept hkeeps rfl

variable (srv env) in
theorem uniform_handleMagicLinkRequest (body : Option MagicLinkRequest) :
    (handleMagicLinkRequest srv env body).Uniform Aside SameButUnread := by
  unfold handleMagicLinkRequest
  split
  · exact .pure _
  · refine uniform_ite (.pure _) (uniform_bind (uniform_generateToken ..) fun res => ?_)
    split <;> exact .pure _

theorem Step.wp_proc (h : ∀ did ∈ step.subjects srv env db, S did) :
    (step.proc srv env).wp (step.Effect S srv env db) db := by
  cases step with
  | register body => exact (wp_bind ..).mpr (wp_registerClientHandler srv.sha256 env body db)
  | pushRequest r =>
    exact wp_bind_keeps (uniform_parHandler ..) fun _ _ hkeeps => hkeeps
  | authorize r =>
    obtain ⟨hsubject, hid⟩ := forall_mem_cons.mp h
    exact (wp_bind ..).mpr (wp_authorizeHandler hsubject (sessionFor_of_mem hid))
  | bridgeStart provider r up => exact Keeps.refl db
  | bridgeCallback provider r up => exact wp_handleBridgeCallback h
  | samlACS provider r up => exact wp_handleSAMLACS h
  | passwordAuth r body => exact wp_handlePasswordAuth h
  | magicLinkRequest body =>
    exact wp_mono (fun _ _ h => h.keeps)
      ((uniform_handleMagicLinkRequest srv env body).within.wp Aside.refl Aside.trans db)
  | magicLinkVerify r => exact wp_handleMagicLinkVerify h

theorem Step.startsFor (step : Step) (h : ∀ did ∈ step.subjects srv env db, S did) :
    (step.proc srv env).wp (fun _ db' => StartsFor S db db') db :=
  wp_mono (fun _ _ h => h.startsFor) (step.wp_proc h)

end Effect

/-! ## Runs -/

structure Call where
  env : Env
  faults : Faults
  step : Step

section Runs

variable (srv : Server)

def Call.run (db : DB) (c : Call) : Reply × DB := (c.step.proc srv c.env).run c.faults db

def afterCall (db : DB) (c : Call) : DB := (c.run srv db).2

theorem Call.effect (db : DB) (c : Call) :
    c.step.Effect (fun _ => True) srv c.env db (c.run srv db).1 (afterCall srv db c) :=
  wp_run (c.step.wp_proc fun _ _ => trivial) c.faults

variable {c : Call}

theorem Call.outcome (db : DB) (hl : c.step.login srv c.env = some l) :
    LoginOutcome (fun _ => True) db l.state l.sessionID (c.run srv db).1 (afterCall srv db c) := by
  have heffect := c.effect srv db
  unfold Step.Effect at heffect
  split at heffect
  · next hstep => simp [hstep, Step.login] at hl
  · next hstep => simp [hstep, Step.login] at hl
  · rwa [hl] at heffect

/-- The client ID that a registration draws, and the session ID that a login
draws, are not in use. -/
def Call.FreshIDs (db : DB) (c : Call) : Prop :=
  match c.step with
  | .register _ => ∀ id ∈ (randomHex c.env.rand 0 16).toOption, db.client id = none
  | step => ∀ l ∈ step.login srv c.env, db.sessions.find l.sessionID = none

def Call.Conforms (db : DB) (c : Call) : Prop :=
  ∀ l ∈ c.step.login srv c.env, (c.run srv db).1.response.isRedirect = true → Conforming db l.state
deriving Decidable

instance (db : DB) (c : Call) : Decidable (c.FreshIDs srv db) := by
  unfold Call.FreshIDs
  split <;> infer_instance

variable {srv}

variable {db : DB}

theorem Call.FreshIDs.session (h : c.FreshIDs srv db) (hl : c.step.login srv c.env = some l) :
    db.sessions.find l.sessionID = none := by
  unfold Call.FreshIDs at h
  split at h
  · next hstep => simp [hstep, Step.login] at hl
  · exact h l hl

theorem allBound_afterCall (h : AllBound db) (hfresh : c.FreshIDs srv db)
    (hconf : c.Conforms srv db) : AllBound (afterCall srv db c) := by
  cases hl : c.step.login srv c.env with
  | some l =>
    have hconforming := hconf l hl
    have houtcome := Call.outcome srv db hl
    generalize (c.run srv db).1 = reply at hconforming houtcome
    generalize afterCall srv db c = db' at houtcome ⊢
    cases houtcome with
    | kept hkeeps _ => exact hkeeps.allBound h
    | issued hkeeps hsess _ hreply =>
      exact (hkeeps.allBound h).putSession ((sessionBound_congr hkeeps.clients).mpr
          (hsess.sessionBound_iff.mpr (hconforming hreply)))
  | none =>
    have heffect := c.effect srv db
    unfold Call.FreshIDs at hfresh
    unfold Step.Effect at heffect
    split at heffect
    · next hstep =>
      rw [hstep] at hfresh
      rcases heffect with hkeeps | ⟨client, hid, heq⟩
      · exact hkeeps.allBound h
      · rw [heq]
        exact h.putClient (hfresh _ (Res.toOption_eq_some.mpr hid))
    · rcases heffect with hkeeps | ⟨db₁, sess, hkeeps, hbound, -, heq⟩
      · exact hkeeps.allBound h
      · rw [heq]
        exact (hkeeps.allBound h).putSession hbound
    · rw [hl] at heffect
      exact Keeps.allBound heffect h

theorem conforms_of_codesBound (hfresh : c.FreshIDs srv db) (h : CodesBound (afterCall srv db c)) :
    c.Conforms srv db := by
  intro l hl hredirect
  have hnew := hfresh.session hl
  have houtcome := Call.outcome srv db hl
  generalize (c.run srv db).1 = reply at hredirect houtcome
  generalize afterCall srv db c = db' at houtcome h
  cases houtcome with
  | kept _ hreply => exact absurd hredirect (by rw [hreply]; exact Bool.false_ne_true)
  | @issued db₁ sess hkeeps hsess _ _ =>
    have hfind : (db₁.putSession sess).sessions.find sess.id = some sess := by
      rw [DB.find_putSession, if_pos rfl, hkeeps.sessions, hsess.id, hnew]
      rfl
    have hbound := h sess (Table.mem_rows_iff.mpr hfind) hsess.code
    have hclients : (db₁.putSession sess).clients = db.clients := hkeeps.clients
    exact hsess.sessionBound_iff.mp ((sessionBound_congr hclients).mp hbound)

/-- Codes are bound to a registered redirect and to S256 in all states of a run exactly if every
login that answers with a code has a bridge state that is bound so. -/
theorem codesBound_iff (calls : List Call)
    (hfresh : EveryStep (afterCall srv) (fun db c => c.FreshIDs srv db) .empty calls) :
    EveryState (afterCall srv) CodesBound .empty calls
      ↔ EveryStep (afterCall srv) (fun db c => c.Conforms srv db) .empty calls :=
  everyState_iff_everyStep (I := AllBound) (fun _ => AllBound.codesBound)
    (fun _ _ => allBound_afterCall) (fun _ _ _ => conforms_of_codesBound) allBound_empty hfresh

end Runs

/-! ## A run -/

namespace Sample

def server : Server where
  issuer := "https://id.example"
  apiKey := "api-key"
  bridges name := if name = "google" then some .redirect else none
  sha256 b := b
  hmacSHA256 _ msg := [UInt8.ofNat msg.length]
  argon2IDKey _ _ _ _ _ _ := []
  lower r := r
  publicKey seed := seed
  multibaseEncode b := .ok ("z" ++ encodeHex b)
  formatRFC3339 _ := []
  subjectFromBearer _ := .err (.new "no bearer token" [])

def call (n : UInt8) (step : Step) : Call := ⟨⟨.of fun _ _ => n, fun _ => 0⟩, fun _ => none, step⟩

def request (query header : List (Bytes × Bytes)) : Request where
  query := Map.empty.setAll query
  form := none
  header := Map.empty.setAll header
  basicAuth := none
  remoteAddr := "192.0.2.1:443"

def redirectURI : Bytes := "https://app.example/cb"

def clientID : Bytes := encodeHex (replicate 16 1)

def register : Call :=
  call 1 (.register (some ⟨"app", [redirectURI], "none", [], [], [], []⟩))

def authorize : Call :=
  call 2 (.authorize (request
    [("client_id", clientID), ("redirect_uri", redirectURI), ("state", "s"),
      ("code_challenge", "c"), ("code_challenge_method", "S256")]
    [("X-Subject-DID", "did:key:z1")]))

def start : Request :=
  request [("client_id", clientID), ("redirect_uri", redirectURI),
    ("code_challenge", "c"), ("code_challenge_method", "S256")] []

def callback : Call :=
  call 3 (.bridgeCallback "google"
    (request [("code", "x"), ("state", stateToken server (redirectState server 0 start))] [])
    { authorizationURL := fun _ => .ok []
      exchangeCode := fun _ => .ok ⟨"google", "alice", .empty, false⟩
      prepareAuth := .ok ([], [])
      processACS := fun _ => .err (.new "" []) })

def linkRequest : MagicLinkRequest :=
  ⟨"mallory@example.org", "nobody", "https://evil.example/cb", [], []⟩

def requestLink : Call := call 1 (.magicLinkRequest (some linkRequest))

def followLink : Call :=
  call 2 (.magicLinkVerify (request
    [("token", encodeHex (replicate 32 1)),
      ("state", stateToken server (linkRequest.bridgeState 0))] []))

end Sample

open Sample

theorem codesBound_iff_sample :
    EveryState (afterCall server) CodesBound .empty [register, authorize, callback]
      ∧ ([register, authorize, callback].foldl (afterCall server)
          .empty).sessions.rows.map OIDCSession.clientID = [clientID, clientID] :=
  ⟨(codesBound_iff _ (by decide +kernel)).mpr (by decide +kernel), by decide +kernel⟩

theorem magicLink_code_unbound :
    ¬EveryState (afterCall server) CodesBound .empty [requestLink, followLink]
      ∧ ([requestLink, followLink].foldl (afterCall server) .empty).sessions.rows.map (fun sess =>
            (sess.clientID, sess.redirectURI, sess.codeChallenge, sess.codeChallengeMethod))
        = [(str "nobody", str "https://evil.example/cb", [], [])] := by
  decide +kernel

/-! ## Accepted states -/

/-- The MACs of a token's payload are known of these states only. -/
def MacsOnly (signed : List BridgeState) (token : Bytes) : Prop :=
  ∀ payload, token = payload ++ 46 :: stateSignature srv payload →
    ∃ st ∈ signed, payload = encodeB64 (Value.obj st.members).text

/-- A state is accepted exactly if it was signed here and is at most 600 seconds old. -/
theorem verifyBridgeState_iff (signed : List BridgeState) (token : Bytes)
    (hmac : MacsOnly srv signed token) (now : Int) (st' : BridgeState) :
    verifyBridgeState srv now token = .ok st'
      ↔ ∃ st ∈ signed, token = stateToken srv st ∧ st' = st.coerced
        ∧ ¬Int64.ofInt (unix now) - st.createdAt > 600 := by
  have htoken : ∀ st, verifyBridgeState srv now (stateToken srv st) = .ok st'
      ↔ st' = st.coerced ∧ ¬Int64.ofInt (unix now) - st.createdAt > 600 := by
    intro st
    rw [verifyBridgeState_eq, Res.ite_err_eq_ok, Res.ok.injEq, eq_comm, and_comm]
  constructor
  · intro h
    have hcut : ∃ payload, token = payload ++ 46 :: stateSignature srv payload := by
      unfold verifyBridgeState at h
      split at h
      · next payload sig hsplit =>
        split at h
        · cases h
        · next hsig =>
          refine ⟨payload, not_not.mp hsig ▸ ?_⟩
          rw [splitN] at hsplit
          split at hsplit
          · cases hsplit
          · next hcut =>
            cases hsplit
            exact (cut_eq_some.mp hcut).1
      · cases h
    obtain ⟨payload, rfl⟩ := hcut
    obtain ⟨st, hst, rfl⟩ := hmac payload rfl
    exact ⟨st, hst, rfl, (htoken st).mp h⟩
  · rintro ⟨st, -, rfl, h⟩
    exact (htoken st).mpr h

theorem verifyBridgeState_signed :
    verifyBridgeState Sample.server 600000000000
        (stateToken Sample.server { BridgeState.zero with clientID := "c" })
      = .ok { BridgeState.zero with clientID := "c" } := by
  refine (verifyBridgeState_iff Sample.server [{ BridgeState.zero with clientID := "c" }] _
    (fun payload h => ⟨_, mem_singleton_self _, ?_⟩) 600000000000 _).mpr
    ⟨_, mem_singleton_self _, rfl, rfl, by decide⟩
  have hdot : ∀ b, (46 : UInt8) ∉ encodeHex b := fun b hb =>
    absurd (hexVal_of_mem_encodeHex hb) (by decide)
  exact ((append_cons_inj_of_notMem (not_mem_encodeB64 (by decide) _) (hdot _)).mp h).1.symm

end TptIdentity.Bridge
