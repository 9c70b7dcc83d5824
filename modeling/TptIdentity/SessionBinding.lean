import TptIdentity.LoginWrites

/-!
# Codes, clients and PKCE

A code issued by a login is bound exactly when the bridge state names a registered client, one
of its redirect URIs and an S256 challenge (`Conforming`). What a request does to clients and
sessions is one specification per endpoint.
-/

namespace TptIdentity.Bridge

open Go Store Oidc Proc

/-! ## Bound sessions -/

@[mk_iff]
structure SessionBound (db : DB) (sess : OIDCSession) : Prop where
  registered : ∃ c, db.client sess.clientID = some c ∧ sess.redirectURI ∈ c.redirectURIs
  challenge : sess.codeChallenge ≠ []
  method : sess.codeChallengeMethod = "S256"

/-- Some registered client has the ID and the redirect URI. -/
instance (db : DB) (id uri : Bytes) :
    Decidable (∃ c, db.client id = some c ∧ uri ∈ c.redirectURIs) :=
  decidable_of_iff (∃ c ∈ db.client id, uri ∈ c.redirectURIs) Iff.rfl

instance (db : DB) (sess : OIDCSession) : Decidable (SessionBound db sess) :=
  decidable_of_iff' _ (sessionBound_iff ..)

def CodesBound (db : DB) : Prop :=
  ∀ sess ∈ db.sessions.rows, sess.code ≠ [] → SessionBound db sess
deriving Decidable

def AllBound (db : DB) : Prop := ∀ sess ∈ db.sessions.rows, SessionBound db sess

variable {sess : OIDCSession} {db : DB}

variable {db' : DB} {id : Bytes} (sha256 : Bytes → Bytes) (env : Env)

theorem sessionBound_congr (h : db'.clients = db.clients) :
    SessionBound db' sess ↔ SessionBound db sess := by
  have hclient : db'.client sess.clientID = db.client sess.clientID := by
    rw [DB.client, DB.client, h]
  constructor
  · rintro ⟨hreg, hchal, hmeth⟩
    exact ⟨hclient ▸ hreg, hchal, hmeth⟩
  · rintro ⟨hreg, hchal, hmeth⟩
    exact ⟨hclient ▸ hreg, hchal, hmeth⟩

theorem AllBound.codesBound (h : AllBound db) : CodesBound db :=
  fun sess hsess _ => h sess hsess

theorem allBound_empty : AllBound .empty := fun _ h => absurd h List.not_mem_nil

/-! ## Calls that leave clients and sessions alone -/

structure Keeps (db db' : DB) : Prop where
  clients : db'.clients = db.clients
  sessions : db'.sessions = db.sessions

theorem Keeps.refl (db : DB) : Keeps db db := ⟨rfl, rfl⟩

theorem Keeps.trans {a b c : DB} (hab : Keeps a b) (hbc : Keeps b c) : Keeps a c :=
  ⟨hbc.clients.trans hab.clients, hbc.sessions.trans hab.sessions⟩

theorem Keeps.allBound (h : Keeps db db') (hall : AllBound db) : AllBound db' :=
  fun sess hsess => (sessionBound_congr h.clients).mpr (hall sess (h.sessions ▸ hsess))

structure Aside (db db' : DB) : Prop where
  clients : db'.clients = db.clients
  sessions : db'.sessions = db.sessions
  refreshTokens : db'.refreshTokens = db.refreshTokens
  deviceCodes : db'.deviceCodes = db.deviceCodes

theorem Aside.refl (db : DB) : Aside db db := ⟨rfl, rfl, rfl, rfl⟩

theorem Aside.trans {a b c : DB} (hab : Aside a b) (hbc : Aside b c) : Aside a c :=
  ⟨hbc.clients.trans hab.clients, hbc.sessions.trans hab.sessions,
    hbc.refreshTokens.trans hab.refreshTokens, hbc.deviceCodes.trans hab.deviceCodes⟩

theorem Aside.keeps (h : Aside db db') : Keeps db db' := ⟨h.clients, h.sessions⟩

theorem QuietWrite.aside (h : QuietWrite db db') : Aside db db' := by
  cases h <;> exact ⟨rfl, rfl, rfl, rfl⟩

section Within

variable {α β : Type}

variable {R : DB → DB → Prop}

theorem aside_of_quiet {q : Proc DB α} (h : q.Uniform QuietWrite R) :
    q.Uniform Aside R := h.mono fun _ _ => QuietWrite.aside

theorem uniform_insert {op : DB → Res α × DB} (hW : ∀ db, Aside db (op db).2)
    (h : ∀ db failures identities,
      (op { db with authFailures := failures, identities := identities }).1 = (op db).1
        ∧ (op { db with authFailures := failures, identities := identities }).2
          = { (op db).2 with authFailures := failures, identities := identities }) :
    (query op).Uniform Aside SameButUnread := by
  refine uniform_query hW ?_
  rintro db _ ⟨failures, identities, rfl⟩
  exact ⟨(h ..).1.symm, failures, identities, (h ..).2⟩

theorem uniform_pushRequest (form : Map Bytes) (id : Bytes) :
    (pushRequest env form id).Uniform Aside SameButUnread := by
  unfold pushRequest
  split
  · refine uniform_bind (uniform_insert (fun _ => ⟨rfl, rfl, rfl, rfl⟩) fun _ _ _ => ⟨rfl, rfl⟩)
      fun r => ?_
    split <;> exact .pure _
  · exact .pure _

theorem uniform_parHandler (r : Request) :
    (parHandler sha256 env r).Uniform Aside SameButUnread := by
  unfold parHandler
  split
  · exact .pure _
  · refine uniform_ite (.pure _) (uniform_bind
      (aside_of_quiet (quiet_validateClientAuth refreshReads_unread ..)) fun r => ?_)
    split
    · refine uniform_ite (uniform_pushRequest ..) (uniform_bind
        (aside_of_quiet (quiet_getClient refreshReads_unread _)) fun r => ?_)
      split
      · exact uniform_ite (uniform_pushRequest ..) (.pure _)
      · exact .pure _
    · exact .pure _
    · exact .pure _

theorem uniform_generateToken (srv : Server) (env : Env) (email : Bytes) :
    (generateToken srv env email).Uniform Aside SameButUnread := by
  unfold generateToken
  split
  · exact uniform_bind (uniform_insert (fun _ => ⟨rfl, rfl, rfl, rfl⟩) fun _ _ _ => ⟨rfl, rfl⟩)
      fun _ => .pure _
  · exact .pure _
  · exact .pure _

variable {p : Proc DB α} {k : α → Proc DB β} {Q : β → DB → Prop}

theorem wp_bind_keeps (hp : p.Uniform Aside R) (hk : ∀ a db', Keeps db db' → (k a).wp Q db') :
    (p >>= k).wp Q db :=
  (wp_bind p k Q db).mpr
    (wp_mono (fun a db' h => hk a db' h.keeps) (hp.within.wp Aside.refl Aside.trans db))

theorem wp_bind_quiet (hp : p.Uniform QuietWrite R) (hk : ∀ a db', Keeps db db' → (k a).wp Q db') :
    (p >>= k).wp Q db :=
  wp_bind_keeps (aside_of_quiet hp) hk

end Within

/-! ## For whom sessions are started -/

def StartsFor (S : Bytes → Prop) (db db' : DB) : Prop :=
  ∀ sess ∈ db'.sessions.rows, sess ∈ db.sessions.rows ∨ S sess.subjectDID

def SessionFor (S : Bytes → Prop) (db : DB) (id : Bytes) : Prop :=
  ∀ old, db.sessions.find id = some old → S old.subjectDID

section StartsFor

variable {S : Bytes → Prop} {db₁ db' : DB}

theorem Keeps.startsFor (h : Keeps db db') : StartsFor S db db' :=
  fun _ hsess => .inl (h.sessions ▸ hsess)

theorem StartsFor.of_keeps (hkeeps : Keeps db db₁) (h : StartsFor S db₁ db') :
    StartsFor S db db' := by
  intro sess hsess
  have hsessions := h sess hsess
  rwa [hkeeps.sessions] at hsessions

theorem SessionFor.of_keeps (h : SessionFor S db id) (hkeeps : Keeps db db₁) :
    SessionFor S db₁ id := by
  unfold SessionFor
  rwa [hkeeps.sessions]

theorem startsFor_putSession (hsess : S sess.subjectDID) (hid : SessionFor S db sess.id) :
    StartsFor S db (db.putSession sess) := by
  intro row hrow
  rcases Table.mem_upsert OIDCSession.id_merge hrow with hrow | rfl | ⟨old, -, hold, rfl⟩
  · exact .inl hrow
  · exact .inr hsess
  · exact .inr (hid old hold)

end StartsFor

/-! ## Registration -/

def Registered (rand : Rand) (db db' : DB) : Prop :=
  Keeps db db' ∨ ∃ c, randomHex rand 0 16 = .ok c.clientID ∧ db' = db.putClient c

theorem wp_registerClientHandler (body : Option RegisterClientRequest) (db : DB) :
    (registerClientHandler sha256 env body).wp (fun _ db' => Registered env.rand db db') db := by
  have hkept : ∀ resp : Response,
      (pure resp : Proc DB Response).wp (fun _ db' => Registered env.rand db db') db :=
    fun _ => .inl (Keeps.refl db)
  unfold registerClientHandler
  split
  · exact hkept _
  · split
    · exact hkept _
    · split
      · exact hkept _
      · split
        · next hid _ =>
          rw [wp_bind]
          refine (wp_exec ..).mpr ⟨?_, fun _ => hkept _⟩
          exact .inr ⟨_, hid, rfl⟩
        · exact hkept _

theorem AllBound.putClient (h : AllBound db) {c : OIDCClient} (hnew : db.client c.clientID = none) :
    AllBound (db.putClient c) := by
  intro sess hsess
  obtain ⟨⟨c', hc', huri⟩, hchal, hmeth⟩ := h sess hsess
  have hne : sess.clientID ≠ c.clientID := fun heq => by
    rw [heq, hnew] at hc'
    cases hc'
  exact ⟨⟨c', (db.client_putClient c hne).trans hc', huri⟩, hchal, hmeth⟩

/-! ## Authorization -/

variable {S : Bytes → Prop}

def Authorized (S : Bytes → Prop) (db db' : DB) : Prop :=
  Keeps db db' ∨ ∃ db₁ sess, Keeps db db₁ ∧ SessionBound db₁ sess
    ∧ StartsFor S db₁ (db₁.putSession sess) ∧ db' = db₁.putSession sess

theorem Authorized.startsFor {db' : DB} (h : Authorized S db db') : StartsFor S db db' := by
  rcases h with h | ⟨db₁, sess, hkeeps, -, hstarts, rfl⟩
  · exact h.startsFor
  · exact hstarts.of_keeps hkeeps

theorem wp_authorize {env : Env} {r : Request} (q : Map Bytes)
    (hsubject : S (param r.header "X-Subject-DID")) (hid : SessionFor S db (randomID env.rand 1)) :
    (Oidc.authorize env r q).wp (fun _ db' => Authorized S db db') db := by
  have hkept : ∀ resp : Response,
      (pure resp : Proc DB Response).wp (fun _ db' => Authorized S db db') db :=
    fun _ => .inl (Keeps.refl db)
  refine wp_ite (fun _ => hkept _) fun _ => wp_ite (fun _ => hkept _) fun _ => ?_
  refine wp_ite (fun _ => hkept _) fun hchal => wp_ite (fun _ => hkept _) fun hmeth => ?_
  rw [getClient, wp_bind, wp_bind]
  refine (wp_select ..).mpr ⟨?_, fun _ => .inl (Keeps.refl db)⟩
  cases hclient : db.client (param q "client_id") with
  | none => exact .inl (Keeps.refl db)
  | some c =>
    simp only [found, Res.wrapErr_ok, wp_pure]
    refine wp_ite (fun _ => hkept _) fun huri => ?_
    split
    · rw [wp_bind]
      refine (wp_exec ..).mpr ⟨?_, fun _ => hkept _⟩
      refine .inr ⟨db, _, Keeps.refl db, ⟨⟨c, hclient, ?_⟩, hchal, ?_⟩,
        startsFor_putSession hsubject hid, rfl⟩
      · simpa [containsURI] using huri
      · simpa using hmeth
    · exact hkept _

theorem wp_authorizeHandler {env : Env} {r : Request}
    (hsubject : S (param r.header "X-Subject-DID")) (hid : SessionFor S db (randomID env.rand 1)) :
    (authorizeHandler env r).wp (fun _ db' => Authorized S db db') db := by
  refine wp_ite (fun _ => wp_authorize _ hsubject hid) fun _ => ?_
  refine wp_bind_quiet (quiet_resolvePARRequest ..) fun res db₁ hkeeps => ?_
  split
  · refine wp_mono (fun _ db' h => ?_) (wp_authorize _ hsubject (hid.of_keeps hkeeps))
    rcases h with h | ⟨db₂, sess, h, hsess⟩
    · exact .inl (hkeeps.trans h)
    · exact .inr ⟨db₂, sess, hkeeps.trans h, hsess⟩
  · exact .inl hkeeps
  · exact .inl hkeeps

theorem AllBound.putSession (h : AllBound db) (hsess : SessionBound db sess) :
    AllBound (db.putSession sess) := by
  intro row hrow
  have hclients : (db.putSession sess).clients = db.clients := rfl
  refine (sessionBound_congr hclients).mpr ?_
  rcases Table.mem_upsert OIDCSession.id_merge hrow with hrow | rfl | ⟨old, hold, -, rfl⟩
  · exact h row hrow
  · exact hsess
  · exact ⟨(h old hold).registered, hsess.challenge, hsess.method⟩

/-! ## Logins -/

@[mk_iff]
structure Conforming (db : DB) (st : BridgeState) : Prop where
  registered : ∃ c, db.client st.clientID = some c ∧ st.redirectURI ∈ c.redirectURIs
  challenge : st.codeChallenge ≠ []
  method : st.codeChallengeMethod = "S256"

instance (db : DB) (st : BridgeState) : Decidable (Conforming db st) :=
  decidable_of_iff' _ (conforming_iff ..)

structure HoldsState (st : BridgeState) (id : Bytes) (sess : OIDCSession) : Prop where
  id : sess.id = id
  code : sess.code ≠ []
  clientID : sess.clientID = st.clientID
  redirectURI : sess.redirectURI = st.redirectURI
  challenge : sess.codeChallenge = st.codeChallenge
  method : sess.codeChallengeMethod = st.codeChallengeMethod

theorem HoldsState.sessionBound_iff {st : BridgeState} (h : HoldsState st id sess) :
    SessionBound db sess ↔ Conforming db st := by
  constructor
  · rintro ⟨hreg, hchal, hmeth⟩
    rw [h.clientID, h.redirectURI] at hreg
    exact ⟨hreg, h.challenge ▸ hchal, h.method ▸ hmeth⟩
  · rintro ⟨hreg, hchal, hmeth⟩
    rw [← h.clientID, ← h.redirectURI] at hreg
    exact ⟨hreg, h.challenge ▸ hchal, h.method ▸ hmeth⟩

inductive LoginOutcome (S : Bytes → Prop) (db : DB) (st : BridgeState) (id : Bytes) :
    Reply → DB → Prop where
  | kept {reply : Reply} {db' : DB} (hkeeps : Keeps db db')
      (hreply : reply.response.isRedirect = false) : LoginOutcome S db st id reply db'
  | issued {reply : Reply} {db₁ : DB} {sess : OIDCSession} (hkeeps : Keeps db db₁)
      (hsess : HoldsState st id sess) (hstarts : StartsFor S db₁ (db₁.putSession sess))
      (hreply : reply.response.isRedirect = true) :
      LoginOutcome S db st id reply (db₁.putSession sess)

section LoginOutcome

variable {st : BridgeState} {id : Bytes} {reply : Reply} {db' : DB}

theorem LoginOutcome.startsFor (h : LoginOutcome S db st id reply db') : StartsFor S db db' := by
  cases h with
  | kept h _ => exact h.startsFor
  | issued hkeeps _ hstarts _ => exact hstarts.of_keeps hkeeps

theorem LoginOutcome.of_keeps {db₁ : DB} (hkeeps : Keeps db db₁)
    (h : LoginOutcome S db₁ st id reply db') : LoginOutcome S db st id reply db' := by
  cases h with
  | kept h hreply => exact .kept (hkeeps.trans h) hreply
  | issued h hsess hstarts hreply => exact .issued (hkeeps.trans h) hsess hstarts hreply

end LoginOutcome

theorem randomHex_ne_nil {rand : Rand} {i n : Nat} {s : Bytes} (hn : n ≠ 0)
    (h : randomHex rand i n = .ok s) : s ≠ [] := by
  obtain ⟨b, hb, hs⟩ := Res.bind_eq_ok.mp h
  obtain rfl := Res.ok.inj hs
  refine encodeHex_ne_nil fun hnil => ?_
  unfold Rand.read at hb
  split at hb
  · cases hb
  · obtain rfl := Res.ok.inj hb
    exact hn (by simpa using hnil)

def finishID : Bytes := randomID (env.drop 3).rand 1

theorem wp_finishSession {env : Env} (r : Request) (ext : ExternalIdentity) (st : BridgeState)
    {did : Bytes} (hdid : S did) (hid : SessionFor S db (randomID env.rand 1)) :
    (finishSession env r ext st did).wp (LoginOutcome S db st (randomID env.rand 1)) db := by
  refine wp_ite (fun _ => ?_) fun _ => .kept (Keeps.refl db) rfl
  rw [issueSessionForDIDCtx]
  split
  · next code hcode =>
    rw [wp_bind, wp_bind]
    refine (wp_exec ..).mpr ⟨?_, fun e => .kept (Keeps.refl db) rfl⟩
    exact .issued (Keeps.refl db) ⟨rfl, randomHex_ne_nil (by decide) hcode, rfl, rfl, rfl, rfl⟩
      (startsFor_putSession hdid hid) rfl
  · exact .kept (Keeps.refl db) rfl
  · exact .kept (Keeps.refl db) rfl

end TptIdentity.Bridge
