import TptIdentity.SessionRuns
import TptIdentity.SignedMessages

/-!
# What the endpoints write, read and sign

Every store call of every endpoint, as one relation between the databases before and after it
(`TokenWrite`, `StepWrite`). The same pass shows that an answer has nothing signed but what is
listed in `Minted` (`Endpoint`).
-/

namespace TptIdentity.Oidc

open Go Store Proc Bridge List

inductive TokenWrite (p : Provider) (rand : Rand) (db : DB) : DB → Prop where
  | aside {db' : DB} (h : Aside db db') : TokenWrite p rand db db'
  | deleteSession (id : Bytes) :
      TokenWrite p rand db { db with sessions := db.sessions.delete id }
  | purgeSessions (now : Int) :
      TokenWrite p rand db
        { db with sessions := db.sessions.deleteWhere fun sess => sess.expiresAt < now }
  | issueRefreshToken (t : RefreshToken) {raw : Bytes}
      (hdrawn : generateRefreshToken p rand = .ok (raw, t.hash)) (hnew : t.usedAt = none) :
      TokenWrite p rand db (db.putRefreshToken t)
  | useRefreshToken (t : RefreshToken) (hused : t.usedAt.isSome = true) :
      TokenWrite p rand db (db.putRefreshToken t)
  | deleteRefreshToken (hash : Bytes) :
      TokenWrite p rand db { db with refreshTokens := db.refreshTokens.delete hash }
  | deviceCodes (deviceCodes : Table DeviceCode.deviceCode) :
      TokenWrite p rand db { db with deviceCodes }

/-- No session that is saved names a refresh token. -/
inductive LoginWrite (db : DB) : DB → Prop where
  | aside {db' : DB} (h : Aside db db') : LoginWrite db db'
  | saveClient (c : OIDCClient) : LoginWrite db (db.putClient c)
  | saveSession (sess : OIDCSession) (hunlinked : sess.refreshTokenHash = []) :
      LoginWrite db (db.putSession sess)

inductive StepWrite (p : Provider) (rand : Rand) (db : DB) : DB → Prop where
  | token {db' : DB} (h : TokenWrite p rand db db') : StepWrite p rand db db'
  | login {db' : DB} (h : LoginWrite db db') : StepWrite p rand db db'
  | deleteClient (id : Bytes) : StepWrite p rand db { db with clients := db.clients.delete id }

/-! ## Sessions and refresh tokens -/

def Live (db : DB) (hash : Bytes) : Prop :=
  ∃ t, db.refreshTokens.find hash = some t ∧ t.usedAt = none

instance (db : DB) (hash : Bytes) : Decidable (Live db hash) :=
  decidable_of_iff (∃ t ∈ db.refreshTokens.find hash, t.usedAt = none) Iff.rfl

def Draws (p : Provider) (rand : Rand) (hash : Bytes) : Prop :=
  ∃ raw, generateRefreshToken p rand = .ok (raw, hash)

variable {hash : Bytes}

theorem draws_iff {p : Provider} {rand : Rand} :
    (∃ d ∈ (generateRefreshToken p rand).toOption, d.2 = hash) ↔ Draws p rand hash := by
  constructor
  · rintro ⟨⟨raw, _⟩, hdrawn, rfl⟩
    exact ⟨raw, Res.toOption_eq_some.mp hdrawn⟩
  · rintro ⟨raw, hdrawn⟩
    exact ⟨(raw, hash), Res.toOption_eq_some.mpr hdrawn, rfl⟩

instance (p : Provider) (rand : Rand) (hash : Bytes) : Decidable (Draws p rand hash) :=
  decidable_of_iff _ draws_iff

variable {t : RefreshToken}

section Write

variable {p : Provider} {rand : Rand} {db db' : DB}

theorem TokenWrite.sessions_sublist (h : TokenWrite p rand db db') :
    db'.sessions.rows.Sublist db.sessions.rows := by
  cases h with
  | aside h => rw [h.sessions]
  | deleteSession id => exact filter_sublist
  | purgeSessions now => exact filter_sublist
  | issueRefreshToken t _ _ => exact List.Sublist.refl _
  | useRefreshToken t _ => exact List.Sublist.refl _
  | deleteRefreshToken hash => exact List.Sublist.refl _
  | deviceCodes _ => exact List.Sublist.refl _

theorem not_live_putRefreshToken (hused : t.usedAt.isSome) :
    ¬Live (db.putRefreshToken t) t.hash := by
  rintro ⟨row, hrow, hnone⟩
  rw [DB.find_putRefreshToken, if_pos rfl] at hrow
  obtain rfl := Option.some.inj hrow
  cases hold : db.refreshTokens.find t.hash with
  | none =>
    rw [hold] at hnone
    exact absurd hnone (Option.isSome_iff_ne_none.mp hused)
  | some old =>
    rw [hold] at hnone
    exact absurd hnone (Option.isSome_iff_ne_none.mp hused)

theorem live_putRefreshToken_of_ne (hne : hash ≠ t.hash) :
    Live (db.putRefreshToken t) hash ↔ Live db hash := by
  rw [Live, DB.find_putRefreshToken, if_neg hne, Live]

theorem TokenWrite.live (h : TokenWrite p rand db db') (hlive : Live db' hash) :
    Live db hash ∨ Draws p rand hash := by
  cases h with
  | aside h => exact .inl (by rwa [Live, h.refreshTokens] at hlive)
  | deleteSession id => exact .inl hlive
  | purgeSessions now => exact .inl hlive
  | issueRefreshToken t hdrawn _ =>
    by_cases hhash : hash = t.hash
    · exact .inr ⟨_, hhash ▸ hdrawn⟩
    · exact .inl ((live_putRefreshToken_of_ne hhash).mp hlive)
  | useRefreshToken t hused =>
    by_cases hhash : hash = t.hash
    · exact absurd (hhash ▸ hlive) (not_live_putRefreshToken hused)
    · exact .inl ((live_putRefreshToken_of_ne hhash).mp hlive)
  | deleteRefreshToken hash' =>
    obtain ⟨t, ht, hnone⟩ := hlive
    rw [Table.find_delete] at ht
    split at ht
    · cases ht
    · exact .inl ⟨t, ht, hnone⟩
  | deviceCodes _ => exact .inl hlive

theorem StepWrite.live (h : StepWrite p rand db db') (hlive : Live db' hash) :
    Live db hash ∨ Draws p rand hash := by
  cases h with
  | token h => exact h.live hlive
  | login h =>
    cases h with
    | aside h => exact TokenWrite.live (.aside h) hlive
    | saveClient c => exact .inl hlive
    | saveSession sess _ => exact .inl hlive
  | deleteClient id => exact .inl hlive

end Write

section Within

variable {α β : Type} {p : Provider} {rand : Rand}

theorem token_of_quiet {R : DB → DB → Prop} {q : Proc DB α} (h : q.Uniform QuietWrite R) :
    q.Uniform (TokenWrite p rand) R := h.mono fun _ _ h => .aside h.aside

theorem uniform_getDeviceCodeByUserCode (code : Bytes) :
    (getDeviceCodeByUserCode code).Uniform (TokenWrite p rand) SameButUnread :=
  token_of_quiet (quiet_lookup fun _ _ _ => rfl)

theorem uniform_deleteSession (id : Bytes) :
    (deleteSession id).Uniform (TokenWrite p rand) SameButUnread :=
  uniform_write (fun _ => .deleteSession id) fun _ _ _ => rfl

theorem uniform_deleteDeviceCode (code : Bytes) :
    (deleteDeviceCode code).Uniform (TokenWrite p rand) SameButUnread :=
  uniform_write (fun _ => .deviceCodes _) fun _ _ _ => rfl

section RefreshReads

variable {R : DB → DB → Prop} (hR : RefreshReads R)

include hR

theorem uniform_getRefreshToken (hash : Bytes) :
    (getRefreshToken hash).Uniform (TokenWrite p rand) R := by
  refine uniform_bind (uniform_select (fun db => .aside (Aside.refl db)) fun db db' h => ?_)
    fun _ => .pure _
  rw [hR.refreshTokens h]

theorem uniform_saveRefreshToken (hW : ∀ db : DB, TokenWrite p rand db (db.putRefreshToken t)) :
    (saveRefreshToken t).Uniform (TokenWrite p rand) R := by
  refine uniform_exec hW fun db db' h => ?_
  rw [DB.putRefreshToken, DB.putRefreshToken, hR.refreshTokens h]
  exact hR.write h _

theorem uniform_saveDrawn {raw : Bytes} (hdrawn : generateRefreshToken p rand = .ok (raw, hash))
    (hhash : t.hash = hash) (hnew : t.usedAt = none) :
    (saveRefreshToken t).Uniform (TokenWrite p rand) R :=
  uniform_saveRefreshToken hR fun _ => .issueRefreshToken t (hhash ▸ hdrawn) hnew

theorem uniform_deleteRefreshToken (hash : Bytes) :
    (deleteRefreshToken hash).Uniform (TokenWrite p rand) R := by
  refine uniform_exec (fun _ => .deleteRefreshToken hash) fun db db' h => ?_
  rw [hR.refreshTokens h]
  exact hR.write h _

end RefreshReads

/-! ## The token endpoint -/

abbrev Endpoint (p : Provider) (rand : Rand) (q : Proc DB Answer) : Prop :=
  q.Does (TokenWrite p rand) SameButUnread (AllMinted p)

variable (p)

variable (env : Env) (r : Request) (form : Map Bytes)

theorem does_issueSessionTokens (sess : OIDCSession) :
    Endpoint p env.rand (issueSessionTokens p env sess) := by
  unfold issueSessionTokens
  split
  · next idToken hid =>
    split
    · next accessToken haccess =>
      have hboth : ∀ response, AllMinted p ⟨response, [idToken, accessToken]⟩ := by
        intro response t ht
        rcases List.mem_cons.mp ht with rfl | ht
        · exact .idToken hid
        · rw [List.mem_singleton.mp ht]
          exact .accessToken haccess
      split
      · next hdrawn =>
        refine does_bind (uniform_saveDrawn refreshReads_unread hdrawn rfl rfl) fun r => ?_
        split
        · exact does_bind (uniform_deleteSession _) fun _ => does_pure (hboth _)
        · exact does_pure (hboth _)
      · exact does_pure (hboth _)
    · exact does_pure (allMinted_singleton _ (.idToken hid))
  · exact does_none rfl

theorem does_handleAuthCodeExchange :
    Endpoint p env.rand (handleAuthCodeExchange p env r form) := by
  refine does_ite (does_none rfl) (does_bind (token_of_quiet (quiet_lookup fun _ _ _ => rfl))
    fun res => ?_)
  split
  · iterate 5
      refine does_ite ?_ ?_
      · exact does_none rfl
    refine does_bind (token_of_quiet (quiet_validateClientAuth refreshReads_unread ..))
      fun res => ?_
    split
    · exact does_issueSessionTokens p env _
    · exact does_none rfl
    · exact does_none rfl
  · exact does_none rfl

theorem does_rotateRefreshToken {R : DB → DB → Prop} (hR : RefreshReads R) (env : Env)
    (rt : RefreshToken) :
    (rotateRefreshToken p env rt).Does (TokenWrite p env.rand) R (AllMinted p) := by
  refine does_bind (uniform_saveRefreshToken hR fun _ => .useRefreshToken _ rfl) fun _ => ?_
  unfold issueRefreshedTokens
  split
  · next haccess =>
    have hsigned := fun response => allMinted_singleton response (.accessToken haccess)
    split
    · next hdrawn =>
      refine does_bind (uniform_saveDrawn hR hdrawn rfl rfl) fun r => ?_
      split <;> exact does_pure (hsigned _)
    · exact does_pure (hsigned _)
  · exact does_none rfl

theorem does_handleRefreshTokenGrant {R : DB → DB → Prop} (hR : RefreshReads R) (env : Env)
    (r : Request) (form : Map Bytes) :
    (handleRefreshTokenGrant p env r form).Does (TokenWrite p env.rand) R (AllMinted p) := by
  have hdelete : ∀ hash code desc, (deleteRefreshToken hash >>= fun _ =>
      pure (refuse code desc)).Does (TokenWrite p env.rand) R (AllMinted p) :=
    fun _ _ _ => does_bind (uniform_deleteRefreshToken hR _) fun _ => does_none rfl
  refine does_ite (does_none rfl) (does_bind (uniform_getRefreshToken hR _) fun res => ?_)
  split
  · refine does_ite (hdelete ..) (does_ite (hdelete ..) ?_)
    refine does_bind (token_of_quiet (quiet_validateClientAuth hR ..)) fun res => ?_
    split
    · exact does_rotateRefreshToken p hR env _
    · exact does_none rfl
    · exact does_none rfl
  · exact does_none rfl

theorem does_handleClientCredentialsGrant :
    Endpoint p env.rand (handleClientCredentialsGrant p env r form) := by
  refine does_ite (does_none rfl) (does_bind
    (token_of_quiet (quiet_validateClientAuth refreshReads_unread ..)) fun res => ?_)
  split
  · refine does_bind (token_of_quiet (quiet_getClient refreshReads_unread _)) fun res => ?_
    split
    · refine does_ite (does_none rfl) ?_
      split
      · next haccess => exact does_pure (allMinted_singleton _ (.accessToken haccess))
      · exact does_none rfl
    · exact does_none rfl
  · exact does_none rfl
  · exact does_none rfl

theorem does_issueDeviceTokens (deviceCode : Bytes) (dc : DeviceCode) :
    Endpoint p env.rand (issueDeviceTokens p env deviceCode dc) := by
  unfold issueDeviceTokens
  split
  · next haccess =>
    have hsigned := fun response => allMinted_singleton response (.accessToken haccess)
    split
    · next hdrawn =>
      refine does_bind (uniform_saveDrawn refreshReads_unread hdrawn rfl rfl) fun r => ?_
      split
      · exact does_bind (uniform_deleteDeviceCode _) fun _ => does_pure (hsigned _)
      · exact does_pure (hsigned _)
    · exact does_pure (hsigned _)
  · exact does_none rfl

theorem does_handleDeviceGrant : Endpoint p env.rand (handleDeviceGrant p env form) := by
  have hdelete : ∀ deviceCode code desc, Endpoint p env.rand
      (deleteDeviceCode deviceCode >>= fun _ => pure (refuse code desc)) :=
    fun _ _ _ => does_bind (uniform_deleteDeviceCode _) fun _ => does_none rfl
  refine does_ite (does_none rfl) (does_bind (token_of_quiet (quiet_lookup fun _ _ _ => rfl))
    fun res => ?_)
  split
  · refine does_ite (does_none rfl) (does_ite (hdelete ..) (does_ite (hdelete ..) ?_))
    exact does_ite (does_none rfl) (does_issueDeviceTokens p env _ _)
  · exact does_none rfl

theorem does_handleTokenExchange : Endpoint p env.rand (handleTokenExchange p env r form) := by
  refine does_ite (does_none rfl) (does_ite (does_none rfl) (does_ite (does_none rfl) ?_))
  split
  · refine does_ite (does_pure (allMinted_exchangeToken _ _)) (does_bind
      (token_of_quiet (quiet_validateClientAuth refreshReads_unread ..)) fun res => ?_)
    split
    · exact does_pure (allMinted_exchangeToken _ _)
    · exact does_none rfl
    · exact does_none rfl
  · exact does_none rfl
  · exact does_none rfl

theorem does_tokenHandler : Endpoint p env.rand (tokenHandler p env r) := by
  unfold tokenHandler
  split
  · exact does_none rfl
  · next form _ =>
    refine does_ite (does_handleAuthCodeExchange p env r form) ?_
    refine does_ite (does_handleRefreshTokenGrant p refreshReads_unread env r form) ?_
    refine does_ite (does_handleClientCredentialsGrant p env r form) ?_
    refine does_ite (does_handleDeviceGrant p env form) ?_
    exact does_ite (does_handleTokenExchange p env r form) (does_none rfl)

/-! ## Devices, revocation, logout -/

theorem does_deviceAuthorizationHandler (intn : Nat → Fin 32) (r : Request) :
    Endpoint p env.rand (deviceAuthorizationHandler p env intn r) := by
  have hsave : ∀ dc : DeviceCode,
      (saveDeviceCode dc).Uniform (TokenWrite p env.rand) SameButUnread := by
    intro dc
    refine uniform_query (fun db => ?_) ?_
    · split
      · exact .aside (Aside.refl db)
      · exact .deviceCodes _
    · rintro db _ ⟨failures, identities, rfl⟩
      split
      · exact ⟨rfl, failures, identities, rfl⟩
      · exact ⟨rfl, failures, identities, rfl⟩
  unfold deviceAuthorizationHandler
  split
  · exact does_none rfl
  · refine does_ite (does_none rfl) (does_bind
      (token_of_quiet (quiet_validateClientAuth refreshReads_unread ..)) fun res => ?_)
    split
    · split
      · refine does_bind (hsave _) fun r => ?_
        split <;> exact does_none rfl
      · exact does_none rfl
    · exact does_none rfl
    · exact does_none rfl

theorem does_deviceVerifyHandler : Endpoint p env.rand (deviceVerifyHandler p env r) := by
  refine does_ite (does_none rfl) (does_bind (uniform_getDeviceCodeByUserCode _) fun res => ?_)
  split
  · exact does_ite (does_none rfl) (does_none rfl)
  · exact does_none rfl

theorem does_deviceApproveHandler : Endpoint p env.rand (deviceApproveHandler p env r) := by
  unfold deviceApproveHandler
  split
  · exact does_none rfl
  · refine does_ite (does_none rfl) (does_bind (uniform_getDeviceCodeByUserCode _) fun res => ?_)
    split
    · refine does_ite (does_none rfl) (does_bind
        (uniform_write (fun _ => .deviceCodes _) fun _ _ _ => rfl) fun r => ?_)
      split <;> exact does_none rfl
    · exact does_none rfl

theorem does_revokeToken (clientID : Bytes) (revoked : Map Int) :
    (revokeToken p env form clientID revoked).Does (TokenWrite p env.rand) SameButUnread
      fun out => AllMinted p out.1 := by
  have hrefresh : ∀ token, (revokeRefreshToken p clientID token).Uniform (TokenWrite p env.rand)
      SameButUnread := by
    intro token
    refine uniform_bind (uniform_getRefreshToken refreshReads_unread _) fun res => ?_
    split
    · exact uniform_ite (.pure _) (uniform_bind (uniform_deleteRefreshToken refreshReads_unread _)
        fun _ => .pure _)
    · exact .pure _
  exact does_ite (does_bind (hrefresh _) fun _ => does_pure (allMinted_of_none rfl))
    (does_pure (allMinted_of_none rfl))

theorem does_revokeHandler (revoked : Map Int) :
    (revokeHandler p env r revoked).Does (TokenWrite p env.rand) SameButUnread
      fun out => AllMinted p out.1 := by
  unfold revokeHandler
  split
  · exact does_pure (allMinted_of_none rfl)
  · refine does_ite (does_pure (allMinted_of_none rfl)) (does_ite (does_revokeToken ..) ?_)
    refine does_bind (token_of_quiet (quiet_validateClientAuth refreshReads_unread ..))
      fun res => ?_
    split
    · exact does_revokeToken ..
    · exact does_pure (allMinted_of_none rfl)
    · exact does_pure (allMinted_of_none rfl)

theorem uniform_deleteSessions : ∀ sessions : List OIDCSession,
    (deleteSessions sessions).Uniform (TokenWrite p rand) SameButUnread
  | [] => .pure _
  | _ :: sessions => by
    have hrest : ∀ id, (deleteSession id >>= fun _ => deleteSessions sessions).Uniform
        (TokenWrite p rand) SameButUnread :=
      fun id => uniform_bind (uniform_deleteSession id) fun _ => uniform_deleteSessions sessions
    exact uniform_ite (uniform_bind (uniform_deleteRefreshToken refreshReads_unread _)
      fun _ => hrest _) (hrest _)

theorem uniform_endSessions (subjectDID : Bytes) :
    (endSessions env subjectDID).Uniform (TokenWrite p env.rand) SameButUnread := by
  have hpurge : (purgeExpiredSessions (env.clock 2) >>= fun _ => pure ()).Uniform
      (TokenWrite p env.rand) SameButUnread :=
    uniform_bind (uniform_write (fun _ => .purgeSessions _) fun _ _ _ => rfl) fun _ => .pure _
  refine uniform_bind (token_of_quiet (quiet_read fun _ _ _ => rfl)) fun res => ?_
  split
  · exact uniform_bind (uniform_deleteSessions p _) fun _ => hpurge
  · exact hpurge

theorem does_logoutHandler : Endpoint p env.rand (logoutHandler p env r) := by
  have hlookup : ∀ uri, (isRegisteredLogoutURI uri).Uniform (TokenWrite p env.rand)
      SameButUnread := by
    intro uri
    refine uniform_bind (token_of_quiet (quiet_read fun _ _ _ => rfl)) fun res => ?_
    split <;> exact .pure _
  have hrest : ∀ {uri : Bytes} {c : Prop} [Decidable c] {k : Bool → Proc DB Answer},
      (∀ b, Endpoint p env.rand (k b)) →
      Endpoint p env.rand (if c then isRegisteredLogoutURI uri >>= k else pure false >>= k) :=
    fun hk => does_ite (does_bind (hlookup _) hk) (hk false)
  refine does_ite (does_bind (uniform_endSessions ..) fun _ => ?_) ?_
  · exact hrest fun _ => does_none rfl
  · exact hrest fun _ => does_none rfl

theorem does_sendBackChannelLogout (clientID subjectDID : Bytes) (delivery : Delivery) :
    (sendBackChannelLogout p env clientID subjectDID delivery).Does (TokenWrite p env.rand)
      SameButUnread fun out => ∀ t ∈ out.2, Minted p t := by
  refine does_bind (token_of_quiet (quiet_getClient refreshReads_unread _)) fun res => ?_
  split
  · refine does_ite (does_pure (forall_mem_nil _)) ?_
    split
    · split
      · next hsigned =>
        exact does_pure (List.forall_mem_singleton.mpr (.logoutToken hsigned))
      · exact does_pure (forall_mem_nil _)
      · exact does_pure (forall_mem_nil _)
    · exact does_pure (forall_mem_nil _)
    · exact does_pure (forall_mem_nil _)
  · exact does_pure (forall_mem_nil _)

/-! ## Registration, authorization, logins -/

theorem uniform_registerClientHandler (sha256 : Bytes → Bytes) (env : Env)
    (body : Option RegisterClientRequest) :
    (registerClientHandler sha256 env body).Uniform LoginWrite SameButUnread := by
  unfold registerClientHandler
  split
  · exact .pure _
  · refine uniform_ite (.pure _) (uniform_ite (.pure _) ?_)
    split
    · refine uniform_bind (uniform_write (fun _ => .saveClient _) fun _ _ _ => rfl) fun r => ?_
      split <;> exact .pure _
    · exact .pure _

section LoginStep

variable {R : DB → DB → Prop} {q : Proc DB α}

theorem login_of_aside (h : q.Uniform Aside R) : q.Uniform LoginWrite R :=
  h.mono fun _ _ => .aside

theorem login_of_finish (h : q.Uniform FinishWrite R) : q.Uniform LoginWrite R := by
  refine h.mono fun db db' h => ?_
  cases h with
  | quiet h => exact .aside h.aside
  | saveSession sess hunlinked => exact .saveSession sess hunlinked

end LoginStep

theorem uniform_loginStep (srv : Server) (env : Env) (step : Bridge.Step) :
    (step.proc srv env).Uniform LoginWrite SameButUnread := by
  cases step with
  | register body => exact uniform_bind (uniform_registerClientHandler ..) fun _ => .pure _
  | pushRequest r =>
    exact uniform_bind (login_of_aside (uniform_parHandler ..)) fun _ => .pure _
  | authorize r =>
    exact uniform_bind (login_of_finish (uniform_authorizeHandler ..)) fun _ => .pure _
  | bridgeStart provider r up => exact .pure _
  | bridgeCallback provider r up => exact login_of_finish (uniform_handleBridgeCallback ..)
  | samlACS provider r up => exact login_of_finish (uniform_handleSAMLACS ..)
  | passwordAuth r body => exact login_of_finish (uniform_handlePasswordAuth ..)
  | magicLinkRequest body => exact login_of_aside (uniform_handleMagicLinkRequest ..)
  | magicLinkVerify r => exact login_of_finish (uniform_handleMagicLinkVerify ..)

end Within

end TptIdentity.Oidc
