import TptIdentity.BridgeModel

/-!
# What logins write, and what they do not read

Each call that a login makes to the store reads, deletes what was consumed, or writes links,
identities, documents or failures (`QuietWrite`); in the end a session is saved (`FinishWrite`).
Failures and identities are never read (`Proc.Uniform`).
-/

namespace TptIdentity

/-! ## What is not read -/

namespace Oidc

open Go Store

/-- `R` keeps clients and refresh tokens, and survives equal changes of the latter. -/
structure RefreshReads (R : DB → DB → Prop) : Prop where
  clients : ∀ {db db' : DB}, R db db' → db'.clients = db.clients
  refreshTokens : ∀ {db db' : DB}, R db db' → db'.refreshTokens = db.refreshTokens
  write : ∀ {db db' : DB}, R db db' → ∀ t,
    R { db with refreshTokens := t } { db' with refreshTokens := t }

end Oidc

namespace Bridge

open Go Store Oidc Proc

variable (key : Bytes) (srv : Server) (env : Env) (now : Int) (r : Request) (ext : ExternalIdentity)

def SameButUnread (db db' : DB) : Prop :=
  ∃ failures identities, db' = { db with authFailures := failures, identities := identities }

theorem refreshReads_unread : RefreshReads SameButUnread where
  clients := by
    rintro db _ ⟨failures, identities, rfl⟩
    rfl
  refreshTokens := by
    rintro db _ ⟨failures, identities, rfl⟩
    rfl
  write := by
    rintro db _ ⟨failures, identities, rfl⟩ t
    exact ⟨failures, identities, rfl⟩

theorem SameButUnread.setFailures {db db' : DB} (h : SameButUnread db db')
    (failures failures' : Table AuthFailure.subjectOrEmail) :
    SameButUnread { db with authFailures := failures } { db' with authFailures := failures' } := by
  obtain ⟨_, identities, rfl⟩ := h
  exact ⟨failures', identities, rfl⟩

theorem uniform_write {W : DB → DB → Prop} {op : DB → DB} (hW : ∀ db, W db (op db))
    (h : ∀ db failures identities, op { db with authFailures := failures, identities := identities }
        = { op db with authFailures := failures, identities := identities }) :
    (Proc.exec op).Uniform W SameButUnread := by
  refine uniform_exec hW ?_
  rintro db _ ⟨failures, identities, rfl⟩
  exact ⟨failures, identities, h db failures identities⟩

/-! ## What is written -/

inductive QuietWrite (db : DB) : DB → Prop where
  | read : QuietWrite db db
  | deletePARRequest (uri : Bytes) :
      QuietWrite db { db with parRequests := db.parRequests.delete uri }
  | deleteMagicLinkToken (hash : Bytes) :
      QuietWrite db { db with magicLinkTokens := db.magicLinkTokens.delete hash }
  | externalLinks (externalLinks : Table ExternalProviderLink.key) :
      QuietWrite db { db with externalLinks }
  | identities (identities : Table Identity.did) : QuietWrite db { db with identities }
  | documents (documents : Table DocumentRow.did) : QuietWrite db { db with documents }
  | authFailures (authFailures : Table AuthFailure.subjectOrEmail) :
      QuietWrite db { db with authFailures }

inductive FinishWrite (db : DB) : DB → Prop where
  | quiet {db' : DB} (h : QuietWrite db db') : FinishWrite db db'
  | saveSession (sess : OIDCSession) (hunlinked : sess.refreshTokenHash = []) :
      FinishWrite db (db.putSession sess)

/-! ## Before the session is saved -/

section Quiet

variable {α β : Type}

theorem quiet_read {op : DB → Res α} (h : ∀ db failures identities,
      op { db with authFailures := failures, identities := identities } = op db) :
    (Proc.select op).Uniform QuietWrite SameButUnread := by
  refine uniform_select (fun _ => .read) ?_
  rintro db _ ⟨failures, identities, rfl⟩
  exact (h db failures identities).symm

theorem quiet_lookup {op : DB → Res α} {f : Res α → β} (h : ∀ db failures identities,
      op { db with authFailures := failures, identities := identities } = op db) :
    (do let r ← Proc.select op; return f r : Proc DB β).Uniform QuietWrite SameButUnread :=
  uniform_bind (quiet_read h) fun _ => .pure _

variable {R : DB → DB → Prop}

theorem quiet_getClient (hR : RefreshReads R) (id : Bytes) :
    (getClient id).Uniform QuietWrite R := by
  refine uniform_bind (uniform_select (fun _ => .read) fun db db' h => ?_) fun _ => .pure _
  rw [DB.client, DB.client, hR.clients h]

theorem quiet_resolvePARRequest (uri : Bytes) :
    (resolvePARRequest now uri).Uniform QuietWrite SameButUnread := by
  have hdelete : (deletePARRequest uri).Uniform QuietWrite SameButUnread :=
    uniform_write (fun _ => .deletePARRequest uri) fun _ _ _ => rfl
  refine uniform_bind (quiet_lookup fun _ _ _ => rfl) fun r => ?_
  split
  · refine uniform_ite (uniform_bind hdelete fun _ => .pure _) (uniform_bind hdelete fun _ => ?_)
    split <;> exact .pure _
  · exact .pure _

theorem quiet_validateClientAuth (hR : RefreshReads R) (sha256 : Bytes → Bytes) (r : Request)
    (form : Map Bytes) (id : Bytes) :
    (validateClientAuth sha256 r form id).Uniform QuietWrite R := by
  refine uniform_bind (quiet_getClient hR id) fun r => ?_
  split
  · exact uniform_ite (.pure _) (uniform_ite (.pure _) (uniform_ite (.pure _) (.pure _)))
  · exact .pure _

theorem quiet_createIdentity : (createIdentity srv env).Uniform QuietWrite SameButUnread := by
  unfold createIdentity
  split
  · refine uniform_bind (uniform_exec (fun _ => .identities _) ?_) fun r => ?_
    · rintro db _ ⟨failures, identities, rfl⟩
      exact ⟨failures, _, rfl⟩
    split
    · refine uniform_bind ?_ fun _ => .pure _
      unfold saveDocument
      split
      · exact uniform_write (fun _ => .documents _) fun _ _ _ => rfl
      · exact .pure _
      · exact .pure _
    · exact .pure _
  · exact .pure _
  · exact .pure _

theorem quiet_saveExternalLink (l : ExternalProviderLink) :
    (saveExternalLink l).Uniform QuietWrite SameButUnread :=
  uniform_write (fun _ => .externalLinks _) fun _ _ _ => rfl

theorem quiet_findOrCreate : (findOrCreate srv env ext).Uniform QuietWrite SameButUnread := by
  refine uniform_bind (quiet_lookup fun _ _ _ => rfl) fun r => ?_
  split
  · exact uniform_bind (quiet_saveExternalLink _) fun _ => .pure _
  · refine uniform_ite (uniform_bind (quiet_createIdentity srv env) fun r => ?_) (.pure _)
    split
    · exact uniform_bind (quiet_saveExternalLink _) fun _ => .pure _
    · exact .pure _
    · exact .pure _
  · exact .pure _

theorem quiet_linkIdentity (did : Bytes) (ext : ExternalIdentity) :
    (linkIdentity now did ext).Uniform QuietWrite SameButUnread := by
  refine uniform_bind (quiet_lookup fun _ _ _ => rfl) fun r => ?_
  split
  · exact uniform_ite (.pure _) (.pure _)
  · exact uniform_ite (quiet_saveExternalLink _) (.pure _)
  · exact .pure _

theorem quiet_verifyToken (raw : Bytes) :
    (verifyToken srv now raw).Uniform QuietWrite SameButUnread := by
  have hdelete : (deleteMagicLinkToken (hashMagicToken srv raw)).Uniform QuietWrite SameButUnread :=
    uniform_write (fun _ => .deleteMagicLinkToken _) fun _ _ _ => rfl
  refine uniform_bind (quiet_lookup fun _ _ _ => rfl) fun r => ?_
  split
  · exact uniform_ite (uniform_bind hdelete fun _ => .pure _)
      (uniform_bind hdelete fun _ => .pure _)
  · exact .pure _

theorem quiet_verifyCredentials (identifier password : Bytes) :
    (verifyCredentials srv identifier password).Uniform QuietWrite SameButUnread := by
  refine uniform_bind (quiet_lookup fun _ _ _ => rfl) fun r => ?_
  split
  · split <;> exact .pure _
  · exact .pure _

theorem quiet_withDuress (password : Bytes) :
    (withDuress srv env ext password).Uniform QuietWrite SameButUnread := by
  refine uniform_bind (quiet_findOrCreate srv env ext) fun r => ?_
  split
  · refine uniform_bind (uniform_bind (quiet_read fun _ _ _ => rfl) fun r => ?_) fun _ => .pure _
    split
    · split
      · split <;> exact .pure _
      · exact .pure _
    · exact .pure _
  · exact .pure _

theorem quiet_recordAuthFailure :
    (recordAuthFailure key now).Uniform QuietWrite SameButUnread where
  within := within_bind (within_select (fun _ => .read) _) fun _ =>
    within_exec fun _ => .authFailures _
  alike :=
    ⟨fun _ _ h => ⟨h, fun _ _ h => ⟨h.setFailures _ _, rfl⟩, fun _ => rfl⟩,
      fun _ => ⟨fun _ _ h => ⟨h.setFailures _ _, rfl⟩, fun _ => rfl⟩⟩

theorem quiet_clearAuthFailures : (clearAuthFailures key).Uniform QuietWrite SameButUnread :=
  uniform_exec (fun _ => .authFailures _) fun _ _ h => h.setFailures _ _

theorem finish_of_quiet {q : Proc DB α} (h : q.Uniform QuietWrite R) :
    q.Uniform FinishWrite R := h.mono fun _ _ => .quiet

end Quiet

/-! ## Authorization and logins -/

theorem uniform_saveSession {sess : OIDCSession} (h : sess.refreshTokenHash = []) :
    (saveSession sess).Uniform FinishWrite SameButUnread :=
  uniform_write (fun _ => .saveSession sess h) fun _ _ _ => rfl

theorem uniform_authorize (q : Map Bytes) :
    (Oidc.authorize env r q).Uniform FinishWrite SameButUnread := by
  refine uniform_ite (.pure _) (uniform_ite (.pure _) (uniform_ite (.pure _) ?_))
  refine uniform_ite (.pure _) ?_
  refine uniform_bind (finish_of_quiet (quiet_getClient refreshReads_unread _)) fun res => ?_
  split
  · refine uniform_ite (.pure _) ?_
    split
    · refine uniform_bind (uniform_saveSession rfl) fun r => ?_
      split <;> exact .pure _
    · exact .pure _
  · exact .pure _

theorem uniform_authorizeHandler : (authorizeHandler env r).Uniform FinishWrite SameButUnread := by
  refine uniform_ite (uniform_authorize ..) ?_
  refine uniform_bind (finish_of_quiet (quiet_resolvePARRequest ..)) fun res => ?_
  split
  · exact uniform_authorize ..
  · exact .pure _
  · exact .pure _

theorem uniform_issueSessionForDIDCtx
    (subjectDID clientID redirectURI scope nonce challenge method : Bytes) :
    (issueSessionForDIDCtx env r subjectDID clientID redirectURI scope nonce challenge
      method).Uniform FinishWrite SameButUnread := by
  unfold issueSessionForDIDCtx
  split
  · exact uniform_bind (uniform_saveSession rfl) fun _ => .pure _
  · exact .pure _
  · exact .pure _

section Logins

variable (srv : Server) (env : Env)

theorem uniform_finishBridgeAuth (r : Request) (ext : ExternalIdentity) (st : BridgeState) :
    (finishBridgeAuth srv env r ext st).Uniform FinishWrite SameButUnread := by
  refine uniform_ite ?_ ?_
  · refine uniform_bind (finish_of_quiet (quiet_linkIdentity ..)) fun res => ?_
    split <;> exact .pure _
  · refine uniform_bind (finish_of_quiet (quiet_findOrCreate ..)) fun res => ?_
    split
    · refine uniform_ite (uniform_bind (uniform_issueSessionForDIDCtx ..) fun res => ?_) (.pure _)
      split <;> exact .pure _
    · exact .pure _
    · exact .pure _

theorem uniform_handleBridgeCallback (provider : Bytes) (r : Request) (up : Upstream) :
    (handleBridgeCallback srv env provider r up).Uniform FinishWrite SameButUnread := by
  unfold handleBridgeCallback
  split
  · exact .pure _
  · refine uniform_ite (.pure _) ?_
    split
    · split
      · exact uniform_finishBridgeAuth ..
      · exact .pure _
      · exact .pure _
    · exact .pure _
    · exact .pure _
  · exact .pure _

theorem uniform_handleSAMLACS (provider : Bytes) (r : Request) (up : Upstream) :
    (handleSAMLACS srv env provider r up).Uniform FinishWrite SameButUnread := by
  unfold handleSAMLACS
  split
  · exact .pure _
  · split
    · exact .pure _
    · dsimp only
      split
      · exact uniform_finishBridgeAuth ..
      · exact .pure _
      · exact .pure _
  · exact .pure _

theorem uniform_handlePasswordAuth (r : Request) (body : Option PasswordRequest) :
    (handlePasswordAuth srv env r body).Uniform FinishWrite SameButUnread := by
  unfold handlePasswordAuth
  split
  · exact .pure _
  · refine uniform_ite (.pure _) ?_
    split
    · exact .pure _
    · refine uniform_bind (finish_of_quiet (quiet_verifyCredentials ..)) fun res => ?_
      split
      · refine uniform_bind (finish_of_quiet (quiet_clearAuthFailures _)) fun _ => ?_
        refine uniform_bind (finish_of_quiet (quiet_withDuress ..)) fun _ => ?_
        exact uniform_finishBridgeAuth ..
      · exact uniform_bind (finish_of_quiet (quiet_recordAuthFailure ..)) fun _ => .pure _
    · exact .pure _

theorem uniform_handleMagicLinkVerify (r : Request) :
    (handleMagicLinkVerify srv env r).Uniform FinishWrite SameButUnread := by
  refine uniform_ite (.pure _) ?_
  refine uniform_bind (finish_of_quiet (quiet_verifyToken ..)) fun res => ?_
  split
  · exact uniform_finishBridgeAuth ..
  · exact .pure _

end Logins

end Bridge

end TptIdentity
