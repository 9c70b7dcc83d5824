import Mathlib.Data.Set.Function
import TptIdentity.Lockout
import TptIdentity.PasswordModel

/-!
# Logins under duress

A duress passphrase is meant to log its owner in and to raise `session.duress`
(`DuressOutcome`). `handlePasswordAuth` asks for it only when the password check has passed
(`duressOutcome_iff`).
-/

namespace TptIdentity.Bridge

open Go Store Oidc Proc List

/-! ## Accounts -/

structure Account (srv : Server) (db : DB) where
  identifier : Bytes
  password : Bytes
  salt : Bytes
  passphrase : Bytes
  duressSalt : Bytes
  link : ExternalProviderLink
  identifier_ne : identifier ≠ []
  password_ne : password ≠ []
  passwordRow : db.passwords.find identifier
    = some ⟨identifier, encodeArgon2Hash (hashPassword srv password salt) salt⟩
  duressRow : db.duressConfigs.find link.subjectDID
    = some ⟨link.subjectDID, encodeDuress srv passphrase duressSalt⟩
  linked : db.externalLinks.find ("password", identifier) = some link

def Account.did {srv : Server} {db : DB} (acc : Account srv db) : Bytes := acc.link.subjectDID

/-- Argon2id tells the given passwords apart under the salts of the account. -/
structure Account.CollisionFree {srv : Server} {db : DB} (acc : Account srv db) (typed : Bytes) :
    Prop where
  password : Set.InjOn (hashPassword srv · acc.salt) {typed, acc.password}
  duress : Set.InjOn (hashPassword srv · acc.duressSalt) {acc.password, acc.passphrase}

variable {link : ExternalProviderLink}

section Enrolment

variable {srv : Server} {db : DB}

theorem run_setPassword {rand : Rand} {salt identifier password : Bytes}
    (hlong : 12 ≤ password.length) (hread : rand.read 0 32 = .ok salt) :
    (setPassword srv rand identifier password).run (fun _ => none) db
      = (.ok (), { db with
          passwords := db.passwords.upsert PasswordRow.merge PasswordRow.identifier_merge
            ⟨normaliseEmail srv identifier,
              encodeArgon2Hash (hashPassword srv password salt) salt⟩ }) := by
  rw [setPassword, if_neg (Nat.not_lt.mpr hlong), hread]
  rfl

theorem run_enrolDuress {rand : Rand} {salt did passphrase : Bytes} (hne : passphrase ≠ [])
    (hread : rand.read 0 16 = .ok salt) :
    (enrolDuress srv rand did passphrase).run (fun _ => none) db
      = (.ok (), { db with
          duressConfigs := db.duressConfigs.upsert DuressConfig.merge DuressConfig.subjectDID_merge
            ⟨did, encodeDuress srv passphrase salt⟩ }) := by
  rw [enrolDuress, if_neg hne, hread]
  rfl

theorem account_of_enrolment {rand rand' : Rand} {salt salt' identifier password passphrase : Bytes}
    (hidentifier : normaliseEmail srv identifier ≠ []) (hlong : 12 ≤ password.length)
    (hne : passphrase ≠ []) (hread : rand.read 0 32 = .ok salt)
    (hread' : rand'.read 0 16 = .ok salt')
    (hlinked : db.externalLinks.find ("password", normaliseEmail srv identifier) = some link) :
    ∃ acc : Account srv ((enrolDuress srv rand' link.subjectDID passphrase).run (fun _ => none)
        ((setPassword srv rand identifier password).run (fun _ => none) db).2).2,
      acc.identifier = normaliseEmail srv identifier ∧ acc.password = password
        ∧ acc.passphrase = passphrase ∧ acc.did = link.subjectDID := by
  rw [run_setPassword hlong hread, run_enrolDuress hne hread']
  refine ⟨{
    identifier := normaliseEmail srv identifier, password, salt, passphrase, duressSalt := salt'
    link, identifier_ne := hidentifier
    password_ne := ne_nil_of_length_pos (Nat.lt_of_lt_of_le (by decide) hlong)
    passwordRow := ?_, duressRow := ?_, linked := hlinked }, rfl, rfl, rfl, rfl⟩
  · refine Table.find_upsert_self db.passwords PasswordRow.identifier_merge ?_
    rintro ⟨_, _⟩ rfl
    rfl
  · refine Table.find_upsert_self db.duressConfigs DuressConfig.subjectDID_merge ?_
    rintro ⟨_, _⟩ rfl
    rfl

end Enrolment

/-! ## The intended outcome -/

/-- The answer names the DID, or redirects with a code of a session of it. -/
def LogsIn (did : Bytes) (req : PasswordRequest) (reply : Reply) (db : DB) : Prop :=
  if req.clientID ≠ [] ∧ req.redirectURI ≠ [] then
    ∃ sess, db.sessionByCode sess.code = some sess ∧ sess.subjectDID = did
      ∧ sess.clientID = req.clientID
      ∧ reply.response = codeRedirect req.redirectURI sess.code req.state
  else
    reply.response
      = .json 200 (.obj [("did", .str did), ("provider", .str "password")])

def duressEvent (did : Bytes) : Event :=
  ⟨"session.duress", [("provider", "password"), ("subject_did", did)]⟩

/-- The passphrase logs in and raises the alarm, the password logs in, and nothing else does. -/
def DuressOutcome {srv : Server} {db : DB} (acc : Account srv db) (req : PasswordRequest)
    (reply : Reply) (db' : DB) : Prop :=
  if req.password = acc.passphrase then
    LogsIn acc.did req reply db' ∧ reply.published = [duressEvent acc.did]
  else if req.password = acc.password then
    LogsIn acc.did req reply db' ∧ reply.published = []
  else reply.loggedIn = false ∧ reply.published = []

variable {req : PasswordRequest}

theorem LogsIn.loggedIn {did : Bytes} {reply : Reply} {db : DB} (h : LogsIn did req reply db) :
    reply.loggedIn := by
  unfold LogsIn at h
  split at h
  · obtain ⟨sess, -, -, -, hresponse⟩ := h
    rw [Reply.loggedIn, hresponse]
    rfl
  · rw [Reply.loggedIn, h]
    rfl

theorem DuressOutcome.loggedIn {srv : Server} {db db' : DB} {acc : Account srv db} {reply : Reply}
    (h : DuressOutcome acc req reply db') (hpass : req.password = acc.passphrase) :
    reply.loggedIn := by
  rw [DuressOutcome, if_pos hpass] at h
  exact h.1.loggedIn

/-! ## The checks -/

theorem colon_not_mem_encodeHex (b : Bytes) : (58 : UInt8) ∉ encodeHex b := by
  intro h
  cases hexVal_of_mem_encodeHex h

theorem verifyArgon2_encode (srv : Server) (typed password salt : Bytes) :
    verifyArgon2 srv typed (encodeArgon2Hash (hashPassword srv password salt) salt)
      = if hashPassword srv typed salt ≠ hashPassword srv password salt then
          .err (.new "mismatch" [])
        else .ok () := by
  have hsplit : splitN 58 2 (encodeArgon2Hash (hashPassword srv password salt) salt)
      = [encodeHex salt, encodeHex (hashPassword srv password salt)] := by
    rw [encodeArgon2Hash, append_assoc]
    exact splitN_cut 0 _ (colon_not_mem_encodeHex salt)
  rw [verifyArgon2, hsplit]
  simp only [decodeHex_encodeHex]

def DB.touch (db : DB) (link : ExternalProviderLink) (now : Int) : DB :=
  { db with
    externalLinks := db.externalLinks.upsert ExternalProviderLink.merge
      ExternalProviderLink.key_merge { link with lastUsedAt := now } }

section Checks

variable {srv : Server} {db : DB} {env : Env}

theorem run_findOrCreate {ext : ExternalIdentity}
    (h : db.externalLinks.find (ext.provider, ext.externalID) = some link) :
    (findOrCreate srv env ext).run (fun _ => none) db
      = (.ok (link.subjectDID, false), DB.touch db link (env.clock 0)) := by
  rw [findOrCreate, run_bind, getExternalLink, run_bind_pure]
  simp only [select, query, run, h, found, Res.wrapErr_ok]
  rfl

theorem find_touch {provider externalID : Bytes} (now : Int)
    (h : db.externalLinks.find (provider, externalID) = some link) :
    (DB.touch db link now).externalLinks.find (provider, externalID)
      = some { link with lastUsedAt := now } := by
  refine (Table.find_upsert _ _ ExternalProviderLink.key_merge _ _).trans ?_
  rw [h]
  exact if_pos (Table.key_of_find h).symm

theorem run_finishBridgeAuth (r : Request) (ext : ExternalIdentity) {st : BridgeState}
    (hst : st.linkFor = []) (h : db.externalLinks.find (ext.provider, ext.externalID) = some link) :
    (finishBridgeAuth srv env r ext st).run (fun _ => none) db
      = (finishSession (env.drop 3) r ext st link.subjectDID).run (fun _ => none)
          (DB.touch db link (env.clock 0)) := by
  rw [finishBridgeAuth, if_neg (not_not_intro hst), run_bind, run_findOrCreate h]

variable (acc : Account srv db)

theorem not_rightPassword (hid : normaliseEmail srv req.identifier = acc.identifier)
    (hfree : acc.CollisionFree req.password) (hne : req.password ≠ acc.password) :
    ¬RightPassword srv db req := by
  rintro ⟨row, hrow, hverify⟩
  rw [hid, acc.passwordRow] at hrow
  obtain rfl := Option.some.inj hrow
  have hhash : hashPassword srv req.password acc.salt ≠ hashPassword srv acc.password acc.salt :=
    fun h => hne (hfree.password (.inl rfl) (.inr rfl) h)
  rw [verifyArgon2_encode, if_pos hhash] at hverify
  cases hverify

def passwordIdentity (identifier typed : Bytes) (duress : Bool) : ExternalIdentity :=
  { provider := "password"
    externalID := identifier
    claims := Map.empty.set "identifier" typed
    duress }

theorem run_verifyCredentials {typed : Bytes} (hid : normaliseEmail srv typed = acc.identifier) :
    (verifyCredentials srv typed acc.password).run (fun _ => none) db
      = (.ok (passwordIdentity acc.identifier typed false), db) := by
  have hverify := verifyArgon2_encode srv acc.password acc.password acc.salt
  rw [if_neg (not_not_intro rfl)] at hverify
  rw [verifyCredentials, run_bind, getPasswordHash, run_bind_pure, hid]
  simp only [select, query, run, acc.passwordRow, Option.map_some, found, Res.wrapErr_ok, hverify]
  rfl

theorem run_checkDuress {typed : Bytes} (hfree : acc.CollisionFree typed) {db' : DB}
    (hdb : db'.duressConfigs = db.duressConfigs) :
    (checkDuress srv acc.did acc.password).run (fun _ => none) db'
      = (decide (acc.password = acc.passphrase), db') := by
  have hcut : cut 58 (encodeDuress srv acc.passphrase acc.duressSalt)
      = some (encodeHex acc.duressSalt, argon2HashDuress srv acc.passphrase acc.duressSalt) := by
    rw [encodeDuress, append_assoc]
    exact cut_append _ (colon_not_mem_encodeHex _)
  have hsame : argon2HashDuress srv acc.password acc.duressSalt
      = argon2HashDuress srv acc.passphrase acc.duressSalt ↔ acc.password = acc.passphrase :=
    encodeHex_injective.eq_iff.trans (hfree.duress.eq_iff (.inl rfl) (.inr rfl))
  rw [checkDuress, run_bind, getDuressHash]
  simp only [select, query, run, hdb, Account.did, acc.duressRow, Option.map_some,
    found, hcut, decodeHex_encodeHex, hsame]
  rfl

theorem run_withDuress (typed : Bytes) (hfree : acc.CollisionFree acc.password)
    (env : Env) {db' : DB}
    (hlinks : db'.externalLinks = db.externalLinks)
    (hduress : db'.duressConfigs = db.duressConfigs) :
    (withDuress srv env (passwordIdentity acc.identifier typed false) acc.password).run
        (fun _ => none) db'
      = (passwordIdentity acc.identifier typed (decide (acc.password = acc.passphrase)),
          DB.touch db' acc.link (env.clock 0)) := by
  have hlinked : db'.externalLinks.find ("password", acc.identifier) = some acc.link :=
    hlinks ▸ acc.linked
  have hcheck := run_checkDuress acc hfree
    (show (DB.touch db' acc.link (env.clock 0)).duressConfigs = db.duressConfigs from hduress)
  rw [withDuress, run_bind, run_findOrCreate hlinked]
  simp only [run_bind, show acc.link.subjectDID = acc.did from rfl, hcheck]
  rfl

theorem run_handlePasswordAuth (hsrv : srv.bridges "password" = some .password) (r : Request)
    (hid : normaliseEmail srv req.identifier = acc.identifier) (hreq : req.identifier ≠ [])
    (hpassword : req.password = acc.password) (hfree : acc.CollisionFree acc.password) :
    ∃ db', db'.sessions = db.sessions
      ∧ (handlePasswordAuth srv env r (some req)).run (fun _ => none) db
        = (finishSession ((env.drop 4).drop 3) r (passwordIdentity acc.identifier req.identifier
              (decide (acc.password = acc.passphrase)))
            (req.bridgeState (env.clock 3)) acc.did).run (fun _ => none) db' := by
  have hne : ¬(req.identifier = [] ∨ req.password = []) :=
    not_or.mpr ⟨hreq, hpassword ▸ acc.password_ne⟩
  let cleared : DB := { db with authFailures := db.authFailures.delete req.identifier }
  have hlinked : (DB.touch cleared acc.link (env.clock 0)).externalLinks.find
      ("password", acc.identifier) = some { acc.link with lastUsedAt := env.clock 0 } :=
    find_touch _ acc.linked
  have hduress := run_withDuress acc req.identifier hfree env
    (show cleared.externalLinks = db.externalLinks from rfl)
    (show cleared.duressConfigs = db.duressConfigs from rfl)
  refine ⟨DB.touch (DB.touch cleared acc.link (env.clock 0))
    { acc.link with lastUsedAt := env.clock 0 } ((env.drop 4).clock 0), rfl, ?_⟩
  rw [handlePasswordAuth, if_neg hne, hsrv]
  simp only [run_bind, hpassword, run_verifyCredentials acc hid, clearAuthFailures, exec,
    query, run]
  rw [hduress, run_finishBridgeAuth r (passwordIdentity ..) rfl hlinked]
  rfl

end Checks

/-! ## The outcome -/

structure DrawsSession (env : Env) (sessions : Table OIDCSession.id) : Prop where
  code : ∃ code, randomHex env.rand 0 32 = .ok code ∧ ∀ sess ∈ sessions.rows, sess.code ≠ code
  id : sessions.find (randomID env.rand 1) = none

theorem sessionByCode_putSession {db : DB} {sess : OIDCSession}
    (hid : db.sessions.find sess.id = none)
    (hcode : ∀ old ∈ db.sessions.rows, old.code ≠ sess.code) :
    (db.putSession sess).sessionByCode sess.code = some sess := by
  have hrows : (db.putSession sess).sessions.rows = db.sessions.rows ++ [sess] := by
    rw [DB.putSession, Table.upsert, dif_pos hid]
    rfl
  have hold : db.sessions.rows.find? (fun old => old.code = sess.code) = none :=
    List.find?_eq_none.mpr fun old hmem => by simpa using hcode old hmem
  rw [DB.sessionByCode, hrows, List.find?_append, hold]
  simp

theorem run_finishSession {env : Env} {db : DB} (hdraw : DrawsSession env db.sessions) (r : Request)
    (ext : ExternalIdentity) (hext : ext.provider = "password") (req : PasswordRequest)
    (now : Int) (did : Bytes) :
    let out := (finishSession env r ext (req.bridgeState now) did).run (fun _ => none) db
    LogsIn did req out.1 out.2
      ∧ out.1.published = if ext.duress then [duressEvent did] else [] := by
  obtain ⟨code, hread, hcode⟩ := hdraw.code
  unfold LogsIn
  by_cases hclient : req.clientID ≠ [] ∧ req.redirectURI ≠ []
  · have hst : (req.bridgeState now).clientID ≠ [] ∧ (req.bridgeState now).redirectURI ≠ []
      := hclient
    simp only [if_pos hclient, finishSession, if_pos hst, run_bind, issueSessionForDIDCtx, hread]
    exact ⟨⟨_, sessionByCode_putSession hdraw.id hcode, rfl, rfl, rfl⟩, by rw [hext]; rfl⟩
  · have hst : ¬((req.bridgeState now).clientID ≠ [] ∧ (req.bridgeState now).redirectURI ≠ []) :=
      hclient
    simp only [if_neg hclient, finishSession, if_neg hst, hext]
    exact ⟨rfl, rfl⟩

section Outcome

variable {srv : Server} {db : DB}

theorem run_of_ne (acc : Account srv db) (hid : normaliseEmail srv req.identifier = acc.identifier)
    (hfree : acc.CollisionFree req.password) (hne : req.password ≠ acc.password) (env : Env)
    (r : Request) (faults : Faults) :
    let reply := ((handlePasswordAuth srv env r (some req)).run faults db).1
    reply.loggedIn = false ∧ reply.published = [] :=
  wp_run (wp_handlePasswordAuth_wrongPassword env r (not_rightPassword acc hid hfree hne)) faults

theorem run_of_eq (acc : Account srv db) (hid : normaliseEmail srv req.identifier = acc.identifier)
    (hfree : acc.CollisionFree req.password) (heq : req.password = acc.password)
    (hsrv : srv.bridges "password" = some .password) {env : Env}
    (hdraw : DrawsSession ((env.drop 4).drop 3) db.sessions) (r : Request) :
    let out := (handlePasswordAuth srv env r (some req)).run (fun _ => none) db
    LogsIn acc.did req out.1 out.2
      ∧ out.1.published = if acc.password = acc.passphrase then [duressEvent acc.did] else [] := by
  have hreq : req.identifier ≠ [] := by
    rintro h
    rw [h] at hid
    exact acc.identifier_ne hid.symm
  rw [heq] at hfree
  obtain ⟨db', hsessions, hrun⟩ := run_handlePasswordAuth acc hsrv r hid hreq heq hfree
  rw [hrun]
  have hfinish := run_finishSession (hsessions ▸ hdraw) r
    (passwordIdentity acc.identifier req.identifier (decide (acc.password = acc.passphrase))) rfl
    req (env.clock 3) acc.did
  simpa only [passwordIdentity, decide_eq_true_eq] using hfinish

/-- A login comes to what is meant exactly if the duress passphrase is not typed, or equals the
password. -/
theorem duressOutcome_iff (acc : Account srv db) {req : PasswordRequest}
    (hid : normaliseEmail srv req.identifier = acc.identifier)
    (hfree : acc.CollisionFree req.password)
    (hsrv : srv.bridges "password" = some .password) {env : Env}
    (hdraw : DrawsSession ((env.drop 4).drop 3) db.sessions) (r : Request) :
    DuressOutcome acc req ((handlePasswordAuth srv env r (some req)).run (fun _ => none) db).1
        ((handlePasswordAuth srv env r (some req)).run (fun _ => none) db).2
      ↔ (req.password = acc.passphrase → acc.passphrase = acc.password) := by
  by_cases heq : req.password = acc.password
  · obtain ⟨hin, hpublished⟩ := run_of_eq acc hid hfree heq hsrv hdraw r
    simp only [DuressOutcome, heq, hpublished]
    split
    · next hsame => exact ⟨fun _ _ => hsame.symm, fun _ => ⟨hin, rfl⟩⟩
    · next hsame => exact ⟨fun _ h => absurd h hsame, fun _ => ⟨hin, rfl⟩⟩
  · obtain ⟨hout, hpublished⟩ := run_of_ne acc hid hfree heq env r (fun _ => none)
    by_cases hpass : req.password = acc.passphrase
    · refine ⟨fun h => ?_, fun h => absurd (hpass.trans (h hpass)) heq⟩
      rw [h.loggedIn hpass] at hout
      cases hout
    · rw [DuressOutcome, if_neg hpass, if_neg heq]
      exact ⟨fun _ h => absurd h hpass, fun _ => ⟨hout, hpublished⟩⟩

end Outcome

namespace Sample

def aliceLink : ExternalProviderLink :=
  ⟨"did:key:alice", "password", "alice", 0, 0⟩

def aliceDB : DB :=
  ((enrolDuress passwordServer (.of fun _ _ => 2) aliceLink.subjectDID "help me").run
    (fun _ => none)
    ((setPassword passwordServer (.of fun _ _ => 1) "alice" "correct horse").run
      (fun _ => none)
      ((saveExternalLink aliceLink).run (fun _ => none) .empty).2).2).2

def alice : Account passwordServer aliceDB where
  identifier := "alice"
  password := "correct horse"
  salt := List.replicate 32 1
  passphrase := "help me"
  duressSalt := List.replicate 16 2
  link := aliceLink
  identifier_ne := cons_ne_nil _ _
  password_ne := cons_ne_nil _ _
  passwordRow := rfl
  duressRow := rfl
  linked := rfl

def loginEnv : Env := ⟨.of fun _ _ => 7, fun _ => 0⟩

def aliceLogin (password : String) : PasswordRequest :=
  ⟨"alice", str password, "app", "https://app.example/cb", [], [], [], [], []⟩

theorem collisionFree_alice (typed : Bytes) : alice.CollisionFree typed where
  password := fun _ _ _ _ h => h
  duress := fun _ _ _ _ h => h

def outcome (password : String) : Reply × DB :=
  (handlePasswordAuth passwordServer loginEnv (request [] []) (some (aliceLogin password))).run
    (fun _ => none) aliceDB

theorem drawsSession_alice : DrawsSession ((loginEnv.drop 4).drop 3) aliceDB.sessions where
  code := ⟨_, rfl, fun _ h => absurd h not_mem_nil⟩
  id := rfl

end Sample

open Sample

theorem duressOutcome_password :
    DuressOutcome alice (aliceLogin "correct horse")
      (outcome "correct horse").1 (outcome "correct horse").2 :=
  (duressOutcome_iff alice (by decide +kernel) (collisionFree_alice _) rfl
    drawsSession_alice _).mpr fun h => absurd h (by decide +kernel)

theorem not_duressOutcome_passphrase :
    alice.passphrase ≠ alice.password
      ∧ (outcome "help me").1.loggedIn = false
      ∧ (outcome "help me").1.published = []
      ∧ ¬DuressOutcome alice (aliceLogin "help me") (outcome "help me").1
        (outcome "help me").2 := by
  have hout : (outcome "help me").1.loggedIn = false
      ∧ (outcome "help me").1.published = [] := by
    decide +kernel
  refine ⟨by decide +kernel, hout.1, hout.2, fun h => ?_⟩
  have hin := h.loggedIn rfl
  cases hin

end TptIdentity.Bridge
