import TptIdentity.WebAuthnModel

/-!
# Logins with a passkey

The first request of a login leaves a session in memory, and the second one takes it out
and has the assertion checked. A login succeeds only on a session that a first request
left at most five minutes ago and nobody has presented since (`login_genuine`).
-/

namespace TptIdentity.WebAuthn

open Go Store Oidc Bridge List

variable {S : Type}

/-- What the login uses of package webauthn. `FinishPasskeyLogin` reads the user handle, asks for
the user, and validates the assertion. -/
structure Passkeys (S : Type) where
  beginDiscoverableLogin : Rand → Res (Value × S)
  userHandle : S → Bytes → Res Bytes
  lookupFailed : Err → Err
  validate : User → S → Bytes → Res Credential

def handleWebAuthnLoginBegin (lib : Option (Passkeys S)) (env : Env) :
    Reply × Option (Bytes × SessionEntry S) :=
  match lib with
  | none => (httpError 501 "webauthn not configured", none)
  | some lib =>
    match lib.beginDiscoverableLogin env.rand with
    | .ok (assertion, session) =>
      ({ response := .json 200 assertion },
        some (waRandomID env.rand 1, ⟨session, env.clock 0 + 5 * minute⟩))
    | .err e => (httpErrorOf 500 "begin login failed: " e, none)
    | .panics _ => (httpError 500 "", none)

def updateWebAuthnCredential (c : WebAuthnCredential) : Proc DB (Res Unit) :=
  .exec fun db => { db with
    webAuthnCredentials := db.webAuthnCredentials.update c.credentialID (·.merge c) fun _ => rfl }

/-- The sign count and the time of use, which are not written if the row cannot be read. -/
def recordUse (env : Env) (credential : Credential) : Proc DB Unit := do
  match ← getWebAuthnCredential (encodeB64 credential.id) with
  | .ok existing =>
    let _ ← updateWebAuthnCredential { existing with
      signCount := credential.signCount, lastUsedAt := some (env.clock 1) }
    return ()
  | _ => return ()

def authenticated (subjectDID : Bytes) : Reply where
  response := .json 200 (.obj [("status", .str "authenticated"), ("subject_did", .str subjectDID)])
  published := [⟨"session.created", [("method", "webauthn"), ("subject_did", subjectDID)]⟩]

def loginFailed : {α : Type} → Res α → Reply
  | _, .err e => httpErrorOf 401 "login failed: " e
  | _, _ => httpError 500 ""

def finishLogin (lib : Passkeys S) (env : Env) (session : S) (body : Bytes) : Proc DB Reply :=
  match lib.userHandle session body with
  | .ok subjectDID => do
    match ← listWebAuthnCredentials subjectDID with
    | .ok creds =>
      match lib.validate ⟨subjectDID, creds⟩ session body with
      | .ok credential =>
        recordUse env credential
        return authenticated subjectDID
      | r => return loginFailed r
    | .err e => return httpErrorOf 401 "login failed: " (lib.lookupFailed e)
    | .panics _ => return httpError 500 ""
  | r => return loginFailed r

def handleWebAuthnLoginFinish (lib : Option (Passkeys S)) (env : Env) (cookie : Option Bytes)
    (body : Bytes) (sessions : Map (SessionEntry S)) : Map (SessionEntry S) × Proc DB Reply :=
  match lib, cookie with
  | none, _ => (sessions, return httpError 501 "webauthn not configured")
  | _, none => (sessions, return httpError 400 "login session not found — call begin first")
  | some lib, some id =>
    (sessions.delete id, match sessions.get id with
      | none => return httpError 401 "login session expired"
      | some entry =>
        if env.clock 0 > entry.expiresAt then return httpError 401 "login session expired"
        else finishLogin lib env entry.session body)

/-! ## Runs -/

structure LoginState (S : Type) where
  db : DB
  authSessions : Map (SessionEntry S)

inductive LoginStep where
  | begin
  | finish (cookie : Option Bytes) (body : Bytes)
  /-- The eviction deletes a session; that it has expired was checked before. -/
  | evict (id : Bytes)
  /-- Any other request, and what it leaves of the database. -/
  | other (db : DB)

structure LoginCall where
  env : Env
  faults : Faults
  step : LoginStep

variable (lib : Passkeys S)

def LoginCall.run (st : LoginState S) (c : LoginCall) : Reply × LoginState S :=
  match c.step with
  | .begin =>
    let out := handleWebAuthnLoginBegin (some lib) c.env
    (out.1, { st with
      authSessions := out.2.elim st.authSessions fun e => st.authSessions.set e.1 e.2 })
  | .finish cookie body =>
    let finish := handleWebAuthnLoginFinish (some lib) c.env cookie body st.authSessions
    let out := finish.2.run c.faults st.db
    (out.1, ⟨out.2, finish.1⟩)
  | .evict id => (⟨.text 200 [], []⟩, { st with authSessions := st.authSessions.delete id })
  | .other db => (⟨.text 200 [], []⟩, { st with db })

def loginRun (db : DB) (calls : List LoginCall) : LoginState S :=
  calls.foldl (fun st c => (c.run lib st).2) ⟨db, .empty⟩

structure LoginCall.Begins (c : LoginCall) (id : Bytes) (entry : SessionEntry S) : Prop where
  step : c.step = .begin
  session : ∃ assertion, lib.beginDiscoverableLogin c.env.rand = .ok (assertion, entry.session)
  id : waRandomID c.env.rand 1 = id
  expires : entry.expiresAt = c.env.clock 0 + 5 * minute

def LoginCall.Presents (c : LoginCall) (id : Bytes) : Prop :=
  ∃ body, c.step = .finish (some id) body

variable {lib} {id : Bytes} {entry : SessionEntry S} {db : DB}

theorem LoginCall.run_sessions {st : LoginState S} {c : LoginCall}
    (h : (c.run lib st).2.authSessions.get id = some entry) :
    c.Begins lib id entry ∨ st.authSessions.get id = some entry ∧ ¬c.Presents id := by
  unfold LoginCall.run at h
  unfold LoginCall.Presents
  cases hstep : c.step with
  | begin =>
    simp only [hstep, handleWebAuthnLoginBegin] at h
    split at h
    · next assertion session hbegin =>
      rw [Option.elim_some, Map.get_set] at h
      split at h
      · next hid =>
        obtain rfl := Option.some.inj h
        exact .inl ⟨hstep, ⟨assertion, hbegin⟩, hid.symm, rfl⟩
      · exact .inr ⟨h, by simp⟩
    · exact .inr ⟨h, by simp⟩
    · exact .inr ⟨h, by simp⟩
  | finish cookie body =>
    simp only [hstep] at h
    cases cookie with
    | none => exact .inr ⟨h, by simp⟩
    | some id' =>
      simp only [handleWebAuthnLoginFinish, Map.get_delete] at h
      split at h
      · cases h
      · next hid => exact .inr ⟨h, by simpa using Ne.symm hid⟩
  | evict id' =>
    simp only [hstep, Map.get_delete] at h
    split at h
    · cases h
    · exact .inr ⟨h, by simp⟩
  | other db =>
    simp only [hstep] at h
    exact .inr ⟨h, by simp⟩

/-- Every open session was left by a first request, and nobody has presented it since. -/
theorem open_session {calls : List LoginCall} :
    ∀ {id : Bytes} {entry : SessionEntry S},
    (loginRun lib db calls).authSessions.get id = some entry →
    ∃ before b after, calls = before ++ b :: after ∧ b.Begins lib id entry
      ∧ ∀ c ∈ after, ¬c.Presents id := by
  induction calls using reverseRecOn with
  | nil => simp [loginRun]
  | append_singleton calls c ih =>
    intro id entry h
    rw [loginRun, foldl_append] at h
    rcases LoginCall.run_sessions h with hbegins | ⟨hopen, hnot⟩
    · exact ⟨calls, c, [], rfl, hbegins, by simp⟩
    · obtain ⟨before, b, after, rfl, hbegins, hafter⟩ := ih hopen
      refine ⟨before, b, after ++ [c], by simp, hbegins, ?_⟩
      simpa [or_imp, forall_and] using ⟨hafter, hnot⟩

theorem published_loginFailed {α : Type} (r : Res α) : (loginFailed r).published = [] := by
  cases r with
  | ok _ | err _ | panics _ => rfl

/-- The reply names the subject whose credentials, as the store has them, the assertion passes
with. -/
def Proves (lib : Passkeys S) (db : DB) (session : S) (body : Bytes) (reply : Reply) : Prop :=
  ∃ subjectDID creds, lib.userHandle session body = .ok subjectDID
    ∧ (∀ c, c ∈ creds ↔ c ∈ db.webAuthnCredentials.rows ∧ c.subjectDID = subjectDID)
    ∧ (lib.validate ⟨subjectDID, creds⟩ session body).isOk ∧ reply = authenticated subjectDID

theorem wp_finishLogin (env : Env) (session : S) (body : Bytes) :
    (finishLogin lib env session body).wp
      (fun reply _ => reply.published ≠ [] → Proves lib db session body reply) db := by
  unfold finishLogin
  split
  · next subjectDID hdid =>
    simp only [Proc.wp_bind, listWebAuthnCredentials, Proc.wp_select]
    refine ⟨?_, fun e h => absurd rfl h⟩
    split
    · next credential hvalid =>
      refine Proc.wp_seq (Proc.wp_true _ db) fun _ _ _ _ => ?_
      refine ⟨subjectDID, _, hdid, fun c => ?_, by rw [hvalid]; rfl, rfl⟩
      simp
    · exact fun h => absurd (published_loginFailed _) h
  · exact fun h => absurd (published_loginFailed _) h

/-- A session is used at most once, and within five minutes. -/
theorem login_genuine (lib : Passkeys S) (db : DB) (calls : List LoginCall) (c : LoginCall)
    (id body : Bytes) (hstep : c.step = .finish (some id) body)
    (hin : (c.run lib (loginRun lib db calls)).1.published ≠ []) :
    ∃ before b after entry, calls = before ++ b :: after ∧ b.Begins lib id entry
      ∧ c.env.clock 0 ≤ b.env.clock 0 + 5 * minute ∧ (∀ c' ∈ after, ¬c'.Presents id)
      ∧ Proves lib (loginRun lib db calls).db entry.session body
        (c.run lib (loginRun lib db calls)).1 := by
  unfold LoginCall.run at hin ⊢
  simp only [hstep, handleWebAuthnLoginFinish] at hin ⊢
  cases hopen : (loginRun lib db calls).authSessions.get id with
  | none =>
    rw [hopen] at hin
    exact absurd rfl hin
  | some entry =>
    rw [hopen] at hin
    dsimp only at hin ⊢
    split at hin
    · exact absurd rfl hin
    · next htime =>
      rw [if_neg htime]
      obtain ⟨before, b, after, hcalls, hbegins, hafter⟩ := open_session hopen
      exact ⟨before, b, after, entry, hcalls, hbegins, hbegins.expires ▸ not_lt.mp htime, hafter,
        Proc.wp_run (wp_finishLogin c.env entry.session body) c.faults hin⟩

namespace Sample

def passkeys : Passkeys Unit where
  beginDiscoverableLogin _ := .ok (.null, ())
  userHandle _ body := .ok body
  lookupFailed e := e
  validate _ _ _ := .ok ⟨[], [], [], [], 0, []⟩

def loginCall (step : LoginStep) : LoginCall :=
  ⟨⟨.of fun _ _ => 7, fun _ => 0⟩, fun _ => none, step⟩

end Sample

open Sample in
theorem login_genuine_first :
    ∃ before b after entry, [loginCall .begin] = before ++ b :: after
      ∧ b.Begins passkeys (waRandomID (.of fun _ _ => 7) 1) entry := by
  obtain ⟨before, b, after, entry, hcalls, hbegins, -⟩ := login_genuine passkeys .empty
    [loginCall .begin] (loginCall (.finish (some (waRandomID (.of fun _ _ => 7) 1)) "s")) _ _
    rfl (by decide)
  exact ⟨before, b, after, entry, hcalls, hbegins⟩

end TptIdentity.WebAuthn
