import TptIdentity.Lockout
import TptIdentity.PasswordModel

/-!
# New passwords

Both handlers that set a new password ask the bridge for an interface that it does not
implement. So no password is ever renewed (`renewal_takesEffect_never`).
-/

namespace TptIdentity.Bridge

open Go Store Oidc Proc

inductive Renewal where
  | change (r : Request) (body : Option PasswordChange)
  | reset (body : Option PasswordReset)

def Renewal.proc (srv : Server) (env : Env) : Renewal → Proc DB Reply
  | .change r body => handlePasswordChange srv env r body
  | .reset body => handlePasswordResetConfirm srv env body

def Authenticates (srv : Server) (db : DB) (identifier password : Bytes) : Prop :=
  ∃ (env : Env) (r : Request) (req : PasswordRequest),
    req.identifier = identifier ∧ req.password = password
      ∧ ((handlePasswordAuth srv env r (some req)).run (fun _ => none) db).1.loggedIn = true

def Renewal.Entitled (srv : Server) (env : Env) (db : DB) (identifier new : Bytes) :
    Renewal → Prop
  | .change r body => ∃ current link,
      body = some ⟨current, new⟩
        ∧ Authenticates srv db identifier current
        ∧ db.externalLinks.find ("password", normaliseEmail srv identifier) = some link
        ∧ srv.subjectFromBearer (param r.header "Authorization") = .ok link.subjectDID
        ∧ 12 ≤ new.length
  | .reset body => ∃ token row,
      body = some ⟨token, new⟩
        ∧ db.passwordResetTokens.find (encodeHex (srv.sha256 token)) = some row
        ∧ row.identifier = identifier
        ∧ env.clock 0 ≤ row.expiresAt
        ∧ 12 ≤ new.length

structure TakesEffect (srv : Server) (identifier new : Bytes) (outcome : Reply × DB) : Prop where
  succeeds : ∃ body, outcome.1.response = .json 200 body
  exact : ∀ password, Authenticates srv outcome.2 identifier password ↔ password = new

/-! ## Nothing is set -/

def Refused (db : DB) (reply : Reply) (db' : DB) : Prop :=
  (∀ body, reply.response ≠ .json 200 body) ∧ db'.passwords = db.passwords

theorem refused_writeJSONError {status : Nat} (hstatus : status ≠ 200) (code : String)
    (desc : Bytes) (db : DB) : Refused db (writeJSONError status code desc) db := by
  refine ⟨fun body hbody => ?_, rfl⟩
  simp only [writeJSONError, Response.json.injEq] at hbody
  exact hstatus hbody.1

theorem refused_httpError (status : Nat) (message : String) (db : DB) :
    Refused db (httpError status message) db :=
  ⟨fun _ hbody => by simp only [httpError, reduceCtorEq] at hbody, rfl⟩

variable (srv : Server)

theorem ProviderKind.asPasswordBridge_eq_false (kind : ProviderKind) :
    kind.asPasswordBridge = false := by
  cases kind <;> rfl

theorem wp_passwordBridge (next : Proc DB Reply) (db : DB) :
    (passwordBridge srv next).wp (Refused db) db := by
  unfold passwordBridge
  split
  · exact refused_writeJSONError (by decide) ..
  · next kind _ =>
    exact wp_ite (fun h => by rw [kind.asPasswordBridge_eq_false] at h; cases h) fun _ =>
      refused_writeJSONError (by decide) ..

theorem wp_handlePasswordChange (env : Env) (r : Request) (body : Option PasswordChange) (db : DB) :
    (handlePasswordChange srv env r body).wp (Refused db) db := by
  unfold handlePasswordChange
  split
  · split
    · exact refused_writeJSONError (by decide) ..
    · exact wp_ite (fun _ => refused_writeJSONError (by decide) ..) fun _ =>
        wp_passwordBridge ..
  · exact refused_writeJSONError (by decide) ..
  · exact refused_httpError ..

theorem wp_handlePasswordResetConfirm (env : Env) (body : Option PasswordReset) (db : DB) :
    (handlePasswordResetConfirm srv env body).wp (Refused db) db := by
  cases body with
  | none => exact refused_writeJSONError (by decide) ..
  | some body =>
    refine wp_ite (fun _ => refused_writeJSONError (by decide) ..) fun _ => ?_
    refine wp_lookup_bind ?_ fun e => ?_
    · split
      · next tok _ =>
        refine wp_ite (fun _ => ?_) fun _ => wp_passwordBridge ..
        -- an expired token is deleted, in a table of its own
        refine wp_exec_bind ?_ fun e => ?_
        · exact refused_writeJSONError (by decide) ..
        · exact refused_writeJSONError (by decide) ..
      · exact refused_writeJSONError (by decide) ..
    · exact refused_writeJSONError (by decide) ..

theorem Renewal.wp_proc (env : Env) (renewal : Renewal) (db : DB) :
    (renewal.proc srv env).wp (Refused db) db := by
  cases renewal with
  | change r body => exact wp_handlePasswordChange srv env r body db
  | reset body => exact wp_handlePasswordResetConfirm srv env body db

/-- No change or reset of a password takes effect, because the bridge is never found to be a
password bridge. -/
theorem renewal_takesEffect_never (srv : Server) (env : Env) (renewal : Renewal)
    (identifier new : Bytes) (faults : Faults) (db : DB) :
    ¬TakesEffect srv identifier new ((renewal.proc srv env).run faults db)
      ∧ ((renewal.proc srv env).run faults db).2.passwords = db.passwords := by
  obtain ⟨hrefused, hpasswords⟩ := wp_run (renewal.wp_proc srv env db) faults
  refine ⟨fun h => ?_, hpasswords⟩
  obtain ⟨body, hbody⟩ := h.succeeds
  exact hrefused body hbody

/-! ## A refused user -/

namespace RenewalSample

def server : Server := { Sample.passwordServer with subjectFromBearer := fun header => .ok header }

def env : Env := ⟨.of fun _ _ => 7, fun _ => 0⟩

def did : Bytes := "did:key:alice"

def db : DB :=
  ((do
    let _ ← saveExternalLink ⟨did, "password", "alice", 0, 0⟩
    savePasswordResetToken ⟨encodeHex "token", "alice", 15 * minute, 0⟩).run
      (fun _ => none) Sample.enrolled).2

def current : Bytes := "correct horse"

def new : Bytes := "battery staple"

def change : Renewal :=
  .change (Sample.request [] [("Authorization", did)]) (some ⟨current, new⟩)

def reset : Renewal := .reset (some ⟨"token", new⟩)

def outcome (renewal : Renewal) : Reply × DB := (renewal.proc server env).run (fun _ => none) db

def login (password : Bytes) : PasswordRequest :=
  ⟨"alice", password, [], [], [], [], [], [], []⟩

def unavailable : Reply :=
  writeJSONError 500 "internal_error" "password bridge unavailable"

end RenewalSample

theorem not_authenticates {srv : Server} {db : DB} {identifier password : Bytes}
    (h : ∀ row, db.passwords.find (normaliseEmail srv identifier) = some row →
      verifyArgon2 srv password row.hash ≠ .ok ()) :
    ¬Authenticates srv db identifier password := by
  rintro ⟨env, r, req, rfl, rfl, hlogin⟩
  have hwrong : ¬RightPassword srv db req := fun ⟨row, hrow, hverify⟩ => h row hrow hverify
  have hout := (wp_run (wp_handlePasswordAuth_wrongPassword env r hwrong) fun _ => none).1
  rw [hout] at hlogin
  cases hlogin

open RenewalSample in
/-- The bridge is said to be unavailable, and the old password stays. -/
theorem renewal_refused :
    change.Entitled server env db "alice" new
      ∧ reset.Entitled server env db "alice" new
      ∧ (outcome change).1 = unavailable
      ∧ (outcome reset).1 = unavailable
      ∧ Authenticates server (outcome change).2 "alice" current
      ∧ ¬Authenticates server (outcome change).2 "alice" new
      ∧ ¬Authenticates server (outcome reset).2 "alice" new
      ∧ ¬TakesEffect server "alice" new (outcome change)
      ∧ ¬TakesEffect server "alice" new (outcome reset) := by
  have hlogin : Authenticates server db "alice" current :=
    ⟨env, Sample.request [] [], login current, rfl, rfl, by decide⟩
  have hnew : ∀ renewal, outcome renewal = (unavailable, db) →
      ¬Authenticates server (outcome renewal).2 "alice" new := by
    intro renewal houtcome
    rw [houtcome]
    refine not_authenticates fun row hrow => ?_
    have hfind : db.passwords.find (normaliseEmail server "alice")
        = some ⟨"alice", ":" ++ encodeHex current⟩ := by decide
    rw [hfind, Option.some.injEq] at hrow
    rw [← hrow]
    decide
  have hchange : outcome change = (unavailable, db) := rfl
  have hreset : outcome reset = (unavailable, db) := rfl
  have hnone : ∀ renewal, outcome renewal = (unavailable, db) →
      ¬TakesEffect server "alice" new (outcome renewal) := by
    intro renewal houtcome h
    exact hnew renewal houtcome ((h.exact new).mpr rfl)
  refine ⟨⟨current, ⟨did, "password", "alice", 0, 0⟩, rfl, hlogin, ?_, ?_, ?_⟩,
    ⟨"token", ⟨encodeHex "token", "alice", 15 * minute, 0⟩, rfl, ?_, rfl, ?_, ?_⟩,
    congrArg Prod.fst hchange, congrArg Prod.fst hreset, hlogin,
    hnew change hchange, hnew reset hreset, hnone change hchange, hnone reset hreset⟩
  all_goals decide

end TptIdentity.Bridge
