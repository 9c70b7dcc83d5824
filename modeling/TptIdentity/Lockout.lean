import Mathlib.Logic.Function.Basic
import TptIdentity.SessionRuns

/-!
# Lockout

`RecordAuthFailure` counts the failed attempts and says until when the account is locked, but
`handlePasswordAuth` never asks for it: five wrong guesses and the right password one second
later log in (`locked_account_entered`). What keeps a locked account closed is the password
alone: in every run in which no attempt on a locked account has the right password, all of
them fail (`lockRespected_of_wrong`), whatever else the server does and whichever store calls
fail.

The failures are counted per account, that is per identifier as the password bridge normalises
it. The store counts them per identifier as it was typed, so other spellings do not add up.
-/

namespace TptIdentity.Bridge

open Go Store Oidc Proc

/-! ## Attempts -/

variable (srv : Server)

def Step.account : Step → Option Bytes
  | .passwordAuth _ (some req) =>
    if req.identifier = [] ∨ req.password = [] then none
    else some (normaliseEmail srv req.identifier)
  | _ => none

def Reply.loggedIn (reply : Reply) : Bool :=
  match reply.response with
  | .redirect _ => true
  | .json 200 _ => true
  | _ => false

def Call.succeeds (db : DB) (c : Call) : Bool := (c.run srv db).1.loggedIn

/-- The failed attempts since the last success, and when the last one was made. -/
structure Failures where
  count : Nat
  lastAt : Int
deriving DecidableEq, Repr

def Failures.locked (f : Failures) (now : Int) : Bool :=
  (lockedUntil f.count f.lastAt).any fun lockedUntil => now < lockedUntil

structure Attempts where
  db : DB
  failures : Bytes → Failures

def Attempts.next (s : Attempts) (c : Call) : Attempts where
  db := afterCall srv s.db c
  failures :=
    match c.step.account srv with
    | none => s.failures
    | some account =>
      Function.update s.failures account
        (if c.succeeds srv s.db then ⟨0, 0⟩
          else ⟨(s.failures account).count + 1, c.env.clock 0⟩)

def LockRespected (s : Attempts) (c : Call) : Prop :=
  ∀ account ∈ c.step.account srv, (s.failures account).locked (c.env.clock 0) = true →
    c.succeeds srv s.db = false
deriving Decidable

/-! ## Wrong passwords -/

section Lockout

variable {srv : Server}

theorem Step.account_eq_some {step : Step} {account : Bytes} (h : step.account srv = some account) :
    ∃ r req, step = .passwordAuth r (some req) ∧ normaliseEmail srv req.identifier = account := by
  unfold Step.account at h
  split at h
  · next r req =>
    split at h
    · cases h
    · exact ⟨r, req, rfl, Option.some.inj h⟩
  · cases h

/-- The password of the request is the one that is stored for the account. -/
def RightPassword (srv : Server) (db : DB) (req : PasswordRequest) : Prop :=
  ∃ row ∈ db.passwords.find (normaliseEmail srv req.identifier),
    verifyArgon2 srv req.password row.hash = .ok ()
deriving Decidable

theorem wp_verifyCredentials (req : PasswordRequest) (db : DB) :
    (verifyCredentials srv req.identifier req.password).wp
      (fun res _ => res.isOk → RightPassword srv db req) db := by
  refine wp_lookup_bind ?_ fun e hok => by cases hok
  cases hrow : db.passwords.find (normaliseEmail srv req.identifier) with
  | none =>
    intro hok
    cases hok
  | some row =>
    simp only [Option.map_some, found, Res.wrapErr_ok]
    cases hverify : verifyArgon2 srv req.password row.hash with
    | ok _ => exact fun _ => ⟨row, hrow, hverify⟩
    | err e => exact fun hok => by cases hok
    | panics reason => exact fun hok => by cases hok

theorem wp_handlePasswordAuth_wrongPassword (env : Env) (r : Request) {req : PasswordRequest}
    {db : DB} (hwrong : ¬RightPassword srv db req) :
    (handlePasswordAuth srv env r (some req)).wp
      (fun reply _ => reply.loggedIn = false ∧ reply.published = []) db := by
  refine wp_ite (fun _ => ⟨rfl, rfl⟩) fun _ => ?_
  split
  · exact ⟨rfl, rfl⟩
  · refine wp_seq (wp_verifyCredentials req db) fun res db' hres => ?_
    split
    · exact absurd (hres rfl) hwrong
    · exact wp_seq (wp_true _ db') fun _ _ _ => ⟨rfl, rfl⟩
  · exact ⟨rfl, rfl⟩

def Step.passwordRequest : Step → Option PasswordRequest
  | .passwordAuth _ req => req
  | _ => none

/-- An attempt on a locked account has a wrong password. -/
def WrongWhileLocked (srv : Server) (s : Attempts) (c : Call) : Prop :=
  ∀ req ∈ c.step.passwordRequest,
    (s.failures (normaliseEmail srv req.identifier)).locked (c.env.clock 0) = true →
      ¬RightPassword srv s.db req
deriving Decidable

theorem WrongWhileLocked.lockRespected {s : Attempts} {c : Call} (h : WrongWhileLocked srv s c) :
    LockRespected srv s c := by
  intro account haccount hlocked
  obtain ⟨r, req, hstep, rfl⟩ := Step.account_eq_some haccount
  have hwrong := h req (hstep ▸ rfl) hlocked
  rw [Call.succeeds, Call.run, hstep]
  exact (wp_run (wp_handlePasswordAuth_wrongPassword c.env r hwrong) c.faults).1

end Lockout

/-- In every run in which the attempts on locked accounts have wrong passwords, they all fail. -/
theorem lockRespected_of_wrong (s : Attempts) (calls : List Call)
    (h : EveryStep (Attempts.next srv) (WrongWhileLocked srv) s calls) :
    EveryStep (Attempts.next srv) (LockRespected srv) s calls :=
  everyStep_of_everyStep (I := fun _ => True) (fun _ _ _ h => h.lockRespected)
    (fun _ _ _ _ => trivial) trivial h

namespace Sample

def passwordServer : Server :=
  { server with
    bridges := fun name => if name = "password" then some .password else none
    argon2IDKey := fun password _ _ _ _ _ => password }

def enrolled : DB :=
  ((savePasswordHash "alice" (":" ++ encodeHex "correct horse")).run
    (fun _ => none) .empty).2

def attempt (seconds : Int) (identifier password : String) : Call :=
  ⟨⟨.of fun _ _ => 7, fun _ => seconds * second⟩, fun _ => none, .passwordAuth (request [] [])
      (some ⟨str identifier, str password, [], [], [], [], [], [], []⟩)⟩

def guesses : List Call :=
  [attempt 0 "alice" "a", attempt 1 "alice" "b", attempt 2 " alice" "c", attempt 3 "alice" "d",
    attempt 4 "alice" "e", attempt 5 "alice" "correct horse"]

def unused : Attempts := ⟨enrolled, fun _ => ⟨0, 0⟩⟩

end Sample

open Sample

/-- A sixth wrong guess while the account is locked, and the right password after the lock. -/
theorem lockRespected_guesses :
    EveryStep (Attempts.next passwordServer) (LockRespected passwordServer) unused
      (guesses.take 5 ++ [attempt 5 "alice" "f", attempt 400 "alice" "correct horse"]) :=
  lockRespected_of_wrong _ _ _ (by decide +kernel)

theorem locked_account_entered :
    (((guesses.take 5).foldl (Attempts.next passwordServer)
        unused).failures "alice") = ⟨5, 4 * second⟩
      ∧ ¬EveryStep (Attempts.next passwordServer) (LockRespected passwordServer)
        unused guesses := by
  decide +kernel

end TptIdentity.Bridge
