import TptIdentity.BridgeModel

/-!
# Passwords and duress passphrases

How passwords and duress passphrases are stored, and the handlers that change them. These ask
the bridge for an interface that `*PasswordBridge` does not implement
(`ProviderKind.asPasswordBridge`).
-/

namespace TptIdentity.Bridge

open Go Store Oidc

/-! ## Storing -/

def encodeArgon2Hash (hash salt : Bytes) : Bytes := encodeHex salt ++ ":" ++ encodeHex hash

variable (srv : Server) (env : Env)

def setPassword (rand : Rand) (identifier password : Bytes) : Proc DB (Res Unit) :=
  if password.length < 12 then
    return .err (.new "password: minimum length is 12 characters" [])
  else
    match rand.read 0 32 with
    | .ok salt =>
      savePasswordHash (normaliseEmail srv identifier)
        (encodeArgon2Hash (hashPassword srv password salt) salt)
    | .err e => return .err (.wrap "password: generate salt: %w" [] e)
    | .panics reason => return .panics reason

def encodeDuress (passphrase salt : Bytes) : Bytes :=
  encodeHex salt ++ ":" ++ argon2HashDuress srv passphrase salt

/-- `DuressManager.Enrol`. Nothing compares the passphrase with the password. -/
def enrolDuress (rand : Rand) (subjectDID passphrase : Bytes) : Proc DB (Res Unit) :=
  if passphrase = [] then return .err (.new "duress: passphrase must not be empty" [])
  else
    match rand.read 0 16 with
    | .ok salt => saveDuressConfig subjectDID (encodeDuress srv passphrase salt)
    | .err e => return .err (.wrap "duress: generate salt: %w" [] e)
    | .panics reason => return .panics reason

/-! ## Changing and resetting passwords -/

def writeJSONError (status : Nat) (code : String) (desc : Bytes) : Reply :=
  { response := .json status (.obj [("error", .str (str code)), ("error_description", .str desc)]) }

def statusOK : Reply := { response := .json 200 (.obj [("status", .str "ok")]) }

inductive GoType where
  | any
  | context
  | error
  | externalIdentity
  | string
deriving DecidableEq

structure Method where
  name : String
  params : List GoType
  results : List GoType
deriving DecidableEq

def verifyCredentialsOf (identity : GoType) : Method :=
  ⟨"VerifyCredentials", [.context, .string, .string], [identity, .error]⟩

def setPasswordMethod : Method := ⟨"SetPassword", [.context, .string, .string], [.error]⟩

/-- The methods with these names. Of the other providers, the LDAP bridge verifies credentials. -/
def ProviderKind.methods : ProviderKind → List Method
  | .password => [verifyCredentialsOf .externalIdentity, setPasswordMethod]
  | .other => [verifyCredentialsOf .externalIdentity]
  | _ => []

/-- The interface `passwordBridge`. -/
def passwordBridgeMethods : List Method := [verifyCredentialsOf .any, setPasswordMethod]

/-- A type implements an interface if it has its methods with the very same signatures. -/
def ProviderKind.asPasswordBridge (kind : ProviderKind) : Bool :=
  passwordBridgeMethods.all fun m => kind.methods.contains m

def passwordBridge (next : Proc DB Reply) : Proc DB Reply :=
  match srv.bridges "password" with
  | none => return writeJSONError 400 "not_supported" "password bridge not enabled"
  | some kind =>
    if kind.asPasswordBridge = true then next
    else return writeJSONError 500 "internal_error" "password bridge unavailable"

structure PasswordChange where
  currentPassword : Bytes
  newPassword : Bytes
deriving DecidableEq, Repr

def handlePasswordChange (r : Request) (body : Option PasswordChange) : Proc DB Reply :=
  match srv.subjectFromBearer (param r.header "Authorization") with
  | .ok subjectDID =>
    match body with
    | none => return writeJSONError 400 "invalid_request" "invalid JSON body"
    | some body =>
      if body.currentPassword = [] ∨ body.newPassword = [] then
        return writeJSONError 400 "invalid_request"
          "current_password and new_password required"
      else passwordBridge srv do
        match ← verifyCredentials srv subjectDID body.currentPassword with
        | .ok _ =>
          let _ ← clearAuthFailures subjectDID
          match ← setPassword srv env.rand subjectDID body.newPassword with
          | .ok _ => return statusOK
          | .err e => return writeJSONError 400 "invalid_request" e.text
          | .panics _ => return httpError 500 ""
        | _ =>
          let _ ← recordAuthFailure subjectDID (env.clock 0)
          return writeJSONError 401 "invalid_credentials"
            "current password is incorrect"
  | .err e => return writeJSONError 401 "unauthorized" e.text
  | .panics _ => return httpError 500 ""

def resetRequested (identifier rawToken : Bytes) (expiresAt : Int) : Event :=
  ⟨"password.reset_requested", [("expires_at", srv.formatRFC3339 expiresAt),
    ("identifier", identifier), ("token", rawToken)]⟩

def issueResetToken (identifier : Bytes) : Proc DB (List Event) :=
  match randomHex env.rand 0 32 with
  | .ok rawToken => do
    let expiresAt := env.clock 0 + 15 * minute
    match ← savePasswordResetToken
        ⟨encodeHex (srv.sha256 rawToken), identifier, expiresAt, env.clock 1⟩ with
    | .ok _ => return [resetRequested srv identifier rawToken expiresAt]
    | _ => return []
  | _ => return []

def handlePasswordResetRequest : Option Bytes → Proc DB Reply
  | none => return writeJSONError 400 "invalid_request" "identifier required"
  | some typed =>
    if typed = [] then return writeJSONError 400 "invalid_request" "identifier required"
    else do
      let identifier := toLower srv.lower (trimSpace typed)
      let key := "reset:" ++ identifier
      let answer : Response := .json 200 (.obj [("message", .str (str
          "If this identifier is registered, a reset link has been sent.")), ("status", .str "ok")])
      let failures ← getAuthFailures key
      if (failures.getD (0, none)).1 < 3 then
        let published ← issueResetToken srv env identifier
        let _ ← recordAuthFailure key (env.clock 2)
        return ⟨answer, published⟩
      else return ⟨answer, []⟩

structure PasswordReset where
  token : Bytes
  newPassword : Bytes
deriving DecidableEq, Repr

def handlePasswordResetConfirm : Option PasswordReset → Proc DB Reply
  | none => return writeJSONError 400 "invalid_request" "invalid JSON body"
  | some body =>
    if body.token = [] ∨ body.newPassword = [] then
      return writeJSONError 400 "invalid_request" "token and new_password required"
    else do
      let hash := encodeHex (srv.sha256 body.token)
      match ← getPasswordResetToken hash with
      | .ok tok =>
        if env.clock 0 > tok.expiresAt then
          let _ ← deletePasswordResetToken hash
          return writeJSONError 400 "invalid_token" "token expired"
        else passwordBridge srv do
          match ← setPassword srv env.rand tok.identifier body.newPassword with
          | .ok _ =>
            let _ ← deletePasswordResetToken hash
            let _ ← clearAuthFailures tok.identifier
            let _ ← clearAuthFailures ("reset:" ++ tok.identifier)
            return statusOK
          | .err e => return writeJSONError 400 "invalid_request" e.text
          | .panics _ => return httpError 500 ""
      | _ => return writeJSONError 400 "invalid_token" "token not found or already used"

end TptIdentity.Bridge
