import TptIdentity.OidcModel

/-!
# The administration of identities

The handlers that suspend, restore and delete identities. What they record is the role of the
identity; a deletion also removes the credentials and sessions of the subject.
-/

namespace TptIdentity.Admin

open Go Store Oidc

structure Codec where
  credentialID : Bytes → Res Bytes
  formatTime : Int → Bytes

def identityValue (codec : Codec) (id : Identity) : Value :=
  .obj ([(str "did", .str id.did), (str "method", .str id.method)]
    ++ omitEmpty "signingKeyPath" id.signingKeyPath
    ++ omitEmpty "encKeyPath" id.encKeyPath
    ++ [(str "role", .str id.role)]
    ++ omitEmpty "tenantId" id.tenantID
    ++ [(str "createdAt", .str (codec.formatTime id.createdAt)),
        (str "updatedAt", .str (codec.formatTime id.updatedAt))])

def errorOf (status : Nat) (text : String) (e : Err) : Response :=
  .error status (str text ++ e.text)

def changeRole (codec : Codec) (env : Env) (did : Bytes) (f : Bytes → Bytes) :
    Proc DB Response := do
  match ← getIdentity did with
  | .ok id =>
    let id := { id with role := f id.role, updatedAt := env.clock 0 }
    match ← updateIdentity id with
    | .ok _ => return .json 200 (identityValue codec id)
    | .err e => return errorOf 500 "update identity: " e
    | .panics _ => return internalError
  | .err e => return errorOf 404 "identity not found: " e
  | .panics _ => return internalError

def handleAdminSuspendIdentity (codec : Codec) (env : Env) (did : Bytes) : Proc DB Response :=
  changeRole codec env did fun _ => "suspended"

def handleAdminUnsuspendIdentity (codec : Codec) (env : Env) (did : Bytes) : Proc DB Response :=
  changeRole codec env did fun role => if role = "suspended" then "user" else role

def deleteCredentials : List Bytes → Proc DB Unit
  | [] => return ()
  | id :: ids => do
    let _ ← deleteCredential id
    deleteCredentials ids

def deleteSessions : List OIDCSession → Proc DB Unit
  | [] => return ()
  | sess :: sessions => do
    let _ ← deleteSession sess.id
    deleteSessions sessions

def handleAdminDeleteIdentity (codec : Codec) (env : Env) (did : Bytes) : Proc DB Response := do
  match ← getIdentity did with
  | .ok _ =>
    match ← listCredentials codec.credentialID did with
    | .ok ids => deleteCredentials ids
    | _ => pure ()
    match ← listSessionsBySubject (env.clock 0) did with
    | .ok sessions => deleteSessions sessions
    | _ => pure ()
    match ← updateIdentity ⟨did, [], [], [], "deleted", [], 0, env.clock 1⟩ with
    | .ok _ => return .text 204 []
    | .err e => return errorOf 500 "update identity: " e
    | .panics _ => return internalError
  | .err e => return errorOf 404 "identity not found: " e
  | .panics _ => return internalError

end TptIdentity.Admin
