import TptIdentity.BridgeState
import TptIdentity.EventsModel
import TptIdentity.GoBinary
import TptIdentity.RecoveryModel

/-!
# Guardian recovery endpoints

Starting a recovery splits a fresh token into one share per guardian and publishes each as an
event. An approval checks neither that the approver is a guardian nor that the share is new.
-/

namespace TptIdentity

namespace Recovery

open Go

def Share.hex (s : Share) : Bytes := encodeHex [s.index] ++ ":" ++ encodeHex s.value

def newRecoveryToken (rand : Rand) : Res Bytes :=
  (rand.read 0 32).wrapErr "recovery: generate token: %w" []

end Recovery

namespace Guardian

open Go Store Oidc Bridge Events Recovery

variable (srv : Server) (bus : Bus) (env : Env)

structure Reply where
  response : Response
  published : List Events.Event := []
  deliveries : List Delivery := []

def Reply.ok (reply : Reply) : Bool :=
  match reply.response with
  | .json 200 _ => true
  | _ => false

def httpError (status : Nat) (text : String) : Reply := { response := .error status (str text) }

/-! ## Publishing -/

def randomEventID (now : Int) : Bytes :=
  "evt_" ++ encodeHex (putUint64 (Int64.ofInt now).toUInt64)

def newEvent (eventType : String) (payload : Value) : Events.Event :=
  ⟨randomEventID (env.clock 0), str eventType, srv.formatRFC3339 (env.clock 1), payload⟩

def publishAll (bus : Bus) : List Events.Event → Proc DB (List Delivery)
  | [] => pure []
  | event :: events => do
    let started ← bus.publish event
    let rest ← publishAll bus events
    return started ++ rest

/-! ## Enrolment -/

structure EnrolRequest where
  guardianDIDs : List Bytes
  threshold : Int
deriving DecidableEq, Repr

def EnrolRequest.accepted (req : EnrolRequest) : Bool :=
  !(decide (req.guardianDIDs.length < 2) || decide (req.threshold < 2)
    || decide (req.guardianDIDs.length < req.threshold))

def handleRecoveryEnrol (r : Request) (body : Option EnrolRequest) : Proc DB Reply :=
  match srv.subjectFromBearer (param r.header "Authorization") with
  | .ok subjectDID =>
    match body with
    | none => return httpError 400 "invalid request"
    | some req =>
      if req.accepted = false then
        return httpError 400 "threshold must be 2..len(guardian_dids)"
      else do
        match ← saveRecoveryConfig
            ⟨subjectDID, req.threshold, req.guardianDIDs, env.clock 0⟩ (env.clock 1) with
        | .ok _ =>
          let event := newEvent srv (env.drop 2) "recovery.enrolled"
            (.obj [("guardian_count", .int req.guardianDIDs.length),
              ("subject_did", .str subjectDID), ("threshold", .int req.threshold)])
          let started ← bus.publish event
          return ⟨.json 200 (.obj [("guardian_count", .int req.guardianDIDs.length),
            ("message", .str "Recovery enrolled"),
            ("threshold", .int req.threshold)]), [event], started⟩
        | _ => return httpError 500 "internal error"
  | _ => return httpError 401 "unauthorized"

/-! ## Starting a recovery -/

def randomRecoveryID (rand : Rand) (i : Nat) : Bytes :=
  ((randomHex rand i 16).toOption.map fun id => str "recov_" ++ id).getD []

def sharePayload (reqID subjectDID guardianDID share : Bytes) : Value :=
  .obj [("guardian_did", .str guardianDID), ("request_id", .str reqID),
    ("share", .str share), ("subject_did", .str subjectDID)]

def shareEvents (srv : Server) (env : Env) (reqID subjectDID : Bytes) :
    List Bytes → List Share → List Events.Event
  | guardianDID :: guardianDIDs, share :: shares =>
    newEvent srv env "recovery.initiated"
        (sharePayload reqID subjectDID guardianDID share.hex)
      :: shareEvents srv (env.drop 2) reqID subjectDID guardianDIDs shares
  | _, _ => []

def handleRecoveryInitiate (body : Option Bytes) : Proc DB Reply :=
  match body with
  | none => return httpError 400 "subject_did required"
  | some subjectDID =>
    if subjectDID = [] then return httpError 400 "subject_did required"
    else do
      match ← getRecoveryConfig subjectDID with
      | .ok cfg =>
        match newRecoveryToken env.rand with
        | .ok token =>
          match split token cfg.threshold cfg.guardianDIDs.length (env.drop 1).rand with
          | .ok shares =>
            let reqID := randomRecoveryID env.rand (1 + token.length)
            match ← saveRecoveryRequest ⟨reqID, subjectDID, env.clock 0, 0, false⟩
                (env.clock 1) with
            | .ok _ =>
              let events := shareEvents srv (env.drop 2) reqID subjectDID
                cfg.guardianDIDs shares
              let started ← publishAll bus events
              return ⟨.json 200 (.obj [("message",
                  .str "Recovery initiated — guardians have been notified"),
                ("request_id", .str reqID)]), events, started⟩
            | _ => return httpError 500 "internal error"
          | .err e =>
            return { response := .error 500 ("internal error: " ++ e.text) }
          | .panics _ => return httpError 500 ""
        | _ => return httpError 500 "internal error"
      | _ => return httpError 404 "no recovery config for subject"

/-! ## Approvals -/

def shareHash (share : Bytes) : Bytes := encodeHex ((share ++ List.replicate 32 0).take 16)

def recordApproval (requestID guardianDID share : Bytes) (recovReq : RecoveryRequest) :
    Proc DB Reply := do
  match ← saveRecoveryShare ⟨requestID, guardianDID, shareHash share, env.clock 0⟩
      (env.clock 1) with
  | .ok _ =>
    let recovReq := { recovReq with sharesCollected := recovReq.sharesCollected + 1 }
    -- the error is dropped
    let _ ← updateRecoveryRequest recovReq
    let event := newEvent srv (env.drop 2) "recovery.approved"
      (.obj [("guardian_did", .str guardianDID), ("request_id", .str requestID),
        ("shares_collected", .int recovReq.sharesCollected)])
    let started ← bus.publish event
    return ⟨.json 200 (.obj [("message", .str "Share accepted"), ("request_id", .str requestID),
      ("shares_collected", .int recovReq.sharesCollected)]), [event], started⟩
  | _ => return httpError 500 "internal error"

def handleRecoveryApprove (r : Request) (requestID : Bytes) (body : Option Bytes) : Proc DB Reply :=
  match srv.subjectFromBearer (param r.header "Authorization") with
  | .ok guardianDID =>
    match body with
    | none => return httpError 400 "share required"
    | some share =>
      if share = [] then return httpError 400 "share required"
      else do
        match ← getRecoveryRequest requestID with
        | .ok recovReq =>
          if recovReq.completed then return httpError 409 "recovery already completed"
          else recordApproval srv bus env requestID guardianDID share recovReq
        | _ => return httpError 404 "recovery request not found"
  | _ => return httpError 401 "unauthorized"

end Guardian

end TptIdentity
