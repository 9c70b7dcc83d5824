import TptIdentity.AuditChain
import TptIdentity.GrantExpiry
import TptIdentity.GuardianShares
import TptIdentity.LoginWrites
import TptIdentity.PasswordModel

/-!
# The event buses of the serve command

`NewServer` makes an event bus of its own, to which the audit logger is not subscribed: the
logger is subscribed to the bus of the serve command, on which only the daily check for expiring
grants publishes. So all events are logged exactly in the runs in which the handlers publish
none (`logged_iff`).

A run is a list of requests and daily checks. The handlers that publish are listed one by one
(`Endpoint`); every other handler is one that leaves the audit log alone (`Handler`).
-/

namespace TptIdentity.Serve

open Go Store Events Proc List Consent

/-! ## Wiring -/

structure Wiring where
  eventBus : Bus
  serverBus : Bus

def recordIssuance : LocalSubscriber := fun _ => pure ()

def serve (sha256 : Bytes → Bytes) (advertise : Bool) : Wiring :=
  let eventBus := Auditlog.subscribe sha256 newBus
  { eventBus := if advertise then eventBus.subscribe recordIssuance else eventBus
    serverBus := newBus }

/-! ## Handlers -/

def SameLog (db db' : DB) : Prop := db'.auditLog = db.auditLog

/-- Without subscribers it leaves the audit log alone. -/
structure Handler where
  serve : Bus → Proc DB (List Event)
  sameLog : (serve newBus).Within SameLog

theorem SameLog.refl (db : DB) : SameLog db db := rfl

theorem sameLog_publish (e : Event) : (newBus.publish e).Within SameLog :=
  (within_publish_newBus e).mono fun _ _ h => congrArg DB.auditLog h

theorem sameLog_publishAll : ∀ events : List Event,
    (Guardian.publishAll newBus events).Within SameLog
  | [] => trivial
  | e :: events =>
    within_bind (sameLog_publish e) fun _ =>
      within_bind (sameLog_publishAll events) fun _ => trivial

section SameLog

variable {α : Type}

theorem sameLog_query {op : DB → Res α × DB} (h : ∀ db, (op db).2.auditLog = db.auditLog) :
    (Proc.query op).Within SameLog := within_query h

theorem sameLog_quietWrite {db db' : DB} (h : Bridge.QuietWrite db db') : SameLog db db' := by
  cases h <;> rfl

theorem sameLog_of_finish {R : DB → DB → Prop} {q : Proc DB α}
    (h : q.Uniform Bridge.FinishWrite R) : q.Within SameLog := by
  refine h.within.mono fun db db' h => ?_
  cases h with
  | quiet h => exact sameLog_quietWrite h
  | saveSession sess _ => rfl

end SameLog

/-! ### Guardian recovery -/

section Recovery

open Guardian Bridge Oidc

variable (srv : Server) (env : Env)

theorem sameLog_handleRecoveryEnrol (r : Request) (body : Option EnrolRequest) :
    (handleRecoveryEnrol srv newBus env r body).Within SameLog := by
  unfold handleRecoveryEnrol
  split
  · split
    · trivial
    · refine within_ite trivial (within_bind (sameLog_query fun _ => rfl) fun res => ?_)
      split
      · exact within_answer SameLog.refl _ _
      · trivial
  · trivial

theorem sameLog_handleRecoveryInitiate (body : Option Bytes) :
    (handleRecoveryInitiate srv newBus env body).Within SameLog := by
  unfold handleRecoveryInitiate
  split
  · trivial
  · refine within_ite trivial (within_bind (sameLog_query fun _ => rfl) fun res => ?_)
    split
    · split
      · split
        · refine within_bind (sameLog_query fun _ => rfl) fun res => ?_
          split
          · exact within_bind (sameLog_publishAll _) fun _ => trivial
          · trivial
        · trivial
        · trivial
      · trivial
    · trivial

theorem sameLog_handleRecoveryApprove (r : Request) (requestID : Bytes) (body : Option Bytes) :
    (handleRecoveryApprove srv newBus env r requestID body).Within SameLog := by
  unfold handleRecoveryApprove
  split
  · split
    · trivial
    · refine within_ite trivial (within_bind (sameLog_query fun _ => rfl) fun res => ?_)
      split
      · refine within_ite trivial (within_bind (sameLog_query fun _ => rfl) fun res => ?_)
        split
        · exact within_bind (sameLog_query fun _ => rfl) fun _ => within_answer SameLog.refl _ _
        · trivial
      · trivial
  · trivial

def ofRecovery (handler : Bus → Proc DB Guardian.Reply)
    (h : (handler newBus).Within SameLog) : Handler where
  serve bus := do return (← handler bus).published
  sameLog := within_bind h fun _ => trivial

end Recovery

/-! ### Logins and password resets -/

section Login

open Bridge Oidc

variable (srv : Server) (env : Env)

def eventOf (e : Bridge.Event) : Events.Event :=
  ⟨Guardian.randomEventID (env.clock 0), e.type, srv.formatRFC3339 (env.clock 1),
    .obj (e.payload.map fun (name, text) => (name, .str text))⟩

def ofReply (handler : Proc DB Bridge.Reply) (h : handler.Within SameLog) : Handler where
  serve bus := do
    let reply ← handler
    let events := reply.published.map (eventOf srv env)
    let _ ← Guardian.publishAll bus events
    return events
  sameLog := within_bind h fun _ => within_bind (sameLog_publishAll _) fun _ => trivial

theorem sameLog_handlePasswordResetRequest (body : Option Bytes) :
    (handlePasswordResetRequest srv env body).Within SameLog := by
  have hissue : ∀ identifier, (issueResetToken srv env identifier).Within SameLog := by
    intro identifier
    unfold issueResetToken
    split
    · refine within_bind (sameLog_query fun _ => rfl) fun saved => ?_
      split <;> trivial
    · trivial
  unfold handlePasswordResetRequest
  split
  · trivial
  · refine within_ite trivial (within_bind (sameLog_query fun _ => rfl) fun res => ?_)
    refine within_ite (within_bind (hissue _) fun published => ?_) trivial
    exact within_bind (sameLog_of_finish (finish_of_quiet (quiet_recordAuthFailure ..))) fun _ =>
      trivial

inductive Endpoint where
  | recoveryEnrol (r : Request) (body : Option Guardian.EnrolRequest)
  | recoveryInitiate (body : Option Bytes)
  | recoveryApprove (r : Request) (requestID : Bytes) (body : Option Bytes)
  | bridgeCallback (provider : Bytes) (r : Request) (up : Upstream)
  | samlACS (provider : Bytes) (r : Request) (up : Upstream)
  | passwordAuth (r : Request) (body : Option PasswordRequest)
  | magicLinkVerify (r : Request)
  | passwordResetRequest (body : Option Bytes)
  | other (h : Handler)

def Endpoint.handler : Endpoint → Handler
  | .recoveryEnrol r body =>
    ofRecovery (Guardian.handleRecoveryEnrol srv · env r body)
      (sameLog_handleRecoveryEnrol srv env r body)
  | .recoveryInitiate body =>
    ofRecovery (Guardian.handleRecoveryInitiate srv · env body)
      (sameLog_handleRecoveryInitiate srv env body)
  | .recoveryApprove r requestID body =>
    ofRecovery (Guardian.handleRecoveryApprove srv · env r requestID body)
      (sameLog_handleRecoveryApprove srv env r requestID body)
  | .bridgeCallback provider r up =>
    ofReply srv env (handleBridgeCallback srv env provider r up)
      (sameLog_of_finish (uniform_handleBridgeCallback srv env provider r up))
  | .samlACS provider r up =>
    ofReply srv env (handleSAMLACS srv env provider r up)
      (sameLog_of_finish (uniform_handleSAMLACS srv env provider r up))
  | .passwordAuth r body =>
    ofReply srv env (handlePasswordAuth srv env r body)
      (sameLog_of_finish (uniform_handlePasswordAuth srv env r body))
  | .magicLinkVerify r =>
    ofReply srv env (handleMagicLinkVerify srv env r)
      (sameLog_of_finish (uniform_handleMagicLinkVerify srv env r))
  | .passwordResetRequest body =>
    ofReply srv env (handlePasswordResetRequest srv env body)
      (sameLog_handlePasswordResetRequest srv env body)
  | .other h => h

end Login

/-! ## The audited bus -/

def Grown (log log' : List AuditEvent) (events : List Event) : Prop :=
  log <+: log' ∧ (log'.drop log.length).map AuditEvent.eventType = events.map Event.type
deriving Decidable

theorem grown_self_iff {log : List AuditEvent} {events : List Event} :
    Grown log log events ↔ events = [] := by
  unfold Grown
  rw [drop_length, map_nil, eq_comm, map_eq_nil_iff]
  exact and_iff_right (prefix_refl log)

theorem grown_cons {log log' : List AuditEvent} {row : AuditEvent} {e : Event}
    {events : List Event} (hrow : row.eventType = e.type) (h : Grown (log ++ [row]) log' events) :
    Grown log log' (e :: events) := by
  obtain ⟨⟨rows, rfl⟩, htypes⟩ := h
  rw [drop_left] at htypes
  refine ⟨⟨row :: rows, by simp⟩, ?_⟩
  rw [append_assoc, drop_left, singleton_append, map_cons, hrow, htypes, map_cons]

theorem audited_eventBus (sha256 : Bytes → Bytes) (advertise : Bool) :
    Auditlog.Audited sha256 (serve sha256 advertise).eventBus := by
  cases advertise with
  | false => exact ⟨[], [], rfl, fun fn hfn => absurd hfn not_mem_nil⟩
  | true =>
    refine ⟨[], [recordIssuance], rfl, fun fn hfn event => ?_⟩
    rw [List.mem_singleton.mp hfn]
    rfl

theorem run_publish_audited {sha256 : Bytes → Bytes} {bus : Bus}
    (hbus : Auditlog.Audited sha256 bus) {e : Event} (hjson : e.value.supported) (db : DB) :
    ∃ row, row.eventType = e.type
      ∧ ((bus.publish e).run (fun _ => none) db).2.auditLog.rows
        = db.auditLog.rows ++ [row] := by
  unfold Bus.publish
  rw [marshal_eq_ok hjson]
  simp only [hbus.notify, run_bind]
  exact ⟨_, rfl, rfl⟩

theorem grown_publishAll {sha256 : Bytes → Bytes} {bus : Bus}
    (hbus : Auditlog.Audited sha256 bus) : ∀ {events : List Event},
    (∀ e ∈ events, e.value.supported) → ∀ db : DB, Grown db.auditLog.rows
        ((Guardian.publishAll bus events).run (fun _ => none) db).2.auditLog.rows events
  | [], _, db => grown_self_iff.mpr rfl
  | e :: events, hjson, db => by
    obtain ⟨row, htype, hrow⟩ := run_publish_audited hbus (hjson e mem_cons_self) db
    have hrest := grown_publishAll hbus (fun e he => hjson e (mem_cons_of_mem _ he))
      ((bus.publish e).run (fun _ => none) db).2
    rw [hrow] at hrest
    unfold Guardian.publishAll
    simp only [run_bind]
    exact grown_cons htype hrest

/-! ## The daily check -/

section ExpiryCheck

variable (srv : Bridge.Server) (formatTime : Int → Bytes)

def expiringSoon (env : Oidc.Env) (g : Grant) : Event :=
  Guardian.newEvent srv env "consent.expiring_soon"
    (.obj [("expires_at", (g.expiresAt.map fun t => Value.str (formatTime t)).getD .null),
      ("grant_id", .str g.id), ("schema_id", .str g.scopeID), ("subject_did", .str g.subjectDID)])

def expiryEvents : Oidc.Env → List Grant → List Event
  | _, [] => []
  | env, g :: grants => expiringSoon srv formatTime env g :: expiryEvents (env.drop 2) grants

theorem supported_expiryEvents : ∀ (env : Oidc.Env) (grants : List Grant),
    ∀ e ∈ expiryEvents srv formatTime env grants, e.value.supported
  | _, [] => fun e he => absurd he not_mem_nil
  | env, g :: grants => by
    refine List.forall_mem_cons.mpr ⟨?_, supported_expiryEvents (env.drop 2) grants⟩
    unfold expiringSoon
    cases g.expiresAt with
    | none => rfl
    | some t => rfl

end ExpiryCheck

/-! ## Runs -/

inductive Step where
  | request (env : Oidc.Env) (e : Endpoint)
  | expiryCheck (env : Oidc.Env) (table : GrantTable) (stored : GrantRow → Bytes) (cutoff : Bytes)

section Steps

variable (srv : Bridge.Server) (formatTime : Int → Bytes) (w : Wiring)

def Step.run (db : DB) : Step → List Event × DB
  | .request env e => ((e.handler srv env).serve w.serverBus).run (fun _ => none) db
  | .expiryCheck env table stored cutoff =>
    let (grants, db) := (listExpiringGrants table stored cutoff).run (fun _ => none) db
    let events := expiryEvents srv formatTime env (grants.getD [])
    (events, ((Guardian.publishAll w.eventBus events).run (fun _ => none) db).2)

def next (db : DB) (step : Step) : DB := (step.run srv formatTime w db).2

def Logged (db : DB) (step : Step) : Prop :=
  Grown db.auditLog.rows (next srv formatTime w db step).auditLog.rows
    (step.run srv formatTime w db).1
deriving Decidable

def Silent (db : DB) : Step → Prop
  | .request env e => (Step.run srv formatTime w db (.request env e)).1 = []
  | .expiryCheck .. => True

end Steps

section Runs

variable {srv : Bridge.Server} {formatTime : Int → Bytes} {sha256 : Bytes → Bytes}
  {advertise : Bool}

theorem auditLog_request (env : Oidc.Env) (e : Endpoint) (db : DB) :
    (next srv formatTime (serve sha256 advertise) db (.request env e)).auditLog = db.auditLog := by
  have hrefl : ∀ db : DB, SameLog db db := fun _ => rfl
  have htrans : ∀ {a b c : DB}, SameLog a b → SameLog b c → SameLog a c :=
    fun hab hbc => Eq.trans hbc hab
  exact wp_run ((e.handler srv env).sameLog.wp hrefl htrans db) fun _ => none

theorem logged_iff_silent (db : DB) (step : Step) :
    Logged srv formatTime (serve sha256 advertise) db step
      ↔ Silent srv formatTime (serve sha256 advertise) db step := by
  cases step with
  | request env e =>
    unfold Logged
    rw [auditLog_request]
    exact grown_self_iff
  | expiryCheck env table stored cutoff =>
    refine iff_of_true ?_ trivial
    exact grown_publishAll (audited_eventBus sha256 advertise)
      (supported_expiryEvents srv formatTime env _) db

end Runs

/-- Every published event is logged exactly in the runs in which no handler publishes one: the audit
logger listens on another bus. -/
theorem logged_iff (srv : Bridge.Server) (formatTime : Int → Bytes) (sha256 : Bytes → Bytes)
    (advertise : Bool) (db : DB) (steps : List Step) :
    EveryStep (next srv formatTime (serve sha256 advertise))
        (Logged srv formatTime (serve sha256 advertise)) db steps
      ↔ EveryStep (next srv formatTime (serve sha256 advertise))
        (Silent srv formatTime (serve sha256 advertise)) db steps := by
  have hsame : Logged srv formatTime (serve sha256 advertise)
      = Silent srv formatTime (serve sha256 advertise) :=
    funext₂ fun db step => propext (logged_iff_silent db step)
  rw [hsame]

namespace Sample

open Guardian.Sample

def wiring : Wiring := serve Auditlog.Sample.sha256 true

def formatTime (_ : Int) : Bytes := []

def enrol : Step :=
  .request env (.recoveryEnrol (request "s") (some ⟨["a", "b"], 2⟩))

/-- A grant in a table of the migration file, found by the daily check. -/
def db : DB := ((saveGrant Policy.Sample.onCategory).run (fun _ => none) .empty).2

def check : Step := .expiryCheck env .migrations (fun _ => []) []

end Sample

open Sample

/-- What the daily check publishes is logged, and what a handler publishes is not. -/
theorem recoveryEnrolled_not_logged :
    ¬EveryStep (next Guardian.Sample.server formatTime wiring)
        (Logged Guardian.Sample.server formatTime wiring) db [check, enrol]
      ∧ (enrol.run Guardian.Sample.server formatTime wiring
          (next Guardian.Sample.server formatTime wiring db check)).1.map Event.type
            = [str "recovery.enrolled"]
      ∧ ([check, enrol].foldl (next Guardian.Sample.server formatTime wiring)
          db).auditLog.rows.map AuditEvent.eventType = [str "consent.expiring_soon"] := by
  decide +kernel

end TptIdentity.Serve
