import TptIdentity.ParIntegrity
import TptIdentity.PasswordModel
import TptIdentity.TokenSingleUse

/-!
# Single use of device codes, pushed requests, links and reset tokens

Device codes, pushed requests, magic links and reset tokens (`Artefact`) are looked up first and
deleted later, in separate store calls, and that the deletion fails is ignored.

The requests run as threads of a pool, one store call at a time. Two facts carry the proof. Each
handler presents its artefact: it succeeds only if the look-up found the row, and after `deletes`
calls the row is gone (`Op.presents`). No handler puts a deleted row back (`Op.keepsSpent`). So
an artefact is redeemed once in every schedule where requests for it exclude each other until
the deletion (`artefact_single_use`), and twice if two of them overlap or the deletion fails
(`artefact_redeemed_twice`).
-/

namespace TptIdentity.Oidc

open Go Store Proc Bridge Pool Table

/-! ## Artefacts -/

/-- Links and reset tokens are named by their hash. -/
inductive Artefact where
  | deviceCode (code : Bytes)
  | requestURI (uri : Bytes)
  | magicLink (hash : Bytes)
  | resetToken (hash : Bytes)
deriving DecidableEq, Repr

def Artefact.Spent : Artefact → DB → Prop
  | .deviceCode code, db => db.deviceCodes.find code = none
  | .requestURI uri, db => db.parRequests.find uri = none
  | .magicLink hash, db => db.magicLinkTokens.find hash = none
  | .resetToken hash, db => db.passwordResetTokens.find hash = none

instance (a : Artefact) (db : DB) : Decidable (a.Spent db) :=
  match a with
  | .deviceCode code => inferInstanceAs (Decidable (db.deviceCodes.find code = none))
  | .requestURI uri => inferInstanceAs (Decidable (db.parRequests.find uri = none))
  | .magicLink hash => inferInstanceAs (Decidable (db.magicLinkTokens.find hash = none))
  | .resetToken hash => inferInstanceAs (Decidable (db.passwordResetTokens.find hash = none))

/-! ## Requests -/

inductive Op where
  | token (r : Request)
  | authorize (r : Request)
  | magicLinkVerify (r : Request)
  | resetConfirm (body : Option PasswordReset)
  /-- A request that redeems nothing. -/
  | other (p : Proc DB Response)

structure Redemption where
  redeemed : Bool
  response : Response

def isDeviceGrant (r : Request) : Bool :=
  r.form.any fun form => grantType form = "urn:ietf:params:oauth:grant-type:device_code"

def authorizePushed (env : Env) (r : Request) : Res (Map Bytes) → Proc DB Response
  | .ok params => authorize env r (r.query.setAll params.entries)
  | .err e => return .oauthError "invalid_request" e.text
  | .panics _ => return internalError

def finishMagicLink (srv : Server) (env : Env) (r : Request) : Res ExternalIdentity → Proc DB Reply
  | .ok ext =>
    finishBridgeAuth srv (env.drop 2) r ext
      (optionalState srv (env.clock 1) (param r.query "state"))
  | _ => return httpError 401 "invalid or expired token"

def isOK : Response → Bool
  | .json 200 _ => true
  | _ => false

namespace Op

variable (p : Provider) (srv : Server)

def artefact : Op → Option Artefact
  | .token r => if isDeviceGrant r then some (.deviceCode (formParam r "device_code")) else none
  | .authorize r =>
    if param r.query "request_uri" = [] then none
    else some (.requestURI (param r.query "request_uri"))
  | .magicLinkVerify r =>
    if param r.query "token" = [] then none
    else some (.magicLink (hashMagicToken srv (param r.query "token")))
  | .resetConfirm body => body.map fun body => .resetToken (encodeHex (srv.sha256 body.token))
  | .other _ => none

def deletes : Op → Nat
  | .token _ => 2
  | .authorize _ => 1
  | .magicLinkVerify _ => 1
  | .resetConfirm _ => 2
  | .other _ => 0

def handler (env : Env) : Op → Proc DB Response
  | .token r => do return (← tokenHandler p env r).response
  | .authorize r => authorizeHandler env r
  | .magicLinkVerify r => do return (← handleMagicLinkVerify srv env r).response
  | .resetConfirm body => do return (← handlePasswordResetConfirm srv env body).response
  | .other q => q

def proc (env : Env) : Op → Proc DB Redemption
  | .token r => do
    let a ← tokenHandler p env r
    return ⟨isDeviceGrant r && a.success, a.response⟩
  | .authorize r =>
    if param r.query "request_uri" = [] then do return ⟨false, ← Oidc.authorize env r r.query⟩
    else do
      let res ← resolvePARRequest (env.clock 0) (param r.query "request_uri")
      return ⟨res.isOk, ← authorizePushed env r res⟩
  | .magicLinkVerify r =>
    if param r.query "token" = [] then return ⟨false, (httpError 400 "missing token").response⟩
    else do
      let res ← verifyToken srv (env.clock 0) (param r.query "token")
      return ⟨res.isOk, (← finishMagicLink srv env r res).response⟩
  | .resetConfirm body => do
    let reply ← handlePasswordResetConfirm srv env body
    return ⟨isOK reply.response, reply.response⟩
  | .other q => do return ⟨false, ← q⟩

theorem response_proc (env : Env) (op : Op) :
    (do return (← op.proc p srv env).response) = op.handler p srv env := by
  cases op with
  | token r =>
    simp only [proc, handler, bind_assoc, pure_bind]
  | authorize r =>
    unfold proc handler authorizeHandler
    dsimp only
    split
    · simp only [bind_assoc, pure_bind, bind_pure]
    · simp only [bind_assoc, pure_bind, bind_pure]
      rfl
  | magicLinkVerify r =>
    unfold proc handler handleMagicLinkVerify
    dsimp only
    split
    · rfl
    · simp only [bind_assoc, pure_bind]
      refine congrArg (_ >>= ·) (funext fun res => ?_)
      cases res <;> rfl
  | resetConfirm body => simp only [proc, handler, bind_assoc, pure_bind]
  | other q => simp only [proc, handler, bind_assoc, pure_bind, bind_pure]

end Op

/-! ## Redeeming -/

section Redeems

variable {ι : Type} {R : ι → DB → DB → Prop} {p : Provider} {srv : Server} {env : Env}

theorem redeems_found {α β γ : Type} {success : α → Bool} {I Spent : DB → Prop} {critical : Nat}
    {find : DB → Option β} {f : Res β → γ} {k : γ → Proc DB α}
    (hrow : ∀ row, Spends success Spent (fun _ => True) critical 1 (k (f (.ok row))))
    (hspent : ∀ db, Spent db → find db = none) (hfail : ∀ e, Fails success (k (f (.err e)))) :
    Redeems success I Spent R critical
      ((do let r ← Proc.select fun db => found (find db); return f r) >>= k) := by
  refine .lookup (fun db _ => ?_) (fun db hdb => ?_) hfail
  · refine ⟨fun _ => True, fun _ _ _ _ _ => trivial, trivial, ?_⟩
    cases find db with
    | none => exact (hfail errNoRows).spends
    | some row => exact hrow row
  · rw [hspent db hdb]
    exact hfail errNoRows

theorem redeems_handleDeviceGrant (form : Map Bytes) :
    Redeems Answer.success (fun _ => True)
      (Artefact.Spent (.deviceCode (param form "device_code"))) R 2
      (handleDeviceGrant p env form) := by
  unfold handleDeviceGrant
  dsimp only
  split
  · exact .refused rfl
  · refine redeems_found (fun dc => ?_) (fun _ hspent => hspent) fun _ => rfl
    have hdelete : ∀ a : Answer, a.success = false → Fails Answer.success (do
          let _ ← deleteDeviceCode (param form "device_code")
          return a) :=
      fun a ha => ⟨fun _ => ha, fun _ => ha⟩
    simp only [Res.wrapErr_ok]
    split
    · exact .failed rfl
    · split
      · exact (hdelete _ rfl).spends
      · split
        · exact (hdelete _ rfl).spends
        · split
          · exact .failed rfl
          · unfold issueDeviceTokens
            split
            · split
              · refine .keep (fun db => ?_) fun e => .failed rfl
                exact .spend fun db _ => (find_delete ..).trans (if_pos rfl)
              · exact .failed rfl
            · exact .failed rfl

theorem redeems_deviceGrant {r : Request} (h : isDeviceGrant r) :
    Redeems Answer.success (fun _ => True)
      (Artefact.Spent (.deviceCode (formParam r "device_code"))) R 2 (tokenHandler p env r) := by
  unfold tokenHandler formParam
  cases hform : r.form with
  | none => exact .refused rfl
  | some form =>
    have hgrant : grantType form = "urn:ietf:params:oauth:grant-type:device_code" := by
      rw [isDeviceGrant, hform] at h
      exact of_decide_eq_true h
    simp only [hgrant]
    exact redeems_handleDeviceGrant form

theorem redeems_resolvePARRequest (now : Int) (uri : Bytes) :
    Redeems Res.isOk (fun _ => True) (Artefact.Spent (.requestURI uri)) R 1
      (resolvePARRequest now uri) := by
  refine redeems_found (fun par => ?_) (fun _ hspent => hspent) fun _ => rfl
  simp only [Res.wrapErr_ok]
  split
  · exact .spend fun db _ => (find_delete ..).trans (if_pos rfl)
  · exact .spend fun db _ => (find_delete ..).trans (if_pos rfl)

theorem redeems_verifyToken (now : Int) (rawToken : Bytes) :
    Redeems Res.isOk (fun _ => True) (Artefact.Spent (.magicLink (hashMagicToken srv rawToken))) R 1
      (verifyToken srv now rawToken) := by
  refine redeems_found (fun t => ?_) (fun _ hspent => hspent) fun _ => rfl
  simp only [Res.wrapErr_ok]
  split
  · exact .spend fun db _ => (find_delete ..).trans (if_pos rfl)
  · exact .spend fun db _ => (find_delete ..).trans (if_pos rfl)

theorem redeems_handlePasswordResetConfirm (body : PasswordReset) :
    Redeems (fun reply : Reply => isOK reply.response) (fun _ => True)
      (Artefact.Spent (.resetToken (encodeHex (srv.sha256 body.token)))) R 2
      (handlePasswordResetConfirm srv env (some body)) := by
  unfold handlePasswordResetConfirm
  dsimp only
  split
  · exact .refused rfl
  · refine redeems_found (fun tok => ?_) (fun _ hspent => hspent) fun _ => rfl
    simp only [Res.wrapErr_ok]
    split
    · exact .keep (fun _ => .failed rfl) fun _ => .failed rfl
    · unfold passwordBridge
      split
      · exact .failed rfl
      · split
        · unfold setPassword
          split
          · exact .failed rfl
          · split
            · refine .keep (fun db => ?_) fun e => .failed rfl
              exact .spend fun db _ => (find_delete ..).trans (if_pos rfl)
            · exact .failed rfl
            · exact .failed rfl
        · exact .failed rfl

theorem Op.presents (op : Op) :
    Presents Redemption.redeemed (fun _ => True) Artefact.Spent R op.deletes (op.artefact srv)
      (op.proc p srv env) := by
  cases op with
  | token r =>
    rw [Op.artefact, Op.proc, Op.deletes]
    split
    · next hdevice =>
      refine presents_some (Redeems.andThen (redeems_deviceGrant hdevice) fun a ha =>
        ⟨_, rfl, ?_⟩)
      rw [hdevice, Bool.true_and, ha]
    · next hdevice =>
      refine presents_none (returns_bind (fun a => ?_) _)
      rw [eq_false_of_ne_true hdevice]
      rfl
  | authorize r =>
    rw [Op.artefact, Op.proc, Op.deletes]
    split
    · refine presents_none (returns_bind (fun _ => ?_) _)
      rfl
    · refine presents_some (Redeems.andThen (redeems_resolvePARRequest ..)
        fun res hres => ?_)
      cases res with
      | ok params => cases hres
      | err e => exact ⟨_, rfl, rfl⟩
      | panics reason => exact ⟨_, rfl, rfl⟩
  | magicLinkVerify r =>
    rw [Op.artefact, Op.proc, Op.deletes]
    split
    · exact presents_none rfl
    · refine presents_some (Redeems.andThen (redeems_verifyToken ..) fun res hres => ?_)
      cases res with
      | ok ext => cases hres
      | err e => exact ⟨_, rfl, rfl⟩
      | panics reason => exact ⟨_, rfl, rfl⟩
  | resetConfirm body =>
    cases body with
    | none => exact presents_none rfl
    | some body =>
      exact presents_some (Redeems.andThen (redeems_handlePasswordResetConfirm body)
        fun reply hreply => ⟨_, rfl, hreply⟩)
  | other q =>
    refine presents_none (returns_bind (fun _ => ?_) q)
    rfl

end Redeems

/-! ## Nothing is put back -/

structure KeepsSpent (db db' : DB) : Prop where
  deviceCodes : ∀ code, db.deviceCodes.find code = none → db'.deviceCodes.find code = none
  parRequests : ∀ uri, db.parRequests.find uri = none → db'.parRequests.find uri = none
  magicLinkTokens : ∀ hash, db.magicLinkTokens.find hash = none →
    db'.magicLinkTokens.find hash = none
  passwordResetTokens : ∀ hash, db.passwordResetTokens.find hash = none →
    db'.passwordResetTokens.find hash = none

theorem KeepsSpent.spent {db db' : DB} (h : KeepsSpent db db') (a : Artefact) :
    a.Spent db → a.Spent db' := by
  cases a with
  | deviceCode code => exact h.deviceCodes code
  | requestURI uri => exact h.parRequests uri
  | magicLink hash => exact h.magicLinkTokens hash
  | resetToken hash => exact h.passwordResetTokens hash

section KeepsSpent

variable {α β : Type}

theorem keepsSpent_quietWrite {db db' : DB} (h : QuietWrite db db') : KeepsSpent db db' := by
  cases h with
  | deletePARRequest uri =>
    exact ⟨fun _ h => h, fun _ h => find_delete_of_none _ h, fun _ h => h, fun _ h => h⟩
  | deleteMagicLinkToken hash =>
    exact ⟨fun _ h => h, fun _ h => h, fun _ h => find_delete_of_none _ h, fun _ h => h⟩
  | _ => exact ⟨fun _ h => h, fun _ h => h, fun _ h => h, fun _ h => h⟩

theorem keepsSpent_of_quiet {R : DB → DB → Prop} {q : Proc DB α}
    (h : q.Uniform QuietWrite R) : q.Within KeepsSpent :=
  h.within.mono fun _ _ => keepsSpent_quietWrite

theorem keepsSpent_of_finish {R : DB → DB → Prop} {q : Proc DB α} (h : q.Uniform FinishWrite R) :
    q.Within KeepsSpent := by
  refine h.within.mono fun db db' h => ?_
  cases h with
  | quiet h => exact keepsSpent_quietWrite h
  | saveSession sess _ => exact ⟨fun _ h => h, fun _ h => h, fun _ h => h, fun _ h => h⟩

variable (p : Provider) (srv : Server) (env : Env)

theorem keepsSpent_handleDeviceGrant (form : Map Bytes) :
    (handleDeviceGrant p env form).Within KeepsSpent := by
  have hdelete : (deleteDeviceCode (param form "device_code")).Within KeepsSpent :=
    within_exec fun _ =>
      ⟨fun _ h => find_delete_of_none _ h, fun _ h => h, fun _ h => h, fun _ h => h⟩
  refine within_ite trivial
    (within_bind (keepsSpent_of_quiet (quiet_lookup fun _ _ _ => rfl)) fun res => ?_)
  split
  · refine within_ite trivial (within_ite ?_ (within_ite ?_ (within_ite trivial ?_)))
    · exact within_bind hdelete fun _ => trivial
    · exact within_bind hdelete fun _ => trivial
    · unfold issueDeviceTokens
      split
      · split
        · refine within_bind ?_ fun saved => ?_
          · exact within_exec fun _ => ⟨fun _ h => h, fun _ h => h, fun _ h => h, fun _ h => h⟩
          · split
            · exact within_bind hdelete fun _ => trivial
            · trivial
        · trivial
      · trivial
  · trivial

theorem keepsSpent_setPassword (rand : Rand) (identifier password : Bytes) :
    (setPassword srv rand identifier password).Within KeepsSpent := by
  refine within_ite trivial ?_
  split
  · exact within_exec fun _ => ⟨fun _ h => h, fun _ h => h, fun _ h => h, fun _ h => h⟩
  · trivial
  · trivial

theorem keepsSpent_handlePasswordResetConfirm (body : Option PasswordReset) :
    (handlePasswordResetConfirm srv env body).Within KeepsSpent := by
  have hdelete : ∀ hash, (deletePasswordResetToken hash).Within KeepsSpent := fun hash =>
    within_exec fun _ =>
      ⟨fun _ h => h, fun _ h => h, fun _ h => h, fun _ h => find_delete_of_none _ h⟩
  have hclear : ∀ key, (clearAuthFailures key).Within KeepsSpent := fun key =>
    keepsSpent_of_quiet (quiet_clearAuthFailures key)
  unfold handlePasswordResetConfirm
  split
  · trivial
  · refine within_ite trivial
      (within_bind (keepsSpent_of_quiet (quiet_lookup fun _ _ _ => rfl)) fun res => ?_)
    split
    · refine within_ite (within_bind (hdelete _) fun _ => trivial) ?_
      unfold passwordBridge
      split
      · trivial
      · refine within_ite (within_bind (keepsSpent_setPassword ..) fun res => ?_) trivial
        split
        · refine within_bind (hdelete _) fun _ => within_bind (hclear _) fun _ => ?_
          exact within_bind (hclear _) fun _ => trivial
        · trivial
        · trivial
    · trivial

theorem Op.keepsSpent (op : Op) (h : (op.artefact srv).isSome) :
    (op.proc p srv env).Within KeepsSpent := by
  cases op with
  | token r =>
    refine within_bind ?_ fun _ => trivial
    rw [Op.artefact] at h
    unfold tokenHandler
    split
    · trivial
    · next form hform =>
      have hgrant : grantType form = "urn:ietf:params:oauth:grant-type:device_code" := by
        by_contra hother
        rw [if_neg (by simp [isDeviceGrant, hform, hother])] at h
        cases h
      simp only [hgrant]
      exact keepsSpent_handleDeviceGrant p env form
  | authorize r =>
    refine within_ite ?_ ?_
    · exact within_bind (keepsSpent_of_finish (uniform_authorize env r _)) fun _ => trivial
    · refine within_bind (keepsSpent_of_quiet (quiet_resolvePARRequest _ _)) fun res => ?_
      refine within_bind ?_ fun _ => trivial
      cases res with
      | ok params => exact keepsSpent_of_finish (uniform_authorize env r _)
      | err e => trivial
      | panics reason => trivial
  | magicLinkVerify r =>
    refine within_ite trivial ?_
    refine within_bind (keepsSpent_of_quiet (quiet_verifyToken srv _ _)) fun res => ?_
    refine within_bind ?_ fun _ => trivial
    cases res with
    | ok ext => exact keepsSpent_of_finish (uniform_finishBridgeAuth srv _ r ext _)
    | err e => trivial
    | panics reason => trivial
  | resetConfirm body =>
    exact within_bind (keepsSpent_handlePasswordResetConfirm srv env body) fun _ => trivial
  | other q => cases h

end KeepsSpent

/-! ## Single use -/

def PutsNothingBack {ι α : Type} [DecidableEq ι] (srv : Server) (op : ι → Op) (pool : Pool ι DB α)
    (e : ι × Option Err) : Prop :=
  (op e.1).artefact srv = none → ∀ j, ∀ a ∈ (op j).artefact srv, 0 < (pool.threads j).calls →
    a.Spent pool.state → a.Spent (pool.step e).state

instance {ι α : Type} [DecidableEq ι] [Fintype ι] (srv : Server) (op : ι → Op) (pool : Pool ι DB α)
    (e : ι × Option Err) : Decidable (PutsNothingBack srv op pool e) :=
  inferInstanceAs (Decidable ((op e.1).artefact srv = none → ∀ j, ∀ a ∈ (op j).artefact srv,
    0 < (pool.threads j).calls → a.Spent pool.state → a.Spent (pool.step e).state))

/-- Device codes, request URIs, magic links and reset tokens are redeemed at most once in every
schedule in which requests for one artefact exclude each other until its deletion, deletions succeed
and no presented artefact is created again. -/
theorem artefact_single_use {ι : Type} [DecidableEq ι] (p : Provider) (srv : Server) (env : ι → Env)
    (op : ι → Op) (db : DB) (schedule : List (ι × Option Err))
    (hschedule : EveryStep step (fun pool e => ExclusiveAt (fun i => (op i).artefact srv)
        (fun i => (op i).deletes) pool e
        ∧ PutsNothingBack srv op pool e)
      (start db fun i => (op i).proc p srv (env i)) schedule) :
    EveryState step (AtMostOnce (fun i => (op i).artefact srv) Redemption.redeemed)
      (start db fun i => (op i).proc p srv (env i)) schedule := by
  refine atMostOnce_of_exclusiveAt Artefact.Spent (I := fun _ => True)
    (R := fun i s s' => ((op i).artefact srv).isSome = true → KeepsSpent s s')
    (fun i => (op i).presents) (fun i => ?_) (fun _ _ _ _ h => h) trivial (fun _ _ h => h.1)
    (fun pool e hP hwithin j a ha hcalls hspent => ?_) hschedule
  · by_cases hkey : ((op i).artefact srv).isSome = true
    · exact ((op i).keepsSpent p srv (env i) hkey).mono fun _ _ h _ => h
    · exact within_of_forall (fun _ _ h => absurd h hkey) _
  · cases hkey : (op e.1).artefact srv with
    | none => exact hP.2 hkey j a ha hcalls hspent
    | some k =>
      rcases state_step hwithin with hsame | ⟨-, hkeeps⟩
      · exact hsame ▸ hspent
      · exact (hkeeps (by rw [hkey]; rfl)).spent a hspent

/-! ### Two requests with one artefact -/

namespace Sample

def approvedDevice : DB :=
  ((saveDeviceCode ⟨"device", "AAAA-AAAA", "tv", [], "did:key:z1", true, false,
    deviceCodeTTL, devicePollInterval, 0⟩).run (fun _ => none) .empty).2

def pollDevice : Op :=
  .token (post [("grant_type", "urn:ietf:params:oauth:grant-type:device_code"),
    ("device_code", "device")])

def linkSent : DB := Bridge.afterCall Bridge.Sample.server .empty Bridge.Sample.requestLink

def followLink : Op :=
  .magicLinkVerify (Bridge.Sample.request [("token", encodeHex (List.replicate 32 1))] [])

def twoOps (db : DB) (op : Bool → Op) : Pool Bool DB Redemption :=
  .start db fun i => (op i).proc provider Bridge.Sample.server (env (if i then 9 else 8))

def Once (op : Bool → Op) : Pool Bool DB Redemption → Prop :=
  AtMostOnce (fun i => (op i).artefact Bridge.Sample.server) Redemption.redeemed

instance (op : Bool → Op) : DecidablePred (Once op) :=
  inferInstanceAs (DecidablePred (AtMostOnce _ _))

def overlapping : List (Bool × Option Err) :=
  calls ([false, true] ++ List.replicate 6 false ++ List.replicate 6 true)

def deletionFails : List (Bool × Option Err) :=
  [(false, none), (false, none), (false, some (.new "disk full" []))]
    ++ calls [true, true, true]

end Sample

open Sample

theorem artefact_single_use_sample :
    EveryState step (Sample.Once fun _ => followLink) (twoOps linkSent fun _ => followLink)
        (calls (List.replicate 7 false ++ [true]))
      ∧ (((calls (List.replicate 7 false ++ [true])).foldl step
          (twoOps linkSent fun _ => followLink)).threads false).result.any
            Redemption.redeemed = true := by
  refine ⟨artefact_single_use provider Bridge.Sample.server _ _ _ _ ?_, ?_⟩
  · decide +kernel
  · decide +kernel

theorem artefact_redeemed_twice :
    ¬EveryState step (Sample.Once fun _ => pollDevice)
        (twoOps approvedDevice fun _ => pollDevice) overlapping
      ∧ ¬EveryState step (Sample.Once fun _ => .authorize carrying)
        (twoOps pushed fun _ => .authorize carrying) overlapping
      ∧ ¬EveryState step (Sample.Once fun _ => followLink)
        (twoOps linkSent fun _ => followLink) overlapping
      ∧ ¬EveryState step (Sample.Once fun _ => pollDevice)
        (twoOps approvedDevice fun _ => pollDevice)
        deletionFails := by
  decide +kernel

end TptIdentity.Oidc
