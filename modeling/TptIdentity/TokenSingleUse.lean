import TptIdentity.GoPool
import TptIdentity.ProviderRuns

/-!
# Single use of codes and refresh tokens

A code is read with the first call and deleted with the fourth, a refresh token read with the
first and marked with the third. Each is redeemed once in schedules where requests for it do not
overlap, no deletion fails and no presented token is drawn again (`code_single_use`,
`refreshToken_single_use`).
-/

namespace TptIdentity.Oidc

open Go Store Proc Pool

def formParam (r : Request) (name : String) : Bytes := r.form.elim [] (param · name)

theorem formParam_eq {r : Request} {form : Map Bytes} (hform : r.form = some form) (name : String) :
    formParam r name = param form name := by
  rw [formParam, hform]
  rfl

def AsksFor (r : Request) (grant : String) : Prop :=
  ∀ form, r.form = some form → grantType form = str grant

theorem takes_validateClientAuth (sha256 : Bytes → Bytes) (r : Request) (form : Map Bytes)
    (id : Bytes) : (validateClientAuth sha256 r form id).Takes 1 := by
  have hget : (getClient id).Takes 1 := ⟨fun _ => rfl, fun _ => rfl⟩
  refine takes_bind (n := 0) (fun res => ?_) hget
  split
  · split
    · rfl
    · split
      · rfl
      · split <;> rfl
  · rfl

/-! ## Authorization codes -/

def CodesUnique (db : DB) : Prop := (db.sessions.rows.map OIDCSession.code).Nodup
deriving Decidable

def CodeSpent (code : Bytes) (db : DB) : Prop := ∀ sess ∈ db.sessions.rows, sess.code ≠ code

def CodeOf (code id : Bytes) (db : DB) : Prop :=
  ∀ sess ∈ db.sessions.rows, sess.code = code → sess.id = id

section Codes

variable {p : Provider} {env : Env} {r : Request} {form : Map Bytes} {code id : Bytes} {db : DB}

theorem codeOf_of_find (hcodes : CodesUnique db) {sess : OIDCSession}
    (hfind : db.sessionByCode code = some sess) : CodeOf code sess.id db := by
  intro row hrow hcode
  have hsess : sess.code = code := by simpa using List.find?_some hfind
  have hmem : sess ∈ db.sessions.rows := List.mem_of_find?_eq_some hfind
  exact congrArg OIDCSession.id (List.inj_on_of_nodup_map hcodes hrow hmem (hcode.trans hsess.symm))

theorem codeSpent_delete (h : CodeOf code id db) :
    CodeSpent code { db with sessions := db.sessions.delete id } := by
  intro sess hsess hcode
  obtain ⟨hmem, hne⟩ := Table.mem_delete.mp hsess
  exact hne (h sess hmem hcode)

theorem sessionByCode_of_spent (h : CodeSpent code db) : db.sessionByCode code = none :=
  List.find?_eq_none.mpr fun sess hsess => by simpa using h sess hsess

theorem spends_issueSessionTokens (sess : OIDCSession) :
    Spends Answer.success (CodeSpent code) (CodeOf code sess.id) 3 2
      (issueSessionTokens p env sess) := by
  unfold issueSessionTokens
  split
  · split
    · split
      · refine .keep (fun db => ?_) fun e => .failed rfl
        exact (.spend fun db h => codeSpent_delete h)
      · exact .failed rfl
    · exact .failed rfl
  · exact .failed rfl

theorem redeems_handleAuthCodeExchange {ι : Type} {rand : ι → Rand} :
    Redeems Answer.success CodesUnique (CodeSpent (param form "code"))
      (fun i => TokenWrite p (rand i)) 3 (handleAuthCodeExchange p env r form) := by
  unfold handleAuthCodeExchange
  dsimp only
  split
  · exact .refused rfl
  · refine .lookup (fun db hcodes => ?_) (fun db hspent => ?_) fun e => rfl
    · cases hfind : db.sessionByCode (param form "code") with
      | none => exact ⟨fun _ => True, fun _ _ _ _ _ => trivial, trivial, .failed rfl⟩
      | some sess =>
        refine ⟨CodeOf (param form "code") sess.id, ?_, codeOf_of_find hcodes hfind, ?_⟩
        · intro i s s' hwrite h row hrow
          exact h row (hwrite.sessions_sublist.subset hrow)
        · simp only [found, Res.wrapErr_ok]
          iterate 5
            split
            · exact .failed rfl
          refine .bind (takes_validateClientAuth ..) fun res => ?_
          split
          · exact spends_issueSessionTokens sess
          · exact .failed rfl
          · exact .failed rfl
    · rw [sessionByCode_of_spent hspent]
      rfl

theorem redeems_code {ι : Type} {rand : ι → Rand} (h : AsksFor r "authorization_code") :
    Redeems Answer.success CodesUnique (CodeSpent (formParam r "code"))
      (fun i => TokenWrite p (rand i)) 3 (tokenHandler p env r) := by
  unfold tokenHandler formParam
  split
  · exact .refused rfl
  · next form hform =>
    rw [if_pos (h form hform), hform]
    exact redeems_handleAuthCodeExchange

end Codes

/-- A code is redeemed at most once in every schedule in which the requests with one code exclude
each other from lookup to answer and the deletion does not fail. -/
theorem code_single_use {ι : Type} [DecidableEq ι] (p : Provider) (env : ι → Env) (r : ι → Request)
    (hgrant : ∀ i, AsksFor (r i) "authorization_code") {db : DB} (hcodes : CodesUnique db)
    (schedule : List (ι × Option Err))
    (hexcl : EveryStep step (Exclusive (fun i => formParam (r i) "code") 3)
      (start db fun i => tokenHandler p (env i) (r i)) schedule) :
    EveryState step (AtMostOnce (fun i => formParam (r i) "code") Answer.success)
      (start db fun i => tokenHandler p (env i) (r i)) schedule := by
  refine atMostOnce_of_exclusive CodeSpent (I := CodesUnique)
    (R := fun i => TokenWrite p (env i).rand) (fun i => redeems_code (hgrant i))
    (fun i => (does_tokenHandler p (env i) (r i)).within) ?_ hcodes (fun _ _ h => h) ?_ hexcl
  · intro i s s' hwrite h
    exact h.sublist (hwrite.sessions_sublist.map _)
  · intro pool e _ _ j _ s s' hwrite hspent sess hsess
    exact hspent sess (hwrite.sessions_sublist.subset hsess)

/-! ### Two requests with one code -/

namespace Sample

def verifier : Bytes := "verifier"

def authorize (subjectDID : Bytes) : Bridge.Step :=
  .authorize (Bridge.Sample.request
    [("client_id", Bridge.Sample.clientID), ("redirect_uri", Bridge.Sample.redirectURI),
      ("state", "s"), ("code_challenge", encodeB64 verifier),
      ("code_challenge_method", "S256")] [("X-Subject-DID", subjectDID)])

def authorized : DB :=
  [Bridge.Sample.register, Bridge.Sample.call 2 (authorize "did:key:z1")].foldl
    (Bridge.afterCall Bridge.Sample.server) .empty

def redeem : Request :=
  post [("code", encodeHex (List.replicate 32 2)), ("code_verifier", verifier)]

def signIn : List Call :=
  [call 1 (.login 0 Bridge.Sample.register.step),
    call 2 (.login 0 (authorize "did:key:z1")), call 3 (.token redeem)]

def redeemers : Pool Bool DB Answer :=
  .start authorized fun i => tokenHandler provider (env (if i then 4 else 3)) redeem

def calls (order : List Bool) : List (Bool × Option Err) := order.map fun i => (i, none)

end Sample

open Sample

theorem asksFor_redeem : AsksFor redeem "authorization_code" := by
  rintro form ⟨⟩
  decide

theorem code_single_use_sample :
    EveryState step (AtMostOnce (fun _ => formParam redeem "code") Answer.success)
        redeemers (calls [false, false, false, false, true])
      ∧ (((calls [false, false, false, false, true]).foldl step
          redeemers).threads false).result.any Answer.success = true := by
  refine ⟨code_single_use provider _ _ (fun _ => asksFor_redeem) ?_ _ ?_, ?_⟩
  · decide
  · decide
  · decide

theorem code_redeemed_twice :
    CodesUnique authorized
      ∧ ¬EveryState step (AtMostOnce (fun _ => formParam redeem "code") Answer.success)
        redeemers (calls [false, true, false, false, false, true, true, true])
      ∧ ∀ i, (((calls [false, true, false, false, false, true, true, true]).foldl step
          redeemers).threads i).result.any Answer.success = true := by
  decide

/-! ## Refresh tokens -/

section RefreshTokens

variable {p : Provider} {env : Env} {r : Request} {form : Map Bytes}

def RefreshSpent (p : Provider) (raw : Bytes) (db : DB) : Prop := ¬Live db (hashToken p raw)

theorem spends_rotateRefreshToken {raw : Bytes} {rt : RefreshToken} {J : DB → Prop}
    (hhash : rt.hash = hashToken p raw) :
    Spends Answer.success (RefreshSpent p raw) J 2 2 (rotateRefreshToken p env rt) := by
  refine .spend fun db _ => ?_
  rw [RefreshSpent, ← hhash]
  exact not_live_putRefreshToken (t := { rt with usedAt := some (env.clock 1) }) rfl

theorem redeems_handleRefreshTokenGrant {ι : Type} {R : ι → DB → DB → Prop} :
    Redeems Answer.success (fun _ => True) (RefreshSpent p (param form "refresh_token")) R 2
      (handleRefreshTokenGrant p env r form) := by
  unfold handleRefreshTokenGrant
  dsimp only
  split
  · exact .refused rfl
  · refine .lookup (fun db _ => ?_) (fun db hspent => ?_) fun e => rfl
    · refine ⟨fun _ => True, fun _ _ _ _ _ => trivial, trivial, ?_⟩
      cases hfind : db.refreshTokens.find (hashToken p (param form "refresh_token")) with
      | none => exact .failed rfl
      | some rt =>
        simp only [found, Res.wrapErr_ok]
        split
        · exact .keep (fun _ => .failed rfl) fun _ => .failed rfl
        · split
          · exact .keep (fun _ => .failed rfl) fun _ => .failed rfl
          · refine .bind (takes_validateClientAuth ..) fun res => ?_
            split
            · exact spends_rotateRefreshToken (Table.key_of_find hfind)
            · exact .failed rfl
            · exact .failed rfl
    · cases hfind : db.refreshTokens.find (hashToken p (param form "refresh_token")) with
      | none => exact rfl
      | some rt =>
        have hused : rt.usedAt.isSome :=
          Option.isSome_iff_ne_none.mpr fun hnone => hspent ⟨rt, hfind, hnone⟩
        simp only [found, Res.wrapErr_ok, hused, if_true]
        split
        · exact ⟨fun _ => rfl, fun _ => rfl⟩
        · exact ⟨fun _ => rfl, fun _ => rfl⟩

theorem redeems_refreshToken {ι : Type} {R : ι → DB → DB → Prop} (h : AsksFor r "refresh_token") :
    Redeems Answer.success (fun _ => True) (RefreshSpent p (formParam r "refresh_token")) R 2
      (tokenHandler p env r) := by
  have hother : str "refresh_token" ≠ str "authorization_code" := by decide
  unfold tokenHandler formParam
  split
  · exact .refused rfl
  · next form hform =>
    rw [h form hform, if_neg hother, if_pos rfl, hform]
    exact redeems_handleRefreshTokenGrant

end RefreshTokens

/-- A refresh token is exchanged at most once in every schedule with exclusive requests, in which no
request draws a token that is presented. -/
theorem refreshToken_single_use {ι : Type} [DecidableEq ι] (p : Provider) (env : ι → Env)
    (r : ι → Request) (hgrant : ∀ i, AsksFor (r i) "refresh_token") (db : DB)
    (schedule : List (ι × Option Err))
    (hexcl : EveryStep step
      (fun pool e => Exclusive (fun i => formParam (r i) "refresh_token") 2 pool e
        ∧ ((pool.threads e.1).result.isNone = true → ∀ j, 0 < (pool.threads j).calls →
          ¬Draws p (env e.1).rand (hashToken p (formParam (r j) "refresh_token"))))
      (start db fun i => tokenHandler p (env i) (r i)) schedule) :
    EveryState step (AtMostOnce (fun i => formParam (r i) "refresh_token") Answer.success)
      (start db fun i => tokenHandler p (env i) (r i)) schedule := by
  refine atMostOnce_of_exclusive (RefreshSpent p) (I := fun _ => True)
    (R := fun i => TokenWrite p (env i).rand) (fun i => redeems_refreshToken (hgrant i))
    (fun i => (does_tokenHandler p (env i) (r i)).within) (fun _ _ _ _ h => h) trivial
    (fun _ _ h => h.1) ?_ hexcl
  intro pool e hP hrunning j hj s s' hwrite hspent hlive
  rcases hwrite.live hlive with h | h
  · exact hspent h
  · exact hP.2 hrunning j hj h

/-! ### Two requests with one refresh token -/

namespace Sample

def exchanged : DB := ((tokenHandler provider (env 3) redeem).run (fun _ => none) authorized).2

def refresh : Request :=
  post [("grant_type", "refresh_token"), ("refresh_token", encodeHex (List.replicate 32 3))]

def refreshers : Pool Bool DB Answer :=
  .start exchanged fun i => tokenHandler provider (env (if i then 5 else 4)) refresh

end Sample

theorem asksFor_refresh : AsksFor refresh "refresh_token" := by
  rintro form ⟨⟩
  decide

theorem refreshToken_single_use_sample :
    EveryState step (AtMostOnce (fun _ => formParam refresh "refresh_token") Answer.success)
        refreshers (calls [false, false, false, false, true, true])
      ∧ (((calls [false, false, false, false, true, true]).foldl step
          refreshers).threads false).result.any Answer.success = true := by
  refine ⟨refreshToken_single_use provider _ _ (fun _ => asksFor_refresh) _ _ ?_, ?_⟩
  · decide
  · decide

theorem refreshToken_exchanged_twice :
    ¬EveryState step (AtMostOnce (fun _ => formParam refresh "refresh_token") Answer.success)
        refreshers (calls [false, true, false, false, false, true, true, true])
      ∧ ∀ i, (((calls [false, true, false, false, false, true, true, true]).foldl step
          refreshers).threads i).result.any Answer.success = true := by
  decide +kernel

end TptIdentity.Oidc
