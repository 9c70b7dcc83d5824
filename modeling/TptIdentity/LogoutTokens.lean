import TptIdentity.TokenSingleUse

/-!
# Logout and refresh tokens

`LogoutHandler` deletes the refresh tokens that sessions name, and none names one
(`everyState_unlinked`), so refresh grants do not notice logouts (`logout_unnoticed`). A token
is refused after a logout if it was used already (`refused_after_logout`).
-/

namespace TptIdentity.Oidc

open Go Store Proc List

/-! ## Sessions name no refresh token -/

def Unlinked (db : DB) : Prop := ∀ sess ∈ db.sessions.rows, sess.refreshTokenHash = []

section Unlinked

variable {p : Provider} {rand : Rand} {db db' : DB}

theorem Unlinked.putSession (h : Unlinked db) {sess : OIDCSession}
    (hsess : sess.refreshTokenHash = []) : Unlinked (db.putSession sess) := by
  intro row hrow
  rcases Table.mem_upsert OIDCSession.id_merge hrow with hrow | rfl | ⟨old, -, -, rfl⟩
  · exact h row hrow
  · exact hsess
  · exact hsess

theorem Unlinked.of_write (h : Unlinked db) (hwrite : StepWrite p rand db db') : Unlinked db' := by
  cases hwrite with
  | token hwrite => exact fun sess hsess => h sess (hwrite.sessions_sublist.subset hsess)
  | login hwrite =>
    cases hwrite with
    | aside haside => exact fun sess hsess => h sess (haside.sessions ▸ hsess)
    | saveClient c => exact h
    | saveSession sess hunlinked => exact h.putSession hunlinked
  | deleteClient id => exact h

end Unlinked

variable {db : DB} {c : Call} (p : Provider) (pl : Platform) (env : Env)

theorem everyState_unlinked (calls : List Call) :
    EveryState (afterCall pl) (fun st => Unlinked st.db) .initial calls := by
  refine everyState_of_everyStep (P := fun _ _ => True) (fun _ h => h) (fun st c h _ => ?_)
    (fun sess hsess => absurd hsess not_mem_nil) (everyStep_of_forall fun _ _ => trivial)
  exact Call.related (R := fun db db' => Unlinked db → Unlinked db') (fun _ h => h)
    (fun hab hbc h => hbc (hab h)) st c (fun _ _ hwrite h => h.of_write hwrite) h

/-! ## Logout leaves the refresh tokens alone -/

structure SameTokens (db db' : DB) : Prop where
  refreshTokens : db'.refreshTokens = db.refreshTokens
  clients : db'.clients = db.clients

theorem SameTokens.refl (db : DB) : SameTokens db db := ⟨rfl, rfl⟩

theorem SameTokens.trans {a b c : DB} (hab : SameTokens a b) (hbc : SameTokens b c) :
    SameTokens a c :=
  ⟨hbc.refreshTokens.trans hab.refreshTokens, hbc.clients.trans hab.clients⟩

theorem within_deleteSessions_unlinked : ∀ {sessions : List OIDCSession},
    (∀ sess ∈ sessions, sess.refreshTokenHash = []) → (deleteSessions sessions).Within SameTokens
  | [], _ => trivial
  | sess :: sessions, h => by
    unfold deleteSessions
    rw [if_neg (not_not_intro (h sess mem_cons_self))]
    refine within_bind (within_exec fun _ => ⟨rfl, rfl⟩) fun _ => ?_
    exact within_deleteSessions_unlinked fun sess hsess => h sess (mem_cons_of_mem _ hsess)

theorem wp_endSessions (subjectDID : Bytes) (h : Unlinked db) :
    (endSessions env subjectDID).wp (fun _ db' => SameTokens db db') db := by
  have hpurge : ∀ db₁, SameTokens db db₁ →
      (do let _ ← purgeExpiredSessions (env.clock 2); return () : Proc DB Unit).wp
        (fun _ db' => SameTokens db db') db₁ :=
    fun db₁ hsame => ⟨⟨hsame.refreshTokens, hsame.clients⟩, fun _ => hsame⟩
  refine (wp_bind ..).mpr ⟨?_, fun e => hpurge db (.refl db)⟩
  refine (wp_bind ..).mpr (wp_mono (fun _ db₁ => hpurge db₁) ?_)
  refine (within_deleteSessions_unlinked fun sess hsess => ?_).wp
    SameTokens.refl SameTokens.trans db
  exact h sess (List.mem_filter.mp ((mem_insertionSort _).mp hsess)).1

theorem wp_logoutHandler (r : Request) (h : Unlinked db) :
    (logoutHandler p env r).wp (fun _ db' => SameTokens db db') db := by
  have hrest : ∀ (uri subject : Bytes) (f : Bool → Answer) (db₁ : DB), SameTokens db db₁ → (do
        let registered ←
          if uri ≠ [] ∧ subject ≠ [] then isRegisteredLogoutURI uri else pure false
        return f registered : Proc DB Answer).wp (fun _ db' => SameTokens db db') db₁ := by
    intro uri subject f db₁ hsame
    refine wp_ite (fun _ => ?_) fun _ => hsame
    exact ⟨hsame, fun _ => hsame⟩
  unfold logoutHandler
  dsimp only
  split
  · exact wp_seq (wp_endSessions env _ h) fun _ db₁ hsame => hrest _ _ _ db₁ hsame
  · exact hrest _ _ _ db (.refl db)

/-! ## The refresh grant after a logout -/

theorem refreshReads_sameTokens : RefreshReads SameTokens :=
  ⟨fun h => h.clients, fun h => h.refreshTokens, fun h _ => ⟨rfl, h.clients⟩⟩

theorem refresh_after_logout {p : Provider} (h : Unlinked db) (env env' : Env) (r r' : Request)
    (form : Map Bytes) (faults faults' : Faults) :
    ((handleRefreshTokenGrant p env' r' form).run faults'
        ((logoutHandler p env r).run faults db).2).1
      = ((handleRefreshTokenGrant p env' r' form).run faults' db).1 :=
  ((does_handleRefreshTokenGrant p refreshReads_sameTokens env' r' form).alike.run
    (wp_run (wp_logoutHandler p env r h) faults) faults').1.symm

/-! ## Logouts between refresh grants -/

inductive Visit where
  | logout (env : Env) (r : Request) (faults : Faults)
  | refresh (env : Env) (r : Request) (form : Map Bytes) (faults : Faults)

def Visit.run (p : Provider) (db : DB) : Visit → Answer × DB
  | .logout env r faults => (logoutHandler p env r).run faults db
  | .refresh env r form faults => (handleRefreshTokenGrant p env r form).run faults db

def Visit.isRefresh : Visit → Bool
  | .logout .. => false
  | .refresh .. => true

/-- The answers of the refresh grants. -/
def refreshAnswers (p : Provider) : DB → List Visit → List Answer
  | _, [] => []
  | db, v :: visits =>
    (if v.isRefresh then [(v.run p db).1] else []) ++ refreshAnswers p (v.run p db).2 visits

theorem Visit.unlinked (h : Unlinked db) (v : Visit) : Unlinked (v.run p db).2 := by
  have hwrite : ∀ (env : Env) {q : Proc DB Answer}, q.Within (TokenWrite p env.rand) →
      ∀ faults, Unlinked (q.run faults db).2 := fun env q hq faults =>
    wp_run (Within.wp (R := fun db db' => Unlinked db → Unlinked db') (fun _ h => h)
      (fun hab hbc h => hbc (hab h)) (hq.mono fun _ _ hw h => h.of_write (.token hw)) db) faults h
  cases v with
  | logout env r faults => exact hwrite env (does_logoutHandler p env r).within faults
  | refresh env r form faults =>
    exact hwrite env
      (does_handleRefreshTokenGrant p refreshReads_sameTokens env r form).within faults

theorem refreshAnswers_filter (p : Provider) : ∀ {visits : List Visit} {db db' : DB},
    Unlinked db' → SameTokens db db' →
    refreshAnswers p db' visits = refreshAnswers p db (visits.filter Visit.isRefresh)
  | [], _, _, _, _ => rfl
  | .logout env r faults :: visits, db, db', h, hsame => by
    have hlogout : SameTokens db' ((logoutHandler p env r).run faults db').2 :=
      wp_run (wp_logoutHandler p env r h) faults
    change refreshAnswers p (Visit.run p db' (.logout env r faults)).2 visits
      = refreshAnswers p db (visits.filter Visit.isRefresh)
    exact refreshAnswers_filter p (Visit.unlinked p h _) (hsame.trans hlogout)
  | .refresh env r form faults :: visits, db, db', h, hsame => by
    obtain ⟨hanswer, hafter⟩ := (does_handleRefreshTokenGrant p refreshReads_sameTokens env r
      form).alike.run hsame faults
    exact congrArg₂ (fun a rest => [a] ++ rest) hanswer.symm
      (refreshAnswers_filter p (Visit.unlinked p h (.refresh env r form faults)) hafter)

/-- Logouts change nothing in how refresh tokens are answered. -/
theorem logout_unnoticed (pl : Platform) (calls : List Call) (visits : List Visit) :
    let db := (calls.foldl (afterCall pl) .initial).db
    refreshAnswers pl.provider db visits
      = refreshAnswers pl.provider db (visits.filter Visit.isRefresh) :=
  refreshAnswers_filter pl.provider (everyState_last (everyState_unlinked pl calls)) (.refl _)

/-! ## Runs -/

def Call.loggedOut (c : Call) : Bytes :=
  match c.step with
  | .logout r => hintedSubject pl.provider (c.env.clock 0) (param r.query "id_token_hint")
  | _ => []

def tokensOf (db : DB) (did : Bytes) : List Bytes :=
  if did = [] then []
  else (db.refreshTokens.rows.filter fun t => t.subjectDID = did).map RefreshToken.hash

structure Watched where
  st : State
  ended : List Bytes

def Watched.next (w : Watched) (c : Call) : Watched :=
  ⟨afterCall pl w.st c, w.ended ++ tokensOf w.st.db (c.loggedOut pl)⟩

def Call.refreshHash (c : Call) : Option Bytes :=
  match c.step with
  | .token r =>
    r.form.bind fun form =>
      if grantType form = "refresh_token" then
        some (hashToken pl.provider (param form "refresh_token"))
      else none
  | _ => none

/-- A refresh token that a logout should have ended is not accepted. -/
def Ended (w : Watched) (c : Call) : Prop :=
  ∀ hash ∈ c.refreshHash pl, hash ∈ w.ended → (c.answer pl w.st).success = false
deriving Decidable

/-- Whoever is logged out has no unused refresh token, and none that ended is drawn again. -/
def UsedUp (w : Watched) (c : Call) : Prop :=
  (∀ hash ∈ tokensOf w.st.db (c.loggedOut pl), ¬Live w.st.db hash)
    ∧ ∀ hash ∈ (w.next pl c).ended, ¬Draws pl.provider c.env.rand hash
deriving Decidable

section Runs

variable {pl : Platform}

theorem not_success_of_not_live {hash : Bytes} (hhash : c.refreshHash pl = some hash) {st : State}
    (hlive : ¬Live st.db hash) : (c.answer pl st).success = false := by
  obtain ⟨env, faults, step⟩ := c
  unfold Call.refreshHash at hhash
  split at hhash
  · next r hstep =>
    obtain rfl : step = .token r := hstep
    obtain ⟨form, hform, hhash⟩ := Option.bind_eq_some_iff.mp hhash
    split at hhash
    · next hgrant =>
      have hasks : AsksFor r "refresh_token" := by
        intro form' hform'
        rw [Option.some.inj (hform'.symm.trans hform), hgrant]
      have hspent : RefreshSpent pl.provider (formParam r "refresh_token") st.db := by
        rw [formParam_eq hform, RefreshSpent, Option.some.inj hhash]
        exact hlive
      rw [Call.answer, run_token]
      exact (redeems_refreshToken (ι := Unit) (R := fun _ _ _ => True) hasks).run_of_spent hspent
        faults
    · cases hhash
  · cases hhash

theorem not_live_next {w : Watched} (h : ∀ hash ∈ w.ended, ¬Live w.st.db hash)
    (hused : UsedUp pl w c) : ∀ hash ∈ (w.next pl c).ended, ¬Live (w.next pl c).st.db hash := by
  intro hash hhash hlive
  rcases Call.live hlive with hbefore | hdrawn
  · rcases List.mem_append.mp hhash with hold | hnew
    · exact h hash hold hbefore
    · exact hused.1 hash hnew hbefore
  · exact hused.2 hash hhash hdrawn

/-- The refresh tokens of a logged-out subject are refused, in every run that logs nobody out who
has an unused one. -/
theorem refused_after_logout (pl : Platform) (st : State) (calls : List Call)
    (hused : EveryStep (Watched.next pl) (UsedUp pl) ⟨st, []⟩ calls) :
    EveryStep (Watched.next pl) (Ended pl) ⟨st, []⟩ calls := by
  refine everyStep_of_everyStep (I := fun w => ∀ hash ∈ w.ended, ¬Live w.st.db hash)
    (fun w c h _ hash hhash hended => not_success_of_not_live hhash (h hash hended))
    (fun w c h hP => not_live_next h hP) (fun hash hhash => absurd hhash not_mem_nil) hused

end Runs

namespace Sample

def idToken : Bytes :=
  (((signIn.foldl (afterCall platform) .initial).signed.map SignedToken.token).head?).getD []

def logOut : Call :=
  call 6 (.logout (Bridge.Sample.request [("id_token_hint", idToken)] []))

def refreshCall (n : UInt8) : Call := call n (.token refresh)

def revokeSecond : Call :=
  call 5 (.revoke (post [("token", encodeHex (List.replicate 32 4))]))

end Sample

open Sample

theorem refused_after_logout_sample :
    EveryStep (Watched.next platform) (Ended platform) ⟨.initial, []⟩
        (signIn ++ [refreshCall 4, revokeSecond, logOut, refreshCall 7])
      ∧ ((signIn ++ [refreshCall 4, revokeSecond, logOut]).foldl
          (Watched.next platform) ⟨.initial, []⟩).ended
        = [hashToken provider (encodeHex (List.replicate 32 3))] :=
  ⟨refused_after_logout _ _ _ (by decide +kernel), by decide +kernel⟩

theorem refreshed_after_logout :
    logOut.loggedOut platform = "did:key:z1"
      ∧ ¬EveryStep (Watched.next platform) (Ended platform) ⟨.initial, []⟩
        (signIn ++ [logOut, refreshCall 7]) := by
  decide +kernel

end TptIdentity.Oidc
