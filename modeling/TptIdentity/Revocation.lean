import TptIdentity.TokenSingleUse

/-!
# Revoked access tokens

A revoked access token is refused by introspection only (`rejected_iff_expired`), and there
another encoding of its signature is not revoked, and it is forgotten in the second in which it
expires (`introspect_inactive_iff`).
-/

namespace TptIdentity.Oidc

open Go Store Proc

/-! ## Checking one token at several times -/

section Verify

variable {p : Provider} {token : Bytes} {claims : Claims} {now : Int}

theorem verify_later (h : p.verify now token = .ok claims) {now' : Int} {claims' : Claims} :
    p.verify now' token = .ok claims' ↔ claims' = claims ∧ unix now' ≤ claims.expiresAt.toInt := by
  obtain ⟨header, payload, sigText, sig, hsplit, hsig, hvalid, hparse, -⟩ := verify_eq_ok.mp h
  rw [verify_eq_ok]
  constructor
  · rintro ⟨_, _, _, _, -, -, -, hparse', hexp⟩
    obtain rfl := Res.ok.inj (hparse'.symm.trans hparse)
    exact ⟨rfl, hexp⟩
  · rintro ⟨rfl, hexp⟩
    exact ⟨header, payload, sigText, sig, hsplit, hsig, hvalid, hparse, hexp⟩

end Verify

/-! ## The consumers of access tokens -/

def stepUpToken (r : Request) : Bytes :=
  if param r.query "access_token" = [] then bearerToken (param r.header "Authorization")
  else param r.query "access_token"

def Step.Uses (token : Bytes) : Step → Prop
  | .userinfo r => bearerToken (param r.header "Authorization") = token
  | .stepUp r => stepUpToken r = token
  | .token r => AsksFor r "urn:ietf:params:oauth:grant-type:token-exchange"
      ∧ formParam r "subject_token" = token
  | _ => False

structure Rejected (pl : Platform) (st : State) (token : Bytes) (now : Int) : Prop where
  endpoints : ∀ c : Call, c.step.Uses token → c.env.clock 0 = now →
    (c.answer pl st).success = false
  bearer : ∀ header, bearerToken header = token →
    (subjectFromBearer pl.provider now header).isOk = false

variable {st : State} {c : Call}

variable {r : Request} {token : Bytes} {pl : Platform} {expiry : Int} {o : Option Int} (now : Int)

section Consumers

variable {p : Provider} {env : Env} {r : Request} {form : Map Bytes}

theorem userinfo_verified (h : (userinfoHandler p env r).success) :
    ∃ claims, p.verify (env.clock 0) (bearerToken (param r.header "Authorization"))
      = .ok claims := by
  unfold userinfoHandler at h
  dsimp only at h
  split at h
  · cases h
  · split at h
    · next claims hclaims => exact ⟨claims, hclaims⟩
    · cases h
    · cases h

theorem stepUp_verified (h : (stepUpHandler p env r).success) :
    ∃ claims, p.verify (env.clock 0) (stepUpToken r) = .ok claims := by
  change (if stepUpToken r = [] then _ else _ : Answer).success = true at h
  split at h
  · cases h
  · split at h
    · next claims hclaims => exact ⟨claims, hclaims⟩
    · cases h
    · cases h

theorem wp_exchange_verified (db : DB) :
    (handleTokenExchange p env r form).wp (fun a _ => a.success →
        ∃ claims, p.verify (env.clock 0) (param form "subject_token") = .ok claims) db := by
  refine wp_ite (fun _ => wp_unsuccessful rfl) fun _ => ?_
  refine wp_ite (fun _ => wp_unsuccessful rfl) fun _ => ?_
  refine wp_ite (fun _ => wp_unsuccessful rfl) fun _ => ?_
  split
  · next claims hclaims => exact wp_mono (fun _ _ _ _ => ⟨claims, hclaims⟩) (wp_true _ _)
  · exact wp_unsuccessful rfl
  · exact wp_unsuccessful rfl

theorem subjectFromBearer_isOk_iff {now : Int} {header : Bytes} :
    (subjectFromBearer p now header).isOk
      ↔ ∃ claims, p.verify now (bearerToken header) = .ok claims := by
  simp only [Res.isOk_iff, subjectFromBearer_eq_ok]
  constructor
  · rintro ⟨_, claims, hclaims, -⟩
    exact ⟨claims, hclaims⟩
  · rintro ⟨claims, hclaims⟩
    exact ⟨claims.subject, claims, hclaims, rfl⟩

theorem Step.Uses.verified (huses : c.step.Uses token) (h : (c.answer pl st).success) :
    ∃ claims, pl.provider.verify (c.env.clock 0) token = .ok claims := by
  obtain ⟨env, faults, step⟩ := c
  cases step with
  | userinfo r =>
    obtain rfl : bearerToken (param r.header "Authorization") = token := huses
    exact userinfo_verified h
  | stepUp r =>
    obtain rfl : stepUpToken r = token := huses
    exact stepUp_verified h
  | token r =>
    obtain ⟨hasks, rfl⟩ := huses
    rw [Call.answer, run_token] at h
    cases hform : r.form with
    | none =>
      rw [tokenHandler, hform] at h
      cases h
    | some form =>
      have hgrant := hasks form hform
      have hhandler : tokenHandler pl.provider env r
          = handleTokenExchange pl.provider env r form := by
        rw [tokenHandler, hform]
        simp only [hgrant]
        rfl
      rw [hhandler] at h
      rw [formParam_eq hform]
      exact wp_run (wp_exchange_verified st.db) faults h
  | _ => exact huses.elim

end Consumers

/-! ## Revocation is not asked for -/

structure RevokesAccess (pl : Platform) (st : State) (c : Call) (token : Bytes) (claims : Claims) :
    Prop where
  step : ∃ r, c.step = .revoke r ∧ formParam r "token" = token
  accepted : (c.answer pl st).success = true
  valid : pl.provider.verify (c.env.clock 0) token = .ok claims
  access : claims.tokenType = "access"

/-- A revoked access token is rejected exactly once it has expired; the revocation adds nothing. -/
theorem rejected_iff_expired {st : State} {c : Call} {token : Bytes} {claims : Claims}
    (h : RevokesAccess pl st c token claims) (calls : List Call) (now : Int) :
    Rejected pl (calls.foldl (afterCall pl) (afterCall pl st c)) token now
      ↔ claims.expiresAt.toInt < unix now := by
  constructor
  · intro hrejected
    by_contra hvalid
    have hok := (verify_later h.valid).mpr ⟨rfl, not_lt.mp hvalid⟩
    have hbearer := hrejected.bearer ("Bearer " ++ token) (bearerToken_append token)
    have hsome := subjectFromBearer_isOk_iff.mpr
      ⟨claims, (congrArg _ (bearerToken_append token)).trans hok⟩
    rw [hbearer] at hsome
    cases hsome
  · intro hexpired
    have hno : ∀ claims', pl.provider.verify now token ≠ .ok claims' := by
      intro claims' hok
      exact absurd ((verify_later h.valid).mp hok).2 (not_le.mpr hexpired)
    refine ⟨fun c' huses hnow => eq_false_of_ne_true fun hsuccess => ?_, fun header hheader =>
      eq_false_of_ne_true fun hsome => ?_⟩
    · obtain ⟨claims', hok⟩ := huses.verified hsuccess
      exact hno claims' (hnow ▸ hok)
    · obtain ⟨claims', hok⟩ := subjectFromBearer_isOk_iff.mp hsome
      exact hno claims' (hheader ▸ hok)

namespace Sample

def accessToken : Bytes :=
  (((call 3 (.token redeem)).answer platform (restarted authorized)).signed.find? fun signed =>
    signed.path = .access .code).elim [] SignedToken.token

def revokeAccess : Request :=
  post [("token", accessToken), ("token_type_hint", "access_token")]

def revocation : Call := call 0 (.revoke revokeAccess)

def afterRevocation : State := afterCall platform (restarted exchanged) revocation

def getUserinfo : Request :=
  { post [] with
    header := Map.empty.setAll [("Authorization", "Bearer " ++ accessToken)] }

end Sample

open Sample

theorem formParam_revokeAccess : formParam revokeAccess "token" = accessToken := by
  have hform : ∀ token, formParam (post [("token", token),
      ("token_type_hint", "access_token")]) "token" = token := fun _ => rfl
  exact hform accessToken

theorem verify_accessToken :
    ∃ claims, provider.verify 0 accessToken = .ok claims
      ∧ claims.tokenType = "access" ∧ claims.expiresAt = 3600 := by
  obtain ⟨claims, hclaims, hvalues⟩ := Option.map_eq_some_iff.mp
    (show (provider.verify 0 accessToken).toOption.map
        (fun claims => (claims.tokenType, claims.expiresAt)) = some (str "access", 3600) by
      decide +kernel)
  obtain ⟨htype, hexpires⟩ := Prod.mk.inj hvalues
  exact ⟨claims, Res.toOption_eq_some.mp hclaims, htype, hexpires⟩

theorem revokesAccess :
    ∃ claims, RevokesAccess platform (restarted exchanged) revocation accessToken claims := by
  obtain ⟨claims, hvalid, htype, -⟩ := verify_accessToken
  exact ⟨claims, ⟨revokeAccess, rfl, formParam_revokeAccess⟩, by decide +kernel, hvalid, htype⟩

theorem rejected_iff_expired_sample :
    ∃ claims, RevokesAccess platform (restarted exchanged) revocation accessToken claims
      ∧ ∀ now, Rejected platform afterRevocation accessToken now
        ↔ claims.expiresAt.toInt < unix now := by
  obtain ⟨claims, h⟩ := revokesAccess
  exact ⟨claims, h, rejected_iff_expired h []⟩

theorem revoked_token_accepted :
    (∃ claims, RevokesAccess platform (restarted exchanged) revocation accessToken claims)
      ∧ ¬Rejected platform afterRevocation accessToken 0 := by
  refine ⟨revokesAccess, fun hrejected => ?_⟩
  have huses : (call 0 (.userinfo getUserinfo)).step.Uses accessToken := by
    have hheader : ∀ token, bearerToken (param (Map.empty.setAll [("Authorization",
        "Bearer " ++ token)]) "Authorization") = token := fun _ => rfl
    exact hheader accessToken
  have haccepted : ((call 0 (.userinfo getUserinfo)).answer platform
      afterRevocation).success = true := by
    decide +kernel
  rw [hrejected.endpoints _ huses rfl] at haccepted
  cases haccepted

/-! ## What is remembered -/

inductive Memory (p : Provider) (env : Env) : Step → Map Int → Map Int → Prop where
  | kept (step : Step) (m : Map Int) : Memory p env step m m
  | recorded (r : Request) (m : Map Int) :
      Memory p env (.revoke r) m (revokeAccessToken p (env.clock 0) (formParam r "token") m)
  | asked (r : Request) (m : Map Int) :
      Memory p env (.introspect r) m
        (isAccessTokenRevoked p (env.clock 1) (formParam r "token") m).2

section Memory

variable {p : Provider} {env : Env} {r : Request} {m m' : Map Int}

theorem wp_revokeHandler {Q : Answer × Map Int → DB → Prop} {db : DB}
    (hrefuses : ∀ a : Answer, a.success = false → ∀ db', Q (a, m) db')
    (hrevokes : ∀ form, r.form = some form → ∀ clientID db',
      (revokeToken p env form clientID m).wp Q db') :
    (revokeHandler p env r m).wp Q db := by
  unfold revokeHandler
  split
  · exact hrefuses _ rfl db
  · next form hform =>
    refine wp_ite (fun _ => hrefuses _ rfl db) fun _ => ?_
    refine wp_ite (fun _ => hrevokes form hform _ db) fun _ => ?_
    refine wp_seq (wp_true _ db) fun res db' _ => ?_
    split
    · exact hrevokes form hform _ db'
    · exact hrefuses _ rfl db'
    · exact hrefuses _ rfl db'

theorem memory_revokeToken {form : Map Bytes} (hform : r.form = some form) (clientID : Bytes)
    (db : DB) :
    (revokeToken p env form clientID m).wp (fun out _ => Memory p env (.revoke r) m out.2) db := by
  have hpure : ∀ (b : Bool) (db' : DB), (pure ({ response := .json 200 (.obj []) },
        if b = false ∧ (param form "token_type_hint" = []
          ∨ param form "token_type_hint" = "access_token")
        then revokeAccessToken p (env.clock 0) (param form "token") m else m)
        : Proc DB (Answer × Map Int)).wp (fun out _ => Memory p env (.revoke r) m out.2) db' := by
    intro b db'
    split
    · exact formParam_eq hform "token" ▸ .recorded r m
    · exact .kept _ m
  refine wp_ite (fun _ => ?_) fun _ => hpure false db
  exact wp_seq (wp_true _ db) fun b db' _ => hpure b db'

theorem introspect_memory : Memory p env (.introspect r) m (introspectHandler p env r m).2 := by
  unfold introspectHandler
  split
  · exact .kept _ m
  · next form hform =>
    have htoken := formParam_eq hform "token"
    dsimp only
    split
    · exact .kept _ m
    · split
      · split
        · exact htoken ▸ .asked r m
        · split
          · exact htoken ▸ .asked r m
          · exact htoken ▸ .asked r m
      · exact .kept _ m

theorem Call.memory (pl : Platform) (st : State) (c : Call) :
    Memory pl.provider c.env c.step st.revoked (afterCall pl st c).revoked := by
  obtain ⟨env, faults, step⟩ := c
  have hkept : ∀ {α : Type} (q : Proc DB α) (f : α → Answer),
      (q >>= fun a => pure (st.answer (f a))).wp
        (fun out _ => Memory pl.provider env step st.revoked out.revoked) st.db :=
    fun q f => wp_seq (wp_true q st.db) fun _ _ _ => .kept step st.revoked
  have hwp : (step.proc pl env st).wp
      (fun out _ => Memory pl.provider env step st.revoked out.revoked) st.db := by
    cases step with
    | revoke r =>
      exact (wp_bind ..).mpr (wp_revokeHandler (fun _ _ _ => .kept _ _)
        fun form hform => memory_revokeToken hform)
    | introspect r => exact introspect_memory
    | login | token | deviceAuthorization | deviceVerify | deviceApprove | logout
    | backChannelLogout | deleteSession | deleteClient => exact hkept _ _
    | _ => exact .kept _ _
  exact wp_run hwp faults

end Memory

/-! ## Introspection of a revoked token -/

section Introspection

variable {p : Provider} {env : Env} {m m' : Map Int} {k : Bytes}

theorem get_isAccessTokenRevoked (token : Bytes) :
    (isAccessTokenRevoked p now token m).2.get k = m.get k
      ∨ (isAccessTokenRevoked p now token m).2.get k = none
        ∧ ∃ expiry, m.get k = some expiry ∧ expiry < now := by
  unfold isAccessTokenRevoked
  dsimp only
  split
  · exact .inl rfl
  · next expiry hget =>
    split
    · next hexpired =>
      rw [Map.get_delete]
      split
      · next hk => exact .inr ⟨rfl, expiry, hk ▸ hget, hexpired⟩
      · exact .inl rfl
    · exact .inl rfl

theorem get_revokeAccessToken (token : Bytes) :
    (revokeAccessToken p now token m).get k = m.get k
      ∨ hashToken p token = k ∧ ∃ claims, parseUnverified token = .ok claims
        ∧ now < timeUnix claims.expiresAt := by
  unfold revokeAccessToken
  split
  · next claims hclaims =>
    dsimp only
    split
    · next hnow =>
      rw [Map.get_set]
      split
      · next hk => exact .inr ⟨hk.symm, claims, hclaims, hnow⟩
      · exact .inl rfl
    · exact .inl rfl
  · exact .inl rfl

theorem Memory.get {step : Step} (h : Memory p env step m m') (k : Bytes) :
    m'.get k = m.get k
      ∨ (∃ r claims, step = .revoke r ∧ hashToken p (formParam r "token") = k
        ∧ parseUnverified (formParam r "token") = .ok claims
        ∧ env.clock 0 < timeUnix claims.expiresAt
        ∧ m' = revokeAccessToken p (env.clock 0) (formParam r "token") m)
      ∨ (m'.get k = none ∧ ∃ expiry, m.get k = some expiry ∧ expiry < env.clock 1) := by
  cases h with
  | kept => exact .inl rfl
  | recorded r =>
    rcases get_revokeAccessToken (env.clock 0) (formParam r "token") with
      h | ⟨hk, claims, hparse, hnow⟩
    · exact .inl h
    · exact .inr (.inl ⟨r, claims, rfl, hk, hparse, hnow, rfl⟩)
  | asked r =>
    rcases get_isAccessTokenRevoked (env.clock 1) (formParam r "token") with h | h
    · exact .inl h
    · exact .inr (.inr h)

theorem isRevoked_iff {now : Int} :
    (isAccessTokenRevoked p now token m).1
      ↔ ∃ expiry, m.get (hashToken p token) = some expiry ∧ now ≤ expiry := by
  unfold isAccessTokenRevoked
  dsimp only
  split
  · next hnone => simp [hnone]
  · next expiry hget =>
    rw [hget]
    split
    · next hexpired => simpa using hexpired
    · next hvalid => simpa using hvalid

theorem activeResponse_ne_inactive (claims : Claims) : activeResponse claims ≠ inactive := by
  simp [activeResponse, inactive]

theorem introspect_eq_inactive_iff {claims : Claims} (htoken : token ≠ [])
    (hr : formParam r "token" = token) (hparse : parseUnverified token = .ok claims) :
    (introspectHandler p env r m).1.response = inactive
      ↔ (∀ claims', p.verify (env.clock 0) token ≠ .ok claims')
        ∨ (isAccessTokenRevoked p (env.clock 1) token m).1
        ∨ claims.expiresAt.toInt < unix (env.clock 2) := by
  cases hform : r.form with
  | none =>
    rw [formParam, hform] at hr
    exact absurd hr.symm htoken
  | some form =>
    have hparam : param form "token" = token := (formParam_eq hform "token").symm.trans hr
    rw [introspectHandler, hform]
    simp only [hparam, htoken, if_false]
    cases hverify : p.verify (env.clock 0) token with
    | ok claims' =>
      obtain ⟨_, _, _, _, -, -, -, hparse', -⟩ := verify_eq_ok.mp hverify
      obtain rfl := Res.ok.inj (hparse'.symm.trans hparse)
      dsimp only
      split
      · next hrevoked => simp [hrevoked]
      · next hrevoked =>
        split
        · next hexpired => simp [hexpired]
        · next hvalid => simp [hrevoked, hvalid, activeResponse_ne_inactive]
    | err e => simp
    | panics reason => simp

end Introspection

/-! ## Introspection at the end of a run -/

structure Call.RevokesText (pl : Platform) (st : State) (c : Call) (token : Bytes) : Prop where
  step : ∃ r, c.step = .revoke r ∧ formParam r "token" = token
  branch : (afterCall pl st c).revoked
    = revokeAccessToken pl.provider (c.env.clock 0) token st.revoked

def Call.Records (pl : Platform) (st : State) (c : Call) (k : Bytes) (expiry : Int) : Prop :=
  ∃ token, c.RevokesText pl st token ∧ hashToken pl.provider token = k ∧ c.env.clock 0 < expiry

def RecordedIn (pl : Platform) (k : Bytes) (expiry : Int) : State → List Call → Prop
  | _, [] => False
  | st, c :: calls => c.Records pl st k expiry ∨ RecordedIn pl k expiry (afterCall pl st c) calls

/-- The entry of a hash, while the clock has not passed `later`. -/
inductive Entry (expiry later : Int) (recorded : Prop) : Option Int → Prop where
  | held (h : recorded) : Entry expiry later recorded (some expiry)
  | gone (h : recorded → expiry < later) : Entry expiry later recorded none

section Entry

variable {pl : Platform} {k : Bytes} {claims : Claims} {later : Int} {recorded : Prop}

theorem Entry.congr {recorded' : Prop} (hiff : recorded' ↔ recorded)
    (h : Entry expiry later recorded o) : Entry expiry later recorded' o := by
  cases h with
  | held h => exact .held (hiff.mpr h)
  | gone h => exact .gone fun h' => h (hiff.mp h')

theorem Entry.drop {old : Int} (h : Entry expiry later recorded (some old)) (hlate : old < later) :
    Entry expiry later recorded none := by
  cases h with
  | held h => exact .gone fun _ => hlate

theorem Entry.le_iff (h : Entry expiry later recorded o) :
    (∃ e, o = some e ∧ later ≤ e) ↔ recorded ∧ later ≤ expiry := by
  cases h with
  | held h => simp [h]
  | gone h => simpa using h

theorem Call.RevokesText.get (h : c.RevokesText pl st token)
    (hparse : parseUnverified token = .ok claims) :
    (afterCall pl st c).revoked.get k
      = if hashToken pl.provider token = k ∧ c.env.clock 0 < timeUnix claims.expiresAt then
        some (timeUnix claims.expiresAt) else st.revoked.get k := by
  rw [h.branch, revokeAccessToken, hparse]
  dsimp only
  split
  · next hnow =>
    rw [Map.get_set]
    simp only [hnow, and_true, eq_comm]
  · next hnow => rw [if_neg fun h => hnow h.2]

theorem Call.RevokesText.entry (h : c.RevokesText pl st token)
    (hparse : parseUnverified token = .ok claims)
    (hstored : ∀ e, st.revoked.get k = some e → e = timeUnix claims.expiresAt) :
    Entry (timeUnix claims.expiresAt) later
      (hashToken pl.provider token = k ∧ c.env.clock 0 < timeUnix claims.expiresAt
        ∨ st.revoked.get k = some (timeUnix claims.expiresAt))
      ((afterCall pl st c).revoked.get k) := by
  rw [h.get hparse]
  split
  · next hrecorded => exact .held (.inl hrecorded)
  · next hnot =>
    cases hget : st.revoked.get k with
    | none => exact .gone fun h => absurd h (by simpa using hnot)
    | some e =>
      rw [hstored e hget]
      exact .held (.inr rfl)

theorem Entry.call (hclock : c.env.clock 1 ≤ later)
    (hhash : ∀ r, c.step = .revoke r → hashToken pl.provider (formParam r "token") = k →
      parseUnverified (formParam r "token") = .ok claims)
    (h : Entry (timeUnix claims.expiresAt) later recorded (st.revoked.get k)) :
    Entry (timeUnix claims.expiresAt) later
      (recorded ∨ c.Records pl st k (timeUnix claims.expiresAt))
      ((afterCall pl st c).revoked.get k) := by
  by_cases hrec : c.Records pl st k (timeUnix claims.expiresAt)
  · obtain ⟨token, htext, hk, hnow⟩ := hrec
    obtain ⟨r, hstep, hr⟩ := htext.step
    have hparse : parseUnverified token = .ok claims := hr ▸ hhash r hstep (hr ▸ hk)
    rw [htext.get hparse, if_pos ⟨hk, hnow⟩]
    exact .held (.inr ⟨token, htext, hk, hnow⟩)
  · refine Entry.congr (or_iff_left hrec) ?_
    rcases (c.memory pl st).get k with
      hget | ⟨r, claims', hstep, hk, hparse, hnow, hbranch⟩ | ⟨hget, old, hold, hlate⟩
    · exact hget ▸ h
    · obtain rfl := Res.ok.inj (hparse.symm.trans (hhash r hstep hk))
      exact absurd ⟨_, ⟨⟨r, hstep, rfl⟩, hbranch⟩, hk, hnow⟩ hrec
    · rw [hold] at h
      exact hget ▸ h.drop (hlate.trans_le hclock)

theorem Entry.run : ∀ (calls : List Call) {st : State} {recorded : Prop},
    (∀ call ∈ calls, call.env.clock 1 ≤ later) →
    (∀ call ∈ calls, ∀ r, call.step = .revoke r → hashToken pl.provider (formParam r "token") = k →
        parseUnverified (formParam r "token") = .ok claims) →
    Entry (timeUnix claims.expiresAt) later recorded (st.revoked.get k) →
    Entry (timeUnix claims.expiresAt) later
      (recorded ∨ RecordedIn pl k (timeUnix claims.expiresAt) st calls)
      ((calls.foldl (afterCall pl) st).revoked.get k)
  | [], _, _, _, _, h => h.congr (or_iff_left id)
  | call :: calls, _, _, hclock, hhash, h => by
    obtain ⟨hclock₁, hclocks⟩ := List.forall_mem_cons.mp hclock
    obtain ⟨hhash₁, hhashes⟩ := List.forall_mem_cons.mp hhash
    exact (Entry.run calls hclocks hhashes (h.call hclock₁ hhash₁)).congr or_assoc.symm

end Entry

def RecordedElsewhere (pl : Platform) (st : State) (c : Call) (calls : List Call) (k : Bytes)
    (expiry : Int) : Prop :=
  st.revoked.get k = some expiry ∨ RecordedIn pl k expiry (afterCall pl st c) calls

/-- A text with the header and payload of a revoked token is inactive exactly when `Verify` rejects
it, or its hash was recorded and the second of the expiry has not begun, or that second is over.
Hashes are taken to differ. -/
theorem introspect_inactive_iff {st : State} {c : Call} {token token' : Bytes} {claims : Claims}
    (hrevoke : c.RevokesText pl st token)
    (hvalid : pl.provider.verify (c.env.clock 0) token = .ok claims)
    {header payload sig sig' : Bytes} (hsplit : splitN 46 3 token = [header, payload, sig])
    (hsplit' : splitN 46 3 token' = [header, payload, sig']) (calls : List Call) (q : Call)
    {r : Request} (hq : q.step = .introspect r) (hr : formParam r "token" = token')
    (hclock : ∀ call ∈ calls, call.env.clock 1 ≤ q.env.clock 1)
    (hstored : ∀ e, st.revoked.get (hashToken pl.provider token') = some e →
      e = timeUnix claims.expiresAt) (hhash : ∀ call ∈ calls, ∀ r, call.step = .revoke r →
      hashToken pl.provider (formParam r "token") = hashToken pl.provider token' →
        parseUnverified (formParam r "token") = .ok claims) :
    (q.answer pl (calls.foldl (afterCall pl) (afterCall pl st c))).response = inactive
      ↔ (∀ claims', pl.provider.verify (q.env.clock 0) token' ≠ .ok claims')
        ∨ ((hashToken pl.provider token = hashToken pl.provider token'
            ∧ c.env.clock 0 < timeUnix claims.expiresAt
          ∨ RecordedElsewhere pl st c calls (hashToken pl.provider token')
            (timeUnix claims.expiresAt))
          ∧ q.env.clock 1 ≤ timeUnix claims.expiresAt)
        ∨ claims.expiresAt.toInt < unix (q.env.clock 2) := by
  obtain ⟨_, _, _, _, -, -, -, hparse, -⟩ := verify_eq_ok.mp hvalid
  have hparse' : parseUnverified token' = .ok claims := by
    rw [parseUnverified, hsplit']
    rw [parseUnverified, hsplit] at hparse
    exact hparse
  have hne : token' ≠ [] := by
    rintro rfl
    cases hsplit'
  have hentry := (Entry.run calls hclock hhash (hrevoke.entry hparse hstored)).congr or_assoc.symm
  obtain ⟨env, faults, step⟩ := q
  obtain rfl : step = .introspect r := hq
  refine (introspect_eq_inactive_iff hne hr hparse').trans ?_
  rw [isRevoked_iff.trans hentry.le_iff]
  rfl

def TookAccessBranch (p : Provider) (env : Env) (token : Bytes) (m : Map Int)
    (out : Answer × Map Int) (_ : DB) : Prop :=
  out.1.success = true → out.2 = revokeAccessToken p (env.clock 0) token m

theorem wp_revokeHandler_hint {p : Provider} {env : Env} (m : Map Int)
    (hhint : formParam r "token_type_hint" = "access_token") (db : DB) :
    (revokeHandler p env r m).wp (TookAccessBranch p env (formParam r "token") m) db := by
  refine wp_revokeHandler (fun a hno _ hsuccess => ?_) fun form hform clientID db' => ?_
  · rw [hno] at hsuccess
    cases hsuccess
  · rw [formParam_eq hform] at hhint ⊢
    have hnot : ¬(str "access_token" = [] ∨ str "access_token" = str "refresh_token") := by
      decide +kernel
    simp only [revokeToken, hhint, if_neg hnot]
    exact fun _ => rfl

theorem revokesText_of_hint (hstep : c.step = .revoke r)
    (hhint : formParam r "token_type_hint" = "access_token")
    (h : (c.answer pl st).success = true) : c.RevokesText pl st (formParam r "token") := by
  obtain ⟨env, faults, step⟩ := c
  obtain rfl : step = .revoke r := hstep
  refine ⟨⟨r, rfl, rfl⟩, ?_⟩
  have hwp : (Step.proc pl env st (.revoke r)).wp (fun out => TookAccessBranch pl.provider env
      (formParam r "token") st.revoked (out.answer, out.revoked)) st.db :=
    wp_seq (wp_revokeHandler_hint st.revoked hhint st.db) fun _ _ h => h
  exact wp_run hwp faults h

def Response.reportsActive : Response → Bool
  | .json 200 (.obj ((_, .bool active) :: _)) => active
  | _ => false

namespace Sample

def introspect (now : Int) (token : Bytes) : Call :=
  ⟨⟨.of fun _ _ => 0, fun _ => now⟩, fun _ => none, .introspect (post [("token", token)])⟩

end Sample

theorem formParam_introspect (token : Bytes) :
    formParam (post [("token", token)]) "token" = token := rfl

theorem revokesText : revocation.RevokesText platform (restarted exchanged) accessToken := by
  refine formParam_revokeAccess ▸ revokesText_of_hint rfl ?_ ?_
  · decide +kernel
  · decide +kernel

theorem introspect_inactive_iff_sample :
    ((introspect (1800 * second) accessToken).answer platform
      afterRevocation).response = inactive := by
  obtain ⟨claims, hvalid, -, hexpires⟩ := verify_accessToken
  obtain ⟨header, payload, sig, _, hsplit, -⟩ := verify_eq_ok.mp hvalid
  refine (introspect_inactive_iff revokesText hvalid hsplit hsplit []
    (introspect (1800 * second) accessToken) rfl (formParam_introspect _)
    ?_ ?_ ?_).mpr (.inr (.inl ⟨.inl ⟨rfl, ?_⟩, ?_⟩))
  · intro call hcall
    cases hcall
  · rintro e ⟨⟩
  · intro call hcall
    cases hcall
  · rw [hexpires]
    decide +kernel
  · rw [hexpires]
    decide +kernel

theorem revoked_token_active :
    revocation.RevokesText platform (restarted exchanged) accessToken
      ∧ (provider.verify 0 accessToken).isOk = true
      ∧ (splitN 46 3 (accessToken ++ [10])).take 2 = (splitN 46 3 accessToken).take 2
      ∧ ((introspect 0 (accessToken ++ [10])).answer platform afterRevocation).response ≠ inactive
      ∧ ((introspect (3600 * second + 500000000) accessToken).answer platform
        afterRevocation).response ≠ inactive := by
  obtain ⟨claims, hvalid, -⟩ := verify_accessToken
  refine ⟨revokesText, Res.isOk_iff.mpr ⟨claims, hvalid⟩, ?_, fun h => ?_, fun h => ?_⟩
  · decide +kernel
  · have hactive : ((introspect 0 (accessToken ++ [10])).answer platform
        afterRevocation).response.reportsActive = true := by
      decide +kernel
    rw [h] at hactive
    cases hactive
  · have hactive : ((introspect (3600 * second + 500000000) accessToken).answer
        platform afterRevocation).response.reportsActive = true := by
      decide +kernel
    rw [h] at hactive
    cases hactive

end TptIdentity.Oidc
