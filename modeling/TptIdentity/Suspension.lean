import Mathlib.Logic.Function.Basic
import TptIdentity.AdminModel
import TptIdentity.TokenBinding

/-!
# Suspended and deleted identities

No endpoint that issues codes or tokens reads the role of an identity
(`Call.issued_withIdentities`). Suspended subjects are left without tokens in runs in which
nothing of theirs is presented (`respected_of_active`), and otherwise not
(`suspended_gets_tokens`).
-/

namespace TptIdentity

variable {db db' : Store.DB} (p : Oidc.Provider) (pl : Oidc.Platform) (st : Oidc.State)

namespace Oidc

open Go Store Proc Bridge

/-! ## What a request issues -/

def newCodes (db db' : DB) : List Bytes :=
  (db'.sessions.rows.filter fun sess => sess ∉ db.sessions.rows).map OIDCSession.subjectDID

def newRefreshTokens (db db' : DB) : List Bytes :=
  (db'.refreshTokens.rows.filter fun t => t.usedAt = none ∧ t ∉ db.refreshTokens.rows).map
    RefreshToken.subjectDID

def deviceGrant : Bytes := "urn:ietf:params:oauth:grant-type:device_code"

/-- Authorization, logins, and the grants for codes, refresh tokens and device codes. -/
def Step.issuing : Step → Bool
  | .login _ _ => true
  | .token r =>
    r.form.any fun form =>
      grantType form ∈ [str "authorization_code", str "refresh_token", deviceGrant]
  | _ => false

def Call.issued (st : State) (c : Call) : List Bytes :=
  if c.step.issuing then
    (c.answer pl st).signed.map SignedToken.subject
      ++ (newCodes st.db (afterCall pl st c).db ++ newRefreshTokens st.db (afterCall pl st c).db)
  else []

def presentedSubjects (db : DB) (form : Map Bytes) : List Bytes :=
  if grantType form = "authorization_code" then
    (db.sessionByCode (param form "code")).toList.map OIDCSession.subjectDID
  else if grantType form = "refresh_token" then
    (db.refreshTokens.find (hashToken p (param form "refresh_token"))).toList.map
      RefreshToken.subjectDID
  else (db.deviceCodes.find (param form "device_code")).toList.map DeviceCode.subjectDID

def redrawnSubjects (env : Env) (db : DB) : List Bytes :=
  (generateRefreshToken p env.rand).toOption.toList.flatMap fun drawn =>
    (db.refreshTokens.find drawn.2).toList.map RefreshToken.subjectDID

def Call.subjects (pl : Platform) (st : State) (c : Call) : List Bytes :=
  match c.step with
  | .login now step => step.subjects (pl.serverAt now) c.env st.db
  | .token r =>
    r.form.toList.flatMap (presentedSubjects pl.provider st.db)
      ++ redrawnSubjects pl.provider c.env st.db
  | _ => []

section Issued

variable {pl : Platform}

variable {S : Bytes → Prop}

theorem drawnFor_of_mem {p : Provider} {env : Env} (h : ∀ did ∈ redrawnSubjects p env db, S did) :
    DrawnFor (fun did _ => S did) p env db := by
  rintro hash ⟨raw, hraw⟩ old hold
  refine h _ (List.mem_flatMap.mpr ⟨(raw, hash), ?_, ?_⟩)
  · rw [hraw]
    exact List.mem_singleton_self _
  · exact List.mem_map_of_mem (Option.mem_toList.mpr hold)

theorem issuesFor_tokenHandler {p : Provider} {env : Env} {r : Request} {form : Map Bytes}
    (hform : r.form = some form)
    (hissuing : grantType form ∈ [str "authorization_code", str "refresh_token", deviceGrant])
    (hpresented : ∀ did ∈ presentedSubjects p db form, S did)
    (hdrawn : DrawnFor (fun did _ => S did) p env db) :
    (tokenHandler p env r).wp (IssuesFor (fun did _ => S did) db) db := by
  have hmem : ∀ {α : Type} {x : Option α} {f : α → Bytes} {a : α},
      (∀ did ∈ x.toList.map f, S did) → x = some a → S (f a) :=
    fun h hx => h _ (List.mem_map_of_mem (Option.mem_toList.mpr hx))
  unfold presentedSubjects at hpresented
  rw [tokenHandler, hform]
  refine wp_ite (fun hgrant => ?_) fun hcode => ?_
  · rw [if_pos hgrant] at hpresented
    refine wp_mono (fun a db' h => ?_) (wp_handleAuthCodeExchange p env r form db)
    rcases h with hrefused | ⟨-, sess, raw, hgranted⟩
    · refine ⟨fun t ht => ?_, refreshesFor_of_eq hrefused.refreshTokens,
        fun h => absurd (hrefused.unsuccessful.symm.trans h) Bool.false_ne_true⟩
      obtain ⟨sess, hsess, hsubject, -⟩ := hrefused.signed t ht
      exact hsubject ▸ hmem hpresented hsess
    · exact hgranted.issuesFor (hmem hpresented hgranted.session) hdrawn
  rw [if_neg hcode] at hpresented
  refine wp_ite (fun hgrant => ?_) fun hrefresh => ?_
  · rw [if_pos hgrant] at hpresented
    exact wp_mono (fun _ _ h => h.1) (wp_handleRefreshTokenGrant (fun _ => hmem hpresented) hdrawn)
  rw [if_neg hrefresh] at hpresented
  have hdevice : grantType form = deviceGrant := by
    simpa only [List.mem_cons, List.not_mem_nil, or_false, hcode, hrefresh, false_or] using hissuing
  refine wp_ite (fun hgrant => ?_) fun _ => ?_
  · rw [hdevice] at hgrant
    exact absurd hgrant (by decide +kernel)
  refine wp_ite (fun _ => ?_) fun hother => absurd hdevice hother
  exact issuesFor_handleDeviceGrant (fun _ => hmem hpresented) hdrawn

theorem startsFor_newCodes (h : StartsFor S db db') : ∀ did ∈ newCodes db db', S did := by
  refine List.forall_mem_map.mpr fun sess hsess => ?_
  obtain ⟨hmem, hnew⟩ := List.mem_filter.mp hsess
  exact (h sess hmem).resolve_left (of_decide_eq_true hnew)

theorem refreshesFor_newRefreshTokens (h : RefreshesFor (fun did _ => S did) db db') :
    ∀ did ∈ newRefreshTokens db db', S did := by
  refine List.forall_mem_map.mpr fun t ht => ?_
  obtain ⟨hmem, hnew⟩ := List.mem_filter.mp ht
  obtain ⟨hunused, hnew⟩ := of_decide_eq_true hnew
  exact (h t hmem hunused).resolve_left hnew

theorem run_login (now : Int) (env : Env) (faults : Faults) (step : Bridge.Step) (st : State) :
    (⟨env, faults, .login now step⟩ : Call).run pl st
      = (st.answer { response := ((step.proc (pl.serverAt now) env).run faults st.db).1.response },
        ((step.proc (pl.serverAt now) env).run faults st.db).2) :=
  run_bind_pure (fun reply : Reply => st.answer { response := reply.response }) ..

theorem refreshTokens_login (srv : Server) (env : Env) (step : Bridge.Step)
    (faults : Faults) (db : DB) :
    ((step.proc srv env).run faults db).2.refreshTokens = db.refreshTokens := by
  have hwrite : ∀ db db', LoginWrite db db' → db'.refreshTokens = db.refreshTokens := by
    intro db db' h
    cases h with
    | aside h => exact h.refreshTokens
    | saveClient c => rfl
    | saveSession sess _ => rfl
  have htrans : ∀ {a b c : DB}, b.refreshTokens = a.refreshTokens →
      c.refreshTokens = b.refreshTokens → c.refreshTokens = a.refreshTokens :=
    fun hab hbc => hbc.trans hab
  exact wp_run (Within.wp (R := fun db db' => db'.refreshTokens = db.refreshTokens) (fun _ => rfl)
    htrans ((uniform_loginStep srv env step).within.mono hwrite) db) faults

theorem sessions_token (env : Env) (r : Request) (faults : Faults) (db : DB) :
    ((tokenHandler p env r).run faults db).2.sessions.rows ⊆ db.sessions.rows :=
  wp_run (((does_tokenHandler p env r).within.mono fun _ _ h => h.sessions_sublist.subset).wp
    (R := fun db db' => db'.sessions.rows ⊆ db.sessions.rows) (fun _ => List.Subset.refl _)
    (fun hab hbc => List.Subset.trans hbc hab) db) faults

theorem Call.issued_subset (c : Call) : c.issued pl st ⊆ c.subjects pl st := by
  obtain ⟨env, faults, step⟩ := c
  unfold Call.issued
  split
  · next hissuing =>
    cases step with
    | login now step =>
      refine List.append_subset.mpr ⟨?_, List.append_subset.mpr ⟨?_, ?_⟩⟩
      · rw [Call.answer, run_login]
        exact List.nil_subset _
      · rw [afterCall, run_login]
        exact startsFor_newCodes (wp_run (step.startsFor fun did hdid => hdid) faults)
      · rw [afterCall, run_login]
        exact refreshesFor_newRefreshTokens
          (refreshesFor_of_eq (refreshTokens_login _ env step faults st.db))
    | token r =>
      obtain ⟨form, hform, hgrant⟩ := (Option.any_eq_true _ _).mp hissuing
      have hmem : ∀ did, did ∈ presentedSubjects pl.provider st.db form →
          did ∈ Call.subjects pl st ⟨env, faults, .token r⟩ := fun did hdid =>
        List.mem_append_left _ (List.mem_flatMap.mpr ⟨form, Option.mem_toList.mpr hform, hdid⟩)
      have hissues := wp_run (issuesFor_tokenHandler hform (of_decide_eq_true hgrant) hmem
        (drawnFor_of_mem fun did hdid => List.mem_append_right _ hdid)) faults
      refine List.append_subset.mpr ⟨?_, List.append_subset.mpr ⟨?_, ?_⟩⟩
      · rw [Call.answer, run_token]
        exact List.forall_mem_map.mpr hissues.signed
      · rw [afterCall, run_token]
        exact startsFor_newCodes fun sess hsess =>
          .inl (sessions_token pl.provider env r faults st.db hsess)
      · rw [afterCall, run_token]
        exact refreshesFor_newRefreshTokens hissues.refreshTokens
    | _ => cases hissuing
  · exact List.nil_subset _

/-! ## The identities are not read -/

def State.withIdentities (st : State) (identities : Table Identity.did) : State :=
  { st with db := { st.db with identities } }

theorem Call.issued_withIdentities (c : Call) (identities : Table Identity.did) :
    c.issued pl (st.withIdentities identities) = c.issued pl st := by
  have hsame : SameButUnread st.db (st.withIdentities identities).db :=
    ⟨st.db.authFailures, identities, rfl⟩
  obtain ⟨env, faults, step⟩ := c
  unfold Call.issued
  split
  · next hissuing =>
    cases step with
    | login now step =>
      have halike := (uniform_loginStep (pl.serverAt now) env step).alike
      obtain ⟨failures, identities', hafter⟩ := (halike.run hsame faults).2
      simp only [Call.answer, afterCall, run_login, hafter]
      rfl
    | token r =>
      have halike := (does_tokenHandler pl.provider env r).alike
      obtain ⟨failures, identities', hafter⟩ := (halike.run hsame faults).2
      simp only [Call.answer, afterCall, run_token, hafter, (halike.run hsame faults).1]
      rfl
    | _ => cases hissuing
  · rfl

end Issued

end Oidc

/-! ## Runs with an administrator -/

namespace Admin

open Go Store Oidc Proc

inductive Action where
  | suspend (did : Bytes)
  | unsuspend (did : Bytes)
  | delete (did : Bytes)

def Action.proc (codec : Codec) (env : Env) : Action → Proc DB Response
  | .suspend did => handleAdminSuspendIdentity codec env did
  | .unsuspend did => handleAdminUnsuspendIdentity codec env did
  | .delete did => handleAdminDeleteIdentity codec env did

inductive Status where
  | active
  | suspended
  | deleted
deriving DecidableEq, Repr

/-- A deleted subject is not restored by the end of a suspension. -/
def Action.apply (status : Bytes → Status) : Action → Bytes → Status
  | .suspend did => Function.update status did .suspended
  | .delete did => Function.update status did .deleted
  | .unsuspend did =>
    if status did = .suspended then Function.update status did .active else status

def succeeded : Response → Bool
  | .json 200 _ => true
  | .text 204 _ => true
  | _ => false

inductive Event where
  | request (c : Call)
  | admin (env : Env) (faults : Faults) (action : Action)

structure Administered where
  st : State
  status : Bytes → Status

def Administered.next (codec : Codec) (pl : Platform) (s : Administered) : Event → Administered
  | .request c => ⟨afterCall pl s.st c, s.status⟩
  | .admin env faults action =>
    let out := (action.proc codec env).run faults s.st.db
    ⟨{ s.st with db := out.2 }, if succeeded out.1 then action.apply s.status else s.status⟩

/-- No code or token is issued for a subject that is suspended or deleted. -/
def Respected (s : Administered) : Event → Prop
  | .request c => ∀ did ∈ c.issued pl s.st, s.status did = .active
  | .admin _ _ _ => True

/-- A request that would issue anything presents nothing of a subject that is suspended or deleted.
-/
def Active (s : Administered) : Event → Prop
  | .request c =>
    c.issued pl (s.st.withIdentities .empty) ≠ [] →
      ∀ did ∈ c.subjects pl s.st, s.status did = .active
  | .admin _ _ _ => True

instance (pl : Platform) (s : Administered) (e : Event) : Decidable (Respected pl s e) :=
  match e with
  | .request c =>
    inferInstanceAs (Decidable (∀ did ∈ c.issued pl s.st, s.status did = .active))
  | .admin _ _ _ => inferInstanceAs (Decidable True)

instance (pl : Platform) (s : Administered) (e : Event) : Decidable (Active pl s e) :=
  match e with
  | .request c =>
    inferInstanceAs (Decidable (c.issued pl (s.st.withIdentities .empty) ≠ [] →
      ∀ did ∈ c.subjects pl s.st, s.status did = .active))
  | .admin _ _ _ => inferInstanceAs (Decidable True)

theorem Active.respected {pl : Platform} {s : Administered} {e : Event} (h : Active pl s e) :
    Respected pl s e := by
  cases e with
  | request c =>
    intro did hdid
    have hissues : c.issued pl (s.st.withIdentities .empty) ≠ [] := by
      rw [c.issued_withIdentities]
      exact List.ne_nil_of_mem hdid
    exact h hissues did (c.issued_subset s.st hdid)
  | admin env faults action => trivial

/-- Nothing is issued to a suspended or deleted subject, in every run in which no request that would
issue something presents something of one. -/
theorem respected_of_active (codec : Codec) (pl : Platform) (s : Administered) (events : List Event)
    (hactive : EveryStep (Administered.next codec pl) (Active pl) s events) :
    EveryStep (Administered.next codec pl) (Respected pl) s events :=
  everyStep_of_everyStep (I := fun _ => True) (fun _ _ _ h => h.respected)
    (fun _ _ _ _ => trivial) trivial hactive

namespace Sample

open Oidc.Sample

def codec : Codec := ⟨fun b => .ok b, fun _ => []⟩

def did : Bytes := "did:key:z" ++ encodeHex (0xed :: 0x01 :: List.replicate 32 5)

def authorizeFor (n : UInt8) (did : Bytes) : Event :=
  .request (call n (.login 0 (authorize did)))

def signIn : List Event :=
  [.request (call 1 (.login 0 Bridge.Sample.register.step)), .request (call 4 (.login 0
      (.magicLinkRequest (some ⟨"alice@example.org", [], [], [], []⟩)))),
    .request (call 5 (.login 0 (.magicLinkVerify (Bridge.Sample.request
      [("token", encodeHex (List.replicate 32 4))] [])))), authorizeFor 2 did,
    .request (call 3 (.token redeem))]

def admin (action : Action) : Event := .admin (env 6) (fun _ => none) action

def refreshing : Event := .request (call 7 (.token refresh))

def start : Administered := ⟨.initial, fun _ => .active⟩

abbrev Holds (events : List Event) : Prop :=
  EveryStep (Administered.next codec platform) (Respected platform) start (signIn ++ events)

end Sample

open Sample

theorem respected_of_active_other :
    Sample.Holds [admin (.suspend did), authorizeFor 8 (str "did:key:z1")]
      ∧ ((Sample.signIn ++ [admin (.suspend did)]).foldl
          (Administered.next codec Oidc.Sample.platform) start).status did
        = .suspended :=
  ⟨respected_of_active _ _ _ _ (by decide +kernel), by decide +kernel⟩

theorem suspended_gets_tokens :
    ¬Sample.Holds [admin (.suspend did), authorizeFor 8 did]
      ∧ ¬Sample.Holds [admin (.suspend did), refreshing]
      ∧ ¬Sample.Holds [admin (.delete did), authorizeFor 8 did]
      ∧ ¬Sample.Holds [admin (.delete did), refreshing] := by
  decide +kernel

end Admin

end TptIdentity
