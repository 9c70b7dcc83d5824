import TptIdentity.ProviderWrites

/-!
# Runs of the provider

All endpoints of the provider as steps of one system, with a record of everything that was
signed, which no step reads. The login bridges run over the same database and key (`Platform`).
-/

namespace TptIdentity.Oidc

open Go Store Proc

structure Platform where
  provider : Provider
  server : Bridge.Server

def Platform.serverAt (pl : Platform) (now : Int) : Bridge.Server :=
  { pl.server with
    issuer := pl.provider.issuer
    sha256 := pl.provider.sha256
    subjectFromBearer := subjectFromBearer pl.provider now }

structure State where
  db : DB
  revoked : Map Int
  vp : OID4VPStore
  signed : List SignedToken

def State.initial : State := ⟨.empty, .empty, newOID4VPStore, []⟩

/-! ## Steps -/

inductive Step where
  /-- A request to the login bridges or the authorization endpoint. -/
  | login (now : Int) (step : Bridge.Step)
  | token (r : Request)
  | deviceAuthorization (intn : Nat → Fin 32) (r : Request)
  | deviceVerify (r : Request)
  | deviceApprove (r : Request)
  | userinfo (r : Request)
  | stepUp (r : Request)
  | revoke (r : Request)
  | introspect (r : Request)
  | logout (r : Request)
  | backChannelLogout (clientID subjectDID : Bytes) (delivery : Delivery)
  | createVPRequest (body : Option CreateRequest)
  | getVPRequest (id : Bytes)
  | postVPResponse (r : Request)
  | getVPResponse (id : Bytes)
  | evictVP
  /-- The endpoints of package api that delete sessions and clients. -/
  | deleteSession (id : Bytes)
  | deleteClient (id : Bytes)
  | issueSDJWT (claims : Map Value)
  | signProof (hash : ProofHash)

structure Outcome where
  answer : Answer
  revoked : Map Int
  vp : OID4VPStore

def State.answer (st : State) (a : Answer) : Outcome := ⟨a, st.revoked, st.vp⟩

def Step.proc (pl : Platform) (env : Env) (st : State) : Step → Proc DB Outcome
  | .login now step => do
    return st.answer { response := (← step.proc (pl.serverAt now) env).response }
  | .token r => do return st.answer (← tokenHandler pl.provider env r)
  | .deviceAuthorization intn r => do
    return st.answer (← deviceAuthorizationHandler pl.provider env intn r)
  | .deviceVerify r => do return st.answer (← deviceVerifyHandler pl.provider env r)
  | .deviceApprove r => do return st.answer (← deviceApproveHandler pl.provider env r)
  | .userinfo r => return st.answer (userinfoHandler pl.provider env r)
  | .stepUp r => return st.answer (stepUpHandler pl.provider env r)
  | .revoke r => do
    let out ← revokeHandler pl.provider env r st.revoked
    return ⟨out.1, out.2, st.vp⟩
  | .introspect r =>
    let out := introspectHandler pl.provider env r st.revoked
    return ⟨out.1, out.2, st.vp⟩
  | .logout r => do return st.answer (← logoutHandler pl.provider env r)
  | .backChannelLogout clientID subjectDID delivery => do
    let out ← sendBackChannelLogout pl.provider env clientID subjectDID delivery
    return st.answer { noContent with signed := out.2 }
  | .createVPRequest body =>
    let out := createRequestHandler pl.provider env body st.vp
    return ⟨out.1, st.revoked, out.2⟩
  | .getVPRequest id => return st.answer (getRequestHandler pl.provider env id st.vp)
  | .postVPResponse r =>
    let out := postResponseHandler pl.provider env r st.vp
    return ⟨out.1, st.revoked, out.2⟩
  | .getVPResponse id => return st.answer (getResponseHandler pl.provider id st.vp)
  | .evictVP => return ⟨noContent, st.revoked, st.vp.evict (env.clock 0)⟩
  | .deleteSession id => do
    let _ ← Store.deleteSession id
    return st.answer noContent
  | .deleteClient id => do
    let _ ← Store.deleteClient id
    return st.answer noContent
  | .issueSDJWT claims => return st.answer (signedOnly (pl.provider.signSDJWT claims))
  | .signProof hash => return st.answer (signedOnly (pl.provider.signProof hash))

structure Call where
  env : Env
  faults : Faults
  step : Step

section Runs

variable (pl : Platform)

def Call.run (st : State) (c : Call) : Outcome × DB := (c.step.proc pl c.env st).run c.faults st.db

def Call.answer (st : State) (c : Call) : Answer := (c.run pl st).1.answer

def afterCall (st : State) (c : Call) : State :=
  ⟨(c.run pl st).2, (c.run pl st).1.revoked, (c.run pl st).1.vp,
    st.signed ++ (c.answer pl st).signed⟩

variable {pl}

theorem run_token (env : Env) (faults : Faults) (r : Request) (st : State) :
    (⟨env, faults, .token r⟩ : Call).run pl st
      = (st.answer ((tokenHandler pl.provider env r).run faults st.db).1,
        ((tokenHandler pl.provider env r).run faults st.db).2) := run_bind_pure st.answer ..

end Runs

/-! ## Writes of a step -/

section Writes

variable {pl : Platform} (env : Env) (st : State)

theorem within_step (step : Step) :
    (step.proc pl env st).Within (StepWrite pl.provider env.rand) := by
  have htoken : ∀ {α : Type} {q : Proc DB α} {f : α → Outcome},
      q.Within (TokenWrite pl.provider env.rand) →
      (q >>= fun a => pure (f a)).Within (StepWrite pl.provider env.rand) :=
    fun h => within_bind (h.mono fun _ _ => .token) fun _ => trivial
  cases step with
  | login now step =>
    exact within_bind ((uniform_loginStep ..).within.mono fun _ _ => .login) fun _ => trivial
  | token r => exact htoken (does_tokenHandler ..).within
  | deviceAuthorization intn r => exact htoken (does_deviceAuthorizationHandler ..).within
  | deviceVerify r => exact htoken (does_deviceVerifyHandler ..).within
  | deviceApprove r => exact htoken (does_deviceApproveHandler ..).within
  | revoke r => exact htoken (does_revokeHandler ..).within
  | logout r => exact htoken (does_logoutHandler ..).within
  | backChannelLogout clientID subjectDID delivery =>
    exact htoken (does_sendBackChannelLogout ..).within
  | deleteSession id => exact htoken (uniform_deleteSession id).within
  | deleteClient id => exact within_bind (within_exec fun _ => .deleteClient id) fun _ => trivial
  | _ => exact trivial

theorem Call.related {R : DB → DB → Prop} (hrefl : ∀ db, R db db)
    (htrans : ∀ {a b c}, R a b → R b c → R a c) (st : State) (c : Call)
    (hR : ∀ db db', StepWrite pl.provider c.env.rand db db' → R db db') :
    R st.db (afterCall pl st c).db :=
  wp_run (((within_step c.env st c.step).mono hR).wp hrefl htrans st.db) c.faults

theorem Call.live {st : State} {c : Call} {hash : Bytes}
    (hlive : Live (afterCall pl st c).db hash) :
    Live st.db hash ∨ Draws pl.provider c.env.rand hash := by
  have hrelated : ∀ hash, Live (afterCall pl st c).db hash →
      Live st.db hash ∨ Draws pl.provider c.env.rand hash := by
    refine Call.related
      (R := fun db db' => ∀ hash, Live db' hash → Live db hash ∨ Draws pl.provider c.env.rand hash)
      (fun _ _ h => .inl h) (fun hab hbc hash h => ?_) st c fun _ _ h _ => h.live
    rcases hbc hash h with h | h
    · exact hab hash h
    · exact .inr h
  exact hrelated hash hlive

end Writes

/-! ## A server that can be evaluated -/

namespace Sample

def provider : Provider where
  issuer := "https://id.example"
  signingKey := List.replicate 64 7
  keyID := "https://id.example#signing-key-1"
  sha256 b := b
  ed25519 := Crypto.standIn.ed25519
  upper r := r
  formatTime _ := []
  signingKey_length := List.length_replicate

def env (n : UInt8) : Env := ⟨.of fun _ _ => n, fun _ => 0⟩

def post (form : List (Bytes × Bytes)) : Request where
  query := .empty
  form := some (Map.empty.setAll form)
  header := .empty
  basicAuth := none
  remoteAddr := "192.0.2.1:443"

def platform : Platform := ⟨provider, Bridge.Sample.server⟩

def restarted (db : DB) : State := ⟨db, .empty, newOID4VPStore, []⟩

def call (n : UInt8) (step : Step) : Call := ⟨env n, fun _ => none, step⟩

end Sample

end TptIdentity.Oidc
