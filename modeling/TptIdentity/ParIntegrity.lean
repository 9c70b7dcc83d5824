import TptIdentity.SessionRuns

/-!
# Pushed authorization requests in the browser

A client pushes the parameters of an authorization request and gets a URI for them; the browser
then carries the URI. A parameter that was not pushed is taken from the browser's query, so the
browser has no influence on the session exactly when every parameter that `authorize` reads was
pushed, or when `authorize` refuses the pushed parameters with every query (`unalterable_iff`).

A `Presentation` is a request with the URI that nothing but its parameters can make fail. What
it stores is given by the checks of `authorize` on the pushed parameters over the query
(`Authorizable`, `stored_of_authorizable`, `authorizable_of_stored`).
-/

namespace TptIdentity.Oidc

open Go Store Proc List Option Map

/-! ## What an authorization stores -/

structure Authorization where
  clientID : Bytes
  redirectURI : Bytes
  scope : Bytes
  nonce : Bytes
  state : Bytes
  codeChallenge : Bytes
deriving DecidableEq, Repr

def Authorization.ofSession (sess : OIDCSession) : Authorization :=
  ⟨sess.clientID, sess.redirectURI, sess.scope, sess.nonce, sess.state, sess.codeChallenge⟩

def Authorization.ofQuery (q : Map Bytes) : Authorization :=
  ⟨param q "client_id", param q "redirect_uri", param q "scope", param q "nonce", param q "state",
    param q "code_challenge"⟩

structure Authorizable (db : DB) (subjectDID : Bytes) (q : Map Bytes) : Prop where
  clientID : param q "client_id" ≠ []
  redirectURI : param q "redirect_uri" ≠ []
  subjectDID : subjectDID ≠ []
  state : param q "state" ≠ []
  codeChallenge : param q "code_challenge" ≠ []
  codeChallengeMethod : param q "code_challenge_method" = "S256"
  registered : ∃ client, db.client (param q "client_id") = some client
    ∧ containsURI client.redirectURIs (param q "redirect_uri") = true

def requiredParams : List String :=
  ["client_id", "redirect_uri", "state", "code_challenge", "code_challenge_method"]

def copiedParams : List String := ["scope", "nonce"]

variable {q q' form : Map Bytes} {db : DB} {env : Env} {r : Request} {name : String}
  {requestID : Bytes} {sha256 : Bytes → Bytes} (value : Bytes)
  (hname : "request_uri" ≠ str name)

theorem Authorizable.required {subjectDID : Bytes} (h : Authorizable db subjectDID q) :
    ∀ name ∈ requiredParams, param q name ≠ [] := by
  have hmethod : param q "code_challenge_method" ≠ [] := by
    rw [h.codeChallengeMethod]
    decide
  simpa [requiredParams] using
    ⟨h.clientID, h.redirectURI, h.state, h.codeChallenge, hmethod⟩

theorem Authorizable.congr {subjectDID : Bytes} (h : Authorizable db subjectDID q)
    (hsame : ∀ name ∈ requiredParams, param q' name = param q name) :
    Authorizable db subjectDID q' := by
  simp only [requiredParams, forall_mem_cons] at hsame
  obtain ⟨hclient, huri, hstate, hchallenge, hmethod, -⟩ := hsame
  constructor
  · exact hclient ▸ h.clientID
  · exact huri ▸ h.redirectURI
  · exact h.subjectDID
  · exact hstate ▸ h.state
  · exact hchallenge ▸ h.codeChallenge
  · exact hmethod ▸ h.codeChallengeMethod
  · rw [hclient, huri]
    exact h.registered

theorem Authorization.ofQuery_congr
    (h : ∀ name ∈ requiredParams ++ copiedParams, param q name = param q' name) :
    Authorization.ofQuery q = .ofQuery q' := by
  simp only [requiredParams, copiedParams, cons_append, nil_append, forall_mem_cons] at h
  obtain ⟨hclient, huri, hstate, hchallenge, -, hscope, hnonce, -⟩ := h
  rw [ofQuery, hclient, huri, hstate, hchallenge, hscope, hnonce]
  rfl

theorem Authorization.param_eq_of_ofQuery_eq (h : Authorization.ofQuery q = .ofQuery q') :
    ∀ name ∈ copiedParams, param q name = param q' name := by
  simpa [copiedParams] using
    ⟨congrArg Authorization.scope h, congrArg Authorization.nonce h⟩

def storedAuthorization (env : Env) (r : Request) (db : DB) : Option Authorization :=
  let out := (authorizeHandler env r).run (fun _ => none) db
  if out.1.isRedirect then (out.2.sessions.find (randomID env.rand 1)).map .ofSession else none

section Authorize

variable {env : Env} {r : Request} {q : Map Bytes} {db : DB} {subjectDID : Bytes}

theorem run_getClient (id : Bytes) (db : DB) :
    (getClient id).run (fun _ => none) db
      = ((found (db.client id)).wrapErr "scan client: %w" [], db) := rfl

theorem run_authorize {code : Bytes} (h : Authorizable db (param r.header "X-Subject-DID") q)
    (hcode : randomHex env.rand 0 32 = .ok code) :
    ∃ sess : OIDCSession, sess.id = randomID env.rand 1
      ∧ Authorization.ofSession sess = .ofQuery q
      ∧ ((authorize env r q).run (fun _ => none) db).1.isRedirect
      ∧ ((authorize env r q).run (fun _ => none) db).2 = db.putSession sess := by
  obtain ⟨client, hclient, huri⟩ := h.registered
  have hmissing : ¬(param q "client_id" = [] ∨ param q "redirect_uri" = []
      ∨ param r.header "X-Subject-DID" = []) := by
    rintro (hnil | hnil | hnil)
    · exact h.clientID hnil
    · exact h.redirectURI hnil
    · exact h.subjectDID hnil
  unfold authorize
  simp only [if_neg hmissing, if_neg h.state, if_neg h.codeChallenge, h.codeChallengeMethod,
    ne_eq, not_true_eq_false, if_false, run_bind, run_getClient, hclient, found, Res.wrapErr_ok,
    huri, Bool.true_eq_false, hcode]
  exact ⟨_, rfl, rfl, rfl, rfl⟩

theorem redirect_of_ite {c : Prop} [Decidable c] {response : Response} {k : Proc DB Response}
    (hresponse : response.isRedirect = false)
    (h : ((if c then pure response else k).run (fun _ => none) db).1.isRedirect) :
    ¬c ∧ (k.run (fun _ => none) db).1.isRedirect := by
  split at h
  · exact absurd h (ne_true_of_eq_false hresponse)
  · next hc => exact ⟨hc, h⟩

theorem authorizable_of_run (h : ((authorize env r q).run (fun _ => none) db).1.isRedirect) :
    Authorizable db (param r.header "X-Subject-DID") q := by
  obtain ⟨hmissing, h⟩ := redirect_of_ite rfl h
  obtain ⟨hstate, h⟩ := redirect_of_ite rfl h
  obtain ⟨hchallenge, h⟩ := redirect_of_ite rfl h
  obtain ⟨hmethod, h⟩ := redirect_of_ite rfl h
  rw [run_bind, run_getClient] at h
  cases hclient : db.client (param q "client_id") with
  | none =>
    rw [hclient] at h
    cases h
  | some client =>
    rw [hclient] at h
    obtain ⟨huri, -⟩ := redirect_of_ite rfl h
    simp only [not_or] at hmissing
    exact ⟨hmissing.1, hmissing.2.1, hmissing.2.2, hstate, hchallenge, not_not.mp hmethod,
      client, hclient, by simpa using huri⟩

end Authorize

/-! ## Requests that carry a request_uri -/

def pushedParams (db : DB) (requestURI : Bytes) : Option (Map Bytes) :=
  (db.parRequests.find requestURI).bind fun par =>
    (unmarshalInto (fun j _ => decodeStringMap j) empty par.params).toOption

theorem run_resolvePARRequest {requestURI : Bytes} {now : Int}
    (hnow : ∀ par, db.parRequests.find requestURI = some par → now ≤ par.expiresAt) :
    (∀ pushed, pushedParams db requestURI = some pushed →
        (resolvePARRequest now requestURI).run (fun _ => none) db
          = (.ok pushed, { db with parRequests := db.parRequests.delete requestURI }))
      ∧ (pushedParams db requestURI = none →
        ∃ e, ((resolvePARRequest now requestURI).run (fun _ => none) db).1 = .err e) := by
  have hget : (getPARRequest requestURI).run (fun _ => none) db
      = ((found (db.parRequests.find requestURI)).wrapErr "get par request: %w" [], db) := rfl
  unfold resolvePARRequest pushedParams
  rw [run_bind, hget]
  cases hpar : db.parRequests.find requestURI with
  | none => exact ⟨fun _ h => (by cases h), fun _ => ⟨_, rfl⟩⟩
  | some par =>
    simp only [found, Res.wrapErr_ok, if_neg (not_lt.mpr (hnow par hpar)), bind_some]
    cases unmarshalInto (fun j _ => decodeStringMap j) empty par.params with
    | ok pushed =>
      refine ⟨fun _ h => ?_, fun h => by cases h⟩
      obtain rfl := some.inj h
      rfl
    | err e => exact ⟨fun _ h => (by cases h), fun _ => ⟨_, rfl⟩⟩
    | panics reason => exact ⟨fun _ h => (by cases h), fun _ => ⟨_, rfl⟩⟩

/-- A request with the URI of a pushed request that nothing prevents from succeeding. -/
structure Presentation (db : DB) (requestURI subjectDID : Bytes) where
  env : Env
  request : Request
  carries : param request.query "request_uri" = requestURI
  nonempty : requestURI ≠ []
  subject : param request.header "X-Subject-DID" = subjectDID
  unexpired : ∀ par, db.parRequests.find requestURI = some par → env.clock 0 ≤ par.expiresAt
  random : (randomHex env.rand 0 32).isOk = true
  fresh : db.sessions.find (randomID env.rand 1) = none

namespace Presentation

variable {db : DB} {requestURI subjectDID : Bytes} {pushed : Map Bytes}

def stored (a : Presentation db requestURI subjectDID) : Option Authorization :=
  storedAuthorization a.env a.request db

def params (a : Presentation db requestURI subjectDID) (pushed : Map Bytes) : Map Bytes :=
  a.request.query.setAll pushed.entries

def alter (a : Presentation db requestURI subjectDID) (name : String) (value : Bytes)
    (hname : "request_uri" ≠ str name) : Presentation db requestURI subjectDID :=
  { a with
    request := { a.request with query := a.request.query.set (str name) value }
    carries := by
      rw [param, get_set, if_neg hname]
      exact a.carries }

variable (a : Presentation db requestURI subjectDID)

theorem get_params (k : Bytes) :
    (a.params pushed).get k = (pushed.get k).or (a.request.query.get k) :=
  get_setAll (List.Perm.refl _) k

theorem param_params (name : String) :
    param (a.params pushed) name = (pushed.get (str name)).getD (param a.request.query name) := by
  rw [param, get_params]
  cases pushed.get (str name) <;> rfl

theorem param_alter (hfree : pushed.get (str name) = none) :
    param ((a.alter name value hname).params pushed) name = value := by
  rw [param_params, hfree]
  change ((a.request.query.set (str name) value).get (str name)).getD [] = value
  rw [get_set, if_pos rfl]
  rfl

theorem param_alter_of_ne {name' : String} (hne : str name' ≠ str name) :
    param ((a.alter name value hname).params pushed) name' = param (a.params pushed) name' := by
  rw [param_params, param_params]
  congr 1
  change ((a.request.query.set (str name) value).get (str name')).getD [] = _
  rw [get_set, if_neg hne]
  rfl

theorem run_authorizeHandler (hpushed : pushedParams db requestURI = some pushed) :
    (authorizeHandler a.env a.request).run (fun _ => none) db
      = (authorize a.env a.request (a.params pushed)).run (fun _ => none)
        { db with parRequests := db.parRequests.delete requestURI } := by
  rw [authorizeHandler, a.carries]
  simp only [if_neg a.nonempty]
  rw [run_bind, (run_resolvePARRequest a.unexpired).1 pushed hpushed]
  rfl

theorem stored_of_unreadable (hpushed : pushedParams db requestURI = none) : a.stored = none := by
  obtain ⟨e, he⟩ := (run_resolvePARRequest a.unexpired).2 hpushed
  refine if_neg ?_
  rw [authorizeHandler, a.carries]
  simp only [if_neg a.nonempty]
  rw [run_bind, he]
  exact Bool.false_ne_true

theorem stored_of_authorizable (hpushed : pushedParams db requestURI = some pushed)
    (h : Authorizable db subjectDID (a.params pushed)) :
    a.stored = some (.ofQuery (a.params pushed)) := by
  obtain ⟨code, hcode⟩ := Res.isOk_iff.mp a.random
  have h' : Authorizable { db with parRequests := db.parRequests.delete requestURI }
      (param a.request.header "X-Subject-DID") (a.params pushed) :=
    a.subject.symm ▸ { h with }
  obtain ⟨sess, hid, hsess, hredirect, hdb⟩ := run_authorize h' hcode
  rw [stored, storedAuthorization, a.run_authorizeHandler hpushed]
  simp only [hredirect, if_true, hdb, DB.find_putSession, hid, a.fresh, elim_none, map_some, hsess]

theorem authorizable_of_stored (hpushed : pushedParams db requestURI = some pushed)
    (h : a.stored ≠ none) : Authorizable db subjectDID (a.params pushed) := by
  have hredirect : ((authorizeHandler a.env a.request).run (fun _ => none) db).1.isRedirect
      = true := by
    by_contra hno
    exact h (if_neg hno)
  rw [a.run_authorizeHandler hpushed] at hredirect
  have hchecked := authorizable_of_run hredirect
  rw [a.subject] at hchecked
  exact { hchecked with }

end Presentation

/-! ## The influence of the browser -/

/-- Two requests with the same URI and subject both fail or get the same session parameters. -/
def Unalterable (db : DB) (requestURI subjectDID : Bytes) : Prop :=
  ∀ a b : Presentation db requestURI subjectDID, a.stored = b.stored

section Unalterable

variable {db : DB} {requestURI subjectDID : Bytes} {pushed : Map Bytes}

theorem request_uri_ne : ∀ name ∈ requiredParams ++ copiedParams, "request_uri" ≠ str name := by
  decide

theorem required_ne_copied : ∀ name ∈ requiredParams, ∀ name' ∈ copiedParams,
    str name ≠ str name' := by
  decide

variable {a : Presentation db requestURI subjectDID}

theorem pushed_of_required (hpushed : pushedParams db requestURI = some pushed)
    (h : Unalterable db requestURI subjectDID) (ha : a.stored ≠ none)
    (hname : name ∈ requiredParams) : (pushed.get (str name)).isSome := by
  by_contra hfree
  have huri := request_uri_ne name (mem_append_left _ hname)
  have hempty := a.param_alter [] huri (not_isSome_iff_eq_none.mp hfree)
  have hstored : (a.alter name [] huri).stored ≠ none := by rwa [h _ a]
  exact (Presentation.authorizable_of_stored _ hpushed hstored).required name hname hempty

theorem pushed_of_copied (hpushed : pushedParams db requestURI = some pushed)
    (h : Unalterable db requestURI subjectDID) (ha : a.stored ≠ none)
    (hname : name ∈ copiedParams) : (pushed.get (str name)).isSome := by
  by_contra hfree
  have huri := request_uri_ne name (mem_append_right _ hname)
  have hother := a.param_alter (0 :: param (a.params pushed) name) huri
    (not_isSome_iff_eq_none.mp hfree)
  have hchecked := a.authorizable_of_stored hpushed ha
  have hchecked' : Authorizable db subjectDID
      ((a.alter name (0 :: param (a.params pushed) name) huri).params pushed) :=
    hchecked.congr fun name' hname' =>
      a.param_alter_of_ne _ huri (required_ne_copied name' hname' name hname)
  have heq := h (a.alter name (0 :: param (a.params pushed) name) huri) a
  rw [Presentation.stored_of_authorizable _ hpushed hchecked',
    Presentation.stored_of_authorizable _ hpushed hchecked] at heq
  have hsame := Authorization.param_eq_of_ofQuery_eq (some.inj heq) name hname
  rw [hother] at hsame
  exact cons_ne_self _ _ hsame

theorem unalterable_iff_of_pushed (hpushed : pushedParams db requestURI = some pushed) :
    Unalterable db requestURI subjectDID
      ↔ (∀ a : Presentation db requestURI subjectDID, ¬Authorizable db subjectDID (a.params pushed))
        ∨ ∀ name ∈ requiredParams ++ copiedParams, (pushed.get (str name)).isSome := by
  constructor
  · intro h
    by_cases hall : ∀ a : Presentation db requestURI subjectDID,
        ¬Authorizable db subjectDID (a.params pushed)
    · exact .inl hall
    · obtain ⟨a, hchecked⟩ := not_forall_not.mp hall
      have ha : a.stored ≠ none := by
        rw [a.stored_of_authorizable hpushed hchecked]
        exact some_ne_none _
      refine .inr fun name hname => ?_
      rcases List.mem_append.mp hname with hname | hname
      · exact pushed_of_required hpushed h ha hname
      · exact pushed_of_copied hpushed h ha hname
  · have hnone : ∀ a : Presentation db requestURI subjectDID,
        ¬Authorizable db subjectDID (a.params pushed) → a.stored = none :=
      fun a hno => not_not.mp (mt (a.authorizable_of_stored hpushed) hno)
    rintro (hall | hfixed) a b
    · rw [hnone a (hall a), hnone b (hall b)]
    · have hsame : ∀ name ∈ requiredParams ++ copiedParams,
          param (a.params pushed) name = param (b.params pushed) name := by
        intro name hname
        obtain ⟨value, hvalue⟩ := isSome_iff_exists.mp (hfixed name hname)
        rw [a.param_params, b.param_params, hvalue]
        rfl
      have hrequired : ∀ name ∈ requiredParams,
          param (a.params pushed) name = param (b.params pushed) name :=
        fun name hname => hsame name (mem_append_left _ hname)
      by_cases hchecked : Authorizable db subjectDID (a.params pushed)
      · have hchecked' := hchecked.congr fun name hname => (hrequired name hname).symm
        rw [a.stored_of_authorizable hpushed hchecked, b.stored_of_authorizable hpushed hchecked',
          Authorization.ofQuery_congr hsame]
      · rw [hnone a hchecked, hnone b fun h => hchecked (h.congr hrequired)]

/-- The browser has no influence exactly if, for the pushed parameters, no query makes them pass the
checks of `authorize` or all that `authorize` reads were pushed. -/
theorem unalterable_iff (db : DB) (requestURI subjectDID : Bytes) :
    Unalterable db requestURI subjectDID
      ↔ ∀ pushed, pushedParams db requestURI = some pushed →
        (∀ a : Presentation db requestURI subjectDID, ¬Authorizable db subjectDID (a.params pushed))
          ∨ ∀ name ∈ requiredParams ++ copiedParams, (pushed.get (str name)).isSome = true := by
  cases hpushed : pushedParams db requestURI with
  | none =>
    have hnone : ∀ a : Presentation db requestURI subjectDID, a.stored = none :=
      fun a => a.stored_of_unreadable hpushed
    exact iff_of_true (fun a b => (hnone a).trans (hnone b).symm) fun _ h => by cases h
  | some pushed =>
    rw [unalterable_iff_of_pushed hpushed]
    simp only [some.injEq, forall_eq']

end Unalterable

namespace Sample

def pushForm : List (Bytes × Bytes) :=
  [("client_id", Bridge.Sample.clientID), ("redirect_uri", Bridge.Sample.redirectURI),
    ("state", "s"), ("nonce", "n"), ("code_challenge", "c"), ("code_challenge_method", "S256")]

def pushed : DB :=
  [Bridge.Sample.register, Bridge.Sample.call 5 (.pushRequest { Bridge.Sample.request [] [] with
      form := some (empty.setAll pushForm) })].foldl
    (Bridge.afterCall Bridge.Sample.server) .empty

def requestURI : Bytes :=
  "urn:ietf:params:oauth:request_uri:" ++ encodeHex (List.replicate 32 5)

def carrying : Request :=
  Bridge.Sample.request [("request_uri", requestURI)] [("X-Subject-DID", "did:key:z1")]

def drawing : Env := ⟨.of fun _ _ => 6, fun _ => 0⟩

theorem unexpired_pushed (par : PARRequest) (h : pushed.parRequests.find requestURI = some par) :
    drawing.clock 0 ≤ par.expiresAt := by
  have hall : (pushed.parRequests.find requestURI).all
      (fun par => drawing.clock 0 ≤ par.expiresAt) := by
    decide
  rw [h] at hall
  exact of_decide_eq_true hall

theorem fresh_pushed : pushed.sessions.find (randomID drawing.rand 1) = none := by decide

theorem carries_carrying : param carrying.query "request_uri" = requestURI := rfl

theorem subject_carrying : param carrying.header "X-Subject-DID" = "did:key:z1" := rfl

theorem requestURI_ne_nil : requestURI ≠ [] := cons_ne_nil _ _

def presentation : Presentation pushed requestURI "did:key:z1" :=
  ⟨drawing, carrying, carries_carrying, requestURI_ne_nil, subject_carrying, unexpired_pushed, rfl,
    fresh_pushed⟩

theorem request_uri_ne_scope : str "request_uri" ≠ str "scope" := by decide

def altered : Presentation pushed requestURI "did:key:z1" :=
  presentation.alter "scope" "admin" request_uri_ne_scope

end Sample

open Sample

theorem pushed_scope_altered :
    presentation.stored.map Authorization.scope = some []
      ∧ altered.stored.map Authorization.scope = some (str "admin")
      ∧ ¬Unalterable pushed requestURI "did:key:z1" := by
  have hfirst : presentation.stored.map Authorization.scope = some [] := by
    decide +kernel
  have hsecond : altered.stored.map Authorization.scope = some (str "admin") := by
    decide +kernel
  refine ⟨hfirst, hsecond, fun h => ?_⟩
  rw [h presentation altered, hsecond] at hfirst
  exact absurd hfirst (by decide)

end TptIdentity.Oidc
