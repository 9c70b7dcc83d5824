import TptIdentity.BearerTokens
import Mathlib.Logic.Relation

/-!
# Chains of exchanged tokens

Along any chain of exchanges and step-ups the subject stays the same, no scope is added, and the
authentication context class is kept or lost (`noGain_of_chain`).
-/

namespace TptIdentity.Oidc

open Go Store Proc List Map

structure NoGain (c c' : Claims) : Prop where
  subject : c'.subject = c.subject
  scope : fields c'.scope ⊆ fields c.scope
  /-- A class that is absent is read as empty. -/
  acr : c'.acr = c.acr ∨ c'.acr = []

theorem NoGain.refl (c : Claims) : NoGain c c := ⟨rfl, Subset.refl _, .inl rfl⟩

theorem NoGain.trans {c c₁ c' : Claims} (h : NoGain c c₁) (h' : NoGain c₁ c') : NoGain c c' where
  subject := h'.subject.trans h.subject
  scope := Subset.trans h'.scope h.scope
  acr := by
    rcases h'.acr with hacr | hacr
    · rw [hacr]
      exact h.acr
    · exact .inr hacr

/-! ## Readable tokens -/

/-- The clock reads times that package time can give in seconds, also an hour later. -/
def ClockInRange (env : Env) : Prop :=
  ∀ n, -2 ^ 63 ≤ unix (env.clock n) ∧ unix (env.clock n + accessTokenTTL) < 2 ^ 63

variable {name subject clientID scope acr token token' caller : Bytes} {n : Nat} {path : Path}

theorem isSome_assign_str (hname : name ∉ [str "iat", str "exp", str "amr"]) (s : Bytes)
    (c : Claims) : (Claims.assign name (.str s) c).isSome := by
  have hcase : ∀ {field : Bytes} {x y : Option Claims}, (name = field → x.isSome) →
      y.isSome → (if name = field then x else y).isSome := by
    intro field x y hx hy
    split
    · next h => exact hx h
    · exact hy
  have hother : ∀ {field : Bytes} {x : Option Claims}, field ∈ [str "iat", str "exp", str "amr"] →
      name = field → x.isSome := by
    intro field x hfield h
    exact absurd (h ▸ hfield) hname
  iterate 3 refine hcase (fun _ => rfl) ?_
  refine hcase (hother (.head _)) (hcase (hother (.tail _ (.head _))) ?_)
  iterate 2 refine hcase (fun _ => rfl) ?_
  refine hcase (hother (.tail _ (.tail _ (.head _)))) ?_
  iterate 3 refine hcase (fun _ => rfl) ?_
  rfl

theorem isSome_assign_int (hname : name ∈ [str "iat", str "exp"]) {n : Int}
    (hn : -2 ^ 63 ≤ n ∧ n < 2 ^ 63) (c : Claims) :
    (Claims.assign name (Value.int n).wire c).isSome := by
  have hwire : ∀ old, decodeInt64 old (Value.int n).wire = some (Int64.ofInt n) := by
    intro old
    have h := decodeInt64_wire old (Int64.ofInt n)
    rwa [Int64.toInt_ofInt_of_le hn.1 hn.2] at h
  rcases mem_cons.mp hname with rfl | hname
  · show ((decodeInt64 c.issuedAt _).map _).isSome
    rw [hwire]
    rfl
  · obtain rfl := mem_singleton.mp hname
    show ((decodeInt64 c.expiresAt _).map _).isSome
    rw [hwire]
    rfl

variable {extra : Map Value} {now : Int}

theorem exists_claims_extraPayload {issuer : Bytes} {ttl : Int} (hextra : PlainExtra extra)
    (hnow : -2 ^ 63 ≤ unix now ∧ unix now < 2 ^ 63)
    (hexp : -2 ^ 63 ≤ unix (now + ttl) ∧ unix (now + ttl) < 2 ^ 63)
    (hsup : (Value.obj (extraPayload issuer subject clientID now ttl extra).entries).supported
      = true) :
    ∃ c, Claims.unmarshal
      (Value.obj (extraPayload issuer subject clientID now ttl extra).entries).text = .ok c := by
  have hnames := @isFieldName_extraPayload issuer subject clientID now ttl extra
    fun k v h => (hextra k v h).1
  have hdisjoint : ∀ k ∈ extraNames, k ∉ [str "iat", str "exp", str "amr"] := by decide
  have hmember : ∀ e ∈ (extraPayload issuer subject clientID now ttl extra).entries,
      e.2.depth ≤ 1 ∧ ∀ c, (Claims.assign e.1 e.2.wire c).isSome := by
    intro e he
    have hget := get_eq_some_iff.mpr he
    generalize e.1 = k at hget
    generalize e.2 = v at hget
    have hstr : ∀ {k : Bytes} {v : Value}, k ∉ [str "iat", str "exp", str "amr"] →
        (∃ s, v = .str s) → v.depth ≤ 1 ∧ ∀ c, (Claims.assign k v.wire c).isSome := by
      rintro k v hk ⟨s, rfl⟩
      exact ⟨Nat.zero_le 1, isSome_assign_str hk _⟩
    have hint : ∀ {k : Bytes} {n : Int}, k ∈ [str "iat", str "exp"] → (-2 ^ 63 ≤ n ∧ n < 2 ^ 63) →
        (Value.int n).depth ≤ 1
          ∧ ∀ c, (Claims.assign k (Value.int n).wire c).isSome :=
      fun hk hn => ⟨Nat.zero_le 1, isSome_assign_int hk hn⟩
    rw [get_extraPayload] at hget
    cases hcase : extra.get k with
    | some w =>
      rw [hcase, Option.some_or] at hget
      obtain rfl := Option.some.inj hget
      obtain ⟨hk, hdepth, hplain⟩ := hextra k w hcase
      by_cases hact : k = str "act"
      · subst hact
        exact ⟨hdepth, fun c => rfl⟩
      · exact hstr (hdisjoint k hk) (hplain hact)
    | none =>
      rw [hcase, Option.none_or] at hget
      iterate 7
        split at hget
        · next hk =>
          subst hk
          obtain rfl := Option.some.inj hget
          first
            | exact hint (by decide) hnow
            | exact hint (by decide) hexp
            | exact hstr (by decide) ⟨_, rfl⟩
      cases hget
  obtain ⟨c, hc⟩ := exists_decodeStruct_wire (fun e he c => by
    rw [foldName_coerce (hnames e he)]
    exact (hmember e he).2 c) Claims.zero
  exact ⟨c, unmarshalInto_text ⟨hsup, Nat.succ_le_succ
    (membersDepth_le.mpr fun e he => (hmember e he).1)⟩ (by decide) hc⟩

/-! ## One hop -/

section Hop

variable {p : Provider}

variable {t : SignedToken} {env : Env}

theorem reads_issueJWTWithExtra (hclock : ClockInRange env) (hextra : PlainExtra extra)
    (hscope : extra.get (str "scope") = some (.str scope)
      ∨ extra.get (str "scope") = none ∧ scope = [])
    (hacr : extra.get (str "acr") = some (.str acr) ∨ extra.get (str "acr") = none ∧ acr = [])
    (h : issueJWTWithExtra p path (env.clock n) subject clientID accessTokenTTL extra = .ok t) :
    ∃ c, parseUnverified t.token = .ok c
      ∧ c.subject = coerce subject ∧ c.scope = coerce scope ∧ c.acr = coerce acr := by
  obtain ⟨hsup, rfl⟩ := Provider.sign_inv h
  have hle : unix (env.clock n) ≤ unix (env.clock n + accessTokenTTL) :=
    Int.ediv_le_ediv (by decide) (Int.le_add_of_nonneg_right (by decide))
  obtain ⟨c, hread⟩ := exists_claims_extraPayload hextra
    ⟨(hclock n).1, hle.trans_lt (hclock n).2⟩ ⟨(hclock n).1.trans hle, (hclock n).2⟩ hsup
  refine ⟨c, by rw [parseUnverified_token, hread, Res.wrapErr_ok], ?_⟩
  have hnames := @isFieldName_extraPayload p.issuer subject clientID (env.clock n) accessTokenTTL
    extra fun k v h => (hextra k v h).1
  have hdisjoint : ∀ k ∈ [str "scope", str "acr"], k ∉ [str "token_type", str "did", str "exp",
      str "iat", str "aud", str "sub", str "iss"] := by
    decide
  have hget : ∀ k ∈ [str "scope", str "acr"], (extraPayload p.issuer subject clientID
      (env.clock n) accessTokenTTL extra).get k = extra.get k := by
    intro k hk
    have hother := hdisjoint k hk
    simp only [mem_cons, not_mem_nil, or_false, not_or] at hother
    simp only [get_extraPayload, hother, if_false, Option.or_none]
  rw [← hget _ (.head _)] at hscope
  rw [← hget _ (.tail _ (.head _))] at hacr
  refine ⟨?_, ?_, ?_⟩
  · exact Claims.field_of_unmarshal (fun h => (Claims.assigns_of_assign h).subject) rfl (by decide)
      hnames hsup hread (.inl (sub_extraPayload fun k v h => (hextra k v h).1))
  · exact Claims.field_of_unmarshal (fun h => (Claims.assigns_of_assign h).scope) rfl (by decide)
      hnames hsup hread hscope
  · exact Claims.field_of_unmarshal (fun h => (Claims.assigns_of_assign h).acr) rfl (by decide)
      hnames hsup hread hacr

theorem validUtf8_of_verify {c : Claims} (h : p.verify now token = .ok c) :
    validUtf8 c.subject ∧ validUtf8 c.acr ∧ validUtf8 c.scope := by
  obtain ⟨header, payload, sigText, -, hsplit, -, -, hparse, -⟩ := verify_eq_ok.mp h
  rw [parseUnverified, hsplit] at hparse
  obtain ⟨raw, -, hclaims⟩ := Res.bind_eq_ok.mp hparse
  exact Claims.validUtf8_of_unmarshal (Res.wrapErr_eq_ok.mp hclaims)

/-- The first token can be read, and the second one has no more authority. -/
def Weaker (token token' : Bytes) : Prop :=
  ∃ c c', parseUnverified token = .ok c ∧ parseUnverified token' = .ok c' ∧ NoGain c c'

theorem weaker_of_extra {c : Claims} (hclock : ClockInRange env) (hc : p.verify now token = .ok c)
    (hextra : PlainExtra extra) (hscope : extra.get "scope" = some (.str scope)
      ∨ extra.get "scope" = none ∧ scope = [])
    (hacr : extra.get "acr" = some (.str acr) ∨ extra.get "acr" = none ∧ acr = [])
    (hsubset : fields scope ⊆ fields c.scope) (hclass : acr = c.acr ∨ acr = [])
    (h : issueJWTWithExtra p path (env.clock n) c.subject clientID accessTokenTTL extra = .ok t) :
    Weaker token t.token := by
  obtain ⟨_, _, _, _, -, -, -, hparse, -⟩ := verify_eq_ok.mp hc
  obtain ⟨hsubject, hacr', hscope'⟩ := validUtf8_of_verify hc
  obtain ⟨c', hread, h₁, h₂, h₃⟩ := reads_issueJWTWithExtra hclock hextra hscope hacr h
  have hvalid : validUtf8 acr := by
    rcases hclass with rfl | rfl
    · exact hacr'
    · rfl
  refine ⟨c, c', hparse, hread, ?_, ?_, ?_⟩
  · rw [h₁, coerce_eq_self hsubject]
  · rw [h₂, coerce_eq_self (validUtf8_of_fields_subset hscope' hsubset)]
    exact hsubset
  · rw [h₃, coerce_eq_self hvalid]
    exact hclass

/-! ## Token exchange -/

theorem scopeIsSubset_eq_true {requested allowed : Bytes} :
    scopeIsSubset requested allowed ↔ fields requested ⊆ fields allowed := by
  rw [scopeIsSubset, all_eq_true]
  exact forall₂_congr fun s _ => contains_iff_mem

theorem get_exchangeExtra {audience actorToken k : Bytes} (hact : k ≠ "act") (haud : k ≠ "aud") :
    (exchangeExtra p now audience scope actorToken caller).get k
      = if k = "scope" ∧ scope ≠ [] then some (.str scope) else none := by
  have hscope : (if scope = [] then (empty : Map Value).set "aud" (.str audience)
      else (empty.set "aud" (.str audience)).set "scope" (.str scope)).get k
      = if k = "scope" ∧ scope ≠ [] then some (.str scope) else none := by
    by_cases hnil : scope = []
    · rw [if_pos hnil, get_set, if_neg haud, if_neg fun h => h.2 hnil]
      rfl
    · rw [if_neg hnil, get_set, get_set, if_neg haud]
      by_cases hk : k = "scope"
      · rw [if_pos hk, if_pos ⟨hk, hnil⟩]
      · rw [if_neg hk, if_neg fun h => hk h.1]
        rfl
  unfold exchangeExtra
  dsimp only
  split
  · split
    · rw [get_set, if_neg hact, hscope]
    · exact hscope
  · split
    · rw [get_set, if_neg hact, hscope]
    · exact hscope

theorem weaker_exchangeToken {form : Map Bytes} {c : Claims} (hclock : ClockInRange env)
    (hc : p.verify now token = .ok c) (ht : t ∈ (exchangeToken p env form c caller).signed) :
    Weaker token t.token := by
  have hissued : ∀ {clientID scope : Bytes}, fields scope ⊆ fields c.scope →
      issueJWTWithExtra p (.access .exchange) (env.clock 2) c.subject clientID accessTokenTTL
        (exchangeExtra p (env.clock 1) clientID scope (param form "actor_token") caller) = .ok t →
      Weaker token t.token := by
    intro clientID scope hsubset h
    refine weaker_of_extra hclock hc plainExtra_exchangeExtra ?_ (.inr ⟨?_, rfl⟩) hsubset
      (.inr rfl) h
    · rw [get_exchangeExtra (by decide) (by decide)]
      by_cases hnil : scope = []
      · exact .inr ⟨if_neg fun h => h.2 hnil, hnil⟩
      · exact .inl (if_pos ⟨rfl, hnil⟩)
    · rw [get_exchangeExtra (by decide) (by decide)]
      exact if_neg fun h => absurd h.1 (by decide)
  have hsubset : ¬ (param form "scope" ≠ [] ∧ scopeIsSubset (param form "scope") c.scope = false) →
      fields (if param form "scope" ≠ [] then param form "scope" else c.scope)
        ⊆ fields c.scope := by
    intro hok
    split
    · next hne =>
      refine scopeIsSubset_eq_true.mp ?_
      by_contra hno
      exact hok ⟨hne, eq_false_of_ne_true hno⟩
    · exact Subset.refl _
  unfold exchangeToken at ht
  dsimp only at ht
  split at ht
  · cases ht
  · next hok =>
    split at ht
    · next haccess =>
      obtain rfl := mem_singleton.mp ht
      exact hissued (hsubset hok) haccess
    · cases ht

theorem returns_handleTokenExchange_weaker (hclock : ClockInRange env) (r : Request)
    (form : Map Bytes) :
    (handleTokenExchange p env r form).Returns fun a => ∀ t ∈ a.signed,
      Weaker (param form "subject_token") t.token := by
  have hnone : ∀ {a : Answer}, a.signed = [] → ∀ t ∈ a.signed,
      Weaker (param form "subject_token") t.token := by
    intro a ha t ht
    rw [ha] at ht
    cases ht
  refine returns_ite (returns_pure (hnone rfl)) (returns_ite (returns_pure (hnone rfl)) ?_)
  refine returns_ite (returns_pure (hnone rfl)) ?_
  cases hverify : p.verify (env.clock 0) (param form "subject_token") with
  | ok c =>
    have hsigned : ∀ caller, ∀ t ∈ (exchangeToken p env form c caller).signed,
        Weaker (param form "subject_token") t.token :=
      fun _ _ ht => weaker_exchangeToken hclock hverify ht
    refine returns_ite (returns_pure (hsigned _)) (returns_bind (fun auth => ?_) _)
    cases auth with
    | ok _ => exact returns_pure (hsigned _)
    | err e => exact returns_pure (hnone rfl)
    | panics _ => exact returns_pure (hnone rfl)
  | err e => exact returns_pure (hnone rfl)
  | panics _ => exact returns_pure (hnone rfl)

/-! ## Step-up -/

def stepUpBearer (r : Request) : Bytes :=
  if param r.query "access_token" = [] then bearerToken (param r.header "Authorization")
  else param r.query "access_token"

theorem weaker_stepUpHandler {r : Request} (hclock : ClockInRange env)
    (ht : t ∈ (stepUpHandler p env r).signed) : Weaker (stepUpBearer r) t.token := by
  unfold stepUpHandler at ht
  dsimp only at ht
  rw [← stepUpBearer] at ht
  split at ht
  · cases ht
  · cases hverify : p.verify (env.clock 0) (stepUpBearer r) with
    | err e =>
      simp only [hverify] at ht
      cases ht
    | panics _ =>
      simp only [hverify] at ht
      cases ht
    | ok c =>
      simp only [hverify] at ht
      split at ht
      · cases ht
      · split at ht
        · split at ht
          · next htoken =>
            obtain rfl := mem_singleton.mp ht
            exact weaker_of_extra hclock hverify (plainExtra_stepUp _ _) (.inl rfl) (.inl rfl)
              (Subset.refl _) (.inl rfl) htoken
          · cases ht
        · cases ht

end Hop

/-! ## Chains -/

inductive Hop (p : Provider) : Bytes → Bytes → Prop where
  | exchange (env : Env) (hclock : ClockInRange env) (r : Request) (form : Map Bytes)
      (faults : Faults) (db : DB) {t : SignedToken}
      (h : t ∈ ((handleTokenExchange p env r form).run faults db).1.signed) :
      Hop p (param form "subject_token") t.token
  | stepUp (env : Env) (hclock : ClockInRange env) (r : Request) {t : SignedToken}
      (h : t ∈ (stepUpHandler p env r).signed) : Hop p (stepUpBearer r) t.token

theorem Hop.weaker {p : Provider} (h : Hop p token token') : Weaker token token' := by
  cases h with
  | exchange env hclock r form faults db ht =>
    exact (returns_handleTokenExchange_weaker hclock r form).run faults db _ ht
  | stepUp env hclock r ht => exact weaker_stepUpHandler hclock ht

/-- No chain of exchanges and step-ups gains a scope, a subject or an authentication class. -/
theorem noGain_of_chain (p : Provider) (now : Int) (token token' : Bytes) (c : Claims)
    (hc : p.verify now token = .ok c) (hchain : Relation.ReflTransGen (Hop p) token token') :
    ∃ c', parseUnverified token' = .ok c' ∧ NoGain c c' := by
  induction hchain with
  | refl =>
    obtain ⟨_, _, _, _, -, -, -, hparse, -⟩ := verify_eq_ok.mp hc
    exact ⟨c, hparse, NoGain.refl c⟩
  | tail _ hhop ih =>
    obtain ⟨c₁, hc₁, hgain⟩ := ih
    obtain ⟨c₂, c', hc₂, hc', hgain'⟩ := hhop.weaker
    obtain rfl := Res.ok.inj (hc₁.symm.trans hc₂)
    exact ⟨c', hc', hgain.trans hgain'⟩

namespace Sample

theorem clockInRange (n : UInt8) : ClockInRange (env n) := by
  intro _
  show -2 ^ 63 ≤ unix 0 ∧ unix (0 + accessTokenTTL) < 2 ^ 63
  decide

def strong : Res SignedToken :=
  issueJWTWithExtra provider (.access .code) 0 "did:key:z1" "c" accessTokenTTL
    ((empty.set "acr" (.str "pwd")).set "scope" (.str "openid mail"))

def stepUp (token : Bytes) : Request :=
  { post [] with
    query := (empty.set (str "acr_values") (str "social")).set (str "access_token") token }

def narrow (token : Bytes) : Map Bytes :=
  ((empty.set "subject_token_type" (str ttAccessToken)).set "scope"
    "mail").set "subject_token" token

def issuedAgain (token : Bytes) : Option Bytes := do
  let t ← (stepUpHandler provider (env 1) (stepUp token)).signed.head?
  let t' ← ((handleTokenExchange provider (env 2) (post []) (narrow t.token)).run
    (fun _ => none) .empty).1.signed.head?
  return t'.token

theorem chain_issuedAgain (h : issuedAgain token = some token') :
    Relation.ReflTransGen (Hop provider) token token' := by
  obtain ⟨t, ht, h⟩ := Option.bind_eq_some_iff.mp h
  obtain ⟨t', ht', h⟩ := Option.bind_eq_some_iff.mp h
  obtain rfl := Option.some.inj h
  have hstep := Hop.stepUp (env 1) (clockInRange 1) (stepUp token) (mem_of_head? ht)
  have hexchange := Hop.exchange (env 2) (clockInRange 2) (post []) (narrow t.token) (fun _ => none)
    .empty (mem_of_head? ht')
  have hbearer : stepUpBearer (stepUp token) = token := by
    have hquery : param (stepUp token).query "access_token" = token := by
      rw [param, stepUp, get_set, if_pos rfl, Option.getD_some]
    have hne : token ≠ [] := by
      rintro rfl
      cases ht
    rw [stepUpBearer, hquery, if_neg hne]
  rw [hbearer] at hstep
  exact (Relation.ReflTransGen.single hstep).tail hexchange

end Sample

open Sample

theorem noGain_of_chain_sample : ∃ token token' c', Relation.ReflTransGen (Hop provider)
      token token' ∧ parseUnverified token' = .ok c' ∧ c'.subject = "did:key:z1"
      ∧ fields c'.scope ⊆ [str "openid", str "mail"] := by
  have hrun : (strong.toOption.bind fun t => (provider.verify 0 t.token).toOption.bind
      fun c => (issuedAgain t.token).map fun token' => (c.subject, fields c.scope))
      = some (str "did:key:z1", [str "openid", str "mail"]) := by
    decide +kernel
  obtain ⟨t, -, hrun⟩ := Option.bind_eq_some_iff.mp hrun
  obtain ⟨c, hc, hrun⟩ := Option.bind_eq_some_iff.mp hrun
  obtain ⟨token', hissued, hclaims⟩ := Option.map_eq_some_iff.mp hrun
  obtain ⟨hsubject, hscope⟩ := Prod.mk.inj hclaims
  have hchain := chain_issuedAgain hissued
  obtain ⟨c', hread, hgain⟩ := noGain_of_chain provider 0 t.token token' c
    (Res.toOption_eq_some.mp hc) hchain
  exact ⟨t.token, token', c', hchain, hread, hgain.subject.trans hsubject, hscope ▸ hgain.scope⟩

end TptIdentity.Oidc
