import TptIdentity.BridgeModel
import TptIdentity.GoUrl

/-!
# The redirect with a code

`?code=` and `&state=` are appended to the redirect URI without escaping. The client gets what
was meant for it exactly if the URI has no query of its own and every byte of the state stands
for itself in a query.
-/

namespace TptIdentity

open Go List

variable {location b name key value : Bytes}

namespace Bridge

open Proc Store Oidc

structure AbsoluteURL (u : Bytes) : Prop where
  scheme : ∃ scheme rest, scheme ≠ [] ∧ (∀ c ∈ scheme, c ≠ 58 ∧ c ≠ 47 ∧ c ≠ 63)
    ∧ u = scheme ++ 58 :: rest
  noFragment : 35 ∉ u
  noControl : ∀ c ∈ u, isCtl c = false

inductive Redirects (redirectURI code state location : Bytes) : Prop where
  | authorize (env : Env) (r : Request) (q : Map Bytes) (faults : Faults) (db : DB)
      (hrun : ((Oidc.authorize env r q).run faults db).1 = .redirect location)
      (huri : param q "redirect_uri" = redirectURI) (hstate : param q "state" = state)
      (hcode : randomHex env.rand 0 32 = .ok code)
  | bridge (srv : Server) (env : Env) (r : Request) (ext : ExternalIdentity) (st : BridgeState)
      (faults : Faults) (db : DB)
      (hrun : ((finishBridgeAuth srv env r ext st).run faults db).1.response = .redirect location)
      (huri : st.redirectURI = redirectURI) (hstate : st.origState = state)
      (hcode : randomHex (env.drop 3).rand 0 32 = .ok code)

def Delivered (redirectURI code state location : Bytes) : Prop :=
  ∃ own query, rawQuery redirectURI = some own ∧ rawQuery location = some query
    ∧ queryValues query "code" = [code] ∧ queryValues query "state" = [state]
    ∧ ∀ key, queryValues query key = queryValues own key
        ++ (if key = "code" then [code] else if key = "state" then [state] else [])

def PlainByte (c : UInt8) : Prop :=
  c ≠ 35 ∧ c ≠ 37 ∧ c ≠ 38 ∧ c ≠ 43 ∧ c ≠ 59 ∧ isCtl c = false
deriving Decidable

theorem delivered_hexEscape {redirectURI code state : Bytes} :
    Delivered redirectURI code state (hexEscapeNonASCII location)
      ↔ Delivered redirectURI code state location := by
  have hvalues : ∀ query key, queryValues (hexEscapeNonASCII query) key = queryValues query key :=
    fun query key => by rw [queryValues, parseQuery_hexEscape, queryValues]
  unfold Delivered
  rw [rawQuery_hexEscape]
  cases rawQuery location with
  | none => simp
  | some query => simp [hvalues]

/-! ## What the handlers answer -/

def RedirectsWith (rand : Rand) (redirectURI state : Bytes) (resp : Response) : Prop :=
  resp.isRedirect = true →
    ∃ code, randomHex rand 0 32 = .ok code ∧ resp = codeRedirect redirectURI code state

theorem returns_authorize (env : Env) (r : Request) (q : Map Bytes) :
    (Oidc.authorize env r q).Returns
      (RedirectsWith env.rand (param q "redirect_uri") (param q "state")) := by
  have hno : ∀ resp : Response, resp.isRedirect = false → (pure resp : Proc DB Response).Returns
      (RedirectsWith env.rand (param q "redirect_uri") (param q "state")) :=
    fun resp hresp => returns_pure fun h => absurd (hresp ▸ h) (by decide)
  refine returns_ite (hno _ rfl) (returns_ite (hno _ rfl) (returns_ite (hno _ rfl)
    (returns_ite (hno _ rfl) (returns_bind (fun client => ?_) _))))
  split
  · refine returns_ite (hno _ rfl) ?_
    split
    · next code hcode =>
      refine returns_bind (fun saved => ?_) _
      split
      · exact returns_pure fun _ => ⟨code, hcode, rfl⟩
      · exact hno _ rfl
    · exact hno _ rfl
  · exact hno _ rfl

theorem returns_finishSession (env : Env) (r : Request) (ext : ExternalIdentity) (st : BridgeState)
    (did : Bytes) : (finishSession env r ext st did).Returns fun reply =>
      RedirectsWith env.rand st.redirectURI st.origState reply.response := by
  refine returns_ite ?_ (returns_pure fun h => by cases h)
  unfold issueSessionForDIDCtx
  split
  · next code hcode =>
    rw [bind_assoc]
    refine returns_bind (fun saved => ?_) _
    cases saved with
    | ok _ => exact returns_pure fun _ => ⟨code, hcode, rfl⟩
    | err _ => exact returns_pure fun h => by cases h
    | panics _ => exact returns_pure fun h => by cases h
  · exact returns_pure fun h => by cases h
  · exact returns_pure fun h => by cases h

theorem returns_finishBridgeAuth (srv : Server) (env : Env) (r : Request) (ext : ExternalIdentity)
    (st : BridgeState) : (finishBridgeAuth srv env r ext st).Returns fun reply =>
      RedirectsWith (env.drop 3).rand st.redirectURI st.origState reply.response := by
  refine returns_ite (returns_bind (fun res => ?_) _) (returns_bind (fun res => ?_) _)
  · cases res <;> exact returns_pure fun h => by cases h
  · cases res with
    | ok found => exact returns_finishSession ..
    | err _ => exact returns_pure fun h => by cases h
    | panics _ => exact returns_pure fun h => by cases h

def codeQuery (code state : Bytes) : Bytes :=
  str "code" ++ 61 :: code ++ 38 :: (str "state" ++ 61 :: state)

def codeLocation (redirectURI code state : Bytes) : Bytes :=
  redirectURI ++ 63 :: codeQuery code state

variable {redirectURI state : Bytes}

theorem Redirects.location_eq {code : Bytes} (h : Redirects redirectURI code state location)
    (hstate : state ≠ []) :
    location = codeLocation redirectURI code state
      ∧ ∃ b, code = encodeHex b := by
  have hcodes : ∀ {rand : Rand} {resp : Response}, RedirectsWith rand redirectURI state resp →
      resp = .redirect location → randomHex rand 0 32 = .ok code →
      location = codeLocation redirectURI code state ∧ ∃ b, code = encodeHex b := by
    rintro rand resp hresp rfl hcode
    obtain ⟨code', hcode', heq⟩ := hresp rfl
    obtain rfl := Res.ok.inj (hcode.symm.trans hcode')
    obtain ⟨b, -, hb⟩ := Res.bind_eq_ok.mp hcode
    refine ⟨?_, b, (Res.ok.inj hb).symm⟩
    rw [codeRedirect, if_pos hstate] at heq
    rw [Response.redirect.inj heq, append_assoc, append_assoc]
    rfl
  cases h with
  | authorize env r q faults db hrun huri hst hcode =>
    subst huri hst
    exact hcodes ((returns_authorize env r q).run faults db) hrun hcode
  | bridge srv env r ext st faults db hrun huri hst hcode =>
    subst huri hst
    exact hcodes ((returns_finishBridgeAuth srv env r ext st).run faults db) hrun hcode

/-! ## What the client reads -/

theorem plainByte_of_mem_encodeHex {c : UInt8} (h : c ∈ encodeHex b) : PlainByte c := by
  have hsome := hexVal_of_mem_encodeHex h
  have hctl : isCtl c = false := by
    unfold hexVal at hsome
    unfold isCtl
    grind
  refine ⟨?_, ?_, ?_, ?_, ?_, hctl⟩ <;> · rintro rfl; cases hsome

theorem rawQuery_codeLocation (h : AbsoluteURL redirectURI) (b state : Bytes) :
    let t := state.takeWhile (· ≠ 35)
    rawQuery (codeLocation redirectURI (encodeHex b) state) = if t.any isCtl then none
      else some (((codeLocation redirectURI (encodeHex b) t).dropWhile (· ≠ 63)).drop 1) := by
  have hsplit : ∀ s, codeLocation redirectURI (encodeHex b) s
      = (redirectURI ++ str "?code=" ++ encodeHex b ++ str "&state=") ++ s := by
    intro s
    rw [append_assoc, append_assoc, append_assoc]
    rfl
  have hhead : ∀ c ∈ redirectURI ++ str "?code=" ++ encodeHex b ++ str "&state=",
      c ≠ 35 ∧ isCtl c = false := by
    simp only [mem_append]
    rintro c (((hc | hc) | hc) | hc)
    · exact ⟨fun heq => h.noFragment (heq ▸ hc), h.noControl c hc⟩
    · exact (by decide +kernel : ∀ c ∈ str "?code=", c ≠ 35 ∧ isCtl c = false) c hc
    · have hplain := plainByte_of_mem_encodeHex hc
      exact ⟨hplain.1, hplain.2.2.2.2.2⟩
    · exact (by decide +kernel : ∀ c ∈ str "&state=", c ≠ 35 ∧ isCtl c = false) c hc
  intro t
  rw [rawQuery, hsplit, takeWhile_append_of_pos fun c hc => by simpa using (hhead c hc).1,
    any_append, any_eq_false.mpr fun c hc => by simp [(hhead c hc).2], Bool.false_or, ← hsplit]

theorem plain_of_mem_parseQuery (hname : 61 ∉ name) (hamp : 38 ∉ name)
    (hctl : ∀ c ∈ state.takeWhile (· ≠ 35), isCtl c = false)
    (h : (key, state) ∈ parseQuery (name ++ 61 :: state.takeWhile (· ≠ 35))) :
    ∀ c ∈ state, PlainByte c := by
  have hle := (List.takeWhile_prefix (l := state) (fun c => decide (c ≠ 35))).length_le
  obtain ⟨hnamp, hsemi, hun⟩ := mem_parseQuery_last hname hamp h hle
  have heq := (List.takeWhile_prefix (l := state) (fun c => decide (c ≠ 35))).eq_of_length_le
    hun.length_le
  intro c hc
  have hc' := heq.symm ▸ hc
  obtain ⟨hpercent, hplus⟩ := hun.plain_of_eq heq.symm c hc'
  refine ⟨?_, hpercent, ?_, hplus, ?_, hctl c hc'⟩
  · simpa using mem_takeWhile_imp hc'
  · rintro rfl
    exact hnamp hc'
  · rintro rfl
    exact hsemi hc'

theorem parseQuery_param (hname : 61 ∉ name) (hn : ∀ c ∈ name, PlainByte c)
    (hv : ∀ c ∈ value, PlainByte c) : parseQuery (name ++ 61 :: value) = [(name, value)] :=
  parseQuery_plain hname (fun c hc => ⟨(hn c hc).2.2.1, (hn c hc).2.2.2.2.1, (hn c hc).2.1,
    (hn c hc).2.2.2.1⟩) fun c hc => ⟨(hv c hc).2.2.1, (hv c hc).2.2.2.2.1, (hv c hc).2.1,
    (hv c hc).2.2.2.1⟩

theorem takeWhile_of_plain (h : ∀ c ∈ state, PlainByte c) : state.takeWhile (· ≠ 35) = state :=
  takeWhile_eq_self_iff.mpr fun c hc => by simpa using (h c hc).1

theorem parseQuery_code (b : Bytes) :
    parseQuery (str "code" ++ 61 :: encodeHex b) = [(str "code", encodeHex b)] :=
  parseQuery_param (by decide +kernel) (by decide +kernel) fun _ => plainByte_of_mem_encodeHex

theorem parseQuery_state (h : ∀ c ∈ state, PlainByte c) :
    parseQuery (str "state" ++ 61 :: state) = [(str "state", state)] :=
  parseQuery_param (by decide +kernel) (by decide +kernel) h

theorem drop_dropWhile_append {pre : Bytes} (h : 63 ∉ pre) (rest : Bytes) :
    ((pre ++ 63 :: rest).dropWhile (· ≠ 63)).drop 1 = rest := by
  rw [dropWhile_append_of_pos fun c hc => by simpa using fun heq : c = 63 => h (heq ▸ hc)]
  rfl

theorem AbsoluteURL.rawQuery_eq {u : Bytes} (h : AbsoluteURL u) :
    rawQuery u = some ((u.dropWhile (· ≠ 63)).drop 1) := by
  have hall : u.takeWhile (· ≠ 35) = u :=
    takeWhile_eq_self_iff.mpr fun c hc => by
      simpa using fun heq : c = 35 => h.noFragment (heq ▸ hc)
  rw [rawQuery, hall]
  exact if_neg (by simpa using h.noControl)

theorem delivered_of_plain (h : AbsoluteURL redirectURI) (b : Bytes) (hno : 63 ∉ redirectURI)
    (hplain : ∀ c ∈ state, PlainByte c) :
    Delivered redirectURI (encodeHex b) state (codeLocation redirectURI (encodeHex b) state) := by
  have hnil : redirectURI.dropWhile (· ≠ 63) = [] :=
    dropWhile_eq_nil_iff.mpr fun c hc => by simpa using fun heq : c = 63 => hno (heq ▸ hc)
  have hvalues : ∀ key, queryValues (codeQuery (encodeHex b) state) key
      = if key = "code" then [encodeHex b] else if key = "state" then [state] else [] := by
    intro key
    rw [queryValues, codeQuery, parseQuery_append, parseQuery_code, parseQuery_state hplain]
    by_cases hcode : key = "code"
    · subst hcode
      rfl
    · by_cases hstate : key = "state"
      · subst hstate
        rfl
      · simp [hcode, hstate, Ne.symm hcode, Ne.symm hstate]
  refine ⟨[], codeQuery (encodeHex b) state, ?_, ?_, hvalues _, hvalues _, hvalues⟩
  · rw [h.rawQuery_eq, hnil]
    rfl
  · rw [rawQuery_codeLocation h, takeWhile_of_plain hplain,
      if_neg (by simpa using fun c hc => (hplain c hc).2.2.2.2.2), codeLocation,
      drop_dropWhile_append hno]

theorem not_mem_parseQuery_own {own : Bytes} (hkey : 63 ∉ key) (hown : queryValues own key = []) :
    (key, value) ∉ parseQuery (own ++ 63 :: (str "code" ++ 61 :: encodeHex b)) := by
  intro hmem
  have hamp : 38 ∉ str "code" ++ 61 :: encodeHex b := by
    simp only [mem_append, mem_cons, not_or]
    exact ⟨by decide, by decide, fun hc => (plainByte_of_mem_encodeHex hc).2.2.1 rfl⟩
  obtain ⟨value', hmem'⟩ := mem_parseQuery_append_question (by decide) hamp hkey hmem
  rw [← mem_queryValues, hown] at hmem'
  cases hmem'

theorem plain_of_delivered (h : AbsoluteURL redirectURI)
    (hdel : Delivered redirectURI (encodeHex b) state
      (codeLocation redirectURI (encodeHex b) state)) :
    63 ∉ redirectURI ∧ ∀ c ∈ state, PlainByte c := by
  obtain ⟨own, query, hown, hquery, hcode, hstate, hall⟩ := hdel
  have hmemCode : (str "code", encodeHex b) ∈ parseQuery query :=
    mem_queryValues.mp (hcode ▸ mem_singleton_self _)
  have hmemState : (str "state", state) ∈ parseQuery query :=
    mem_queryValues.mp (hstate ▸ mem_singleton_self _)
  rw [rawQuery_codeLocation h] at hquery
  split at hquery
  · cases hquery
  next hctl =>
  have hplain : (str "state", state) ∈ parseQuery (str "state" ++ 61 :: state.takeWhile (· ≠ 35)) →
      ∀ c ∈ state, PlainByte c :=
    plain_of_mem_parseQuery (by decide) (by decide) (by simpa using hctl)
  obtain rfl := Option.some.inj hquery
  by_cases hno : 63 ∈ redirectURI
  · exfalso
    have hownCode : queryValues own (str "code") = [] := by
      have hcount := hall (str "code")
      rw [hcode, if_pos rfl] at hcount
      simpa using hcount
    have hownState : queryValues own (str "state") = [] := by
      have hcount := hall (str "state")
      rw [hstate, if_neg (by decide), if_pos rfl] at hcount
      simpa using hcount
    rw [h.rawQuery_eq] at hown
    obtain ⟨pre, own', rfl, hpre⟩ := eq_append_cons_of_mem hno
    rw [drop_dropWhile_append hpre] at hown
    obtain rfl := Option.some.inj hown
    rw [codeLocation, append_assoc, cons_append, drop_dropWhile_append hpre, codeQuery,
      ← cons_append, ← append_assoc, parseQuery_append, mem_append]
      at hmemCode hmemState
    have hmem := hmemState.resolve_left (not_mem_parseQuery_own (by decide) hownState)
    have hmem' := hmemCode.resolve_left (not_mem_parseQuery_own (by decide) hownCode)
    rw [takeWhile_of_plain (hplain hmem), parseQuery_state (hplain hmem)] at hmem'
    exact absurd (Prod.mk.inj (mem_singleton.mp hmem')).1 (by decide)
  · refine ⟨hno, hplain ?_⟩
    rw [codeLocation, drop_dropWhile_append hno, codeQuery, parseQuery_append, parseQuery_code]
      at hmemState
    rcases mem_append.mp hmemState with hmem | hmem
    · exact absurd (Prod.mk.inj (mem_singleton.mp hmem)).1 (by decide)
    · exact hmem

/-- The Location header that `http.Redirect` writes delivers the code and the state exactly if the
URI has no query of its own and every byte of the state stands for itself in one. -/
theorem redirect_delivered_iff {redirectURI code state location : Bytes}
    (habs : AbsoluteURL redirectURI) (hstate : state ≠ [])
    (h : Redirects redirectURI code state location) :
    Delivered redirectURI code state (hexEscapeNonASCII location) ↔
      63 ∉ redirectURI ∧ ∀ c ∈ state, PlainByte c := by
  obtain ⟨rfl, b, rfl⟩ := h.location_eq hstate
  rw [delivered_hexEscape]
  exact ⟨plain_of_delivered habs, fun hplain => delivered_of_plain habs b hplain.1 hplain.2⟩

namespace SampleRedirect

def callback : Bytes := "https://app.example/cb"

def tenantCallback : Bytes := "https://app.example/cb?tenant=1"

def db : DB :=
  DB.empty.putClient ⟨"app", [], "app", [callback, tenantCallback], "none", [], [], [], [], [], 0⟩

def env : Env := ⟨.of fun _ _ => 2, fun _ => 0⟩

def code : Bytes := encodeHex (replicate 32 2)

def request : Request :=
  ⟨.empty, none, Map.empty.setAll [("X-Subject-DID", "did:key:z1")], none, []⟩

def query (redirectURI state : Bytes) : Map Bytes :=
  Map.empty.setAll [("client_id", "app"), ("redirect_uri", redirectURI),
    ("state", state), ("code_challenge", "c"), ("code_challenge_method", "S256")]

theorem absoluteURL {rest : Bytes} (h : ∀ c ∈ rest, c ≠ 35 ∧ isCtl c = false) :
    AbsoluteURL ("https" ++ 58 :: rest) := by
  have hall : ∀ c ∈ "https" ++ 58 :: rest, c ≠ 35 ∧ isCtl c = false := by
    simp only [mem_append, mem_cons]
    rintro c (hc | rfl | hc)
    · exact (by decide +kernel : ∀ c ∈ str "https", c ≠ 35 ∧ isCtl c = false) c hc
    · decide
    · exact h c hc
  exact ⟨⟨_, rest, by decide +kernel, by decide +kernel, rfl⟩, fun hc => (hall _ hc).1 rfl,
    fun c hc => (hall c hc).2⟩

end SampleRedirect

open SampleRedirect in
theorem redirect_delivered_plain :
    Redirects callback code "é b" (codeLocation callback code "é b")
      ∧ Delivered callback code "é b" (hexEscapeNonASCII (codeLocation callback code "é b")) := by
  have hredirects : Redirects callback code "é b" (codeLocation callback code "é b") :=
    .authorize env request (query callback (str "é b")) (fun _ => none) db rfl rfl rfl rfl
  exact ⟨hredirects, (redirect_delivered_iff (absoluteURL (by decide +kernel)) (by decide +kernel)
    hredirects).mpr ⟨by decide +kernel, by decide +kernel⟩⟩

open SampleRedirect in
theorem redirect_garbled :
    (Redirects tenantCallback code "s" (codeLocation tenantCallback code "s")
        ∧ ¬Delivered tenantCallback code "s"
          (hexEscapeNonASCII (codeLocation tenantCallback code "s")))
      ∧ Redirects callback code "a&b" (codeLocation callback code "a&b")
      ∧ ¬Delivered callback code "a&b" (hexEscapeNonASCII (codeLocation callback code "a&b")) := by
  refine ⟨⟨.authorize env request (query tenantCallback "s") (fun _ => none) db rfl rfl rfl
    rfl, fun h => ?_⟩, .authorize env request (query callback (str "a&b")) (fun _ => none) db rfl
    rfl rfl rfl, fun h => ?_⟩
  · exact absurd (plain_of_delivered (absoluteURL (by decide +kernel))
      (delivered_hexEscape.mp h)).1 (by decide +kernel)
  · exact absurd (plain_of_delivered (absoluteURL (by decide +kernel))
      (delivered_hexEscape.mp h)).2 (by decide +kernel)

end Bridge

end TptIdentity
