import TptIdentity.ProviderRuns

/-!
# Requests and responses of presentations

`PostResponseHandler` stores a response under whatever state it is sent. Responses belong to
known requests and are not replaced exactly in runs where each is posted for an open request and
no new one takes the ID of an answered one (`answered_iff_matches`).
-/

namespace TptIdentity.Oidc

open Go Store Proc Option

/-! ## Writes -/

inductive VPWrite where
  | nothing
  | request (req : OID4VPRequest)
  | response (resp : OID4VPResponse)
  | evict (now : Int)

def OID4VPStore.write (s : OID4VPStore) : VPWrite → OID4VPStore
  | .nothing => s
  | .request req => { s with requests := s.requests.set req.id req }
  | .response resp => { s with responses := s.responses.set resp.requestID resp }
  | .evict now => s.evict now

def Call.vpWrite (pl : Platform) (c : Call) : VPWrite :=
  match c.step with
  | .createVPRequest (some req) =>
    if isNil req.presentationDefinition then .nothing
    else .request (req.request pl.provider c.env)
  | .postVPResponse r =>
    match r.form with
    | none => .nothing
    | some form =>
      if param form "vp_token" = [] then .nothing
      else .response ⟨param form "state", param form "vp_token", param form "state", c.env.clock 0⟩
  | .evictVP => .evict (c.env.clock 0)
  | _ => .nothing

section Writes

variable {pl : Platform}

theorem vp_afterCall (st : State) (c : Call) :
    (afterCall pl st c).vp = st.vp.write (c.vpWrite pl) := by
  obtain ⟨env, faults, step⟩ := c
  have hreturns : (step.proc pl env st).Returns fun out =>
      out.vp = st.vp.write (Call.vpWrite pl ⟨env, faults, step⟩) := by
    cases step with
    | createVPRequest body =>
      refine returns_pure ?_
      cases body with
      | none => rfl
      | some req =>
        simp only [createRequestHandler, Call.vpWrite]
        split
        · rfl
        · rfl
    | postVPResponse r =>
      refine returns_pure ?_
      simp only [postResponseHandler, Call.vpWrite]
      cases hform : r.form with
      | none => rfl
      | some form =>
        dsimp only
        split
        · rfl
        · rfl
    | userinfo r | stepUp r | introspect r | getVPRequest id | getVPResponse id | evictVP
    | issueSDJWT claims | signProof hash => exact returns_pure rfl
    | _ =>
      refine returns_bind (fun _ => ?_) _
      exact returns_pure rfl
  exact hreturns.run faults st.db

end Writes

/-! ## Answered requests -/

namespace OID4VPStore

/-- Every response is for a known request that had not expired when it arrived. -/
def Answered (s : OID4VPStore) : Prop :=
  ∀ id resp, s.responses.get id = some resp → resp.requestID = id
    ∧ ∃ req, s.requests.get id = some req ∧ resp.receivedAt ≤ req.expiresAt

def Kept (s s' : OID4VPStore) : Prop :=
  ∀ id resp, s.responses.get id = some resp →
    s'.responses.get id = none
      ∨ s'.responses.get id = some resp ∧ s'.requests.get id = s.requests.get id

/-- A response is for a known, unexpired and unanswered request, and no request replaces an
answered one. -/
def Matches (s : OID4VPStore) : VPWrite → Prop
  | .request req =>
    ∀ resp, s.responses.get req.id = some resp → s.requests.get req.id = some req
  | .response resp =>
    (∃ req, s.requests.get resp.requestID = some req ∧ resp.receivedAt ≤ req.expiresAt)
      ∧ ∀ resp', s.responses.get resp.requestID = some resp' → resp' = resp
  | _ => True

section Step

variable {s : OID4VPStore}

theorem kept_refl (s : OID4VPStore) : s.Kept s := fun _ _ hresp => .inr ⟨hresp, rfl⟩

theorem Answered.request_iff (h : s.Answered) (req : OID4VPRequest) :
    (s.write (.request req)).Answered ∧ s.Kept (s.write (.request req))
      ↔ s.Matches (.request req) := by
  have hget : ∀ id, (s.write (.request req)).requests.get id
      = if id = req.id then some req else s.requests.get id := fun id => s.requests.get_set ..
  constructor
  · rintro ⟨-, hkept⟩ resp hresp
    rcases hkept req.id resp hresp with hnone | ⟨-, hsame⟩
    · exact absurd (hresp.symm.trans hnone) (some_ne_none _)
    · rw [← hsame, hget, if_pos rfl]
  · intro hmatches
    -- a request with a response is the one that is written, or it is left alone
    have hsame : ∀ id resp, s.responses.get id = some resp →
        (s.write (.request req)).requests.get id = s.requests.get id := by
      intro id resp hresp
      rw [hget]
      split
      · next hid =>
        subst hid
        exact (hmatches resp hresp).symm
      · rfl
    refine ⟨fun id resp hresp => ?_, fun id resp hresp => .inr ⟨hresp, hsame id resp hresp⟩⟩
    rw [hsame id resp hresp]
    exact h id resp hresp

theorem Answered.response_iff (h : s.Answered) (resp : OID4VPResponse) :
    (s.write (.response resp)).Answered ∧ s.Kept (s.write (.response resp))
      ↔ s.Matches (.response resp) := by
  have hget : ∀ id, (s.write (.response resp)).responses.get id
      = if id = resp.requestID then some resp else s.responses.get id :=
    fun id => s.responses.get_set ..
  constructor
  · rintro ⟨hanswered, hkept⟩
    have hself : (s.write (.response resp)).responses.get resp.requestID = some resp := by
      rw [hget, if_pos rfl]
    obtain ⟨-, hlive⟩ := hanswered _ _ hself
    refine ⟨hlive, fun resp' hresp' => ?_⟩
    rcases hkept _ _ hresp' with hnone | ⟨hsome, -⟩
    · exact absurd (hself.symm.trans hnone) (some_ne_none _)
    · exact Option.some.inj (hsome.symm.trans hself)
  · rintro ⟨hlive, hother⟩
    constructor
    · intro id resp' hresp'
      rw [hget] at hresp'
      split at hresp'
      · next hid =>
        obtain rfl := Option.some.inj hresp'
        exact ⟨hid.symm, hid ▸ hlive⟩
      · exact h id resp' hresp'
    · intro id resp' hresp'
      refine .inr ⟨?_, rfl⟩
      rw [hget]
      split
      · next hid => rw [hother resp' (hid ▸ hresp')]
      · exact hresp'

theorem Answered.evict (h : s.Answered) (now : Int) :
    (s.evict now).Answered ∧ s.Kept (s.evict now) := by
  constructor
  · intro id resp hresp
    rw [OID4VPStore.evict, Map.get_filterKeys] at hresp
    split at hresp
    · next hkept =>
      rw [OID4VPStore.evict, Map.get_filterKeys, if_pos hkept]
      exact h id resp hresp
    · cases hresp
  · intro id resp hresp
    rw [OID4VPStore.evict, Map.get_filterKeys, Map.get_filterKeys]
    split
    · exact .inr ⟨hresp, rfl⟩
    · exact .inl rfl

theorem Answered.write_iff (h : s.Answered) (w : VPWrite) :
    (s.write w).Answered ∧ s.Kept (s.write w) ↔ s.Matches w := by
  cases w with
  | nothing => exact iff_of_true ⟨h, kept_refl s⟩ trivial
  | request req => exact h.request_iff req
  | response resp => exact h.response_iff resp
  | evict now => exact iff_of_true (h.evict now) trivial

theorem not_answered (id : Bytes) (h : (s.responses.get id).any (fun resp =>
      (s.requests.get id).all fun req => req.expiresAt < resp.receivedAt)) :
    ¬s.Answered := by
  intro hanswered
  obtain ⟨resp, hresp, hall⟩ := (any_eq_true ..).mp h
  obtain ⟨-, req, hreq, hlive⟩ := hanswered id resp hresp
  rw [hreq] at hall
  exact absurd (of_decide_eq_true hall) (not_lt.mpr hlive)

theorem not_kept {s' : OID4VPStore} (id : Bytes) (h : (s.responses.get id).any (fun resp =>
      (s'.responses.get id).any fun resp' => resp'.vpToken ≠ resp.vpToken)) :
    ¬s.Kept s' := by
  intro hkept
  obtain ⟨resp, hresp, hany⟩ := (any_eq_true ..).mp h
  obtain ⟨resp', hresp', hne⟩ := (any_eq_true ..).mp hany
  rcases hkept id resp hresp with hnone | ⟨hsome, -⟩
  · exact absurd (hresp'.symm.trans hnone) (some_ne_none _)
  · obtain rfl := Option.some.inj (hresp'.symm.trans hsome)
    exact of_decide_eq_true hne rfl

end Step

end OID4VPStore

/-- Responses match live requests in a run exactly if each posted one does when it comes. -/
theorem answered_iff_matches (pl : Platform) (calls : List Call) :
    EveryState (afterCall pl) (fun st => st.vp.Answered) .initial calls
        ∧ EveryStep (afterCall pl) (fun st c => st.vp.Kept (afterCall pl st c).vp) .initial calls
      ↔ EveryStep (afterCall pl) (fun st c => st.vp.Matches (c.vpWrite pl)) .initial calls := by
  refine everyState_and_everyStep_iff (fun st c h => ?_) fun _ _ hresp => ?_
  · rw [vp_afterCall]
    exact h.write_iff (c.vpWrite pl)
  · cases hresp

namespace Sample

def createVP : Call :=
  call 1 (.createVPRequest (some ⟨"did:web:verifier.example", .obj [], 60, []⟩))

def createdID : Bytes := (randomHex (env 1).rand 0 16).getD []

def postVP (vpToken state : Bytes) : Call :=
  call 2 (.postVPResponse (post [("vp_token", vpToken), ("state", state)]))

def postLate : Call :=
  { postVP "vp" createdID with env := ⟨(env 2).rand, fun _ => 61 * second⟩ }

end Sample

open Sample

theorem responses_unmatched :
    ¬EveryState (afterCall platform) (fun st => st.vp.Answered) .initial [postVP "vp" "nobody"]
      ∧ ¬EveryState (afterCall platform) (fun st => st.vp.Answered) .initial [createVP, postLate]
      ∧ ¬EveryStep (afterCall platform)
        (fun st c => st.vp.Kept (afterCall platform st c).vp) .initial
        [createVP, postVP "first" createdID, postVP "second" createdID] := by
  refine ⟨fun h => ?_, fun h => ?_, fun h => ?_⟩
  · have hlast := everyState_last h
    exact OID4VPStore.not_answered "nobody" (by decide +kernel) hlast
  · have hlast := everyState_last h
    exact OID4VPStore.not_answered createdID (by decide +kernel) hlast
  · obtain ⟨-, -, hlast, -⟩ := h
    exact OID4VPStore.not_kept createdID (by decide +kernel) hlast

end TptIdentity.Oidc
