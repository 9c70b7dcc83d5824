import TptIdentity.ProviderRuns

/-!
# Device approvals

An approval overwrites the subject of an approved device code (`run_approve`), so the tokens are
those of the first approval exactly if every later one names the same subject
(`sticky_iff_sameSubject`).
-/

namespace TptIdentity.Oidc

open Go Store Proc Option

/-! ## Approvals and polls -/

inductive DeviceStep where
  | approve (r : Request)
  | poll (form : Map Bytes)

structure DeviceCall where
  env : Env
  faults : Faults
  step : DeviceStep

namespace DeviceCall

variable (p : Provider) (db : DB) (c : DeviceCall)

def run : Answer × DB :=
  match c.step with
  | .approve r => (deviceApproveHandler p c.env r).run c.faults db
  | .poll form => (handleDeviceGrant p c.env form).run c.faults db

def approval : Option (DeviceCode × Bytes) :=
  match c.step with
  | .approve r => do
    let form ← r.form
    let userCode := toUpper p.upper (param form "user_code")
    let subjectDID := param form "subject_did"
    if userCode = [] ∨ subjectDID = [] ∨ (c.faults 0).isSome then none
    else
      let dc ← db.deviceCodes.rows.find? fun dc => dc.userCode = userCode
      if c.env.clock 0 > dc.expiresAt ∨ (c.faults 1).isSome then none
      else some (dc, subjectDID)
  | .poll _ => none

end DeviceCall

def approved (db : DB) (dc : DeviceCode) (subjectDID : Bytes) : DB :=
  { db with
    deviceCodes := db.deviceCodes.update dc.deviceCode
      (DeviceCode.merge · { dc with subjectDID, approved := true })
      (DeviceCode.deviceCode_merge · { dc with subjectDID, approved := true }) }

variable {dc : DeviceCode} {db : DB} {subject : Option Bytes}

section Approve

variable (p : Provider) (db : DB) (env : Env) (faults : Faults) (r : Request)

theorem run_approve :
    ((deviceApproveHandler p env r).run faults db).1.success
        = ((DeviceCall.mk env faults (.approve r)).approval p db).isSome
      ∧ ((deviceApproveHandler p env r).run faults db).2
        = ((DeviceCall.mk env faults (.approve r)).approval p db).elim db
          fun granted => approved db granted.1 granted.2 := by
  simp only [deviceApproveHandler, DeviceCall.approval, bind_eq_bind]
  cases hform : r.form with
  | none => exact ⟨rfl, rfl⟩
  | some form =>
    simp only [bind_some]
    generalize toUpper p.upper (param form "user_code") = userCode
    generalize param form "subject_did" = subjectDID
    by_cases hnamed : userCode = [] ∨ subjectDID = []
    · rw [if_pos hnamed, if_pos (or_assoc.mp (.inl hnamed))]
      exact ⟨rfl, rfl⟩
    rw [if_neg hnamed, getDeviceCodeByUserCode, run_lookup_bind]
    cases hread : faults 0 with
    | some e =>
      rw [if_pos (.inr (.inr rfl))]
      exact ⟨rfl, rfl⟩
    | none =>
      rw [if_neg (by simpa [not_or] using hnamed)]
      cases hfind : db.deviceCodes.rows.find? fun dc => dc.userCode = userCode with
      | none => exact ⟨rfl, rfl⟩
      | some dc =>
        simp only [found, Res.wrapErr_ok, bind_some]
        by_cases hexpired : env.clock 0 > dc.expiresAt
        · rw [if_pos hexpired, if_pos (.inl hexpired)]
          exact ⟨rfl, rfl⟩
        have hupdate : updateDeviceCode { dc with subjectDID, approved := true }
            = query fun db => (.ok (), approved db dc subjectDID) := rfl
        rw [if_neg hexpired, hupdate, run_query_bind, Nat.zero_add]
        rcases eq_none_or_eq_some (faults 1) with hwrite | ⟨e, hwrite⟩
        · rw [if_neg (by simpa [hwrite] using hexpired), hwrite]
          exact ⟨rfl, rfl⟩
        · rw [if_pos (by simp [hwrite]), hwrite]
          exact ⟨rfl, rfl⟩

variable {p db}

theorem find_approved {userCode : Bytes} (subjectDID : Bytes)
    (hdc : db.deviceCodes.rows.find? (fun dc => dc.userCode = userCode) = some dc) (code : Bytes) :
    (approved db dc subjectDID).deviceCodes.find code
      = if code = dc.deviceCode then some { dc with subjectDID, approved := true }
        else db.deviceCodes.find code := by
  rw [approved, Table.find_update]
  split
  · next h =>
    rw [h, Table.mem_rows_iff.mp (List.mem_of_find?_eq_some hdc)]
    rfl
  · rfl

theorem find_of_approval {c : DeviceCall} {granted : DeviceCode × Bytes}
    (h : c.approval p db = some granted) :
    ∃ userCode, db.deviceCodes.rows.find? (fun dc => dc.userCode = userCode) = some granted.1 := by
  unfold DeviceCall.approval at h
  split at h
  · next r hstep =>
    obtain ⟨form, -, h⟩ := bind_eq_some_iff.mp h
    dsimp only at h
    split at h
    · cases h
    · obtain ⟨dc, hdc, h⟩ := bind_eq_some_iff.mp h
      split at h
      · cases h
      · obtain rfl := some.inj h
        exact ⟨_, hdc⟩
  · cases h

end Approve

/-! ## What a poll issues -/

def NamesSubject (token subjectDID : Bytes) : Prop :=
  ∃ claims, parseUnverified token = .ok claims ∧ claims.subject = coerce subjectDID

/-- What is issued between `db` and `db'` is for `subject`. A refresh token that is drawn again
keeps its subject. -/
structure IssuedFor (subject : Option Bytes) (db : DB) (a : Answer) (db' : DB) : Prop where
  signed : ∀ t ∈ a.signed, ∃ did, subject = some did ∧ NamesSubject t.token did
  refreshTokens : ∀ hash row, db'.refreshTokens.find hash = some row →
    (∃ old, db.refreshTokens.find hash = some old ∧ old.subjectDID = row.subjectDID)
      ∨ subject = some row.subjectDID

def approvedFor (db : DB) (code : Bytes) : Option Bytes :=
  (db.deviceCodes.find code).bind fun dc => if dc.approved then some dc.subjectDID else none

structure Polled (code : Bytes) (db : DB) (a : Answer) (db' : DB) : Prop where
  issued : IssuedFor (approvedFor db code) db a db'
  deviceCodes : ∀ code', db'.deviceCodes.find code' = db.deviceCodes.find code'
    ∨ db'.deviceCodes.find code' = none

variable {a : Answer}

section Poll

variable {p : Provider} {db db' : DB} {env : Env} {form : Map Bytes} {code : Bytes}

theorem issuedFor_of_eq (ha : ∀ t ∈ a.signed, ∃ did, subject = some did ∧ NamesSubject t.token did)
    (h : db'.refreshTokens = db.refreshTokens) : IssuedFor subject db a db' :=
  ⟨ha, fun _ row hrow => .inl ⟨row, h ▸ hrow, rfl⟩⟩

theorem issuedFor_none (ha : a.signed = []) (h : db'.refreshTokens = db.refreshTokens) :
    IssuedFor subject db a db' :=
  issuedFor_of_eq (ha ▸ List.forall_mem_nil _) h

theorem issuedFor_put {t : RefreshToken}
    (ha : ∀ t' ∈ a.signed, ∃ did, some t.subjectDID = some did ∧ NamesSubject t'.token did)
    (h : db'.refreshTokens = (db.putRefreshToken t).refreshTokens) :
    IssuedFor (some t.subjectDID) db a db' := by
  refine ⟨ha, fun hash row hrow => ?_⟩
  rw [h, DB.find_putRefreshToken] at hrow
  split at hrow
  · cases hold : db.refreshTokens.find hash with
    | none =>
      rw [hold] at hrow
      obtain rfl := some.inj hrow
      exact .inr rfl
    | some old =>
      rw [hold] at hrow
      obtain rfl := some.inj hrow
      exact .inl ⟨old, rfl, rfl⟩
  · exact .inl ⟨row, hrow, rfl⟩

theorem polled_delete (h : IssuedFor (approvedFor db code) db a db')
    (hcodes : db'.deviceCodes = db.deviceCodes.delete code) : Polled code db a db' := by
  refine ⟨h, fun code' => ?_⟩
  rw [hcodes, Table.find_delete]
  split
  · exact .inr rfl
  · exact .inl rfl

theorem polled_issueDeviceTokens (h : approvedFor db code = some dc.subjectDID) :
    (issueDeviceTokens p env code dc).wp (Polled code db) db := by
  refine wp_issueDeviceTokens (fun signed hsigned => ?_) ?_
  · refine ⟨issuedFor_of_eq (fun t ht => ⟨dc.subjectDID, h, ?_⟩) rfl, fun _ => .inl rfl⟩
    exact ⟨_, parseUnverified_accessToken (hsigned t ht), rfl⟩
  · intro access raw hash haccess _ codes hcodes
    have hissued : IssuedFor (approvedFor db code) db
        ⟨tokenResponse access.token [] raw dc.scope accessTokenTTL, [access]⟩
        { db.putRefreshToken (deviceRefreshToken env dc hash) with deviceCodes := codes } := by
      rw [h]
      refine issuedFor_put (t := deviceRefreshToken env dc hash) ?_ rfl
      exact List.forall_mem_singleton.mpr
        ⟨_, rfl, _, parseUnverified_accessToken haccess, rfl⟩
    rcases hcodes with rfl | rfl
    · exact ⟨hissued, fun _ => .inl rfl⟩
    · exact polled_delete hissued rfl

theorem polled_handleDeviceGrant :
    (handleDeviceGrant p env form).wp (Polled (param form "device_code") db) db := by
  refine wp_handleDeviceGrant (fun _ _ => ⟨issuedFor_none rfl rfl, fun _ => .inl rfl⟩)
    (fun _ _ => polled_delete (issuedFor_none rfl rfl) rfl) fun dc hfind happroved => ?_
  refine polled_issueDeviceTokens ?_
  rw [approvedFor, hfind, bind_some, if_pos happroved]

end Poll

/-! ## Runs -/

structure Flow where
  db : DB
  first : Option Bytes

variable {s : Flow}

def Flow.start (code : Bytes) (db : DB) : Flow := ⟨db, approvedFor db code⟩

section Runs

variable (p : Provider) (code : Bytes)

def DeviceCall.approves (db : DB) (c : DeviceCall) : Option Bytes :=
  (c.approval p db).bind fun granted =>
    if granted.1.deviceCode = code then some granted.2 else none

def Flow.next (s : Flow) (c : DeviceCall) : Flow :=
  ⟨(c.run p s.db).2, s.first.or (c.approves p code s.db)⟩

/-- The code, if it is there, is not approved for another subject than at first. -/
def Flow.Sticky (s : Flow) : Prop :=
  s.db.deviceCodes.find code ≠ none → approvedFor s.db code = s.first

def Flow.IssuesForFirst (s : Flow) (c : DeviceCall) : Prop :=
  ∀ form, c.step = .poll form → param form "device_code" = code →
    IssuedFor s.first s.db (c.run p s.db).1 (c.run p s.db).2

def Flow.SameSubject (s : Flow) (c : DeviceCall) : Prop :=
  ∀ did did', approvedFor s.db code = some did → c.approves p code s.db = some did' → did' = did

end Runs

section Runs

variable {p : Provider} {code : Bytes}

theorem IssuedFor.mono {subject' : Option Bytes} {db' : DB} (h : IssuedFor subject db a db')
    (hsubject : ∀ did, subject = some did → subject' = some did) : IssuedFor subject' db a db' := by
  refine ⟨fun t ht => ?_,
    fun hash row hrow => (h.refreshTokens hash row hrow).imp_right (hsubject _)⟩
  obtain ⟨did, hdid, hnames⟩ := h.signed t ht
  exact ⟨did, hsubject did hdid, hnames⟩

theorem find_of_approvedFor {did : Bytes} (h : approvedFor db code = some did) :
    db.deviceCodes.find code ≠ none := by
  intro hnone
  rw [approvedFor, hnone] at h
  cases h

theorem Flow.Sticky.issuesForFirst (h : s.Sticky code) (c : DeviceCall) :
    s.IssuesForFirst p code c := by
  rintro form hstep rfl
  rw [DeviceCall.run, hstep]
  refine (wp_run polled_handleDeviceGrant c.faults).issued.mono fun did hdid => ?_
  rw [← h (find_of_approvedFor hdid), hdid]

theorem approvedFor_run (db : DB) (c : DeviceCall) :
    (c.run p db).2.deviceCodes.find code = none ∧ c.approves p code db = none
      ∨ db.deviceCodes.find code ≠ none
        ∧ approvedFor (c.run p db).2 code = (c.approves p code db).or (approvedFor db code) := by
  obtain ⟨env, faults, step⟩ := c
  -- what is left to show when the request approves another code or none
  have hkept : ∀ {db' : DB} {named : Option Bytes}, named = none →
      db'.deviceCodes.find code = db.deviceCodes.find code →
      db'.deviceCodes.find code = none ∧ named = none
        ∨ db.deviceCodes.find code ≠ none
          ∧ approvedFor db' code = named.or (approvedFor db code) := by
    rintro db' _ rfl h
    by_cases hnone : db.deviceCodes.find code = none
    · exact .inl ⟨h.trans hnone, rfl⟩
    · exact .inr ⟨hnone, by rw [approvedFor, h, none_or, approvedFor]⟩
  cases step with
  | approve r =>
    have hrun := (run_approve p db env faults r).2
    rw [DeviceCall.approves]
    cases happroval : (DeviceCall.mk env faults (.approve r)).approval p db with
    | none =>
      rw [happroval, elim_none] at hrun
      exact hkept rfl (congrArg (fun db => db.deviceCodes.find code) hrun)
    | some granted =>
      obtain ⟨userCode, hdc⟩ := find_of_approval happroval
      rw [happroval, elim_some] at hrun
      have hfind := find_approved granted.2 hdc code
      rw [bind_some]
      by_cases hcode : code = granted.1.deviceCode
      · have hold : db.deviceCodes.find code ≠ none := by
          rw [hcode, Table.mem_rows_iff.mp (List.mem_of_find?_eq_some hdc)]
          exact some_ne_none _
        rw [← hrun, if_pos hcode] at hfind
        rw [if_pos hcode.symm, some_or]
        exact .inr ⟨hold, congrArg (Option.bind · _) hfind⟩
      · rw [← hrun, if_neg hcode] at hfind
        exact hkept (if_neg (Ne.symm hcode)) hfind
  | poll form =>
    have hpolled : Polled _ db _ (DeviceCall.run p db ⟨env, faults, .poll form⟩).2 :=
      wp_run polled_handleDeviceGrant faults
    rcases hpolled.deviceCodes code with hsame | hgone
    · exact hkept rfl hsame
    · exact .inl ⟨hgone, rfl⟩

theorem sticky_next_iff (h : s.Sticky code) (c : DeviceCall) :
    (s.next p code c).Sticky code ∧ s.IssuesForFirst p code c ↔ s.SameSubject p code c := by
  constructor
  · rintro ⟨hnext, -⟩ did did' hdid happroves
    have hfirst : (s.next p code c).first = some did := by
      rw [Flow.next, ← h (find_of_approvedFor hdid), hdid, some_or]
    have hnow : approvedFor (s.next p code c).db code = some did' := by
      rcases approvedFor_run s.db c with ⟨-, hnone⟩ | ⟨-, hrun⟩
      · rw [happroves] at hnone
        cases hnone
      · rw [Flow.next, hrun, happroves, some_or]
    exact some.inj (hnow.symm.trans ((hnext (find_of_approvedFor hnow)).trans hfirst))
  · intro hsame
    refine ⟨fun hfind => ?_, h.issuesForFirst c⟩
    rcases approvedFor_run s.db c with ⟨hnone, -⟩ | ⟨hold, hrun⟩
    · exact absurd hnone hfind
    · change approvedFor (c.run p s.db).2 code = s.first.or (c.approves p code s.db)
      rw [hrun, h hold]
      cases happroves : c.approves p code s.db with
      | none => rw [none_or, or_none]
      | some did' =>
        cases hfirst : s.first with
        | none => rfl
        | some did => rw [hsame did did' ((h hold).trans hfirst) happroves]

theorem not_issuesForFirst {c : DeviceCall} {form : Map Bytes} (did : Bytes)
    (hstep : c.step = .poll form) (hcode : param form "device_code" = code)
    (hfirst : s.first = some did) (hother : (c.run p s.db).1.signed.any (fun t =>
      (parseUnverified t.token).toOption.any fun claims => claims.subject ≠ coerce did)) :
    ¬s.IssuesForFirst p code c := by
  intro h
  obtain ⟨t, ht, hread⟩ := List.any_eq_true.mp hother
  obtain ⟨claims, hclaims, hne⟩ := (any_eq_true ..).mp hread
  obtain ⟨did', hdid', claims', hclaims', hsubject⟩ := (h form hstep hcode).signed t ht
  obtain rfl := some.inj (hfirst.symm.trans hdid')
  obtain rfl := Res.ok.inj ((Res.toOption_eq_some.mp hclaims).symm.trans hclaims')
  exact of_decide_eq_true hne hsubject

/-- The first approval stays in force in a run exactly if all later ones name its subject. -/
theorem sticky_iff_sameSubject (p : Provider) (code : Bytes) (db : DB) (calls : List DeviceCall) :
    EveryState (Flow.next p code) (Flow.Sticky code) (.start code db) calls
        ∧ EveryStep (Flow.next p code) (Flow.IssuesForFirst p code) (.start code db) calls
      ↔ EveryStep (Flow.next p code) (Flow.SameSubject p code) (.start code db) calls :=
  everyState_and_everyStep_iff (fun _ c h => sticky_next_iff h c) fun _ => rfl

end Runs

namespace Sample

def pendingDevice : DB :=
  ((saveDeviceCode ⟨"device", "AAAA-AAAA", "tv", [], [], false, false, deviceCodeTTL,
    devicePollInterval, 0⟩).run (fun _ => none) .empty).2

def approveFor (did : Bytes) : DeviceCall :=
  ⟨env 1, fun _ => none, .approve (post [("user_code", "AAAA-AAAA"), ("subject_did", did)])⟩

def pollForm : Map Bytes := Map.empty.set "device_code" "device"

def overwriting : List DeviceCall :=
  [approveFor "did:key:z1", approveFor "did:key:z2", ⟨env 2, fun _ => none, .poll pollForm⟩]

end Sample

open Sample

theorem approval_overwritten :
    ¬EveryStep (Flow.next provider "device") (Flow.IssuesForFirst provider "device")
      (.start "device" pendingDevice) overwriting := by
  intro h
  obtain ⟨-, -, hpoll, -⟩ := h
  exact not_issuesForFirst "did:key:z1" rfl (by decide +kernel) (by decide +kernel)
    (by decide +kernel) hpoll

end TptIdentity.Oidc
