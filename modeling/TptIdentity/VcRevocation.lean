import TptIdentity.VcRoundTrip
import TptIdentity.VcStatusList

/-!
# Revocation and the verification endpoint

`POST /credentials/verify` builds its verifier without a status checker, so its answer is that
for a credential without a status (`checkStatus_newVerifier`).
-/

namespace TptIdentity.Vc

open Go Store List Option

/-! ## Publishing -/

variable {now : Int} {issuerKey : Bytes} {clock : Nat → Int} (C : Crypto) (gz : Gzip)
  (sha512 : Bytes → Bytes) (s : StatusList) (issuerDID : Bytes)

def StatusList.credential (s : StatusList) (issuerDID : Bytes) (now : Int) :
    Credential where
  context := some (defaultContext ++ [str "https://www.w3.org/ns/credentials/status/v1"])
  id := s.id
  type := some [typeVC, "BitstringStatusListCredential"]
  issuer := issuerDID
  validFrom := .utc now
  validUntil := none
  credentialSubject := ⟨s.id ++ "#list", Map.empty.setAll [("type", "BitstringStatusList"),
    ("statusPurpose", "revocation"), ("encodedList", s.encodedList gz)]⟩
  credentialSchema := none
  credentialStatus := none

def statusListProof (verificationMethodID : Bytes) (now : Int) : Proof where
  type := "DataIntegrityProof"
  cryptosuite := "eddsa-jcs-2022"
  created := (Time.utc now).rfc3339 false
  verificationMethod := verificationMethodID
  proofPurpose := "assertionMethod"
  proofValue := []

def issueStatusListVC (s : StatusList) (now : Int)
    (issuerDID issuerKey verificationMethodID : Bytes) : Res VerifiableCredential := do
  let cred := s.credential gz issuerDID now
  let proof := statusListProof verificationMethodID now
  let data ← hashData C.sha256 "status list vc: jcs proof options: %w"
    "status list vc: jcs document: %w" proof cred
  let sig ← C.ed25519.signWith issuerKey data
  return ⟨cred, some { proof with proofValue := encodeB64 sig }⟩

def publishedBits (db : DB) (id : Bytes) : Res Bytes := do
  let vc ← ((getCredential id).run (fun _ => none) db).1
  parseEncodedList gz ((vc.credentialSubject.claims.get "encodedList").getD [])

def saved (db : DB) (vc : VerifiableCredential) : Option DB :=
  match (saveCredential vc).run (fun _ => none) db with
  | (.ok _, db') => some db'
  | _ => none

theorem StatusList.claims_coerced (now : Int) :
    (s.credential gz issuerDID now).credentialSubject.claims.coerced
      = (s.credential gz issuerDID now).credentialSubject.claims := by
  refine Map.coerced_eq_self fun e he => ?_
  have hmem : e ∈ [(str "type", str "BitstringStatusList"), (str "statusPurpose", str "revocation"),
      (str "encodedList", s.encodedList gz)] := mem_of_mem_assocOf he
  simp only [mem_cons, not_mem_nil, or_false] at hmem
  rcases hmem with rfl | rfl | rfl
  · decide +kernel
  · decide +kernel
  · have hname : validUtf8 (str "encodedList") = true := by decide +kernel
    exact ⟨hname, validUtf8_encodeB64 _⟩

theorem StatusList.get_encodedList (now : Int) :
    (s.credential gz issuerDID now).credentialSubject.claims.get "encodedList"
      = some (s.encodedList gz) := by
  have hset : ∀ m : Map Bytes, (m.setAll [("type", "BitstringStatusList"),
      ("statusPurpose", "revocation"), ("encodedList", s.encodedList gz)]).get
        "encodedList" = some (s.encodedList gz) := by
    intro m
    rw [Map.get, Map.setAll, assoc_foldl]
    rfl
  exact hset _

theorem exists_issueStatusListVC (verificationMethodID : Bytes)
    (hnow : (timeValue (.utc now)).supported) (hkey : issuerKey.length = Ed25519.privateKeySize) :
    ∃ vc, issueStatusListVC C gz s now issuerDID issuerKey verificationMethodID = .ok vc
      ∧ vc.toCredential = s.credential gz issuerDID now := by
  have hdated : (s.credential gz issuerDID now).Dated :=
    ⟨⟨hnow, regular_utc hnow⟩, fun _ ht => absurd ht (not_mem_none _)⟩
  have hsubject : (((s.credential gz issuerDID now).credentialSubject.value).norm).isSome := by
    exact isSome_norm_fields (CredentialSubject.isSome_norm _)
  have hread : (((s.credential gz issuerDID now).value).norm).isSome := by
    rw [Credential.value, Credential.members_eq]
    refine isSome_norm_fields ?_
    simp only [Credential.fields, forall_mem_cons, mem_some_iff, forall_eq',
      timeValue_eq hdated.validFrom.1]
    have hnone : ∀ v : Value, v ∈ (none : Option Value) → (v.norm).isSome := fun _ hv =>
      absurd hv (not_mem_none _)
    refine ⟨isSome_norm_stringsValue _, fun v hv => ?_, isSome_norm_stringsValue _, rfl, rfl, hnone,
      hsubject, hnone, hnone, forall_mem_nil _⟩
    rw [eq_of_mem_omitted hv]
    rfl
  obtain ⟨w, hw⟩ := isSome_iff_exists.mp hread
  have hwritable := Credential.writable hdated
  have hdoc := Tptcrypto.jcs_eq hwritable.supported (hwritable.depth_le.trans (by decide)) hw
  have hoptions := writable_stringMapValue (statusListProof verificationMethodID now).options
  have hproof := Tptcrypto.jcs_eq hoptions.supported (hoptions.depth_le.trans (by decide))
    (norm_stringMapValue _)
  exact ⟨_, Res.bind_eq_ok.mpr ⟨_, hashData_ok.mpr ⟨_, _, hproof, hdoc, rfl⟩,
    Res.bind_eq_ok.mpr ⟨_, Ed25519.signWith_eq_ok.mpr ⟨hkey, rfl⟩, rfl⟩⟩, rfl⟩

theorem saved_of_free (db : DB) {vc : VerifiableCredential} (hdated : vc.Dated)
    (hfree : db.credentials.find vc.id = none) :
    ∃ db', saved db vc = some db'
      ∧ ((getCredential vc.id).run (fun _ => none) db').1 = .ok vc.coerced
      ∧ ∀ id ≠ vc.id, db.credentials.find id = none → db'.credentials.find id = none := by
  have hfind := fun id => Table.find_append db.credentials (credentialRow vc) hfree id
  refine ⟨{ db with credentials := db.credentials.append (credentialRow vc) hfree }, ?_,
    run_getCredential hdated ((hfind _).trans (if_pos rfl)), fun id hid hnone => ?_⟩
  · rw [saved, run_saveCredential hdated hfree]
  · exact (hfind id).trans ((if_neg hid).trans hnone)

theorem publishedBits_of_saved {gz : Gzip} (hgz : gz.Lossless) {list : StatusList}
    (hlen : list.bits.length ≤ 16 * 2 ^ 20) (issuerDID : Bytes) (verificationMethodID : Bytes)
    (hnow : (timeValue (.utc now)).supported) (hkey : issuerKey.length = Ed25519.privateKeySize)
    {db : DB} (hfree : db.credentials.find list.id = none) :
    ∃ vc db', issueStatusListVC C gz list now issuerDID issuerKey verificationMethodID = .ok vc
      ∧ saved db vc = some db' ∧ publishedBits gz db' list.id = .ok list.bits := by
  obtain ⟨vc, hvc, hcred⟩ :=
    exists_issueStatusListVC C gz list issuerDID verificationMethodID hnow hkey
  have hid : vc.id = list.id := congrArg Credential.id hcred
  have hdated : vc.Dated := by
    rw [hcred]
    exact ⟨⟨hnow, regular_utc hnow⟩, fun _ ht => absurd ht (not_mem_none _)⟩
  obtain ⟨db', hsaved, hget, -⟩ := saved_of_free db hdated (hid ▸ hfree)
  have hclaims : vc.coerced.credentialSubject.claims.get "encodedList"
      = some (list.encodedList gz) := by
    rw [VerifiableCredential.coerced, hcred]
    exact (congrArg (Map.get · _) (list.claims_coerced gz issuerDID now)).trans
      (list.get_encodedList gz issuerDID now)
  refine ⟨vc, db', hvc, hsaved, ?_⟩
  rw [publishedBits, ← hid, hget]
  show parseEncodedList gz ((vc.coerced.credentialSubject.claims.get _).getD []) = _
  rw [hclaims]
  exact parseEncodedList_encodedList hgz hlen

/-! ## The endpoint -/

def validResponse : Oidc.Response := .json 200 (.obj [("valid", .str "true")])

def verifyAnswer : Res Unit → Res Oidc.Response
  | .ok () => .ok validResponse
  | .err e => .ok (.json 422 (.obj [("error", .str e.text), ("valid", .str "false")]))
  | .panics reason => .panics reason

def handleVerifyCredential (R : Resolver) (clock : Nat → Int) :
    Res VerifiableCredential → Res Oidc.Response
  | .ok cred => verifyAnswer ((newVerifier R).verify C sha512 clock cred)
  | .err e => .ok (.error 400 ("bad request: " ++ e.text))
  | .panics reason => .panics reason

theorem verifyAnswer_valid {r : Res Unit} : verifyAnswer r = .ok validResponse ↔ r = .ok () := by
  cases r with
  | ok _ => exact iff_of_true rfl rfl
  | err e => simp [verifyAnswer, validResponse]
  | panics reason => simp [verifyAnswer]

theorem handleVerifyCredential_of_isOk {C : Crypto} {sha512 : Bytes → Bytes} {R : Resolver}
    {vc : VerifiableCredential} (h : ((newVerifier R).verify C sha512 clock vc).isOk) :
    handleVerifyCredential C sha512 R clock (.ok vc) = .ok validResponse := by
  obtain ⟨u, hu⟩ := Res.isOk_iff.mp h
  exact verifyAnswer_valid.mpr hu

/-! ## Runs -/

namespace StatusRuns

structure State where
  db : DB
  lists : Map StatusList
  issued : List VerifiableCredential

inductive Step where
  /-- `Issue` and `SaveCredential`. -/
  | issue (schemas : Schemas) (env : Oidc.Env) (opts : IssueOptions)
  | newList (id : Bytes) (size : Int64)
  | operate (id : Bytes) (op : Op)
  /-- `IssueStatusListVC` and `SaveCredential`. -/
  | publish (id : Bytes) (now : Int) (issuerDID issuerKey verificationMethodID : Bytes)
  /-- `DeleteCredential`. -/
  | delete (id : Bytes)
  | verify (R : Resolver) (clock : Nat → Int) (body : Res VerifiableCredential)

def next (st : State) : Step → State
  | .issue schemas env opts =>
    match Vc.issue C schemas env opts with
    | .ok vc =>
      match saved st.db vc with
      | some db => { st with db, issued := vc :: st.issued }
      | none => st
    | _ => st
  | .newList id size =>
    match newStatusList id size with
    | .ok list => { st with lists := st.lists.set id list }
    | _ => st
  | .operate id op =>
    match st.lists.get id with
    | some list => { st with lists := st.lists.set id (op.run list).2 }
    | none => st
  | .publish id now issuerDID issuerKey verificationMethodID =>
    match st.lists.get id with
    | some list =>
      match issueStatusListVC C gz list now issuerDID issuerKey verificationMethodID with
      | .ok vc => { st with db := (saved st.db vc).getD st.db }
      | _ => st
    | none => st
  | .delete id => { st with db := ((deleteCredential id).run (fun _ => none) st.db).2 }
  | .verify _ _ _ => st

structure Revoked (gz : Gzip) (st : State) (status : CredentialStatus) : Prop where
  live : ∃ list, st.lists.get status.statusListCredential = some list
    ∧ list.isRevoked status.statusListIndex = .ok true
  published : ∃ bits, publishedBits gz st.db status.statusListCredential = .ok bits
    ∧ checkStatus bits (some status) = .err (.new "credential is revoked" [])

def AsksRevoked (st : State) (body : Res VerifiableCredential) : Prop :=
  ∃ vc ∈ st.issued, body = .ok vc.coerced ∧ ∃ status, vc.credentialStatus = some status
    ∧ Revoked gz st status

def Refuses (gz : Gzip) (st : State) : Step → Prop
  | .verify R clock body => AsksRevoked gz st body →
      handleVerifyCredential C sha512 R clock body ≠ .ok validResponse
  | _ => True

def OtherwiseRefused (R : Resolver) (clock : Nat → Int) (vc : VerifiableCredential) : Prop :=
  clock 0 < vc.validFrom.nanos ∨ (∃ t ∈ vc.validUntil, t.nanos < clock 1)
    ∨ ¬ ∃ proof doc pub, vc.proof = some proof ∧ R.resolve vc.issuer = .ok doc
      ∧ extractEd25519Key R doc proof.verificationMethod = .ok pub
      ∧ verifySignature C sha512 pub vc.toCredential proof = .ok ()

def AsksLate (gz : Gzip) (st : State) : Step → Prop
  | .verify R clock body => AsksRevoked gz st body →
      ∀ vc, body = .ok vc → OtherwiseRefused C sha512 R clock vc
  | _ => True

theorem handleVerifyCredential_valid {C : Crypto} {sha512 : Bytes → Bytes} {R : Resolver}
    {vc : VerifiableCredential} :
    handleVerifyCredential C sha512 R clock (.ok vc) = .ok validResponse
      ↔ ¬ OtherwiseRefused C sha512 R clock vc := by
  rw [handleVerifyCredential, verifyAnswer_valid, Verifier.verify_eq_ok, OtherwiseRefused,
    not_or, not_or, not_not, Int.not_lt]
  constructor
  · rintro ⟨proof, doc, pub, hproof, hfrom, huntil, hdoc, hpub, hsig, -⟩
    refine ⟨hfrom, ?_, proof, doc, pub, hproof, hdoc, hpub, hsig⟩
    rintro ⟨t, ht, hlt⟩
    exact Int.not_lt.mpr (huntil t ht) hlt
  · rintro ⟨hfrom, huntil, proof, doc, pub, hproof, hdoc, hpub, hsig⟩
    refine ⟨proof, doc, pub, hproof, hfrom, fun t ht => ?_, hdoc, hpub, hsig,
      checkStatus_newVerifier R vc⟩
    exact Int.not_lt.mp fun hlt => huntil ⟨t, ht, hlt⟩

/-- A revoked credential is refused throughout a run exactly if each request for it comes when it is
refused anyway: the status is never looked up. -/
theorem refuses_iff_asksLate (gz : Gzip) (st : State) (steps : List Step) :
    EveryStep (next C gz) (Refuses C sha512 gz) st steps
      ↔ EveryStep (next C gz) (AsksLate C sha512 gz) st steps := by
  refine everyStep_congr (F := fun _ _ => True) (fun st step _ => ?_)
    (everyStep_of_forall fun _ _ => trivial)
  cases step with
  | verify R clock body =>
    refine forall_congr' fun hasks => ?_
    obtain ⟨vc, -, rfl, -⟩ := hasks
    rw [ne_eq, handleVerifyCredential_valid, not_not]
    exact ⟨fun h vc' hvc' => Res.ok.inj hvc' ▸ h, fun h => h _ rfl⟩
  | issue => exact Iff.rfl
  | newList => exact Iff.rfl
  | operate => exact Iff.rfl
  | publish => exact Iff.rfl
  | delete => exact Iff.rfl

theorem asksRevoked_of_steps {C : Crypto} {gz : Gzip} (hgz : gz.Lossless) {schemas : Schemas}
    {env : Oidc.Env} {opts : IssueOptions} {vc : VerifiableCredential}
    (hissue : issue C schemas env opts = .ok vc) (hcred : opts.statusListCredential ≠ [])
    (hne : opts.statusListCredential ≠ vc.id)
    (hidx : 0 ≤ opts.statusListIndex.toInt ∧ opts.statusListIndex.toInt < 131072)
    (issuerDID : Bytes) (verificationMethodID : Bytes) (hnow : (timeValue (.utc now)).supported)
    (hkey : issuerKey.length = Ed25519.privateKeySize) :
    AsksRevoked gz ([Step.newList opts.statusListCredential 0, .issue schemas env opts,
      .operate opts.statusListCredential (.revoke opts.statusListIndex),
      .publish opts.statusListCredential now issuerDID issuerKey verificationMethodID].foldl
        (next C gz) ⟨.empty, .empty, []⟩) (.ok vc.coerced) := by
  obtain ⟨list, hnew, hid, hsize⟩ := exists_newStatusList opts.statusListCredential
  have hin : list.InRange opts.statusListIndex := by
    rw [StatusList.InRange, hsize]
    exact hidx
  generalize hop : Op.revoke opts.statusListIndex = op
  have hid' : (op.run list).2.id = opts.statusListCredential := (op.id_run list).trans hid
  have hin' : (op.run list).2.InRange opts.statusListIndex := op.inRange_run.mpr hin
  have hlive : (op.run list).2.isRevoked opts.statusListIndex = .ok true := by
    have hset : opts.statusListIndex ∈ (op.run list).2.revokedSet := by
      rw [op.revokedSet_run, ← hop]
      exact .inr ⟨rfl, hin⟩
    exact hset
  have hlen : (op.run list).2.bits.length ≤ 16 * 2 ^ 20 := by
    have h := (op.run list).2.size_eq
    have h' := op.size_run list
    omega
  have hdated : vc.Dated := issue_dated hissue
  obtain ⟨db, hsaved, -, hfree⟩ := saved_of_free .empty hdated rfl
  obtain ⟨listVC, db', hlistVC, hsaved', hbits⟩ := publishedBits_of_saved C hgz hlen issuerDID
    verificationMethodID hnow hkey
      (show db.credentials.find _ = none from hid'.symm ▸ hfree _ hne rfl)
  have hget : (Map.empty.set opts.statusListCredential list).get opts.statusListCredential
      = some list := (Map.get_set ..).trans (if_pos rfl)
  have hget' : ((Map.empty.set opts.statusListCredential list).set opts.statusListCredential
      (op.run list).2).get opts.statusListCredential = some (op.run list).2 :=
    (Map.get_set ..).trans (if_pos rfl)
  simp only [foldl_cons, foldl_nil, next, hnew, hissue, hsaved, hget, hget', hlistVC, hsaved',
    getD_some]
  refine ⟨vc, List.mem_singleton.mpr rfl, rfl, ?_⟩
  obtain ⟨uuid, versionedSchemaID, data, -, -, rfl⟩ := issue_ok hissue
  refine ⟨_, if_pos hcred, ⟨_, hget', hlive⟩, _, hid' ▸ hbits, ?_⟩
  rw [checkStatus_of_inRange hin', if_pos hlive]

namespace Sample

def opts : IssueOptions :=
  { SampleCredential.opts SampleCredential.readable with
    statusListCredential := "l"
    statusListIndex := 3 }

def vc : VerifiableCredential :=
  (issue .standIn SampleCredential.schemas SampleCredential.env opts).getD .zero

def R : Resolver := SampleCredential.resolver SampleCredential.readable

def start : State := ⟨.empty, .empty, []⟩

def revoking : List Step := [
  .newList "l" 0,
  .issue SampleCredential.schemas SampleCredential.env opts,
  .operate "l" (.revoke 3),
  .publish "l" 0 SampleCredential.readable (List.replicate 64 1) "k"]

def verifying : Step := .verify R (fun _ => 0) (.ok vc.coerced)

theorem issued : issue .standIn SampleCredential.schemas SampleCredential.env opts = .ok vc := by
  have hok : (issue .standIn SampleCredential.schemas SampleCredential.env opts).isOk := by
    decide +kernel
  obtain ⟨vc', hvc⟩ := Res.isOk_iff.mp hok
  rw [vc, hvc]
  rfl

theorem answered :
    handleVerifyCredential .standIn (fun b => b) R (fun _ => 0) (.ok vc.coerced)
      = .ok validResponse := by
  have hok : ((newVerifier R).verify .standIn (fun b => b) (fun _ => 0) vc.coerced).isOk := by
    decide +kernel
  exact handleVerifyCredential_of_isOk hok

theorem asksRevoked : AsksRevoked storedGzip (revoking.foldl (next .standIn storedGzip) start)
    (.ok vc.coerced) :=
  asksRevoked_of_steps (fun _ => rfl) issued (by decide) (by decide +kernel) (by decide) _ _
    (by decide +kernel) rfl

end Sample

open StatusRuns.Sample

theorem verify_revoked :
    ¬ EveryStep (next .standIn storedGzip) (Refuses .standIn (fun b => b) storedGzip) start
      (revoking ++ [verifying]) := by
  intro h
  exact everyStep_at h asksRevoked answered

end StatusRuns

end TptIdentity.Vc
