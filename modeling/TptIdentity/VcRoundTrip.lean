import TptIdentity.VcCredential

/-!
# Credentials survive JSON

A credential that is written as JSON and read again has its strings coerced to UTF-8, and
nothing that is verified changes (`Credential.norm_coerced`). So what `Issue` signed is accepted
after any number of round trips (`verify_of_trips`).
-/

namespace TptIdentity.Vc

open Go List Option Res

/-! ## What is read for a struct -/

def CredentialStatus.coerced (s : CredentialStatus) : CredentialStatus :=
  ⟨coerce s.id, coerce s.type, coerce s.statusPurpose, s.statusListIndex,
    coerce s.statusListCredential⟩

def CredentialSubject.coerced (s : CredentialSubject) : CredentialSubject :=
  ⟨coerce s.id, s.claims.coerced⟩

def CredentialSchema.coerced (s : CredentialSchema) : CredentialSchema :=
  ⟨coerce s.id, coerce s.type⟩

def Credential.coerced (c : Credential) : Credential where
  context := c.context.map (map coerce)
  id := coerce c.id
  type := c.type.map (map coerce)
  issuer := coerce c.issuer
  validFrom := c.validFrom
  validUntil := c.validUntil
  credentialSubject := c.credentialSubject.coerced
  credentialSchema := c.credentialSchema.map CredentialSchema.coerced
  credentialStatus := c.credentialStatus.map CredentialStatus.coerced

variable {db : Store.DB} {cred : Credential} {data vmID pub : Bytes} {R : Resolver} {v : Verifier}
  (p : Proof)

def Proof.coerced : Proof :=
  ⟨coerce p.type, coerce p.cryptosuite, coerce p.created, coerce p.verificationMethod,
    coerce p.proofPurpose, coerce p.proofValue⟩

def VerifiableCredential.coerced (vc : VerifiableCredential) : VerifiableCredential :=
  ⟨vc.toCredential.coerced, vc.proof.map Proof.coerced⟩

/-! ## What is written for a struct -/

def CredentialStatus.fields (s : CredentialStatus) : Fields :=
  [("id", some (.str s.id)), ("type", some (.str s.type)),
    ("statusPurpose", some (.str s.statusPurpose)),
    ("statusListIndex", some (.int s.statusListIndex.toInt)),
    ("statusListCredential", some (.str s.statusListCredential))]

def CredentialSubject.fields (s : CredentialSubject) : Fields :=
  [("id", some (.str s.id)), ("claims", mapped s.claims)]

def CredentialSchema.fields (s : CredentialSchema) : Fields :=
  [("id", some (.str s.id)), ("type", some (.str s.type))]

def Credential.fields (c : Credential) : Fields :=
  [("@context", some (stringsValue c.context)), ("id", omitted c.id),
    ("type", some (stringsValue c.type)), ("issuer", some (.str c.issuer)),
    ("validFrom", some (timeValue c.validFrom)), ("validUntil", c.validUntil.map timeValue),
    ("credentialSubject", some c.credentialSubject.value),
    ("credentialSchema", c.credentialSchema.map CredentialSchema.value),
    ("credentialStatus", c.credentialStatus.map CredentialStatus.value)]

def Proof.fields : Fields :=
  [("type", some (.str p.type)), ("cryptosuite", omitted p.cryptosuite),
    ("created", some (.str p.created)), ("verificationMethod", some (.str p.verificationMethod)),
    ("proofPurpose", some (.str p.proofPurpose)), ("proofValue", some (.str p.proofValue))]

variable (s : CredentialSubject)

theorem CredentialSubject.value_eq : s.value = .obj s.fields.members := by
  simp only [value, fields, Fields.members_cons, Fields.members_nil, optionalStringMap_eq,
    append_nil]
  rfl

theorem Credential.members_eq (c : Credential) : c.members = c.fields.members := by
  simp only [members, fields, Fields.members_cons, Fields.members_nil, omitEmpty_eq, optionalTime,
    optional_eq, append_assoc, append_nil]
  rfl

theorem Proof.value_eq : p.value = .obj p.fields.members := by
  simp only [value, fields, Fields.members_cons, Fields.members_nil, omitEmpty_eq]
  rfl

/-! ## Reading -/

theorem CredentialStatus.decode_value (s : CredentialStatus) :
    decodeStruct assign s.value.wire zero = some s.coerced := by
  rw [value, decodeStruct_wire]
  simp +decide [assign, decodeStr_wire_str, decodeInt64_wire, coerced]

theorem CredentialSchema.decode_value (s : CredentialSchema) :
    decodeStruct assign s.value.wire zero = some s.coerced := by
  rw [value, decodeStruct_wire]
  simp +decide [assign, decodeStr_wire_str, coerced]

theorem CredentialSubject.decode_value :
    decodeStruct assign s.value.wire zero = some s.coerced := by
  rw [value_eq]
  refine decodeStruct_of_reads ?_
  refine reads_field (decodeStr_wire_str [] _) ?_
  exact reads_field (readsAs_mapped _) (reads_nil _)

theorem Proof.decode_value : decodeStruct assign p.value.wire zero = some p.coerced := by
  rw [value_eq]
  refine decodeStruct_of_reads ?_
  refine reads_field (decodeStr_wire_str [] _) ?_
  refine reads_field (readsAs_omitted _) ?_
  refine reads_field (decodeStr_wire_str [] _) ?_
  refine reads_field (decodeStr_wire_str [] _) ?_
  refine reads_field (decodeStr_wire_str [] _) ?_
  exact reads_field (decodeStr_wire_str [] _) (reads_nil _)

theorem Proof.readsAs_ptr (o : Option Proof) :
    ReadsAs (decodePtr (decodeStruct assign) zero · none) none (o.map value) (o.map coerced) := by
  refine Go.readsAs_ptr fun p _ => ⟨?_, p.decode_value⟩
  exact Json.noConfusion

structure Credential.Dated (c : Credential) : Prop where
  validFrom : (timeValue c.validFrom).supported = true ∧ c.validFrom.Regular
  validUntil : ∀ t ∈ c.validUntil, (timeValue t).supported = true ∧ t.Regular

variable {c : Credential}

theorem Credential.reads_members (h : c.Dated) : Reads assign c.members zero c.coerced := by
  have hschema : ReadsAs _ none (c.credentialSchema.map CredentialSchema.value)
      (c.credentialSchema.map CredentialSchema.coerced) :=
    readsAs_ptr fun s _ => ⟨Json.noConfusion, s.decode_value⟩
  have hstatus : ReadsAs _ none (c.credentialStatus.map CredentialStatus.value)
      (c.credentialStatus.map CredentialStatus.coerced) :=
    readsAs_ptr fun s _ => ⟨Json.noConfusion, s.decode_value⟩
  have hsubject : ReadsAs (decodeStruct CredentialSubject.assign · .zero) .zero
      (some c.credentialSubject.value) _ := c.credentialSubject.decode_value
  rw [members_eq]
  refine reads_field (decodeStrings_wire _) ?_
  refine reads_field (readsAs_omitted _) ?_
  refine reads_field (decodeStrings_wire _) ?_
  refine reads_field (decodeStr_wire_str [] _) ?_
  refine reads_field (decodeTime_wire _ h.validFrom.1 h.validFrom.2) ?_
  refine reads_field (readsAs_time h.validUntil) ?_
  refine reads_field hsubject ?_
  refine reads_field hschema ?_
  exact reads_field hstatus (reads_nil _)

def Credential.names : List Bytes :=
  ["@context", "id", "type", "issuer", "validFrom", "validUntil",
    "credentialSubject", "credentialSchema", "credentialStatus"]

theorem Credential.mem_names (c : Credential) : ∀ e ∈ c.members, e.1 ∈ names := by
  rw [members_eq]
  exact Fields.name_mem

theorem Credential.supported_times (h : c.value.supported) :
    (timeValue c.validFrom).supported
      ∧ ∀ t ∈ c.validUntil, (timeValue t).supported := by
  rw [value, members_eq] at h
  have hfields := Fields.supported_of_mem h
  simp only [fields, forall_mem_cons, Option.mem_some_iff, forall_eq',
    Option.forall_mem_map] at hfields
  obtain ⟨-, -, -, -, hfrom, huntil, -⟩ := hfields
  exact ⟨hfrom, huntil⟩

theorem reads_embedded {m : List (Bytes × Value)} {c' : Credential} (proof : Option Proof)
    (hnames : ∀ e ∈ m, e.1 ∈ Credential.names) (h : Reads Credential.assign m c c') :
    Reads VerifiableCredential.assign m ⟨c, proof⟩ ⟨c', proof⟩ := by
  have hproof : ∀ name ∈ Credential.names, foldName (coerce name) ≠ "proof" := by decide +kernel
  refine h.embed (fun c => VerifiableCredential.mk c proof) (fun name hname j c => ?_) hnames
  rw [VerifiableCredential.assign, if_neg (hproof name hname)]

theorem VerifiableCredential.decode_value {vc : VerifiableCredential} (h : vc.Dated) :
    decodeStruct assign vc.value.wire zero = some vc.coerced := by
  have hcred := reads_embedded none vc.mem_names (Credential.reads_members h)
  have hproof : Reads assign (vc.proof.toList.map fun p => ("proof", p.value))
      ⟨vc.toCredential.coerced, none⟩ vc.coerced :=
    reads_optional (by decide) (fun _ => rfl) rfl (Proof.readsAs_ptr _) rfl
  exact decodeStruct_of_reads (hcred.append hproof)

/-! ## Writing -/

theorem CredentialSubject.writable : s.value.Writable 2 := by
  rw [value_eq]
  refine writable_fields ?_
  simp only [fields, forall_mem_cons, mem_some_iff, forall_eq']
  exact ⟨writable_str 1 _, writable_mapped _, forall_mem_nil _⟩

theorem CredentialSubject.isSome_norm : ∀ f ∈ s.fields, ∀ v ∈ f.2, (v.norm).isSome := by
  simp only [fields, forall_mem_cons, mem_some_iff, forall_eq']
  refine ⟨rfl, fun v hv => ?_, forall_mem_nil _⟩
  rw [eq_of_mem_mapped hv, norm_stringMapValue]
  rfl

theorem CredentialSchema.writable (s : CredentialSchema) : s.value.Writable 1 :=
  writable_obj (forall_mem_cons.mpr
    ⟨writable_str 0 s.id, forall_mem_singleton.mpr (writable_str 0 s.type)⟩)

theorem CredentialStatus.writable (s : CredentialStatus) : s.value.Writable 1 := by
  refine writable_obj ?_
  simp only [forall_mem_cons]
  exact ⟨writable_str 0 _, writable_str 0 _, writable_str 0 _, writable_int 0 _, writable_str 0 _,
    forall_mem_nil _⟩

theorem Proof.writable : p.value.Writable 1 := by
  rw [value_eq]
  refine writable_fields ?_
  simp only [fields, forall_mem_cons, mem_some_iff, forall_eq']
  exact ⟨writable_str 0 _, writable_omitted 0 _, writable_str 0 _, writable_str 0 _,
    writable_str 0 _, writable_str 0 _, forall_mem_nil _⟩

theorem Credential.writable_members (h : c.Dated) : ∀ e ∈ c.members, e.2.Writable 2 := by
  have hstrings := fun l => (writable_stringsValue l).mono (show 1 ≤ 2 by decide)
  rw [members_eq]
  refine Fields.forall_members ?_
  simp only [fields, forall_mem_cons, Option.mem_some_iff, forall_eq', Option.forall_mem_map]
  exact ⟨hstrings _, writable_omitted 2 _, hstrings _, writable_str 2 _,
    writable_timeValue 2 h.validFrom.1, fun t ht => writable_timeValue 2 (h.validUntil t ht).1,
    c.credentialSubject.writable, fun s _ => s.writable.mono (by decide),
    fun s _ => s.writable.mono (by decide), forall_mem_nil _⟩

theorem Credential.writable (h : c.Dated) : c.value.Writable 3 :=
  writable_obj (writable_members h)

theorem VerifiableCredential.writable {vc : VerifiableCredential} (h : vc.Dated) :
    vc.value.Writable 3 :=
  writable_obj (forall_mem_append.mpr ⟨Credential.writable_members h,
    forall_mem_map.mpr fun p _ => p.writable.mono (by decide)⟩)

theorem VerifiableCredential.unmarshal_text {vc : VerifiableCredential} (h : vc.Dated) :
    unmarshal vc.value.text = .ok vc.coerced :=
  unmarshalInto_text (writable h) (by decide) (decode_value h)

/-! ## Canonical JSON -/

theorem CredentialStatus.norm_coerced (s : CredentialStatus) :
    s.coerced.value.norm = s.value.norm := by
  refine norm_obj_congr ?_
  simp only [forall₂_cons, forall₂_nil_right_iff, true_and, and_true]
  exact ⟨norm_str_coerce _, norm_str_coerce _, norm_str_coerce _, rfl, norm_str_coerce _⟩

theorem CredentialSchema.norm_coerced (s : CredentialSchema) :
    s.coerced.value.norm = s.value.norm := by
  refine norm_obj_congr ?_
  simp only [forall₂_cons, forall₂_nil_right_iff, true_and, and_true]
  exact ⟨norm_str_coerce _, norm_str_coerce _⟩

theorem CredentialSubject.norm_coerced : s.coerced.value.norm = s.value.norm := by
  rw [value_eq, value_eq]
  exact norm_fields_congr (.cons ⟨rfl, congrArg some (norm_str_coerce _)⟩
    (.cons ⟨rfl, norm_mapped_coerced s.claims⟩ .nil))

theorem Credential.norm_coerced (c : Credential) : c.coerced.value.norm = c.value.norm := by
  rw [value, value, members_eq, members_eq]
  refine norm_fields_congr ?_
  simp only [fields, forall₂_cons, forall₂_nil_right_iff, true_and, and_true, map_some, some_inj]
  exact ⟨norm_stringsValue_coerce _, norm_omitted_coerce _, norm_stringsValue_coerce _,
    norm_str_coerce _, rfl, rfl, c.credentialSubject.norm_coerced,
    norm_map_coerced CredentialSchema.norm_coerced _,
    norm_map_coerced CredentialStatus.norm_coerced _⟩

/-! ## Round trips -/

structure Alike (vc vc' : VerifiableCredential) : Prop where
  id : vc'.id = vc.id
  issuer : vc'.issuer = vc.issuer
  validFrom : vc'.validFrom = vc.validFrom
  validUntil : vc'.validUntil = vc.validUntil
  proof : vc'.proof = vc.proof
  norm : vc'.toCredential.value.norm = vc.toCredential.value.norm

structure VerifiableCredential.Readable (vc : VerifiableCredential) : Prop where
  id : validUtf8 vc.id = true
  issuer : validUtf8 vc.issuer = true
  proof : ∀ p ∈ vc.proof, p.coerced = p

theorem Alike.refl (vc : VerifiableCredential) : Alike vc vc := ⟨rfl, rfl, rfl, rfl, rfl, rfl⟩

theorem Alike.coerced {vc vc' : VerifiableCredential} (h : Alike vc vc') (hread : vc.Readable) :
    Alike vc vc'.coerced where
  id := (congrArg coerce h.id).trans (coerce_eq_self hread.id)
  issuer := (congrArg coerce h.issuer).trans (coerce_eq_self hread.issuer)
  validFrom := h.validFrom
  validUntil := h.validUntil
  proof := by
    show vc'.proof.map Proof.coerced = vc.proof
    rw [h.proof]
    cases hp : vc.proof with
    | none => rfl
    | some p => exact congrArg some (hread.proof p hp)
  norm := vc'.toCredential.norm_coerced.trans h.norm

theorem Credential.Dated.coerced (h : c.Dated) : c.coerced.Dated :=
  ⟨h.validFrom, h.validUntil⟩

open Store

inductive Trip where
  | json
  | store (db : DB)

def Trip.run (vc : VerifiableCredential) : Trip → Res VerifiableCredential
  | .json => do VerifiableCredential.unmarshal (← marshal vc.value)
  | .store db =>
    let saved := (saveCredential vc).run (fun _ => none) db
    saved.1.bind fun _ => ((getCredential vc.id).run (fun _ => none) saved.2).1

def Trip.Possible (id : Bytes) : Trip → Prop
  | .json => True
  | .store db => db.credentials.find id = none

def credentialRow (vc : VerifiableCredential) : CredentialRow :=
  ⟨vc.id, vc.credentialSubject.id, vc.validFrom.nanos, vc.value.text⟩

theorem run_saveCredential {vc : VerifiableCredential} (h : vc.Dated)
    (hfree : db.credentials.find vc.id = none) :
    (saveCredential vc).run (fun _ => none) db
      = (.ok (), { db with credentials := db.credentials.append (credentialRow vc) hfree }) := by
  have hinsert : db.credentials.insert (credentialRow vc)
      = (.ok (), db.credentials.append (credentialRow vc) hfree) := dif_pos hfree
  rw [saveCredential, marshal_eq_ok (VerifiableCredential.writable h).supported]
  exact congrArg (fun r : Res Unit × _ => (r.1, { db with credentials := r.2 })) hinsert

theorem run_getCredential {vc : VerifiableCredential} (h : vc.Dated)
    (hfind : db.credentials.find vc.id = some (credentialRow vc)) :
    ((getCredential vc.id).run (fun _ => none) db).1 = .ok vc.coerced := by
  show ((found (db.credentials.find vc.id)).wrapErr "get credential: %w" []).bind _ = _
  rw [hfind]
  exact VerifiableCredential.unmarshal_text h

theorem Trip.run_eq {vc : VerifiableCredential} (h : vc.Dated) {trip : Trip}
    (hpossible : trip.Possible vc.id) : trip.run vc = .ok vc.coerced := by
  cases trip with
  | json =>
    show (marshal vc.value).bind VerifiableCredential.unmarshal = _
    rw [marshal_eq_ok (VerifiableCredential.writable h).supported]
    exact VerifiableCredential.unmarshal_text h
  | store db =>
    show ((saveCredential vc).run (fun _ => none) db).1.bind _ = _
    rw [run_saveCredential h hpossible]
    have hfind := Table.find_append db.credentials (credentialRow vc) hpossible vc.id
    exact run_getCredential h (hfind.trans (if_pos rfl))

theorem foldlM_trips {vc : VerifiableCredential} (hread : vc.Readable) :
    ∀ {trips : List Trip} {vc' : VerifiableCredential}, Alike vc vc' → vc'.Dated →
      (∀ trip ∈ trips, trip.Possible vc.id) →
      ∃ vc'', trips.foldlM Trip.run vc' = .ok vc'' ∧ Alike vc vc'' ∧ vc''.Dated
  | [], vc', halike, hdated, _ => ⟨vc', rfl, halike, hdated⟩
  | trip :: trips, vc', halike, hdated, hpossible => by
    obtain ⟨htrip, htrips⟩ := forall_mem_cons.mp hpossible
    obtain ⟨vc'', hrest, h⟩ := foldlM_trips hread (halike.coerced hread) hdated.coerced htrips
    refine ⟨vc'', ?_, h⟩
    rw [foldlM_cons, Trip.run_eq hdated (halike.id ▸ htrip)]
    exact hrest

/-! ## Issued credentials -/

theorem hashData_ok {sha256 : Bytes → Bytes} {optionsFormat documentFormat : String} {p : Proof} :
    hashData sha256 optionsFormat documentFormat p cred = .ok data
      ↔ ∃ proofOptionsBytes documentBytes,
        Tptcrypto.jcs (stringMapValue p.options) = .ok proofOptionsBytes
        ∧ Tptcrypto.jcs cred.value = .ok documentBytes
        ∧ data = sha256 proofOptionsBytes ++ sha256 documentBytes := by
  unfold hashData
  rw [bind_eq_ok]
  constructor
  · rintro ⟨o, ho, h⟩
    obtain ⟨d, hd, hdata⟩ := bind_eq_ok.mp h
    rw [wrapErr_eq_ok] at ho hd
    exact ⟨o, d, ho, hd, (ok.inj hdata).symm⟩
  · rintro ⟨o, d, ho, hd, rfl⟩
    exact ⟨o, wrapErr_eq_ok.mpr ho, bind_eq_ok.mpr ⟨d, wrapErr_eq_ok.mpr hd, rfl⟩⟩

section Issue

variable {C : Crypto} {schemas : Schemas} {env : Oidc.Env} {opts : IssueOptions}
  {vc : VerifiableCredential}

theorem issue_ok (h : issue C schemas env opts = .ok vc) :
    ∃ uuid versionedSchemaID data, newUUID env.rand 0 = .ok uuid
      ∧ hashData C.sha256 "issue: jcs proof options: %w" "issue: jcs document: %w"
        (opts.proof (env.clock 0)) (opts.credential uuid versionedSchemaID (env.clock 0)) = .ok data
      ∧ vc = ⟨opts.credential uuid versionedSchemaID (env.clock 0),
        some { opts.proof (env.clock 0) with
          proofValue := encodeB64 (C.ed25519.sign opts.issuerKey data) }⟩ := by
  unfold issue at h
  rw [ite_err_eq_ok] at h
  obtain ⟨-, -, h⟩ := bind_eq_ok.mp h.2
  obtain ⟨s, -, h⟩ := bind_eq_ok.mp h
  obtain ⟨uuid, huuid, h⟩ := bind_eq_ok.mp h
  obtain ⟨data, hdata, h⟩ := bind_eq_ok.mp h
  obtain ⟨sig, hsig, h⟩ := bind_eq_ok.mp h
  refine ⟨uuid, s.versionedID, data, huuid, hdata, ?_⟩
  obtain ⟨-, rfl⟩ := Ed25519.signWith_eq_ok.mp hsig
  exact (ok.inj h).symm

theorem IssueOptions.dated {uuid versionedSchemaID : Bytes} {now : Int}
    (h : (opts.credential uuid versionedSchemaID now).value.supported) :
    (opts.credential uuid versionedSchemaID now).Dated := by
  obtain ⟨hfrom, huntil⟩ := Credential.supported_times h
  refine ⟨⟨hfrom, regular_utc hfrom⟩, fun t ht => ?_⟩
  have hsup := huntil t ht
  have hutc : ∃ nanos, t = .utc nanos := by
    simp only [credential] at ht
    split at ht
    · exact ⟨_, (mem_some_iff.mp ht).symm⟩
    · cases ht
  obtain ⟨nanos, rfl⟩ := hutc
  exact ⟨hsup, regular_utc hsup⟩

theorem issue_dated (h : issue C schemas env opts = .ok vc) : vc.Dated := by
  obtain ⟨uuid, versionedSchemaID, data, -, hdata, rfl⟩ := issue_ok h
  obtain ⟨o, d, -, hd, -⟩ := hashData_ok.mp hdata
  exact IssueOptions.dated (Tptcrypto.jcs_ok hd).1

theorem issue_readable (h : issue C schemas env opts = .ok vc) (hissuer : validUtf8 opts.issuerDID)
    (hmethod : validUtf8 opts.verificationMethodID) : vc.Readable := by
  obtain ⟨uuid, versionedSchemaID, data, huuid, -, rfl⟩ := issue_ok h
  have hid : IsAscii ("urn:uuid:" ++ uuid) :=
    isAscii_append.mpr ⟨by decide, isAscii_newUUID huuid⟩
  refine ⟨validUtf8_of_ascii hid, hissuer, ?_⟩
  rintro p hp
  obtain rfl := mem_some_iff.mp hp
  have htype : coerce "DataIntegrityProof" = "DataIntegrityProof" := by decide
  have hsuite : coerce "eddsa-jcs-2022" = "eddsa-jcs-2022" := by decide
  have hpurpose : coerce "assertionMethod" = "assertionMethod" := by decide
  simp only [Proof.coerced, IssueOptions.proof, coerce_rfc3339, coerce_eq_self hmethod,
    coerce_eq_self (validUtf8_encodeB64 _), htype, hsuite, hpurpose]

end Issue

/-! ## Verification -/

/-- The first method with the ID is not revoked and an Ed25519 key that decodes to `pub`. -/
def Document.Holds (R : Resolver) (doc : Document) (vmID pub : Bytes) : Prop :=
  ∃ vm mb, doc.verificationMethod.find? (fun vm => vm.id = vmID) = some vm ∧ vm.revoked = false
    ∧ vm.type = "Ed25519VerificationKey2020" ∧ vm.publicKeyMultibase = some mb
    ∧ decodeMultibaseEd25519 R mb = .ok pub

theorem extractEd25519Key_eq_ok {doc : Document} :
    extractEd25519Key R doc vmID = .ok pub ↔ doc.Holds R vmID pub := by
  constructor
  · intro h
    unfold extractEd25519Key at h
    split at h
    · next vm hfind =>
      rw [ite_err_eq_ok, ite_err_eq_ok] at h
      obtain ⟨hrevoked, htype, hkey⟩ := h
      split at hkey
      · next mb hmb =>
        exact ⟨vm, mb, hfind, Bool.eq_false_of_not_eq_true hrevoked, not_not.mp htype, hmb, hkey⟩
      · cases hkey
    · cases h
  · rintro ⟨vm, mb, hfind, hrevoked, htype, hmb, hkey⟩
    simp only [extractEd25519Key, hfind, hrevoked, htype, hmb, hkey, Bool.false_eq_true, if_false,
      ne_eq, not_true_eq_false]

theorem extractEd25519Key_of_holds {doc : Document} (h : doc.Holds R vmID pub) :
    extractEd25519Key R doc vmID = .ok pub ∧ pub.length = Ed25519.publicKeySize := by
  refine ⟨extractEd25519Key_eq_ok.mpr h, ?_⟩
  obtain ⟨vm, mb, -, -, -, -, hkey⟩ := h
  exact decodeMultibaseEd25519_length hkey

def VerifiableCredential.ValidAt (vc : VerifiableCredential) (now : Int) : Prop :=
  vc.validFrom.nanos ≤ now ∧ ∀ t ∈ vc.validUntil, now ≤ t.nanos

section Verify

variable {C : Crypto} {R : Resolver} {clock : Nat → Int} {vc : VerifiableCredential} {proof : Proof}

variable {sha512 : Bytes → Bytes}

theorem Verifier.verify_eq_ok :
    v.verify C sha512 clock vc = .ok () ↔ ∃ proof doc pub, vc.proof = some proof
      ∧ vc.validFrom.nanos ≤ clock 0 ∧ (∀ t ∈ vc.validUntil, clock 1 ≤ t.nanos)
      ∧ v.resolver.resolve vc.issuer = .ok doc
      ∧ extractEd25519Key v.resolver doc proof.verificationMethod = .ok pub
      ∧ verifySignature C sha512 pub vc.toCredential proof = .ok ()
      ∧ v.checkStatus vc = .ok () := by
  unfold Verifier.verify
  cases hproof : vc.proof with
  | none => simp
  | some proof =>
    have hlate : (¬∃ t ∈ vc.validUntil, t.nanos < clock 1) ↔
      ∀ t ∈ vc.validUntil, clock 1 ≤ t.nanos := by
      simp
    simp only [ite_err_eq_ok, bind_eq_ok, wrapErr_eq_ok, hlate, Int.not_lt]
    constructor
    · rintro ⟨hfrom, huntil, doc, hdoc, pub, hpub, _, hsig, hstatus⟩
      exact ⟨proof, doc, pub, rfl, hfrom, huntil, hdoc, hpub, hsig, hstatus⟩
    · rintro ⟨proof', doc, pub, hproof', hfrom, huntil, hdoc, hpub, hsig, hstatus⟩
      obtain rfl := some.inj hproof'
      exact ⟨hfrom, huntil, doc, hdoc, pub, hpub, (), hsig, hstatus⟩

theorem checkStatus_newVerifier (R : Resolver) (vc : VerifiableCredential) :
    (newVerifier R).checkStatus vc = .ok () := by
  unfold Verifier.checkStatus newVerifier
  cases vc.credentialStatus <;> rfl

theorem verify_expired (hproof : vc.proof = some proof) (hfrom : vc.validFrom.nanos ≤ clock 0)
    {t : Time} (ht : vc.validUntil = some t) (hlate : t.nanos < clock 1) :
    v.verify C sha512 clock vc = .err (.new "verify: credential has expired" []) := by
  simp only [Verifier.verify, hproof]
  rw [if_neg (Int.not_lt.mpr hfrom), if_pos ⟨t, ht, hlate⟩]

theorem verifyDataIntegrity_signed {sig : Bytes} (hlen : pub.length = Ed25519.publicKeySize)
    (hsig : decodeB64 proof.proofValue = .ok sig)
    (hdata : hashData C.sha256 "jcs proof options: %w" "jcs document: %w" proof cred = .ok data)
    (hverify : C.ed25519.verify pub data sig) : verifyDataIntegrity C pub cred proof = .ok () := by
  simp [verifyDataIntegrity, hsig, hdata, Ed25519.verifyWith, hlen, hverify]

theorem verify_signed {doc : Document} (hproof : vc.proof = some proof)
    (hvalid : ∀ i, vc.ValidAt (clock i)) (hdoc : R.resolve vc.issuer = .ok doc)
    (hholds : doc.Holds R proof.verificationMethod pub)
    (htype : proof.type = "DataIntegrityProof")
    (hsuite : proof.cryptosuite = "eddsa-jcs-2022")
    (hsigned : verifyDataIntegrity C pub vc.toCredential proof = .ok ()) :
    (newVerifier R).verify C sha512 clock vc = .ok () := by
  have hsignature : verifySignature C sha512 pub vc.toCredential proof = .ok () := by
    simp only [verifySignature, htype, hsuite, hsigned, and_self, if_true, wrapErr_ok]
  exact Verifier.verify_eq_ok.mpr ⟨proof, doc, pub, hproof, (hvalid 0).1, (hvalid 1).2, hdoc,
    (extractEd25519Key_of_holds hholds).1, hsignature, checkStatus_newVerifier R vc⟩

end Verify

/-- An issued credential is accepted in its period after any number of encodings and stores. -/
theorem verify_of_trips (C : Crypto) (sha512 : Bytes → Bytes) (schemas : Schemas) (env : Oidc.Env)
    (opts : IssueOptions) (vc : VerifiableCredential) (hissue : issue C schemas env opts = .ok vc)
    (hvalidFor : 0 ≤ opts.validFor) (hissuer : validUtf8 opts.issuerDID = true)
    (hmethod : validUtf8 opts.verificationMethodID = true) (R : Resolver) (doc : Document)
    (pub : Bytes) (hdoc : R.resolve opts.issuerDID = .ok doc)
    (hholds : doc.Holds R opts.verificationMethodID pub)
    (hkeys : C.ed25519.KeyPair opts.issuerKey pub) (trips : List Trip)
    (hpossible : ∀ trip ∈ trips, trip.Possible vc.id) :
    ∃ vc', trips.foldlM Trip.run vc = .ok vc'
      ∧ (∀ clock, (∀ i, vc.ValidAt (clock i)) → (newVerifier R).verify C sha512 clock vc' = .ok ())
      ∧ ∀ clock t, vc.validUntil = some t → (∀ i, t.nanos < clock i) →
        (newVerifier R).verify C sha512 clock vc'
          = .err (.new "verify: credential has expired" []) := by
  have hread := issue_readable hissue hissuer hmethod
  have hdated := issue_dated hissue
  obtain ⟨uuid, versionedSchemaID, data, -, hdata, rfl⟩ := issue_ok hissue
  obtain ⟨o, d, ho, hd, rfl⟩ := hashData_ok.mp hdata
  obtain ⟨vc', hrun, halike, hdated'⟩ := foldlM_trips hread (.refl _) hdated hpossible
  refine ⟨vc', hrun, fun clock hvalid => ?_, fun clock t ht hlate => ?_⟩
  · have hd' : Tptcrypto.jcs vc'.toCredential.value = .ok d :=
      Tptcrypto.jcs_congr (Credential.writable hdated').supported
        ((Credential.writable hdated').depth_le.trans (by decide)) halike.norm hd
    have hvalid' : ∀ i, vc'.ValidAt (clock i) := by
      intro i
      unfold VerifiableCredential.ValidAt
      rw [halike.validFrom, halike.validUntil]
      exact hvalid i
    refine verify_signed halike.proof hvalid' (halike.issuer.symm ▸ hdoc) hholds rfl rfl ?_
    exact verifyDataIntegrity_signed (extractEd25519Key_of_holds hholds).2 (decodeB64_encodeB64 _)
      (hashData_ok.mpr ⟨o, d, ho, hd', rfl⟩) (hkeys _)
  · have horder : (Time.utc (env.clock 0)).nanos ≤ t.nanos := by
      simp only [IssueOptions.credential] at ht
      split at ht
      · rw [← some.inj ht]
        exact Int.le_add_of_nonneg_right hvalidFor
      · cases ht
    refine verify_expired halike.proof ?_ (halike.validUntil.trans ht) (hlate 1)
    rw [halike.validFrom]
    exact horder.trans (Int.le_of_lt (hlate 0))

namespace SampleCredential

def schemas : Schemas where
  registry := Map.empty.set "s" ⟨"s", 1, "c", false, []⟩
  validate _ _ := .ok ()

def env : Oidc.Env := ⟨.of fun _ _ => 7, fun _ => 0⟩

def opts (issuerDID : Bytes) : IssueOptions where
  issuerDID := issuerDID
  issuerKey := replicate 64 1
  verificationMethodID := "k"
  subjectDID := "did:key:z1"
  schemaID := "s"
  claims := Map.empty.set "name" "Ada"
  validFor := 1000000000
  statusListCredential := []
  statusListIndex := 0

def doc : Document := ⟨[⟨"k", "Ed25519VerificationKey2020", some "z", false⟩]⟩

def resolver (issuerDID : Bytes) : Resolver where
  resolve did := if did = issuerDID then .ok doc else .err (.new "not found" [])
  multibaseDecode _ := .ok (0xed :: 0x01 :: replicate 32 1)

def issued (issuerDID : Bytes) : Res VerifiableCredential :=
  issue .standIn schemas env (opts issuerDID)

def accepted (issuerDID : Bytes) (vc : VerifiableCredential) : Bool :=
  ((newVerifier (resolver issuerDID)).verify .standIn (fun b => b) (fun _ => 0) vc).isOk

def unreadable : Bytes := str "did:web:" ++ [0xff]

def readable : Bytes := "did:web:i"

def vc : VerifiableCredential := (issued readable).getD .zero

theorem issued_readable : issued readable = .ok vc := by
  have hok : (issued readable).isOk := by decide +kernel
  obtain ⟨vc', hvc⟩ := isOk_iff.mp hok
  rw [vc, hvc]
  rfl

theorem validAt_vc : vc.ValidAt 0 := by
  obtain ⟨uuid, versionedSchemaID, data, -, -, hvc⟩ := issue_ok issued_readable
  rw [hvc]
  refine ⟨le_rfl, fun t ht => ?_⟩
  rw [← mem_some_iff.mp ht]
  decide

theorem holds_doc : doc.Holds (resolver readable) "k" (replicate 32 1) :=
  ⟨_, "z", rfl, rfl, rfl, rfl, by decide⟩

def trips : List Trip := [.json, .store .empty, .json]

end SampleCredential

open SampleCredential

theorem verify_after_trips :
    ((trips.foldlM Trip.run vc).toOption.map (accepted readable)) = some true := by
  obtain ⟨vc', hrun, hvalid, -⟩ := verify_of_trips .standIn (fun b => b) schemas
    env (opts readable) vc
    issued_readable (by decide) (by decide) (by decide)
    (resolver readable) doc
    (replicate 32 1) rfl holds_doc (fun _ => rfl)
    trips (by simp [trips, Trip.Possible]; rfl)
  rw [hrun]
  show some (isOk _) = _
  rw [hvalid (fun _ => 0) fun _ => validAt_vc]
  rfl

theorem verify_unreadable :
    ((issued unreadable).toOption.map (accepted unreadable)) = some true
      ∧ (((issued unreadable).bind (Trip.run · .json)).toOption.map
        (accepted unreadable)) = some false := by
  decide +kernel

end TptIdentity.Vc
