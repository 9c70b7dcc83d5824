import TptIdentity.VcIntegrity

/-!
# Package vc: presentations

A holder signs the text of a presentation with the challenge and the domain of the verifier.
With valid UTF-8 and offsets in whole minutes it is accepted just for these
(`verifyPresentation_accepts`).
-/

namespace TptIdentity.Vc

open Go List Res Option

/-! ## The structs -/

/-- A presentation; credentials that are nil and an empty slice of them are the same list. -/
structure Presentation where
  context : Option (List Bytes)
  id : Bytes
  type : Option (List Bytes)
  holder : Bytes
  verifiableCredential : List VerifiableCredential
  challenge : Bytes
  domain : Bytes

structure VerifiablePresentation extends Presentation where
  proof : Option Proof

namespace Presentation

def zero : Presentation := ⟨none, [], none, [], [], [], []⟩

def credentialMembers (l : List VerifiableCredential) : List (Bytes × Value) :=
  if l = [] then [] else [("verifiableCredential", .arr (l.map VerifiableCredential.value))]

def members (p : Presentation) : List (Bytes × Value) :=
  (str "@context", stringsValue p.context) :: omitEmpty (str "id") p.id
    ++ [(str "type", stringsValue p.type)]
    ++ omitEmpty (str "holder") p.holder
    ++ credentialMembers p.verifiableCredential
    ++ omitEmpty (str "challenge") p.challenge
    ++ omitEmpty (str "domain") p.domain

def value (p : Presentation) : Value := .obj p.members

def assign (name : Bytes) (j : Json) (p : Presentation) : Option Presentation :=
  if name = "@context" then (decodeStrings p.context j).map fun x => { p with context := x }
  else if name = "id" then (decodeStr p.id j).map fun x => { p with id := x }
  else if name = "type" then (decodeStrings p.type j).map fun x => { p with type := x }
  else if name = "holder" then (decodeStr p.holder j).map fun x => { p with holder := x }
  else if name = "verifiablecredential" then
    (decodeList (decodeStruct VerifiableCredential.assign) .zero p.verifiableCredential j).map
      fun x => { p with verifiableCredential := x }
  else if name = "challenge" then
    (decodeStr p.challenge j).map fun x => { p with challenge := x }
  else if name = "domain" then (decodeStr p.domain j).map fun x => { p with domain := x }
  else some p

def names : List Bytes :=
  ["@context", "id", "type", "holder", "verifiableCredential", "challenge", "domain"]

end Presentation

namespace VerifiablePresentation

def zero : VerifiablePresentation := ⟨.zero, none⟩

def value (vp : VerifiablePresentation) : Value :=
  .obj (vp.members ++ vp.proof.toList.map fun p => (str "proof", p.value))

def assign (name : Bytes) (j : Json) (vp : VerifiablePresentation) :
    Option VerifiablePresentation :=
  if name = "proof" then
    (decodePtr (decodeStruct Proof.assign) .zero j vp.proof).map fun x => { vp with proof := x }
  else (vp.toPresentation.assign name j).map fun p => { vp with toPresentation := p }

def unmarshal (s : Bytes) : Res VerifiablePresentation :=
  unmarshalInto (decodeStruct assign) zero s

end VerifiablePresentation

/-! ## Presenting -/

structure PresentOptions where
  holderDID : Bytes
  holderKey : Bytes
  verificationMethodID : Bytes
  credentials : List VerifiableCredential
  challenge : Bytes
  domain : Bytes

def typeVP : Bytes := "VerifiablePresentation"

def PresentOptions.presentation (opts : PresentOptions) (uuid : Bytes) : Presentation where
  context := some defaultContext
  id := "urn:uuid:" ++ uuid
  type := some [typeVP]
  holder := opts.holderDID
  verifiableCredential := opts.credentials
  challenge := opts.challenge
  domain := opts.domain

def PresentOptions.proof (opts : PresentOptions) (now : Int) (sig : Bytes) : Proof where
  type := "Ed25519Signature2020"
  cryptosuite := []
  created := (Time.utc now).rfc3339 false
  verificationMethod := opts.verificationMethodID
  proofPurpose := "authentication"
  proofValue := encodeB64 sig

def present (E : Ed25519) (sha512 : Bytes → Bytes) (env : Oidc.Env) (opts : PresentOptions) :
    Res VerifiablePresentation :=
  if opts.credentials = [] then .err (.new "present: at least one credential required" [])
  else do
    let now := env.clock 0
    let uuid ← newUUID env.rand 0
    let pres := opts.presentation uuid
    let sig ← (Tptcrypto.signJSON sha512 E opts.holderKey pres.value).wrapErr "present sign: %w" []
    return ⟨pres, some (opts.proof now sig)⟩

/-! ## Verifying -/

structure VerifyPresentationOptions where
  expectedChallenge : Bytes
  expectedDomain : Bytes

/-- The loop from the `i`-th credential on; `clock i` is what `Verify` reads for it. -/
def Verifier.verifyAll (v : Verifier) (C : Crypto) (sha512 : Bytes → Bytes)
    (clock : Nat → Nat → Int) : Nat → List VerifiableCredential → Res Unit
  | _, [] => .ok ()
  | i, vc :: vcs => do
    (v.verify C sha512 (clock i) vc).wrapErr "verify presentation: credential[%d]: %w" [itoa i]
    v.verifyAll C sha512 clock (i + 1) vcs

def Verifier.verifyPresentation (v : Verifier) (C : Crypto) (sha512 : Bytes → Bytes)
    (clock : Nat → Nat → Int) (vp : VerifiablePresentation) (opts : VerifyPresentationOptions) :
    Res Unit :=
  match vp.proof with
  | none => .err (.new "verify presentation: no proof" [])
  | some proof =>
    if opts.expectedChallenge ≠ [] ∧ vp.challenge ≠ opts.expectedChallenge then
      .err (.new "verify presentation: challenge mismatch (replay attack?)" [])
    else if opts.expectedDomain ≠ [] ∧ vp.domain ≠ opts.expectedDomain then
      .err (.new "verify presentation: domain mismatch" [])
    else do
      let doc ← (v.resolver.resolve vp.holder).wrapErr
        "verify presentation: resolve holder DID: %w" []
      let pub ← (extractEd25519Key v.resolver doc proof.verificationMethod).wrapErr
        "verify presentation: %w" []
      let sig ← (decodeB64 proof.proofValue).wrapErr "verify presentation: decode proof: %w" []
      (Tptcrypto.verifyJSON sha512 C.ed25519 pub vp.toPresentation.value sig).wrapErr
        "verify presentation: signature invalid: %w" []
      v.verifyAll C sha512 clock 0 vp.verifiableCredential

/-! ## Strings and times -/

structure VerifiableCredential.Utf8 (vc : VerifiableCredential) : Prop where
  context : ∀ l ∈ vc.context, ∀ s ∈ l, validUtf8 s = true
  id : validUtf8 vc.id = true
  type : ∀ l ∈ vc.type, ∀ s ∈ l, validUtf8 s = true
  issuer : validUtf8 vc.issuer = true
  subjectID : validUtf8 vc.credentialSubject.id = true
  claims : ∀ e ∈ vc.credentialSubject.claims.entries, validUtf8 e.1 = true ∧ validUtf8 e.2 = true
  credentialSchema : ∀ s ∈ vc.credentialSchema, validUtf8 s.id = true ∧ validUtf8 s.type = true
  credentialStatus : ∀ s ∈ vc.credentialStatus, validUtf8 s.id = true ∧ validUtf8 s.type = true
    ∧ validUtf8 s.statusPurpose = true ∧ validUtf8 s.statusListCredential = true
  proof : ∀ p ∈ vc.proof, validUtf8 p.type = true ∧ validUtf8 p.cryptosuite = true
    ∧ validUtf8 p.created = true ∧ validUtf8 p.verificationMethod = true
    ∧ validUtf8 p.proofPurpose = true ∧ validUtf8 p.proofValue = true

structure PresentOptions.Utf8 (opts : PresentOptions) : Prop where
  holderDID : validUtf8 opts.holderDID = true
  verificationMethodID : validUtf8 opts.verificationMethodID = true
  credentials : ∀ vc ∈ opts.credentials, vc.Utf8
  challenge : validUtf8 opts.challenge = true
  domain : validUtf8 opts.domain = true

/-- The offsets of the times are in whole minutes, so that their texts say what they are. -/
structure VerifiableCredential.WholeMinutes (vc : VerifiableCredential) : Prop where
  validFrom : vc.validFrom.offset % 60 = 0
  validUntil : ∀ t ∈ vc.validUntil, t.offset % 60 = 0

theorem map_coerce_eq_self {l : Option (List Bytes)} (h : ∀ l' ∈ l, ∀ s ∈ l', validUtf8 s) :
    l.map (map coerce) = l := by
  cases l with
  | none => rfl
  | some l =>
    refine congrArg some ((map_congr_left fun s hs => ?_).trans (map_id _))
    exact coerce_eq_self (h l rfl s hs)

theorem option_map_eq_self {S : Type} {f : S → S} {o : Option S} (h : ∀ s ∈ o, f s = s) :
    o.map f = o := by
  cases o with
  | none => rfl
  | some s => exact congrArg some (h s rfl)

theorem VerifiableCredential.coerced_eq_self {vc : VerifiableCredential} (h : vc.Utf8) :
    vc.coerced = vc := by
  have hschema : vc.credentialSchema.map CredentialSchema.coerced = vc.credentialSchema := by
    refine option_map_eq_self fun s hs => ?_
    obtain ⟨hid, htype⟩ := h.credentialSchema s hs
    rw [CredentialSchema.coerced, coerce_eq_self hid, coerce_eq_self htype]
  have hstatus : vc.credentialStatus.map CredentialStatus.coerced = vc.credentialStatus := by
    refine option_map_eq_self fun s hs => ?_
    obtain ⟨hid, htype, hpurpose, hcred⟩ := h.credentialStatus s hs
    rw [CredentialStatus.coerced, coerce_eq_self hid, coerce_eq_self htype, coerce_eq_self hpurpose,
      coerce_eq_self hcred]
  have hproof : vc.proof.map Proof.coerced = vc.proof := by
    refine option_map_eq_self fun p hp => ?_
    obtain ⟨htype, hsuite, hcreated, hmethod, hpurpose, hvalue⟩ := h.proof p hp
    rw [Proof.coerced, coerce_eq_self htype, coerce_eq_self hsuite, coerce_eq_self hcreated,
      coerce_eq_self hmethod, coerce_eq_self hpurpose, coerce_eq_self hvalue]
  rw [coerced, Credential.coerced, CredentialSubject.coerced, map_coerce_eq_self h.context,
    coerce_eq_self h.id, map_coerce_eq_self h.type, coerce_eq_self h.issuer,
    coerce_eq_self h.subjectID, Map.coerced_eq_self h.claims, hschema, hstatus, hproof]

theorem VerifiableCredential.dated {vc : VerifiableCredential} (hsup : vc.value.supported)
    (h : vc.WholeMinutes) : vc.Dated := by
  have hmembers := forall_mem_append.mp (supportedMembers_iff.mp hsup)
  obtain ⟨hfrom, huntil⟩ := Credential.supported_times (supportedMembers_iff.mpr hmembers.1)
  exact ⟨⟨hfrom, regular_of_minutes hfrom h.validFrom⟩,
    fun t ht => ⟨huntil t ht, regular_of_minutes (huntil t ht) (h.validUntil t ht)⟩⟩

/-! ## Writing and reading -/

variable {p : Presentation}

namespace Presentation

def coerced (p : Presentation) : Presentation where
  context := p.context.map (map coerce)
  id := coerce p.id
  type := p.type.map (map coerce)
  holder := coerce p.holder
  verifiableCredential := p.verifiableCredential.map VerifiableCredential.coerced
  challenge := coerce p.challenge
  domain := coerce p.domain

def fields (p : Presentation) : Fields :=
  [("@context", some (stringsValue p.context)), ("id", omitted p.id),
    ("type", some (stringsValue p.type)), ("holder", omitted p.holder),
    ("verifiableCredential", listed VerifiableCredential.value p.verifiableCredential),
    ("challenge", omitted p.challenge), ("domain", omitted p.domain)]

theorem members_eq (p : Presentation) : p.members = p.fields.members := by
  have hcreds : credentialMembers p.verifiableCredential
      = optionalList "verifiableCredential" VerifiableCredential.value p.verifiableCredential := rfl
  simp only [members, hcreds, fields, Fields.members_cons, Fields.members_nil, omitEmpty_eq,
    optionalList_eq, append_assoc, append_nil]
  rfl

theorem reads_members (h : ∀ vc ∈ p.verifiableCredential, vc.Dated) :
    Reads assign p.members zero p.coerced := by
  have hcreds := readsAs_listed fun vc hvc => VerifiableCredential.decode_value (h vc hvc)
  rw [members_eq]
  refine reads_field (decodeStrings_wire _) ?_
  refine reads_field (readsAs_omitted _) ?_
  refine reads_field (decodeStrings_wire _) ?_
  refine reads_field (readsAs_omitted _) ?_
  refine reads_field hcreds ?_
  refine reads_field (readsAs_omitted _) ?_
  exact reads_field (readsAs_omitted _) (reads_nil _)

theorem writable_members (h : ∀ vc ∈ p.verifiableCredential, vc.Dated) :
    ∀ e ∈ p.members, e.2.Writable 4 := by
  have hstrings := fun l => (writable_stringsValue l).mono (show 1 ≤ 4 by decide)
  have hcreds := writable_listed fun vc hvc => VerifiableCredential.writable (h vc hvc)
  rw [members_eq]
  refine Fields.forall_members ?_
  simp only [fields, forall_mem_cons, mem_some_iff, forall_eq']
  exact ⟨hstrings _, writable_omitted 4 _, hstrings _, writable_omitted 4 _, hcreds,
    writable_omitted 4 _, writable_omitted 4 _, forall_mem_nil _⟩

theorem supported_credentials (h : p.value.supported) :
    ∀ vc ∈ p.verifiableCredential, vc.value.supported := by
  intro vc hvc
  rw [value, members_eq] at h
  have hlisted : listed VerifiableCredential.value p.verifiableCredential
      = some (.arr (p.verifiableCredential.map VerifiableCredential.value)) :=
    if_neg (ne_nil_of_mem hvc)
  have hfields := Fields.supported_of_mem h
  simp only [fields, forall_mem_cons] at hfields
  obtain ⟨-, -, -, -, hcreds, -⟩ := hfields
  have harr := hcreds _ hlisted
  exact supportedElems_iff.mp harr _ (mem_map_of_mem hvc)

end Presentation

variable {vp : VerifiablePresentation}

namespace VerifiablePresentation

def coerced (vp : VerifiablePresentation) : VerifiablePresentation :=
  ⟨vp.toPresentation.coerced, vp.proof.map Proof.coerced⟩

theorem decode_value (h : ∀ vc ∈ vp.verifiableCredential, vc.Dated) :
    decodeStruct assign vp.value.wire zero = some vp.coerced := by
  have hnames : ∀ name ∈ Presentation.names, foldName (coerce name) ≠ "proof" := by
    decide
  have hpres : Reads assign vp.members zero ⟨vp.toPresentation.coerced, none⟩ := by
    refine (Presentation.reads_members h).embed (fun p => mk p none) (fun name hname j p => ?_)
      (vp.members_eq ▸ Fields.name_mem)
    rw [assign, if_neg (hnames name hname)]
  have hproof : Reads assign (vp.proof.toList.map fun p => ("proof", p.value))
      ⟨vp.toPresentation.coerced, none⟩ vp.coerced :=
    reads_optional (by decide) (fun _ => rfl) rfl (Proof.readsAs_ptr _) rfl
  exact decodeStruct_of_reads (hpres.append hproof)

theorem writable (h : ∀ vc ∈ vp.verifiableCredential, vc.Dated) : vp.value.Writable 5 :=
  writable_obj (forall_mem_append.mpr ⟨Presentation.writable_members h,
    forall_mem_map.mpr fun p _ => p.writable.mono (by decide)⟩)

theorem unmarshal_text (h : ∀ vc ∈ vp.verifiableCredential, vc.Dated) :
    unmarshal vp.value.text = .ok vp.coerced :=
  unmarshalInto_text (writable h) (by decide) (decode_value h)

end VerifiablePresentation

/-! ## What is accepted -/

theorem Verifier.verifyAll_eq_ok {v : Verifier} {C : Crypto} {sha512 : Bytes → Bytes}
    {clock : Nat → Nat → Int} : ∀ {i : Nat} {vcs : List VerifiableCredential},
    v.verifyAll C sha512 clock i vcs = .ok ()
      ↔ ∀ j vc, vcs[j]? = some vc → v.verify C sha512 (clock (i + j)) vc = .ok ()
  | i, [] => by simp [verifyAll]
  | i, vc :: vcs => by
    rw [verifyAll, bind_eq_ok]
    simp only [wrapErr_eq_ok, verifyAll_eq_ok]
    constructor
    · rintro ⟨_, hvc, hvcs⟩ j vc' hj
      cases j with
      | zero =>
        obtain rfl := some.inj hj
        exact hvc
      | succ j =>
        have h := hvcs j vc' hj
        rwa [Nat.add_right_comm] at h
    · intro h
      refine ⟨(), h 0 vc rfl, fun j vc' hj => ?_⟩
      have h' := h (j + 1) vc' hj
      rwa [← Nat.add_assoc, Nat.add_right_comm] at h'

section Accepted

variable {v : Verifier} {C : Crypto} {sha512 : Bytes → Bytes} {clock : Nat → Nat → Int}

theorem Verifier.verifyPresentation_eq_ok {opts : VerifyPresentationOptions} :
    v.verifyPresentation C sha512 clock vp opts = .ok () ↔ ∃ proof doc pub sig,
      vp.proof = some proof
      ∧ (opts.expectedChallenge = [] ∨ vp.challenge = opts.expectedChallenge)
      ∧ (opts.expectedDomain = [] ∨ vp.domain = opts.expectedDomain)
      ∧ v.resolver.resolve vp.holder = .ok doc
      ∧ doc.Holds v.resolver proof.verificationMethod pub
      ∧ decodeB64 proof.proofValue = .ok sig
      ∧ Tptcrypto.verifyJSON sha512 C.ed25519 pub vp.toPresentation.value sig = .ok ()
      ∧ ∀ i vc, vp.verifiableCredential[i]? = some vc →
        v.verify C sha512 (clock i) vc = .ok () := by
  unfold verifyPresentation
  cases hproof : vp.proof with
  | none => simp
  | some proof =>
    simp only [ite_err_eq_ok, bind_eq_ok, wrapErr_eq_ok, extractEd25519Key_eq_ok,
      verifyAll_eq_ok, Nat.zero_add, not_and_or, not_not, ne_eq]
    constructor
    · rintro ⟨hchallenge, hdomain, doc, hdoc, pub, hholds, sig, hsig, _, hverify, hcreds⟩
      exact ⟨proof, doc, pub, sig, rfl, hchallenge, hdomain, hdoc, hholds, hsig, hverify, hcreds⟩
    · rintro ⟨proof', doc, pub, sig, hproof', hchallenge, hdomain, hdoc, hholds,
        hsig, hverify, hcreds⟩
      obtain rfl := some.inj hproof'
      exact ⟨hchallenge, hdomain, doc, hdoc, pub, hholds, sig, hsig, (), hverify, hcreds⟩

theorem present_ok {E : Ed25519} {env : Oidc.Env} {opts : PresentOptions}
    (h : present E sha512 env opts = .ok vp) :
    ∃ uuid sig, newUUID env.rand 0 = .ok uuid
      ∧ Tptcrypto.signJSON sha512 E opts.holderKey (opts.presentation uuid).value = .ok sig
      ∧ vp = ⟨opts.presentation uuid, some (opts.proof (env.clock 0) sig)⟩ := by
  unfold present at h
  rw [ite_err_eq_ok] at h
  obtain ⟨uuid, huuid, h⟩ := Res.bind_eq_ok.mp h.2
  obtain ⟨sig, hsig, h⟩ := Res.bind_eq_ok.mp h
  exact ⟨uuid, sig, huuid, Res.wrapErr_eq_ok.mp hsig, (Res.ok.inj h).symm⟩

end Accepted

theorem coerced_presentation {opts : PresentOptions} {uuid sig : Bytes} {now : Int}
    (h : opts.Utf8) (huuid : IsAscii uuid) :
    VerifiablePresentation.coerced ⟨opts.presentation uuid, some (opts.proof now sig)⟩
      = ⟨opts.presentation uuid, some (opts.proof now sig)⟩ := by
  have hcreds : opts.credentials.map VerifiableCredential.coerced = opts.credentials := by
    refine (map_congr_left fun vc hvc => ?_).trans (map_id _)
    exact VerifiableCredential.coerced_eq_self (h.credentials vc hvc)
  have hcontext : (some defaultContext).map (map coerce) = some defaultContext := by
    decide
  have hid : coerce ("urn:uuid:" ++ uuid) = "urn:uuid:" ++ uuid :=
    coerce_eq_self (validUtf8_of_ascii (isAscii_append.mpr ⟨by decide, huuid⟩))
  have htype : (some [typeVP]).map (map coerce) = some [typeVP] := by decide
  have hproof : (opts.proof now sig).coerced = opts.proof now sig := by
    have hproofType : coerce "Ed25519Signature2020" = "Ed25519Signature2020" := by
      decide
    have hpurpose : coerce "authentication" = "authentication" := by decide
    simp only [Proof.coerced, PresentOptions.proof, hproofType, hpurpose, coerce_rfc3339,
      coerce_eq_self h.verificationMethodID, coerce_eq_self (validUtf8_encodeB64 _)]
    rfl
  simp only [VerifiablePresentation.coerced, Presentation.coerced, PresentOptions.presentation,
    hcreds, hcontext, hid, htype, coerce_eq_self h.holderDID, coerce_eq_self h.challenge,
    coerce_eq_self h.domain, map_some, hproof]

/-! ## What is signed -/

/-- Presentations with the same holder, challenge, domain and credentials, as they are written. -/
structure Presentation.Agree (p p' : Presentation) : Prop where
  holder : coerce p.holder = coerce p'.holder
  challenge : coerce p.challenge = coerce p'.challenge
  domain : coerce p.domain = coerce p'.domain
  wire : p.verifiableCredential.map (fun vc => vc.value.wire)
    = p'.verifiableCredential.map fun vc => vc.value.wire
  eq_of_dated : (∀ vc ∈ p.verifiableCredential ++ p'.verifiableCredential, vc.Utf8 ∧ vc.Dated) →
    p.verifiableCredential = p'.verifiableCredential

theorem VerifiableCredential.eq_of_wire {vc vc' : VerifiableCredential}
    (h : vc.value.wire = vc'.value.wire) (hvc : vc.Utf8 ∧ vc.Dated) (hvc' : vc'.Utf8 ∧ vc'.Dated) :
    vc = vc' := by
  have hread := decode_value hvc.2
  rw [h, decode_value hvc'.2, coerced_eq_self hvc.1, coerced_eq_self hvc'.1] at hread
  exact (some.inj hread).symm

theorem eq_of_map_wire : ∀ {l l' : List VerifiableCredential},
    l.map (fun vc => vc.value.wire) = l'.map (fun vc => vc.value.wire) →
      (∀ vc ∈ l ++ l', vc.Utf8 ∧ vc.Dated) → l = l'
  | [], [], _, _ => rfl
  | [], _ :: _, h, _ => by cases h
  | _ :: _, [], h, _ => by cases h
  | vc :: l, vc' :: l', h, hall => by
    obtain ⟨hvc, hl⟩ := cons.inj h
    obtain ⟨hleft, hright⟩ := forall_mem_append.mp hall
    obtain ⟨h₁, hleft⟩ := forall_mem_cons.mp hleft
    obtain ⟨h₁', hright⟩ := forall_mem_cons.mp hright
    rw [VerifiableCredential.eq_of_wire hvc h₁ h₁',
      eq_of_map_wire hl (forall_mem_append.mpr ⟨hleft, hright⟩)]

theorem Presentation.agree_of_text {p' : Presentation} (hp : p.value.supported)
    (hp' : p'.value.supported) (h : p.value.text = p'.value.text) : p.Agree p' := by
  have hwire := wire_eq_of_text_eq hp hp' h
  rw [value, value, members_eq, members_eq] at hwire
  have hfield := map_wire_field names (by decide) (by decide) rfl rfl hwire
  have hcreds := map_wire_of_listed (hfield "verifiableCredential")
  exact ⟨coerce_eq_of_omitted (hfield "holder"), coerce_eq_of_omitted (hfield "challenge"),
    coerce_eq_of_omitted (hfield "domain"), hcreds, eq_of_map_wire hcreds⟩

/-- A presentation is accepted exactly for its challenge and domain, and an accepted one is signed
by the holder. -/
theorem verifyPresentation_accepts (v : Verifier) (C : Crypto) (sha512 : Bytes → Bytes) :
    (∀ env opts vp, present C.ed25519 sha512 env opts = .ok vp → opts.Utf8 →
      (∀ vc ∈ opts.credentials, vc.WholeMinutes) →
      ∀ doc pub, v.resolver.resolve opts.holderDID = .ok doc →
      doc.Holds v.resolver opts.verificationMethodID pub →
      C.ed25519.KeyPair opts.holderKey pub → ∀ clock : Nat → Nat → Int,
      (∀ i vc, opts.credentials[i]? = some vc → v.verify C sha512 (clock i) vc = .ok ()) →
      ∃ text vp', marshal vp.value = .ok text ∧ VerifiablePresentation.unmarshal text = .ok vp'
        ∧ ∀ expected, v.verifyPresentation C sha512 clock vp' expected = .ok ()
          ↔ (expected.expectedChallenge = [] ∨ opts.challenge = expected.expectedChallenge)
            ∧ (expected.expectedDomain = [] ∨ opts.domain = expected.expectedDomain))
    ∧ ∀ vp clock expected, v.verifyPresentation C sha512 clock vp expected = .ok () →
      ∃ proof doc pub sig, vp.proof = some proof ∧ v.resolver.resolve vp.holder = .ok doc
        ∧ doc.Holds v.resolver proof.verificationMethod pub
        ∧ decodeB64 proof.proofValue = .ok sig
        ∧ C.ed25519.verify pub (sha512 vp.toPresentation.value.text) sig = true
        ∧ (∀ p : Presentation, p.value.supported = true →
          p.value.text = vp.toPresentation.value.text → p.Agree vp.toPresentation)
        ∧ ∀ i vc, vp.verifiableCredential[i]? = some vc →
          v.verify C sha512 (clock i) vc = .ok () := by
  constructor
  · intro env opts vp hpresent hutf8 hminutes doc pub hdoc hholds hkeys clock hcreds
    obtain ⟨uuid, sig, huuid, hsig, rfl⟩ := present_ok hpresent
    have hverify := Tptcrypto.verifyJSON_of_signJSON hkeys
      (extractEd25519Key_of_holds hholds).2 hsig
    have hsup := (Tptcrypto.verifyJSON_eq_ok.mp hverify).1
    have hdated : ∀ vc ∈ opts.credentials, vc.Dated := fun vc hvc =>
      VerifiableCredential.dated (Presentation.supported_credentials hsup vc hvc) (hminutes vc hvc)
    have hread := VerifiablePresentation.unmarshal_text
      (show ∀ vc ∈ (VerifiablePresentation.mk (opts.presentation uuid)
        (some (opts.proof (env.clock 0) sig))).verifiableCredential, vc.Dated from hdated)
    rw [coerced_presentation hutf8 (isAscii_newUUID huuid)] at hread
    refine ⟨_, _, marshal_eq_ok ?_, hread, fun expected => ?_⟩
    · exact (VerifiablePresentation.writable hdated).supported
    · rw [Verifier.verifyPresentation_eq_ok]
      constructor
      · rintro ⟨-, -, -, -, -, hchallenge, hdomain, -⟩
        exact ⟨hchallenge, hdomain⟩
      · rintro ⟨hchallenge, hdomain⟩
        exact ⟨_, doc, pub, sig, rfl, hchallenge, hdomain, hdoc, hholds, decodeB64_encodeB64 sig,
          hverify, hcreds⟩
  · intro vp clock expected h
    obtain ⟨proof, doc, pub, sig, hproof, -, -, hdoc, hholds, hsig, hverify, hcreds⟩ :=
      Verifier.verifyPresentation_eq_ok.mp h
    obtain ⟨hsup, -, hvalid⟩ := Tptcrypto.verifyJSON_eq_ok.mp hverify
    exact ⟨proof, doc, pub, sig, hproof, hdoc, hholds, hsig, hvalid,
      fun p hp htext => Presentation.agree_of_text hp hsup htext, hcreds⟩

namespace SamplePresentation

def crypto : Crypto where
  sha256 b := [UInt8.ofNat b.length]
  ed25519 := ⟨fun priv msg => priv.take 32 ++ msg, fun pub msg sig => sig = pub ++ msg⟩

def sha512 (b : Bytes) : Bytes := [UInt8.ofNat b.length]

def verifier : Verifier := newVerifier (SampleCredential.resolver SampleCredential.readable)

def cred (t : Time) : Credential where
  context := some [contextVC]
  id := "u"
  type := some [typeVC]
  issuer := SampleCredential.readable
  validFrom := t
  validUntil := none
  credentialSubject := ⟨"s", .empty⟩
  credentialSchema := none
  credentialStatus := none

def vc (t : Time) : VerifiableCredential :=
  ⟨cred t, some ⟨"Ed25519Signature2020", [], [], "k", [],
    encodeB64 (replicate 32 1 ++ sha512 (cred t).value.text)⟩⟩

def opts (holderDID : Bytes) (t : Time) : PresentOptions where
  holderDID := holderDID
  holderKey := replicate 64 1
  verificationMethodID := "k"
  credentials := [vc t]
  challenge := "c"
  domain := "d"

def sent (holderDID : Bytes) (t : Time) : Res Unit := do
  let vp ← present crypto.ed25519 sha512 SampleCredential.env (opts holderDID t)
  let vp' ← VerifiablePresentation.unmarshal (← marshal vp.value)
  verifier.verifyPresentation crypto sha512 (fun _ _ => 0) vp' ⟨"c", "d"⟩

def verified (t : Time) : Res Unit := verifier.verify crypto sha512 (fun _ => 0) (vc t)

theorem utf8_vc : (vc (.utc 0)).Utf8 where
  context := by
    rintro l hl
    rw [← mem_some_iff.mp hl]
    decide
  id := by decide
  type := by
    rintro l hl
    rw [← mem_some_iff.mp hl]
    decide
  issuer := by decide
  subjectID := by decide +kernel
  claims := forall_mem_nil _
  credentialSchema _ hs := absurd hs (not_mem_none _)
  credentialStatus _ hs := absurd hs (not_mem_none _)
  proof := by
    rintro p hp
    rw [← mem_some_iff.mp hp]
    decide +kernel

theorem utf8_opts : (opts SampleCredential.readable (.utc 0)).Utf8 where
  holderDID := by decide
  verificationMethodID := by decide
  credentials := forall_mem_singleton.mpr utf8_vc
  challenge := by decide
  domain := by decide

theorem verify_vc (i : Nat) (x : VerifiableCredential) (hx : [vc (.utc 0)][i]? = some x) :
    verifier.verify crypto sha512 (fun _ => 0) x = .ok () := by
  have hok : (verified (.utc 0)).isOk := by decide +kernel
  obtain ⟨u, hu⟩ := Res.isOk_iff.mp hok
  obtain rfl := mem_singleton.mp (mem_of_getElem? hx)
  exact hu

end SamplePresentation

open SamplePresentation

theorem sent_regular : ∃ vp text vp', present crypto.ed25519 sha512 SampleCredential.env
      (opts SampleCredential.readable (.utc 0)) = .ok vp
    ∧ marshal vp.value = .ok text ∧ VerifiablePresentation.unmarshal text = .ok vp'
    ∧ verifier.verifyPresentation crypto sha512 (fun _ _ => 0) vp' ⟨str "c", str "d"⟩ = .ok () := by
  have hok : (present crypto.ed25519 sha512 SampleCredential.env
      (opts SampleCredential.readable (.utc 0))).isOk = true := by
    decide
  obtain ⟨vp, hvp⟩ := Res.isOk_iff.mp hok
  obtain ⟨text, vp', htext, hvp', haccepts⟩ :=
    (verifyPresentation_accepts verifier
    crypto sha512).1 SampleCredential.env
    (opts SampleCredential.readable (.utc 0)) vp hvp
    utf8_opts
    (forall_mem_singleton.mpr ⟨rfl, fun _ ht => absurd ht (not_mem_none _)⟩)
    SampleCredential.doc (replicate 32 1) rfl SampleCredential.holds_doc (fun _ => by
      simp [crypto, opts]) (fun _ _ => 0)
    verify_vc
  exact ⟨vp, text, vp', hvp, htext, hvp', (haccepts _).mpr ⟨.inr rfl, .inr rfl⟩⟩

/-- An offset of half a minute is written as none at all. -/
theorem sent_irregular :
    ((verified ⟨0, 30⟩).isOk = true
      ∧ (sent SampleCredential.readable ⟨0, 30⟩).isOk = false)
    ∧ (verified ⟨0, 0⟩).isOk = true
      ∧ (sent (str "did:web:h") ⟨0, 0⟩).isOk = false := by
  decide +kernel

end TptIdentity.Vc
