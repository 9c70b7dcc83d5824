import TptIdentity.VcRoundTrip

/-!
# A proof covers every field

Canonical JSON determines every field that was written, so two credentials accepted with the
same key and proof agree (`agree_of_verifyDataIntegrity`), unless the hash collides or a
signature is valid for two messages.
-/

namespace TptIdentity.Vc

open Go

/-! ## Credentials whose strings are valid UTF-8 -/

structure CredentialStatus.Plain (s : CredentialStatus) : Prop where
  id : validUtf8 s.id = true
  type : validUtf8 s.type = true
  statusPurpose : validUtf8 s.statusPurpose = true
  statusListIndex : s.statusListIndex.toInt.natAbs ≤ 2 ^ 53
  statusListCredential : validUtf8 s.statusListCredential = true

structure CredentialSubject.Plain (s : CredentialSubject) : Prop where
  id : validUtf8 s.id = true
  claims : ∀ e ∈ s.claims.entries, validUtf8 e.1 = true ∧ validUtf8 e.2 = true

structure CredentialSchema.Plain (s : CredentialSchema) : Prop where
  id : validUtf8 s.id = true
  type : validUtf8 s.type = true

structure Credential.Plain (c : Credential) : Prop where
  context : ∀ l ∈ c.context, ∀ s ∈ l, validUtf8 s = true
  id : validUtf8 c.id = true
  type : ∀ l ∈ c.type, ∀ s ∈ l, validUtf8 s = true
  issuer : validUtf8 c.issuer = true
  credentialSubject : c.credentialSubject.Plain
  credentialSchema : ∀ s ∈ c.credentialSchema, s.Plain
  credentialStatus : ∀ s ∈ c.credentialStatus, s.Plain

/-! ## Agreement -/

/-- The same fields, up to the text of the times. Nil and empty claims are the same map. -/
structure Credential.Agree (c c' : Credential) : Prop where
  context : c.context = c'.context
  id : c.id = c'.id
  type : c.type = c'.type
  issuer : c.issuer = c'.issuer
  validFrom : Time.SameText c.validFrom c'.validFrom
  validUntil : Option.Rel Time.SameText c.validUntil c'.validUntil
  credentialSubject : c.credentialSubject = c'.credentialSubject
  credentialSchema : c.credentialSchema = c'.credentialSchema
  credentialStatus : c.credentialStatus = c'.credentialStatus

/-! ## Fields

What is read for a struct determines its fields. -/

theorem CredentialSchema.eq_of_readAlike {s s' : CredentialSchema}
    (h : ReadAlike s.value s'.value) (hs : s.Plain) (hs' : s'.Plain) : s = s' := by
  have hfield := readAlike_fields ["id", "type"] (by decide) (by decide)
    (show s.fields.map Prod.fst = _ from rfl) (show s'.fields.map Prod.fst = _ from rfl) h
  cases s
  cases s'
  congr
  · exact (ReadAlike.of_some (hfield "id")).str hs.id hs'.id
  · exact (ReadAlike.of_some (hfield "type")).str hs.type hs'.type

theorem CredentialStatus.eq_of_readAlike {s s' : CredentialStatus}
    (h : ReadAlike s.value s'.value) (hs : s.Plain) (hs' : s'.Plain) : s = s' := by
  have hfield := readAlike_fields ["id", "type", "statusPurpose", "statusListIndex",
    "statusListCredential"] (by decide) (by decide)
    (show s.fields.map Prod.fst = _ from rfl) (show s'.fields.map Prod.fst = _ from rfl) h
  have hindex := ReadAlike.of_some (hfield "statusListIndex")
  cases s
  cases s'
  congr
  · exact (ReadAlike.of_some (hfield "id")).str hs.id hs'.id
  · exact (ReadAlike.of_some (hfield "type")).str hs.type hs'.type
  · exact (ReadAlike.of_some (hfield "statusPurpose")).str hs.statusPurpose hs'.statusPurpose
  · exact Int64.toInt_inj.mp (hindex.int hs.statusListIndex hs'.statusListIndex)
  · exact (ReadAlike.of_some (hfield "statusListCredential")).str hs.statusListCredential
      hs'.statusListCredential

theorem CredentialSubject.eq_of_readAlike {s s' : CredentialSubject}
    (h : ReadAlike s.value s'.value) (hs : s.Plain) (hs' : s'.Plain) : s = s' := by
  rw [value_eq, value_eq] at h
  have hfield := readAlike_fields ["id", "claims"] (by decide) (by decide) rfl rfl h
  cases s
  cases s'
  congr
  · exact (ReadAlike.of_some (hfield "id")).str hs.id hs'.id
  · exact ReadAlike.mapped (hfield "claims") hs.claims hs'.claims

variable {c c' : Credential} {data : Bytes} (C : Crypto)

theorem Credential.agree_of_readAlike (h : ReadAlike c.value c'.value) (hsup : c.value.supported)
    (hsup' : c'.value.supported) (hc : c.Plain) (hc' : c'.Plain) : c.Agree c' := by
  obtain ⟨hfromSup, huntilSup⟩ := supported_times hsup
  obtain ⟨hfromSup', huntilSup'⟩ := supported_times hsup'
  rw [value, value, members_eq, members_eq] at h
  have hfield := readAlike_fields names (by decide) (by decide) rfl rfl h
  exact {
    context := (ReadAlike.of_some (hfield "@context")).strings hc.context hc'.context
    id := ReadAlike.omitted (hfield "id") hc.id hc'.id
    type := (ReadAlike.of_some (hfield "type")).strings hc.type hc'.type
    issuer := (ReadAlike.of_some (hfield "issuer")).str hc.issuer hc'.issuer
    validFrom := (ReadAlike.of_some (hfield "validFrom")).time hfromSup hfromSup'
    validUntil := rel_of_map (hfield "validUntil") fun t ht t' ht' halike =>
      halike.time (huntilSup t ht) (huntilSup' t' ht')
    credentialSubject := CredentialSubject.eq_of_readAlike
      (ReadAlike.of_some (hfield "credentialSubject")) hc.credentialSubject
      hc'.credentialSubject
    credentialSchema := eq_of_rel_map (hfield "credentialSchema") fun s hs s' hs' halike =>
      CredentialSchema.eq_of_readAlike halike (hc.credentialSchema s hs)
        (hc'.credentialSchema s' hs')
    credentialStatus := eq_of_rel_map (hfield "credentialStatus") fun s hs s' hs' halike =>
      CredentialStatus.eq_of_readAlike halike (hc.credentialStatus s hs)
        (hc'.credentialStatus s' hs') }

/-! ## Signatures -/

def Credential.documents (c : Credential) : Set Bytes := {b | Tptcrypto.jcs c.value = .ok b}

def Credential.hashes (proof : Proof) (c : Credential) : Set Bytes :=
  {data | hashData C.sha256 "jcs proof options: %w" "jcs document: %w" proof c = .ok data}

theorem verifyDataIntegrity_ok {C : Crypto} {pub : Bytes} {proof : Proof}
    (h : verifyDataIntegrity C pub c proof = .ok ()) :
    ∃ sig data, decodeB64 proof.proofValue = .ok sig ∧ data ∈ c.hashes C proof
      ∧ C.ed25519.verify pub data sig := by
  obtain ⟨sig, hsig, h⟩ := Res.bind_eq_ok.mp h
  obtain ⟨data, hdata, h⟩ := Res.bind_eq_ok.mp h
  obtain ⟨valid, hvalid, h⟩ := Res.bind_eq_ok.mp h
  rw [Res.wrapErr_eq_ok] at hsig
  obtain ⟨-, rfl⟩ := Ed25519.verifyWith_eq_ok.mp hvalid
  refine ⟨sig, data, hsig, hdata, ?_⟩
  split at h
  · next hv => exact hv
  · cases h

theorem readAlike_of_hashes {C : Crypto} {proof : Proof}
    (hsha : C.CollisionFree (c.documents ∪ c'.documents)) (h : data ∈ c.hashes C proof)
    (h' : data ∈ c'.hashes C proof) :
    ReadAlike c.value c'.value ∧ c.value.supported ∧ c'.value.supported := by
  obtain ⟨o, d, ho, hd, rfl⟩ := hashData_ok.mp h
  obtain ⟨o', d', ho', hd', heq⟩ := hashData_ok.mp h'
  obtain rfl := Res.ok.inj (ho.symm.trans ho')
  obtain rfl : d = d' := hsha (.inl hd) (.inr hd') (List.append_cancel_left heq)
  obtain ⟨hsup, w, hw, hdec, rfl⟩ := Tptcrypto.jcs_ok hd
  obtain ⟨hsup', w', hw', hdec', htext⟩ := Tptcrypto.jcs_ok hd'
  obtain rfl := hdec.text_inj hdec' htext
  exact ⟨⟨w, hw, hw'⟩, hsup, hsup'⟩

/-- Two credentials with the same valid proof agree in every field, up to nil and empty. -/
theorem agree_of_verifyDataIntegrity (pub : Bytes) (proof : Proof) (c c' : Credential)
    (hc : c.Plain) (hc' : c'.Plain) (hsha : C.CollisionFree (c.documents ∪ c'.documents))
    (hone : C.ed25519.OneMessage pub (c.hashes C proof ∪ c'.hashes C proof))
    (h : verifyDataIntegrity C pub c proof = .ok ())
    (h' : verifyDataIntegrity C pub c' proof = .ok ()) : c.Agree c' := by
  obtain ⟨sig, data, hsig, hdata, hvalid⟩ := verifyDataIntegrity_ok h
  obtain ⟨sig', data', hsig', hdata', hvalid'⟩ := verifyDataIntegrity_ok h'
  obtain rfl := Res.ok.inj (hsig.symm.trans hsig')
  obtain rfl : data = data' := hone sig ⟨.inl hdata, hvalid⟩ ⟨.inr hdata', hvalid'⟩
  obtain ⟨halike, hsup, hsup'⟩ := readAlike_of_hashes hsha hdata hdata'
  exact Credential.agree_of_readAlike halike hsup hsup' hc hc'

namespace SampleIntegrity

def crypto : Crypto where
  sha256 b := b
  ed25519 := ⟨fun _ msg => msg, fun _ msg sig => msg = sig⟩

def cred (validFrom : Time) : Credential where
  context := none
  id := []
  type := some ["T"]
  issuer := "i"
  validFrom := validFrom
  validUntil := none
  credentialSubject := ⟨"s", Map.empty.set "n" "v"⟩
  credentialSchema := none
  credentialStatus := some ⟨"l", "E", "r", 9, "l"⟩

def early : Time := ⟨0, 30⟩

def earlier : Time := ⟨-15000000000, 45⟩

def hashed (t : Time) : Res Bytes :=
  hashData crypto.sha256 "jcs proof options: %w" "jcs document: %w" .zero (cred t)

def proof : Proof := { Proof.zero with proofValue := encodeB64 ((hashed early).getD []) }

theorem hashed_earlier : hashed earlier = hashed early := by
  have htext : earlier.marshalJSON = early.marshalJSON := by decide +kernel
  have htime : timeValue earlier = timeValue early := by rw [timeValue, timeValue, htext]
  simp only [hashed, hashData, Credential.value, Credential.members, cred, htime]

theorem hashed_early : hashed early = .ok ((hashed early).getD []) := by
  have hok : (hashed early).isOk := by decide +kernel
  obtain ⟨data, hdata⟩ := Res.isOk_iff.mp hok
  rw [hdata]
  rfl

theorem accepted {t : Time} (h : hashed t = .ok data) :
    verifyDataIntegrity crypto (List.replicate 32 0) (cred t)
      { Proof.zero with proofValue := encodeB64 data } = .ok () :=
  verifyDataIntegrity_signed (by decide) (decodeB64_encodeB64 data) h (decide_eq_true rfl)

theorem plain (t : Time) : (cred t).Plain where
  context _ hl := absurd hl (Option.not_mem_none _)
  id := by rfl
  type l hl := by
    obtain rfl := Option.mem_some_iff.mp hl
    decide
  issuer := by
    show validUtf8 "i" = true
    decide
  credentialSubject := by
    show CredentialSubject.Plain ⟨"s", Map.empty.set "n" "v"⟩
    exact ⟨by decide, by decide⟩
  credentialSchema _ hs := absurd hs (Option.not_mem_none _)
  credentialStatus s hs := by
    obtain rfl := Option.mem_some_iff.mp hs
    exact ⟨by decide, by decide, by decide, by decide, by decide⟩

end SampleIntegrity

open SampleIntegrity

theorem agree_earlier : earlier ≠ early ∧ (cred early).Agree (cred earlier) := by
  refine ⟨by decide, ?_⟩
  refine agree_of_verifyDataIntegrity crypto (List.replicate 32 0) proof _ _ (plain _) (plain _)
    (fun _ _ _ _ heq => heq) ?_ (accepted hashed_early)
    (accepted (hashed_earlier.trans hashed_early))
  intro sig msg hmsg msg' hmsg'
  exact (of_decide_eq_true hmsg.2).trans (of_decide_eq_true hmsg'.2).symm

end TptIdentity.Vc
