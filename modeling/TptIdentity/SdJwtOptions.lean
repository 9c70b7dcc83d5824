import TptIdentity.SdJwtDisclosure

/-!
# Issuance options

The always-visible claims are assigned last, so one named like a computed claim replaces it. The
options are binding exactly when none does that with another value (`optionsBinding_iff`).
-/

namespace TptIdentity.Vc

open Go Value

def SDJWTToken.digests (C : Crypto) (t : SDJWTToken) : List Bytes :=
  t.disclosures.map fun d => (d.digest C).getD []

section Binding

variable (C : Crypto) (schemas : Schema.Registry) (opts : SDJWTIssueOptions) (now : Int64)
  (tok : SDJWTToken)

def boundNames : List Bytes :=
  reserved.filter fun k => k ≠ "vct" || opts.schemaID ≠ []

/-- The first field is about the signed payload, the others are what a verifier makes of it. -/
structure OptionsBinding : Prop where
  payload : (∃ header sig, tok.jwt = jwtText header
      (obj (opts.payload schemas (tok.digests C) now).entries).text sig)
    ∧ ∀ k ∈ boundNames opts, ((opts.payload schemas (tok.digests C) now).get k).map wire
        = ((opts.computedClaims schemas (tok.digests C) now).get k).map wire
  reports : ∀ (R : Resolver) (now' : Int64) (rest nonce aud : Bytes) (r : SDJWTVerifyResult),
    verify C R now' (tok.jwt ++ tilde :: rest) nonce aud = .ok r →
      r.issuerDID = coerce opts.issuerDID ∧ r.subjectDID = coerce opts.subjectDID
  disclosable : ∀ raw, parseSDJWTPayload tok.jwt = .ok raw → ∀ d ∈ tok.disclosures,
    parseDisclosure d.encText = .ok d → ∀ m,
      discloseSegments C (sdDigests raw) [d.encText] m = .ok (m.set d.key d.value)
  issuer : ∀ raw, parseSDJWTPayload tok.jwt = .ok raw →
    hasPrefix (strOrEmpty (raw.get "iss")) "did:key:" = false
  expires : ∀ (R : Resolver) (now' : Int64) (rest nonce aud : Bytes) (r : SDJWTVerifyResult),
    unix (now.toInt + opts.validity) < unix now'.toInt →
      verify C R now' (tok.jwt ++ tilde :: rest) nonce aud ≠ .ok r

def NotOverridden : Prop :=
  ∀ k ∈ boundNames opts, ∀ v, opts.alwaysVisibleClaims.get k = some v →
    some v.wire = ((opts.computedClaims schemas (tok.digests C) now).get k).map wire

end Binding

section IssuedToken

variable {C : Crypto} {schemas : Schema.Registry} {opts : SDJWTIssueOptions}
  {order : List (Bytes × Value)} {now : Int64} {tok : SDJWTToken}
  {discs : List (Disclosure × Bytes)} {header : Bytes}

theorem Issued.digests_eq (h : Issued C schemas opts order now tok discs header) :
    tok.digests C = discs.map (·.2) := by
  rw [SDJWTToken.digests, h.disclosures, List.map_map]
  refine List.map_congr_left fun e he => ?_
  obtain ⟨claim, -, hdisc⟩ := exists_of_mem_forall₂ h.disclosed e he
  have hdigest : e.1.digest C = .ok e.2 :=
    Disclosure.digest_eq_ok.mpr ⟨hdisc.value ▸ hdisc.supported, hdisc.digest⟩
  simp [hdigest]

theorem mem_reserved_of_mem_boundNames {k : Bytes} (hk : k ∈ boundNames opts) : k ∈ reserved :=
  (List.mem_filter.mp hk).1

theorem mem_boundNames {k : Bytes} (hk : k ∈ reserved) (hvct : k ≠ "vct") :
    k ∈ boundNames opts :=
  List.mem_filter.mpr ⟨hk, by simp [hvct]⟩

theorem payload_computed_iff : (∀ k ∈ boundNames opts,
    ((opts.payload schemas (tok.digests C) now).get k).map wire
      = ((opts.computedClaims schemas (tok.digests C) now).get k).map wire)
    ↔ NotOverridden C schemas opts now tok := by
  refine forall₂_congr fun k hk => ?_
  rw [payload_get]
  cases hget : opts.alwaysVisibleClaims.get k with
  | none => simp
  | some v => simp

variable {raw : Map Value}

theorem Issued.get_raw_bound (h : Issued C schemas opts order now tok discs header)
    (hbound : NotOverridden C schemas opts now tok) (hraw : parseSDJWTPayload tok.jwt = .ok raw)
    {k : Bytes} (hk : k ∈ boundNames opts) :
    raw.get k = ((opts.computedClaims schemas (discs.map (·.2)) now).get k).bind norm := by
  have hnorm : ∀ x : Option Value, x.bind norm = (x.map wire).bind Json.toAny := by
    intro x
    cases x <;> rfl
  have hwire := payload_computed_iff.mpr hbound k hk
  rw [h.digests_eq] at hwire
  rw [h.get_raw hraw (reserved_ascii k (mem_reserved_of_mem_boundNames hk)), hnorm, hwire, hnorm]

section Bound

variable (h : Issued C schemas opts order now tok discs header)
  (hbound : NotOverridden C schemas opts now tok)
include h hbound

theorem Issued.strOrEmpty_iss (hraw : parseSDJWTPayload tok.jwt = .ok raw) :
    strOrEmpty (raw.get "iss") = coerce opts.issuerDID := by
  rw [h.get_raw_bound hbound hraw (mem_boundNames (by decide) (by decide)),
    (computedClaims_get schemas opts _ now).1]
  rfl

theorem Issued.strOrEmpty_sub (hraw : parseSDJWTPayload tok.jwt = .ok raw) :
    strOrEmpty (raw.get "sub") = coerce opts.subjectDID := by
  rw [h.get_raw_bound hbound hraw (mem_boundNames (by decide) (by decide)),
    (computedClaims_get schemas opts _ now).2.1]
  rfl

theorem Issued.isExpired_raw (hraw : parseSDJWTPayload tok.jwt = .ok raw) (now' : Int64) :
    isExpired raw now' = decide (unix (now.toInt + opts.validity) < unix now'.toInt) := by
  obtain ⟨f, hf, hval⟩ := norm_int (natAbs_unix_validity_le opts now)
  rw [isExpired, h.get_raw_bound hbound hraw (mem_boundNames (by decide) (by decide)),
    (computedClaims_get schemas opts _ now).2.2.2.1, Option.bind_some, hf]
  simp [numericDate, hval]

theorem Issued.discloseSegments_one (hraw : parseSDJWTPayload tok.jwt = .ok raw) {d : Disclosure}
    (hd : d ∈ tok.disclosures) (hparse : parseDisclosure d.encText = .ok d) (m : Map Value) :
    discloseSegments C (sdDigests raw) [d.encText] m = .ok (m.set d.key d.value) := by
  have hsd := h.get_raw_bound hbound hraw (k := "_sd") (mem_boundNames (by decide) (by decide))
  rw [(computedClaims_get schemas opts _ now).2.2.2.2.2.1, Option.bind_some] at hsd
  obtain ⟨depth, hdec⟩ := parseDisclosure_eq_ok hparse
  have hdigest : d.digest C = .ok (encodeB64 (C.sha256 d.encText)) :=
    Disclosure.digest_eq_ok.mpr ⟨hdec.value.supported, rfl⟩
  rw [h.sdDigests_raw hsd, discloseSegments, hparse, Res.wrapErr_ok, Res.ok_bind, hdigest,
    Res.ok_bind, if_neg (not_not.mpr (h.listed hd))]
  rfl

end Bound

/-- The issue options bind exactly if no always-visible claim overrides a claim that is computed
from them. -/
theorem optionsBinding_iff {rnd : Rand} (h : issueSDJWT C schemas opts order now rnd = .ok tok) :
    OptionsBinding C schemas opts now tok ↔ NotOverridden C schemas opts now tok := by
  obtain ⟨discs, header, hissued⟩ := issueSDJWT_eq_ok h
  constructor
  · exact fun hbinding => payload_computed_iff.mp hbinding.payload.2
  · intro hbound
    have hsigned : ∃ header sig, tok.jwt = jwtText header
        (obj (opts.payload schemas (tok.digests C) now).entries).text sig := by
      rw [hissued.digests_eq]
      exact ⟨header, _, hissued.jwt⟩
    refine ⟨⟨hsigned, payload_computed_iff.mpr hbound⟩, ?reports, ?disclosable, ?issuer, ?expires⟩
    case reports =>
      intro R now' rest nonce aud r hverify
      obtain ⟨parsed, raw, pub, disclosed, kb, hv⟩ := verify_eq_ok.mp hverify
      have hraw := (hissued.parsed_jwt hv.parse).1 ▸ hv.payload
      rw [hv.result]
      exact ⟨hissued.strOrEmpty_iss hbound hraw, hissued.strOrEmpty_sub hbound hraw⟩
    case disclosable =>
      exact fun raw hraw d hd hparse m => hissued.discloseSegments_one hbound hraw hd hparse m
    case issuer =>
      intro raw hraw
      rw [hissued.strOrEmpty_iss hbound hraw, Bool.eq_false_iff]
      intro hprefix
      have horig := isPrefix_of_coerce (by decide) (List.isPrefixOf_iff_prefix.mp hprefix)
      exact absurd (List.isPrefixOf_iff_prefix.mpr horig) (Bool.eq_false_iff.mp hissued.not_didKey)
    case expires =>
      intro R now' rest nonce aud r hlate hverify
      obtain ⟨parsed, raw, pub, disclosed, kb, hv⟩ := verify_eq_ok.mp hverify
      have hraw := (hissued.parsed_jwt hv.parse).1 ▸ hv.payload
      have hexp := hv.notExpired
      rw [hissued.isExpired_raw hbound hraw] at hexp
      exact absurd hlate (of_decide_eq_false hexp)

end IssuedToken

/-- A claim of another name, and the subject as it is computed. -/
def Sample.visible : Map Value :=
  (Map.empty.set "sub" (.str "did:key:alice")).set "role" (.str "admin")

theorem optionsBinding_iff_sample : ∃ tok, Sample.issue Sample.visible = .ok tok
    ∧ OptionsBinding Crypto.standIn Map.empty (Sample.options Sample.visible) 0 tok := by
  have hrun : (Sample.issue Sample.visible).isOk = true := by decide
  obtain ⟨tok, htok⟩ := Res.isOk_iff.mp hrun
  refine ⟨tok, htok, (optionsBinding_iff htok).mpr fun k hk v hget => ?_⟩
  have hrole : Go.str "role" ∉ boundNames (Sample.options Sample.visible) := by decide
  obtain ⟨rfl, rfl⟩ : k = Go.str "sub" ∧ .str (Go.str "did:key:alice") = v := by
    simpa [Sample.options, Sample.visible, Map.get_set, ne_of_mem_of_not_mem hk hrole] using hget
  rw [(computedClaims_get _ _ _ _).2.1]
  rfl

def Sample.overrides : Map Value :=
  (Map.empty.set "sub" (.str "did:key:mallory")).set "exp" (.int 9000000000)

def Sample.issuerOverride : Map Value :=
  Map.empty.set "iss" (.str "did:key:mallory")

/-- A token for `did:key:alice` is accepted a year later as one about `did:key:mallory`. -/
theorem overrides_not_binding : ∃ tok r, Sample.issue Sample.overrides = .ok tok
    ∧ (Sample.options Sample.overrides).subjectDID = "did:key:alice"
    ∧ (Sample.options Sample.overrides).validity = day
    ∧ verify Crypto.standIn Sample.resolver 31536000000000000 (tok.present []) [] [] = .ok r
    ∧ r.subjectDID = "did:key:mallory"
    ∧ ¬OptionsBinding Crypto.standIn Map.empty (Sample.options Sample.overrides) 0 tok
    ∧ (Sample.issue Sample.issuerOverride >>= fun tok =>
        parseSDJWTPayload tok.jwt >>= fun raw => .ok (strOrEmpty (raw.get "iss")))
      = .ok "did:key:mallory" := by
  have hrun : (Sample.issue Sample.overrides >>= fun tok =>
      verify Crypto.standIn Sample.resolver 31536000000000000 (tok.present []) [] [] >>= fun r =>
        .ok r.subjectDID) = .ok "did:key:mallory" := by decide +kernel
  obtain ⟨tok, htok, hrun⟩ := Res.bind_eq_ok.mp hrun
  obtain ⟨r, hr, hsub⟩ := Res.bind_eq_ok.mp hrun
  have hsub := Res.ok.inj hsub
  refine ⟨tok, r, htok, rfl, rfl, hr, hsub, fun hbinding => ?_, by decide +kernel⟩
  obtain ⟨rest, hrest⟩ := present_eq_append tok []
  have hreports := (hbinding.reports _ _ rest _ _ r (hrest ▸ hr)).2
  exact absurd (hsub.symm.trans hreports) (by decide)

end TptIdentity.Vc
