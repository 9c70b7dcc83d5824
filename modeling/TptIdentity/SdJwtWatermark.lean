import TptIdentity.GoJsonFields
import TptIdentity.SdJwtDisclosure

/-!
# Watermarked presentations

A watermark is a disclosure that the holder appends, and the verifier accepts only those that
the issuer listed. So a watermarked presentation is accepted just if the issuer has listed the
watermark (`verify_watermark_iff`).
-/

namespace TptIdentity.Vc

open Go List Res

/-! ## Making a watermark -/

def presentationIDChars : Bytes :=
  "ABCDEFGHIJKLMNOPQRSTUVWXYZabcdefghijklmnopqrstuvwxyz0123456789"

def newPresentationID (intn : Nat → Fin 62) : Bytes :=
  (List.range 16).map fun i => presentationIDChars.getD (intn i) 0

def watermark (C : Crypto) (presentationID verifierDID : Bytes) (now : Int64) : Disclosure where
  salt := encodeB64 ((C.sha256 ("watermark:" ++ presentationID)).take 16)
  key := "_wm"
  value := .obj [("pid", .str presentationID), ("ts", .int (unix now.toInt)),
    ("vdid", .str verifierDID)]

structure WatermarkRecord where
  presentationID : Bytes
  verifierDID : Bytes
  subjectDID : Bytes
  schemaID : Bytes
  issuedAt : Int64

def splitSDJWT (s : Bytes) : List Bytes :=
  let parts := s.splitOn tilde
  if parts.getLast? = some [] then parts.dropLast else parts

def parseSDJWTClaims (jwt : Bytes) : Res (Map Value) :=
  match splitSDJWT jwt with
  | _ :: payload :: _ => do
    let raw ← (decodeB64 payload).wrapErr "watermark: decode payload: %w" []
    (unmarshalMap raw).wrapErr "watermark: unmarshal: %w" []
  | _ => .err (.new "watermark: malformed JWT" [])

variable (C : Crypto) (presentationID verifierDID : Bytes) (now : Int64)

def SDJWTToken.presentWithWatermark (t : SDJWTToken) (revealKeys : List Bytes) (verifierDID : Bytes)
    (intn : Nat → Fin 62) (clock : Nat → Int64) : Res (Bytes × WatermarkRecord) := do
  let presentationID := newPresentationID intn
  let wmJSON ← (marshal (watermark C presentationID verifierDID (clock 0)).toArray).wrapErr
    "watermark: encode disclosure: %w" []
  let wmEncoded := encodeB64 wmJSON
  let base := t.present revealKeys
  let presentation :=
    if base.getLast? = some tilde then base ++ wmEncoded ++ [tilde]
    else base ++ tilde :: wmEncoded ++ [tilde]
  let schemaID := strOrEmpty ((parseSDJWTClaims t.jwt).toOption.bind (·.get "vct"))
  return (presentation, ⟨presentationID, verifierDID, [], schemaID, clock 1⟩)

/-! ## What the verifier reads -/

def watermarkRead (presentationID verifierDID : Bytes) (now : Int64) : Disclosure :=
  { watermark C presentationID verifierDID now with
    value := ((watermark C presentationID verifierDID now).value.norm).getD .null }

theorem norm_watermark :
    (watermark C presentationID verifierDID now).value.norm
      = some (watermarkRead C presentationID verifierDID now).value := by
  have hts : ((Value.int (unix now.toInt)).norm).isSome := by
    have hle : (unix now.toInt).natAbs ≤ 2 ^ 53 := by simpa using natAbs_unix_le now 0
    obtain ⟨f, hf, -⟩ := norm_int hle
    rw [hf]
    rfl
  have hsome : ((watermark C presentationID verifierDID now).value.norm).isSome := by
    refine isSome_norm_obj ?_
    simp only [forall_mem_cons]
    exact ⟨rfl, hts, rfl, forall_mem_nil _⟩
  obtain ⟨w, hw⟩ := Option.isSome_iff_exists.mp hsome
  rw [watermarkRead, hw]
  rfl

theorem parseDisclosure_watermark :
    parseDisclosure (watermark C presentationID verifierDID now).encText
      = .ok (watermarkRead C presentationID verifierDID now) := by
  have hdepth : (watermark C presentationID verifierDID now).value.depth < maxNestingDepth := by
    show 1 < maxNestingDepth
    decide
  have hsalt : coerce (watermark C presentationID verifierDID now).salt
      = (watermark C presentationID verifierDID now).salt := coerce_eq_self (validUtf8_encodeB64 _)
  have hkey : coerce "_wm" = "_wm" := by decide +kernel
  rw [parseDisclosure_of_norm rfl hdepth (norm_watermark ..), hsalt]
  exact congrArg (fun key => Res.ok (Disclosure.mk _ key _)) hkey

def watermarkDigest (presentationID verifierDID : Bytes) (now : Int64) : Bytes :=
  encodeB64 (C.sha256 (watermarkRead C presentationID verifierDID now).encText)

theorem digest_watermarkRead :
    (watermarkRead C presentationID verifierDID now).digest C
      = .ok (watermarkDigest C presentationID verifierDID now) := by
  have hsup : (watermarkRead C presentationID verifierDID now).value.supported := by
    obtain ⟨depth, hdec⟩ := parseDisclosure_eq_ok
      (parseDisclosure_watermark C presentationID verifierDID now)
    exact hdec.value.supported
  exact Disclosure.digest_eq_ok.mpr ⟨hsup, rfl⟩

theorem discloseSegments_append (C : Crypto) (digests : List Bytes) :
    ∀ (encs encs' : List Bytes) (m : Map Value), discloseSegments C digests (encs ++ encs') m
      = discloseSegments C digests encs m >>= discloseSegments C digests encs'
  | [], _, _ => rfl
  | enc :: encs, encs', m => by
    rw [cons_append, discloseSegments, discloseSegments]
    cases (parseDisclosure enc).wrapErr "sdjwt: %w" [] with
    | ok d =>
      rw [ok_bind, ok_bind]
      cases d.digest C with
      | ok digest =>
        rw [ok_bind, ok_bind]
        split
        · rfl
        · exact discloseSegments_append C digests encs encs' _
      | err e => rfl
      | panics reason => rfl
    | err e => rfl
    | panics reason => rfl

theorem discloseSegments_watermark {C : Crypto} {digests encs : List Bytes}
    {presentationID verifierDID : Bytes} {now : Int64} {disclosed disclosed' : Map Value}
    (h : discloseSegments C digests encs Map.empty = .ok disclosed) :
    discloseSegments C digests (encs ++ [(watermark C presentationID verifierDID now).encText])
        Map.empty = .ok disclosed'
      ↔ watermarkDigest C presentationID verifierDID now ∈ digests ∧ disclosed'
        = disclosed.set "_wm" (watermarkRead C presentationID verifierDID now).value := by
  rw [discloseSegments_append, h, ok_bind, discloseSegments, parseDisclosure_watermark,
    wrapErr_ok, ok_bind, digest_watermarkRead, ok_bind, ite_err_eq_ok, not_not,
    discloseSegments, Res.ok.injEq, eq_comm]
  rfl

section IssuedToken

variable {C : Crypto} {schemas : Schema.Registry} {opts : SDJWTIssueOptions}
  {order : List (Bytes × Value)} {now : Int64} {tok : SDJWTToken}
  {discs : List (Disclosure × Bytes)} {header : Bytes}

theorem Issued.parse_present (h : Issued C schemas opts order now tok discs header)
    (revealKeys : List Bytes) :
    parseSDJWT (tok.present revealKeys)
      = .ok ⟨tok.jwt, (tok.selected revealKeys).map Disclosure.encText, []⟩ := by
  rw [h.present_eq]
  exact parseSDJWT_presentation _ h.tilde_not_mem_jwt (by simp) (.inl rfl)

theorem Issued.presentWithWatermark_ok (h : Issued C schemas opts order now tok discs header)
    (revealKeys : List Bytes) (verifierDID : Bytes) (intn : Nat → Fin 62) (clock : Nat → Int64) :
    ∃ presentation record,
      tok.presentWithWatermark C revealKeys verifierDID intn clock = .ok (presentation, record)
      ∧ parseSDJWT presentation = .ok ⟨tok.jwt, (tok.selected revealKeys).map Disclosure.encText
        ++ [(watermark C (newPresentationID intn) verifierDID (clock 0)).encText], []⟩ := by
  refine ⟨_, _, by
    rfl, ?_⟩
  have hparse := parseSDJWT_presentation (tok.selected revealKeys
    ++ [watermark C (newPresentationID intn) verifierDID (clock 0)]) h.tilde_not_mem_jwt
    (show tilde ∉ [] from not_mem_nil) (.inl rfl)
  rw [map_append, map_singleton, ← cons_append, intercalate_concat tilde _ (by simp)] at hparse
  rw [h.present_eq]
  refine Eq.trans (congrArg parseSDJWT ?_) hparse
  simp [Disclosure.encText]

/-- A watermarked presentation is accepted exactly if the issuer listed the digest of the watermark.
-/
theorem verify_watermark_iff (C : Crypto) (schemas : Schema.Registry) (opts : SDJWTIssueOptions)
    (order : List (Bytes × Value)) (now : Int64) (rnd : Rand) (tok : SDJWTToken)
    (h : issueSDJWT C schemas opts order now rnd = .ok tok) (revealKeys : List Bytes)
    (verifierDID : Bytes) (intn : Nat → Fin 62) (clock : Nat → Int64) (R : Resolver)
    (now' : Int64) (nonce aud : Bytes) (r : SDJWTVerifyResult)
    (hverify : verify C R now' (tok.present revealKeys) nonce aud = .ok r) :
    (∃ presentation record,
      tok.presentWithWatermark C revealKeys verifierDID intn clock = .ok (presentation, record)
      ∧ verify C R now' presentation nonce aud = .ok { r with
        disclosedClaims := r.disclosedClaims.set "_wm"
          (watermarkRead C (newPresentationID intn) verifierDID (clock 0)).value })
      ↔ ∃ raw, parseSDJWTPayload tok.jwt = .ok raw
        ∧ watermarkDigest C (newPresentationID intn) verifierDID (clock 0) ∈ sdDigests raw := by
  obtain ⟨discs, header, hissued⟩ := issueSDJWT_eq_ok h
  obtain ⟨parsed, raw, pub, disclosed, kb, hv⟩ := verify_eq_ok.mp hverify
  obtain rfl := Res.ok.inj ((hissued.parse_present revealKeys).symm.trans hv.parse)
  obtain ⟨presentation, record, hpresent, hparse⟩ :=
    hissued.presentWithWatermark_ok revealKeys verifierDID intn clock
  constructor
  · rintro ⟨presentation', record', hpresent', hverify'⟩
    obtain ⟨rfl, -⟩ := Prod.mk.inj (Res.ok.inj (hpresent.symm.trans hpresent'))
    obtain ⟨parsed', raw', pub', disclosed', kb', hv'⟩ := verify_eq_ok.mp hverify'
    obtain rfl := Res.ok.inj (hparse.symm.trans hv'.parse)
    obtain rfl : raw = raw' := Res.ok.inj (hv.payload.symm.trans hv'.payload)
    exact ⟨raw, hv.payload, ((discloseSegments_watermark hv.disclose).mp hv'.disclose).1⟩
  · rintro ⟨raw', hraw', hlisted⟩
    obtain rfl : raw = raw' := Res.ok.inj (hv.payload.symm.trans hraw')
    refine ⟨presentation, record, hpresent,
      verify_eq_ok.mpr ⟨_, raw, pub, _, kb, hparse, hv.payload,
      hv.issuer, hv.resolve, hv.signature, hv.notExpired,
      (discloseSegments_watermark hv.disclose).mpr ⟨hlisted, rfl⟩, hv.keyBinding, ?_⟩⟩
    rw [hv.result]
    rfl

end IssuedToken

theorem verify_watermark_sample : ∃ tok, Sample.issue Map.empty = .ok tok
    ∧ ¬ ∃ raw, parseSDJWTPayload tok.jwt = .ok raw ∧ watermarkDigest Crypto.standIn
      (newPresentationID fun _ => 0) "did:web:v" 0 ∈ sdDigests raw := by
  have hrun : (Sample.issue Map.empty >>= fun tok =>
      verify Crypto.standIn Sample.resolver 0 (tok.present ["name"]) [] []).isOk = true := by
    decide +kernel
  have hwm : (Sample.issue Map.empty >>= fun tok => do
      let r ← tok.presentWithWatermark Crypto.standIn ["name"] "did:web:v" (fun _ => 0) (fun _ => 0)
      verify Crypto.standIn Sample.resolver 0 r.1 [] []).isOk = false := by
    decide +kernel
  obtain ⟨r, hr⟩ := Res.isOk_iff.mp hrun
  obtain ⟨tok, htok, hr⟩ := Res.bind_eq_ok.mp hr
  refine ⟨tok, htok, fun hlisted => ?_⟩
  obtain ⟨presentation, record, hpresent, hverify⟩ := (verify_watermark_iff Crypto.standIn Map.empty
    (Sample.options Map.empty) _ 0 Sample.rand tok htok ["name"] "did:web:v" (fun _ => 0)
    (fun _ => 0) Sample.resolver 0 [] [] r hr).mpr hlisted
  rw [htok, ok_bind, hpresent, ok_bind, hverify] at hwm
  cases hwm

theorem verify_watermark_refused :
    (Sample.issue Map.empty >>= fun tok => do
      let r ← tok.presentWithWatermark Crypto.standIn ["name"] "did:web:v" (fun _ => 0) (fun _ => 0)
      return ((verify Crypto.standIn Sample.resolver 0 (tok.present ["name"]) [] []).isOk,
        (verify Crypto.standIn Sample.resolver 0 r.1 [] []).isOk)) = .ok (true, false) := by
  decide +kernel

end TptIdentity.Vc
