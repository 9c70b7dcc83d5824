import TptIdentity.SdJwtWatermark

/-!
# Tracing a watermarked presentation

`ExtractWatermark` returns the first segment that reads as a watermark, and the true one is the
last (`extractWatermark_iff`). `ParseSDJWTClaims` cuts the JWT at tildes and never finds the
schema (`decodersAgree_iff`).
-/

namespace TptIdentity.Vc

open Go List Res

/-! ## Extraction -/

def watermarkIn (part : Bytes) : Option (Bytes × Bytes) :=
  if part = [] then none
  else
    match (decodeB64 part).toOption.bind fun raw => (unmarshalSlice raw).toOption with
    | some (_ :: .str key :: .obj val :: _) =>
      if key = "_wm" then
        some (strOrEmpty (assoc (str "pid") val), strOrEmpty (assoc (str "vdid") val))
      else none
    | _ => none

def extractWatermark (presentation : Bytes) : Res (Bytes × Bytes × Bool) :=
  match splitSDJWT presentation with
  | [] => .panics "slice bounds out of range [1:0]"
  | _ :: parts =>
    match parts.findSome? watermarkIn with
    | some (pid, vdid) => .ok (pid, vdid, true)
    | none => .ok ([], [], false)

/-! ## The segments of a presentation -/

theorem splitSDJWT_terminated {parts : List Bytes} (h : ∀ p ∈ parts, tilde ∉ p)
    (hne : parts ≠ []) : splitSDJWT ([tilde].intercalate parts ++ [tilde]) = parts := by
  have hparts : ∀ p ∈ parts ++ [[]], tilde ∉ p := by
    intro p hp
    rcases mem_append.mp hp with hp | hp
    · exact h p hp
    · exact mem_singleton.mp hp ▸ not_mem_nil
  rw [splitSDJWT, ← intercalate_concat tilde [] hne,
    splitOn_intercalate tilde hparts (by simp), getLast?_concat, dropLast_concat]
  rfl

theorem splitSDJWT_of_not_mem {s : Bytes} (h : tilde ∉ s) (hne : s ≠ []) : splitSDJWT s = [s] := by
  simp [splitSDJWT, splitOn_eq_singleton h, hne]

def SDJWTToken.front (t : SDJWTToken) (revealKeys : List Bytes) : List Bytes :=
  (t.jwt.splitOn tilde).tail ++ (t.selected revealKeys).map fun d => d.encode.getD []

theorem tilde_not_mem_encode (d : Disclosure) : tilde ∉ d.encode.getD [] := by
  cases henc : d.encode with
  | ok enc =>
    obtain ⟨-, rfl⟩ := Disclosure.encode_eq_ok.mp henc
    exact tilde_not_mem_encodeB64 _
  | err e => exact not_mem_nil
  | panics r => exact not_mem_nil

section Presented

variable {C : Crypto} {t : SDJWTToken} {revealKeys : List Bytes} {verifierDID : Bytes}
  {intn : Nat → Fin 62} {clock : Nat → Int64} {p : Bytes} {record : WatermarkRecord}

theorem presentWithWatermark_eq_ok
    (h : t.presentWithWatermark C revealKeys verifierDID intn clock = .ok (p, record)) :
    p = t.present revealKeys
        ++ (watermark C (newPresentationID intn) verifierDID (clock 0)).encText ++ [tilde]
      ∧ record = ⟨newPresentationID intn, verifierDID, [],
        strOrEmpty ((parseSDJWTClaims t.jwt).toOption.bind (·.get "vct")), clock 1⟩ := by
  have hlast : (t.present revealKeys).getLast? = some tilde := getLast?_concat
  have hmarshal := marshal_eq_ok
    (v := (watermark C (newPresentationID intn) verifierDID (clock 0)).toArray) rfl
  simp only [SDJWTToken.presentWithWatermark, hmarshal, wrapErr_ok, ok_bind, if_pos hlast] at h
  obtain ⟨rfl, rfl⟩ := Prod.mk.inj (Res.ok.inj h)
  exact ⟨rfl, rfl⟩

theorem splitSDJWT_present
    (h : t.presentWithWatermark C revealKeys verifierDID intn clock = .ok (p, record)) :
    ∃ jwt, splitSDJWT p = jwt :: (t.front revealKeys
      ++ [(watermark C (newPresentationID intn) verifierDID (clock 0)).encText]) := by
  obtain ⟨rfl, -⟩ := presentWithWatermark_eq_ok h
  generalize hwm : (watermark C (newPresentationID intn) verifierDID (clock 0)).encText = wm
  generalize hencs : (t.selected revealKeys).map (fun d => d.encode.getD []) = encs
  obtain ⟨jwt, behind, hjwt⟩ := exists_cons_of_ne_nil (splitOn_ne_nil tilde t.jwt)
  have hparts : ∀ p ∈ t.jwt.splitOn tilde ++ (encs ++ [wm]), tilde ∉ p := by
    intro p hp
    rcases mem_append.mp hp with hp | hp
    · exact not_mem_of_mem_splitOn hp
    rcases mem_append.mp hp with hp | hp
    · rw [← hencs] at hp
      obtain ⟨d, -, rfl⟩ := mem_map.mp hp
      exact tilde_not_mem_encode d
    · rw [mem_singleton.mp hp, ← hwm]
      exact tilde_not_mem_encodeB64 _
  have htext : t.present revealKeys ++ wm ++ [tilde]
      = [tilde].intercalate (t.jwt.splitOn tilde ++ (encs ++ [wm])) ++ [tilde] := by
    rw [intercalate_splitOn_append, ← cons_append, intercalate_concat tilde wm (by simp),
      SDJWTToken.present, SDJWTToken.serializeWith, hencs]
    simp
  refine ⟨jwt, ?_⟩
  rw [htext, splitSDJWT_terminated hparts (by simp), SDJWTToken.front, hencs, hjwt]
  simp

end Presented

/-! ## Reading a watermark -/

theorem watermarkIn_of_parseDisclosure {enc : Bytes} {d : Disclosure} {val : List (Bytes × Value)}
    (h : parseDisclosure enc = .ok d) (hne : enc ≠ []) (hkey : d.key = "_wm")
    (hval : d.value = .obj val) :
    watermarkIn enc
      = some (strOrEmpty (assoc (str "pid") val), strOrEmpty (assoc (str "vdid") val)) := by
  obtain ⟨raw, hraw, harr⟩ := parseDisclosure_array h
  rw [watermarkIn, if_neg hne, hraw, toOption_ok, Option.bind_some, harr, toOption_ok, hkey, hval]
  exact if_pos rfl

theorem watermarkIn_watermark (C : Crypto) {presentationID verifierDID : Bytes} (now : Int64)
    (hpid : validUtf8 presentationID) (hdid : validUtf8 verifierDID) :
    watermarkIn (watermark C presentationID verifierDID now).encText
      = some (presentationID, verifierDID) := by
  have hnames : FieldNames [("pid", .str presentationID), ("ts", .int (unix now.toInt)),
      ("vdid", .str verifierDID)] :=
    @FieldNames.of_sublist _ ["pid", "ts", "vdid"] (by decide) (by decide) (Sublist.refl _)
  have hnorm := norm_watermark C presentationID verifierDID now
  obtain ⟨l, hl, -⟩ := assoc_of_norm hnames hnorm
  rw [hl] at hnorm
  rw [watermarkIn_of_parseDisclosure (parseDisclosure_watermark ..) (Disclosure.encText_ne_nil _)
    rfl hl, assoc_str_of_norm hnames hnorm hpid (by rfl),
    assoc_str_of_norm hnames hnorm hdid (by rfl)]
  rfl

theorem validUtf8_newPresentationID (intn : Nat → Fin 62) : validUtf8 (newPresentationID intn) := by
  refine validUtf8_of_ascii fun b hb => ?_
  obtain ⟨i, -, rfl⟩ := mem_map.mp hb
  have hchars : ∀ i : Fin 62, (presentationIDChars.getD i 0).toNat < 128 := by decide
  exact hchars (intn i)

/-- The watermark is found exactly if nothing in front of it reads as another one. -/
theorem extractWatermark_iff (C : Crypto) (t : SDJWTToken) (revealKeys : List Bytes)
    (verifierDID : Bytes) (hdid : validUtf8 verifierDID = true) (intn : Nat → Fin 62)
    (clock : Nat → Int64) (p : Bytes) (record : WatermarkRecord)
    (h : t.presentWithWatermark C revealKeys verifierDID intn clock = .ok (p, record)) :
    extractWatermark p = .ok (record.presentationID, verifierDID, true)
      ↔ ∀ found, (t.front revealKeys).findSome? watermarkIn = some found →
        found = (record.presentationID, verifierDID) := by
  obtain ⟨jwt, hsplit⟩ := splitSDJWT_present h
  obtain ⟨-, rfl⟩ := presentWithWatermark_eq_ok h
  have hwm := watermarkIn_watermark C (clock 0) (validUtf8_newPresentationID intn) hdid
  rw [extractWatermark, hsplit]
  simp only [findSome?_append, findSome?_singleton, hwm]
  cases (t.front revealKeys).findSome? watermarkIn with
  | none => simp
  | some found => simp [Prod.ext_iff]

namespace Sample

def issueClaim (key : Bytes) (value : Value) : Res SDJWTToken :=
  issueSDJWT Crypto.standIn Map.empty (options Map.empty) [(key, value)] 0 rand

def presentClaim (key : Bytes) (value : Value) : Res (Bytes × WatermarkRecord) := do
  let tok ← issueClaim key value
  tok.presentWithWatermark Crypto.standIn [key] "did:web:v" (fun _ => 0) (fun _ => 0)

end Sample

open Sample

theorem extractWatermark_sample : ∃ p record, presentClaim "name" (.str "Alice") = .ok (p, record)
      ∧ extractWatermark p = .ok (record.presentationID, "did:web:v", true) := by
  have hfront : (issueClaim "name" (.str "Alice") >>= fun tok =>
      .ok ((tok.front ["name"]).findSome? watermarkIn)) = .ok none := by
    decide +kernel
  have hrun : (presentClaim "name" (.str "Alice")).isOk = true := by
    decide +kernel
  obtain ⟨⟨p, record⟩, hp⟩ := Res.isOk_iff.mp hrun
  refine ⟨p, record, hp, ?_⟩
  obtain ⟨tok, htok, hp⟩ := Res.bind_eq_ok.mp hp
  rw [htok, ok_bind] at hfront
  refine (extractWatermark_iff Crypto.standIn tok ["name"] "did:web:v" (by decide +kernel)
    (fun _ => 0) (fun _ => 0) p record hp).mpr fun found hfound => ?_
  rw [Res.ok.inj hfront] at hfound
  cases hfound

theorem extractWatermark_misled :
    (do
      let (p, record) ← presentClaim (str "_wm") (.obj [(str "pid", .str (str "other"))])
      let found ← extractWatermark p
      return (record.presentationID, found))
      = .ok (replicate 16 65, (str "other", [], true)) := by
  decide +kernel

/-! ## The schema in the record -/

def IsCompactJWT (jwt : Bytes) : Prop :=
  ∃ header payload sig, (∀ c ∈ header ++ payload ++ sig, isB64 c = true)
    ∧ jwt = header ++ dot :: (payload ++ dot :: sig)

def DecodersAgree (jwt : Bytes) : Prop :=
  (∀ claims, parseSDJWTClaims jwt = .ok claims ↔ parseSDJWTPayload jwt = .ok claims)
    ∧ ∀ C discs revealKeys verifierDID intn clock p record,
      (SDJWTToken.mk jwt discs).presentWithWatermark C revealKeys verifierDID intn clock
        = .ok (p, record) →
      ∀ claims, parseSDJWTPayload jwt = .ok claims →
        record.schemaID = strOrEmpty (claims.get "vct")

theorem IsCompactJWT.tilde_not_mem {jwt : Bytes} (h : IsCompactJWT jwt) : tilde ∉ jwt := by
  obtain ⟨header, payload, sig, hchars, rfl⟩ := h
  have htilde : tilde ∉ header ++ payload ++ sig := by
    intro hmem
    have hb64 := hchars tilde hmem
    exact absurd hb64 (by decide)
  have hdot : tilde ≠ dot := by decide
  simp only [mem_append, not_or] at htilde
  simp [htilde, hdot]

theorem IsCompactJWT.ne_nil {jwt : Bytes} (h : IsCompactJWT jwt) : jwt ≠ [] := by
  obtain ⟨header, payload, sig, -, rfl⟩ := h
  simp

theorem parseSDJWTClaims_compact {jwt : Bytes} (h : IsCompactJWT jwt) :
    parseSDJWTClaims jwt = .err (.new "watermark: malformed JWT" []) := by
  rw [parseSDJWTClaims, splitSDJWT_of_not_mem h.tilde_not_mem h.ne_nil]

/-- The two payload decoders agree exactly if there are no claims to read. -/
theorem decodersAgree_iff (jwt : Bytes) (h : IsCompactJWT jwt) :
    DecodersAgree jwt ↔ ¬ ∃ claims, parseSDJWTPayload jwt = .ok claims := by
  constructor
  · rintro ⟨hsame, -⟩ ⟨claims, hclaims⟩
    have hok := (hsame claims).mpr hclaims
    rw [parseSDJWTClaims_compact h] at hok
    cases hok
  · intro hnone
    refine ⟨fun claims => iff_of_false ?_ fun hclaims => hnone ⟨claims, hclaims⟩,
      fun _ _ _ _ _ _ _ _ _ claims hclaims => absurd ⟨claims, hclaims⟩ hnone⟩
    rw [parseSDJWTClaims_compact h]
    exact err_ne_ok _ _

theorem decodersAgree_undecodable : DecodersAgree "a.b.c" := by
  refine (decodersAgree_iff "a.b.c" ⟨"a", "b", "c", by decide +kernel, by decide +kernel⟩).mpr ?_
  rintro ⟨claims, hclaims⟩
  have hno : (parseSDJWTPayload "a.b.c").isOk = false := by decide
  rw [hclaims] at hno
  cases hno

theorem record_without_schema :
    (do
      let tok ← issue (Map.empty.set "vct" (.str "id/v1"))
      let (_, record) ← tok.presentWithWatermark Crypto.standIn [] "did:web:v" (fun _ => 0)
        (fun _ => 0)
      let claims ← parseSDJWTPayload tok.jwt
      return (strOrEmpty (claims.get "vct"), record.schemaID, (parseSDJWTClaims tok.jwt).isOk))
      = .ok ("id/v1", [], false) := by
  decide +kernel

end TptIdentity.Vc
