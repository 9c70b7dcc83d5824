import TptIdentity.SdJwtSpec

/-!
# Selective disclosure

The digest of a disclosure is taken over its re-encoding, which is injective
(`toArray_text_inj`). So only issued claims are reported (`verify_disclosed_issued`), and a
presentation of some of them is accepted and reported exactly (`verify_present`).
-/

namespace TptIdentity.Vc

open Go List Map Res Value Schema

/-! ## The encoding of a disclosure -/

theorem Disclosure.toArray_text (d : Disclosure) :
    d.toArray.text = 91 :: (encodeString d.salt ++ 44 :: (encodeString d.key
      ++ 44 :: (d.value.text ++ [93]))) := by
  simp [Disclosure.toArray, text, elemsText]

structure Disclosure.IsDecoded (depth : Nat) (d : Disclosure) : Prop where
  salt : validUtf8 d.salt = true
  key : validUtf8 d.key = true
  value : Decoded depth d.value

variable {d : Disclosure}

variable {enc k : Bytes} {depth : Nat} {rnd : Rand}

theorem parseDisclosure_array (h : parseDisclosure enc = .ok d) :
    ∃ raw, decodeB64 enc = .ok raw
      ∧ unmarshalSlice raw = .ok [.str d.salt, .str d.key, d.value] := by
  obtain ⟨raw, hraw, h⟩ := bind_eq_ok.mp h
  obtain ⟨arr, harr, h⟩ := bind_eq_ok.mp h
  rw [wrapErr_eq_ok] at hraw harr
  refine ⟨raw, hraw, ?_⟩
  split at h
  · obtain rfl := ok.inj h
    exact harr
  · cases h
  · cases h
  · cases h

theorem parseDisclosure_eq_ok {encoded : Bytes}
    (h : parseDisclosure encoded = .ok d) : ∃ depth, d.IsDecoded depth := by
  obtain ⟨raw, -, harr⟩ := parseDisclosure_array h
  have hdec := decoded_of_unmarshalSlice harr
  obtain ⟨_, hsalt⟩ := hdec (.str d.salt) (by simp)
  obtain ⟨_, hkey⟩ := hdec (.str d.key) (by simp)
  obtain ⟨depth, hvalue⟩ := hdec d.value (by simp)
  cases hsalt with
  | str hsalt =>
    cases hkey with
    | str hkey => exact ⟨depth, hsalt, hkey, hvalue⟩

theorem toArray_text_inj {depth' : Nat} {d' : Disclosure} (hd : d.IsDecoded depth)
    (hvalue : Decoded depth' d'.value) (h : d.toArray.text = d'.toArray.text) :
    d.key = d'.key ∧ d.value = d'.value := by
  rw [d.toArray_text, d'.toArray_text] at h
  obtain ⟨-, h⟩ := encodeString_inj (cons.inj h).2
  obtain ⟨hkey, h⟩ := encodeString_inj (cons.inj h).2
  have htext := append_cancel_right (cons.inj h).2
  exact ⟨eq_of_runes_eq hd.key hkey, hd.value.text_inj hvalue htext⟩

theorem parseDisclosure_of_norm {w : Value} (hsup : d.value.supported)
    (hdepth : d.value.depth < maxNestingDepth) (hnorm : d.value.norm = some w) :
    parseDisclosure d.encText = .ok ⟨coerce d.salt, coerce d.key, w⟩ := by
  have hdepth' : d.toArray.depth ≤ maxNestingDepth := by
    refine Nat.succ_le_of_lt (Nat.lt_of_le_of_lt (elemsDepth_le.mpr ?_) hdepth)
    simp only [forall_mem_cons]
    exact ⟨Nat.zero_le _, Nat.zero_le _, le_rfl, forall_mem_nil _⟩
  have hslice := unmarshalSlice_of_norm (d.supported_toArray.trans hsup) hdepth'
    (.cons rfl (.cons rfl (.cons hnorm .nil)))
  simp only [parseDisclosure, Disclosure.encText, decodeB64_encodeB64, wrapErr_ok, ok_bind,
    Disclosure.toArray, hslice]

theorem parseDisclosure_encText (hd : d.IsDecoded depth) (hdepth : depth < maxNestingDepth) :
    parseDisclosure d.encText = .ok d := by
  rw [parseDisclosure_of_norm hd.value.supported (Nat.lt_of_le_of_lt hd.value.depth_le hdepth)
    hd.value.norm, coerce_eq_self hd.salt, coerce_eq_self hd.key]

/-! ## The digests in the payload -/

section IssuedToken

variable {C : Crypto} {schemas : Registry} {opts : SDJWTIssueOptions}
  {order : List (Bytes × Value)} {now : Int64} {tok : SDJWTToken}
  {discs : List (Disclosure × Bytes)} {header : Bytes}

def reserved : List Bytes :=
  ["iss", "sub", "iat", "exp", "_sd_alg", "_sd", "vct"]

theorem reserved_ascii : ∀ k ∈ reserved, IsAscii k := by decide +kernel

theorem payload_get (schemas : Registry) (opts : SDJWTIssueOptions) (digests : List Bytes)
    (now : Int64) (k : Bytes) : (opts.payload schemas digests now).get k
      = (opts.alwaysVisibleClaims.get k).or ((opts.computedClaims schemas digests now).get k) :=
  get_setAll (Perm.refl _) k

theorem computedClaims_get (schemas : Registry) (opts : SDJWTIssueOptions)
    (digests : List Bytes) (now : Int64) :
    let computed := opts.computedClaims schemas digests now
    computed.get "iss" = some (.str opts.issuerDID)
      ∧ computed.get "sub" = some (.str opts.subjectDID)
      ∧ computed.get "iat" = some (.int (unix now.toInt))
      ∧ computed.get "exp" = some (.int (unix (now.toInt + opts.validity)))
      ∧ computed.get "_sd_alg" = some (.str "sha-256")
      ∧ computed.get "_sd" = some (.arr (digests.map .str))
      ∧ computed.get "vct" = if opts.schemaID ≠ [] then
          some (.str ((getSchema schemas opts.schemaID).getD ⟨[], 0, [], false, []⟩).versionedID)
        else none := by
  unfold SDJWTIssueOptions.computedClaims
  split
  · exact ⟨rfl, rfl, rfl, rfl, rfl, rfl, rfl⟩
  · exact ⟨rfl, rfl, rfl, rfl, rfl, rfl, rfl⟩

variable {digests : List Bytes}

variable {k : Bytes} {raw : Map Value}

theorem computedClaims_get_of_not_mem (hk : k ∉ reserved) :
    (opts.computedClaims schemas digests now).get k = none := by
  simp only [reserved, mem_cons, not_mem_nil, or_false, not_or] at hk
  unfold SDJWTIssueOptions.computedClaims
  split <;> simp [get_set, hk]

theorem Issued.get_raw (h : Issued C schemas opts order now tok discs header)
    (hraw : parseSDJWTPayload tok.jwt = .ok raw) (hk : IsAscii k) :
    raw.get k = ((opts.payload schemas (discs.map (·.2)) now).get k).bind norm := by
  rw [h.jwt, parseSDJWTPayload_jwtText] at hraw
  exact get_ascii_of_unmarshalMap h.supported hraw hk

theorem Issued.get_raw_computed (h : Issued C schemas opts order now tok discs header)
    (hraw : parseSDJWTPayload tok.jwt = .ok raw)
    (hk : k ∈ reserved) (hvisible : opts.alwaysVisibleClaims.get k = none) :
    raw.get k = ((opts.computedClaims schemas (discs.map (·.2)) now).get k).bind norm := by
  rw [h.get_raw hraw (reserved_ascii k hk), payload_get, hvisible, Option.none_or]

theorem Issued.validUtf8_digest (h : Issued C schemas opts order now tok discs header)
    {digest : Bytes} (hd : digest ∈ discs.map (·.2)) : validUtf8 digest := by
  obtain ⟨⟨d, _⟩, hmem, rfl⟩ := mem_map.mp hd
  obtain ⟨claim, -, hdisc⟩ := exists_of_mem_forall₂ h.disclosed _ hmem
  rw [hdisc.digest]
  exact validUtf8_encodeB64 _

theorem decoded_digests (h : ∀ d ∈ digests, validUtf8 d) : Decoded 1 (.arr (digests.map .str)) := by
  refine .arr fun v hv => ?_
  obtain ⟨digest, hdigest, rfl⟩ := mem_map.mp hv
  exact .str (h digest hdigest)

theorem Issued.sdDigests_raw (h : Issued C schemas opts order now tok discs header)
    (hraw : raw.get "_sd"
      = (arr ((discs.map (·.2)).map .str)).norm) : sdDigests raw = discs.map (·.2) := by
  rw [(decoded_digests fun _ => h.validUtf8_digest).norm] at hraw
  simp only [sdDigests, hraw]
  rw [filterMap_map]
  exact filterMap_some

/-! ## Soundness -/

theorem discloseSegments_get {v : Value} :
    ∀ {encs : List Bytes} {m m' : Map Value}, discloseSegments C digests encs m = .ok m' →
    m'.get k = some v → m.get k = some v ∨ ∃ enc ∈ encs, ∃ d, parseDisclosure enc = .ok d
      ∧ d.key = k ∧ d.value = v ∧ ∃ digest ∈ digests, d.digest C = .ok digest
  | [], m, m', h, hk => by
    obtain rfl := ok.inj h
    exact .inl hk
  | enc :: encs, m, m', h, hk => by
    obtain ⟨d, hd, h⟩ := bind_eq_ok.mp h
    obtain ⟨digest, hdigest, h⟩ := bind_eq_ok.mp h
    obtain ⟨hmem, h⟩ := ite_err_eq_ok.mp h
    rw [wrapErr_eq_ok] at hd
    rcases discloseSegments_get h hk with hm | ⟨enc', henc', hrest⟩
    · rw [get_set] at hm
      split at hm
      · next hkey =>
        exact .inr ⟨enc, mem_cons_self, d, hd, hkey.symm, Option.some.inj hm, digest,
          not_not.mp hmem, hdigest⟩
      · exact .inl hm
    · exact .inr ⟨enc', mem_cons_of_mem _ henc', hrest⟩

def disclosureInputs (tok : SDJWTToken) (segments : List Bytes) : List Bytes :=
  tok.disclosures.map Disclosure.encText ++ segments.filterMap fun enc =>
    match parseDisclosure enc with
    | .ok d => some d.encText
    | _ => none

theorem encText_mem_disclosureInputs {segments : List Bytes} {d : Disclosure}
    (henc : enc ∈ segments) (hd : parseDisclosure enc = .ok d) :
    d.encText ∈ disclosureInputs tok segments :=
  mem_append_right _ (mem_filterMap.mpr ⟨enc, henc, by simp only [hd]⟩)

theorem Issued.parsed_jwt (h : Issued C schemas opts order now tok discs header) {rest : Bytes}
    {parsed : ParsedSDJWT} (hparse : parseSDJWT (tok.jwt ++ tilde :: rest) = .ok parsed) :
    parsed.jwt = tok.jwt
      ∧ ∀ enc ∈ parsed.disclosures, enc ∈ (tok.jwt ++ tilde :: rest).splitOn tilde := by
  obtain ⟨jwt, parts, hsplit, rfl⟩ := parseSDJWT_eq_ok hparse
  have hsplit' := hsplit
  rw [splitOn_append_cons_self_of_not_mem h.tilde_not_mem_jwt] at hsplit'
  refine ⟨?_, fun enc henc => ?_⟩
  · rw [parseSegments_jwt]
    exact (cons.inj hsplit').1.symm
  · rw [parseSegments_disclosures, nil_append] at henc
    rw [hsplit]
    exact mem_cons_of_mem _ (mem_filter.mp henc).1

/-- Every disclosed claim of an accepted presentation is a selective claim of the issuer, with its
value. -/
theorem verify_disclosed_issued (h : issueSDJWT C schemas opts order now rnd = .ok tok)
    (horder : order.Perm opts.selectiveClaims.entries)
    (hclaims : ∀ e ∈ opts.selectiveClaims.entries, ∃ text, decodeAny text = some e.2)
    (hvisible : ∀ k ∈ reserved, opts.alwaysVisibleClaims.get k = none) {R : Resolver} {now' : Int64}
    {rest nonce aud : Bytes} {r : SDJWTVerifyResult} (hfree : C.CollisionFree
      {x | x ∈ disclosureInputs tok ((tok.jwt ++ tilde :: rest).splitOn tilde)})
    (hverify : verify C R now' (tok.jwt ++ tilde :: rest) nonce aud = .ok r) (k : Bytes) (v : Value)
    (hk : r.disclosedClaims.get k = some v) : opts.selectiveClaims.get k = some v := by
  obtain ⟨discs, header, hissued⟩ := issueSDJWT_eq_ok h
  obtain ⟨parsed, raw, pub, disclosed, kb, hv⟩ := verify_eq_ok.mp hverify
  obtain ⟨hjwt, hsegments⟩ := hissued.parsed_jwt hv.parse
  have hraw := hjwt ▸ hv.payload
  have hsd := hissued.get_raw_computed hraw (by decide) (hvisible "_sd" (by decide))
  rw [(computedClaims_get schemas opts _ now).2.2.2.2.2.1, Option.bind_some] at hsd
  rw [hv.result] at hk
  rcases discloseSegments_get hv.disclose hk with hnone | ⟨enc, henc, d, hd, rfl, rfl, digest,
    hlisted, hdigest⟩
  · cases hnone
  · rw [hissued.sdDigests_raw hsd] at hlisted
    obtain ⟨⟨d', _⟩, hmem, rfl⟩ := mem_map.mp hlisted
    obtain ⟨claim, hclaim, hdisc⟩ := exists_of_mem_forall₂ hissued.disclosed _ hmem
    -- equal digests of the two disclosures mean equal encodings
    have henc_eq : d.encText = d'.encText := by
      have hd' : d' ∈ tok.disclosures := by
        rw [hissued.disclosures]
        exact mem_map_of_mem hmem
      refine hfree (encText_mem_disclosureInputs (hsegments enc henc) hd)
        (mem_append_left _ (mem_map_of_mem hd')) ?_
      exact encodeB64_injective ((Disclosure.digest_eq_ok.mp hdigest).2.symm.trans hdisc.digest)
    obtain ⟨depth, hdec⟩ := parseDisclosure_eq_ok hd
    have hmem_claims := horder.mem_iff.mp hclaim
    obtain ⟨text, htext⟩ := hclaims claim hmem_claims
    have hvalue : Decoded maxNestingDepth d'.value :=
      hdisc.value ▸ decoded_of_decodeAny htext
    obtain ⟨hkey, hval⟩ := toArray_text_inj hdec hvalue (encodeB64_injective henc_eq)
    rw [hkey, hval, hdisc.key, hdisc.value, get_eq_some_iff]
    exact hmem_claims

end IssuedToken

theorem present_eq_append (tok : SDJWTToken) (revealKeys : List Bytes) :
    ∃ rest, tok.present revealKeys = tok.jwt ++ tilde :: rest := by
  unfold SDJWTToken.present SDJWTToken.serializeWith
  cases (tok.selected revealKeys).map fun d => d.encode.getD [] with
  | nil => exact ⟨[], by simp [intercalate]⟩
  | cons enc encs => exact ⟨_, by rw [intercalate_cons_cons]; simp; rfl⟩

theorem Sample.decoded_selectiveClaims : Decoded 1 (.obj Sample.selectiveClaims.entries) := by
  refine .obj Sample.selectiveClaims.sorted (by decide) ?_
  have hentries : Sample.selectiveClaims.entries
      = [(Go.str "name", .str (Go.str "Alice")), (Go.str "over18", .bool true)] := rfl
  rw [hentries]
  intro e he
  simp only [mem_cons, not_mem_nil, or_false] at he
  rcases he with rfl | rfl
  · exact .str (by decide)
  · exact .bool

theorem verify_disclosed_issued_sample : ∃ tok r, Sample.issue empty = .ok tok
      ∧ verify Crypto.standIn Sample.resolver 0 (tok.present ["name"]) [] [] = .ok r
      ∧ ∀ k v, r.disclosedClaims.get k = some v → Sample.selectiveClaims.get k = some v := by
  -- the run, and that the hash separates the disclosures it compares
  have hrun : (Sample.issue empty >>= fun tok =>
      verify Crypto.standIn Sample.resolver 0 (tok.present ["name"]) [] []).isOk = true := by
    decide +kernel
  have hhash : (Sample.issue empty >>= fun tok =>
      let inputs := disclosureInputs tok ((tok.present ["name"]).splitOn tilde)
      .ok (inputs.all fun x => inputs.all fun y =>
        Crypto.standIn.sha256 x ≠ Crypto.standIn.sha256 y || x = y)) = .ok true := by
    decide +kernel
  obtain ⟨r, hr⟩ := isOk_iff.mp hrun
  obtain ⟨tok, htok, hr⟩ := bind_eq_ok.mp hr
  obtain ⟨tok', htok', hhash⟩ := bind_eq_ok.mp hhash
  obtain rfl := ok.inj (htok.symm.trans htok')
  obtain ⟨rest, hrest⟩ := present_eq_append tok ["name"]
  have hhash := ok.inj hhash
  rw [hrest] at hr hhash
  refine ⟨tok, r, htok, hrest ▸ hr, verify_disclosed_issued htok (Perm.refl _) ?_ ?_ ?_ hr⟩
  · obtain ⟨_, hdepth, -, hvalues⟩ := Sample.decoded_selectiveClaims.obj_inv
    obtain rfl := Nat.succ.inj hdepth
    exact fun e he => ⟨_, decodeAny_text (hvalues e he) (by decide)⟩
  · exact fun _ _ => rfl
  · intro x hx y hy hxy
    have := all_eq_true.mp (all_eq_true.mp hhash x hx) y hy
    simpa [hxy] using this

/-! ## Completeness -/

section IssuedToken

variable {C : Crypto} {schemas : Registry} {opts : SDJWTIssueOptions}
  {order : List (Bytes × Value)} {now : Int64} {tok : SDJWTToken}
  {discs : List (Disclosure × Bytes)} {header : Bytes}

variable {digests : List Bytes}

theorem discloseSegments_encText {depth : Nat} (hdepth : depth < maxNestingDepth) :
    ∀ {ds : List Disclosure} (m : Map Value), (∀ d ∈ ds, d.IsDecoded depth) →
    (∀ d ∈ ds, encodeB64 (C.sha256 d.encText) ∈ digests) →
    discloseSegments C digests (ds.map Disclosure.encText) m
      = .ok (m.setAll (ds.map fun d => (d.key, d.value)))
  | [], _, _, _ => rfl
  | d :: ds, m, hdec, hlisted => by
    have hd := hdec d mem_cons_self
    have hdigest : d.digest C = .ok (encodeB64 (C.sha256 d.encText)) :=
      Disclosure.digest_eq_ok.mpr ⟨hd.value.supported, rfl⟩
    have hrest := discloseSegments_encText hdepth (m.set d.key d.value)
      (fun x hx => hdec x (mem_cons_of_mem _ hx))
      (fun x hx => hlisted x (mem_cons_of_mem _ hx))
    rw [map_cons, discloseSegments, parseDisclosure_encText hd hdepth, wrapErr_ok,
      ok_bind, hdigest, ok_bind, if_neg (not_not.mpr (hlisted d mem_cons_self)), hrest]
    rfl

theorem Issued.listed (h : Issued C schemas opts order now tok discs header) {d : Disclosure}
    (hd : d ∈ tok.disclosures) : encodeB64 (C.sha256 d.encText) ∈ discs.map (·.2) := by
  rw [h.disclosures] at hd
  obtain ⟨⟨_, digest⟩, hmem, rfl⟩ := mem_map.mp hd
  obtain ⟨claim, -, hdisc⟩ := exists_of_mem_forall₂ h.disclosed _ hmem
  rw [Disclosure.encText, ← hdisc.digest]
  exact mem_map_of_mem hmem

theorem Issued.claims_eq (h : Issued C schemas opts order now tok discs header) :
    tok.disclosures.map (fun d => (d.key, d.value)) = order := by
  have hmap : Forall₂ (fun claim d => claim = ((d.1.key, d.1.value) : Bytes × Value)) order
      discs := h.disclosed.imp fun claim d hd => Prod.ext hd.key.symm hd.value.symm
  rw [h.disclosures, map_map]
  exact (forall₂_eq_eq_eq ▸ forall₂_map_right_iff.mpr hmap : order = discs.map _).symm

theorem Issued.setAll_selected (h : Issued C schemas opts order now tok discs header)
    (horder : order.Perm opts.selectiveClaims.entries) (revealKeys : List Bytes) :
    empty.setAll ((tok.selected revealKeys).map fun d => (d.key, d.value))
      = opts.selectiveClaims.filterKeys revealKeys.contains := by
  have hselected : (tok.selected revealKeys).map (fun d => (d.key, d.value))
      = order.filter fun e => revealKeys.contains e.1 := by
    rw [← h.claims_eq, filter_map]
    rfl
  have hperm : (order.filter fun e => revealKeys.contains e.1).Perm
      (opts.selectiveClaims.filterKeys revealKeys.contains).entries := horder.filter _
  refine ext_get fun k => ?_
  rw [hselected, get_setAll hperm, get_empty, Option.or_none]

theorem Issued.isDecoded (h : Issued C schemas opts order now tok discs header)
    (horder : order.Perm opts.selectiveClaims.entries)
    (hclaims : Decoded (depth + 1) (.obj opts.selectiveClaims.entries)) {d : Disclosure}
    (hd : d ∈ tok.disclosures) : d.IsDecoded depth := by
  obtain ⟨claim, hclaim, digest, hdisc⟩ := h.claim_of_mem hd
  obtain ⟨depth', hdepth, hkeys, hvalues⟩ := hclaims.obj_inv
  obtain rfl := Nat.succ.inj hdepth
  have hmem := horder.mem_iff.mp hclaim
  obtain ⟨salt, hsalt⟩ := hdisc.salt
  refine ⟨?_, ?_, ?_⟩
  · exact hsalt ▸ validUtf8_encodeB64 _
  · exact hdisc.key ▸ hkeys claim hmem
  · exact hdisc.value ▸ hvalues claim hmem

/-! ## The decoded payload -/

theorem natAbs_unix_le (a b : Int64) : (unix (a.toInt + b.toInt)).natAbs ≤ 2 ^ 53 := by
  have ha := a.toInt_lt
  have ha' := a.le_toInt
  have hb := b.toInt_lt
  have hb' := b.le_toInt
  unfold unix
  omega

theorem natAbs_unix_validity_le (opts : SDJWTIssueOptions) (now : Int64) :
    (unix (now.toInt + opts.validity)).natAbs ≤ 2 ^ 53 := by
  unfold SDJWTIssueOptions.validity
  split
  · exact natAbs_unix_le now 86400000000000
  · exact natAbs_unix_le now opts.validFor

theorem computedClaims_readable {v : Value} (hdigests : ∀ d ∈ digests, validUtf8 d)
    (h : (opts.computedClaims schemas digests now).get k = some v) :
    k ∈ reserved ∧ v.depth ≤ 1 ∧ v.norm.isSome := by
  have hk : k ∈ reserved := by
    by_contra hk
    rw [computedClaims_get_of_not_mem hk] at h
    cases h
  refine ⟨hk, ?_⟩
  obtain ⟨hiss, hsub, hiat, hexp, halg, hsd, hvct⟩ := computedClaims_get schemas opts digests now
  have hstr : ∀ s, (Value.str s).depth ≤ 1 ∧ (Value.str s).norm.isSome := fun s =>
    ⟨by simp [Value.depth], by simp⟩
  have hint : ∀ n : Int, n.natAbs ≤ 2 ^ 53 → (int n).depth ≤ 1 ∧ (int n).norm.isSome := by
    intro n hn
    obtain ⟨f, hf, -⟩ := norm_int hn
    exact ⟨by simp [depth], by simp [hf]⟩
  simp only [reserved, mem_cons, not_mem_nil, or_false] at hk
  rcases hk with rfl | rfl | rfl | rfl | rfl | rfl | rfl
  · obtain rfl := Option.some.inj (hiss.symm.trans h)
    exact hstr _
  · obtain rfl := Option.some.inj (hsub.symm.trans h)
    exact hstr _
  · obtain rfl := Option.some.inj (hiat.symm.trans h)
    refine hint _ ?_
    simpa using natAbs_unix_le now 0
  · obtain rfl := Option.some.inj (hexp.symm.trans h)
    exact hint _ (natAbs_unix_validity_le opts now)
  · obtain rfl := Option.some.inj (halg.symm.trans h)
    exact hstr _
  · obtain rfl := Option.some.inj (hsd.symm.trans h)
    have hdec := decoded_digests hdigests
    exact ⟨hdec.depth_le, by simp [hdec.norm]⟩
  · rw [hvct] at h
    split at h
    · obtain rfl := Option.some.inj h
      exact hstr _
    · cases h

theorem Issued.exists_raw (h : Issued C schemas opts order now tok discs header)
    (halways : Decoded maxNestingDepth (.obj opts.alwaysVisibleClaims.entries)) :
    ∃ raw, parseSDJWTPayload tok.jwt = .ok raw
      ∧ ∀ k, raw.get k = ((opts.payload schemas (discs.map (·.2)) now).get k).bind norm := by
  obtain ⟨depth, hdepth, hkeys, hvalues⟩ := halways.obj_inv
  have hdigests : ∀ d ∈ discs.map (·.2), validUtf8 d := fun _ => h.validUtf8_digest
  have hentry : ∀ e ∈ (opts.payload schemas (discs.map (·.2)) now).entries,
      validUtf8 e.1 ∧ e.2.depth ≤ depth ∧ e.2.norm.isSome := by
    intro e he
    have hget := get_eq_some_iff.mpr he
    rw [payload_get, Option.or_eq_some_iff] at hget
    rcases hget with hget | ⟨-, hget⟩
    · have hmem := get_eq_some_iff.mp hget
      exact ⟨hkeys _ hmem, (hvalues _ hmem).depth_le, by simp [(hvalues _ hmem).norm]⟩
    · obtain ⟨hres, hd, hnorm⟩ := computedClaims_readable hdigests hget
      refine ⟨validUtf8_of_ascii (reserved_ascii _ hres), hd.trans ?_, hnorm⟩
      rw [maxNestingDepth] at hdepth
      omega
  have hlt : membersDepth (opts.payload schemas (discs.map (·.2)) now).entries
      < maxNestingDepth := by
    rw [hdepth]
    exact Nat.lt_succ_of_le (membersDepth_le.mpr fun e he => (hentry e he).2.1)
  have hraw := unmarshalMap_text h.supported hlt fun e he => (hentry e he).2.2
  refine ⟨_, by rw [h.jwt, parseSDJWTPayload_jwtText, hraw], fun k => ?_⟩
  refine get_of_unmarshalMap h.supported hraw fun e he => ?_
  rw [coerce_eq_self (hentry e he).1]

/-- Strings of the options appear as `encoding/json` writes them (`coerce`). -/
structure Reported (schemas : Registry) (opts : SDJWTIssueOptions)
    (revealKeys : List Bytes) (r : SDJWTVerifyResult) : Prop where
  disclosed : r.disclosedClaims = opts.selectiveClaims.filterKeys revealKeys.contains
  always : r.alwaysClaims = opts.alwaysVisibleClaims.filterKeys (· ≠ "cnf")
  issuer : r.issuerDID = coerce opts.issuerDID
  subject : r.subjectDID = coerce opts.subjectDID
  schema : r.schemaID = if opts.schemaID ≠ [] then
      coerce ((getSchema schemas opts.schemaID).getD ⟨[], 0, [], false, []⟩).versionedID
    else []
  keyBinding : r.keyBindingVerified = false

theorem mem_skip : k ∈ skip ↔ k ∈ reserved ∨ k = "cnf" := by
  simp only [skip, reserved, mem_cons, not_mem_nil, or_false]
  tauto

theorem filterKeys_raw {raw : Map Value}
    (hraw : ∀ k, raw.get k = ((opts.payload schemas digests now).get k).bind norm)
    (halways : Decoded maxNestingDepth (.obj opts.alwaysVisibleClaims.entries))
    (hvisible : ∀ k ∈ reserved, opts.alwaysVisibleClaims.get k = none) :
    raw.filterKeys (fun k => !skip.contains k)
      = opts.alwaysVisibleClaims.filterKeys (· ≠ "cnf") := by
  obtain ⟨depth, -, -, hvalues⟩ := halways.obj_inv
  refine ext_get fun k => ?_
  rw [get_filterKeys, get_filterKeys]
  by_cases hskip : k ∈ skip
  · rw [if_neg (by simp [hskip])]
    rcases mem_skip.mp hskip with hres | rfl
    · rw [hvisible k hres, ite_self]
    · simp
  · have hres : k ∉ reserved := fun h => hskip (mem_skip.mpr (.inl h))
    have hcnf : k ≠ "cnf" := fun h => hskip (mem_skip.mpr (.inr h))
    rw [if_pos (by simp [hskip]), if_pos (by simpa using hcnf), hraw, payload_get,
      computedClaims_get_of_not_mem hres, Option.or_none]
    cases hget : opts.alwaysVisibleClaims.get k with
    | none => rfl
    | some v => exact (hvalues _ (get_eq_some_iff.mp hget)).norm

/-- A presentation of an issued token is accepted until it expires, with exactly the revealed
claims. -/
theorem verify_present (h : issueSDJWT C schemas opts order now rnd = .ok tok)
    (horder : order.Perm opts.selectiveClaims.entries)
    (hselective : ∃ text, decodeAny text = some (.obj opts.selectiveClaims.entries))
    (halways : ∃ text, decodeAny text = some (.obj opts.alwaysVisibleClaims.entries))
    (hvisible : ∀ k ∈ reserved, opts.alwaysVisibleClaims.get k = none) {R : Resolver} {pub : Bytes}
    (hresolve : resolveSigningKey R (coerce opts.issuerDID) = .ok pub)
    (hkey : C.ed25519.KeyPair (opts.issuerKey.getD []) pub) (now' : Int64)
    (hexp : unix now'.toInt ≤ unix (now.toInt + opts.validity)) (revealKeys : List Bytes) :
    ∃ r, verify C R now' (tok.present revealKeys) [] [] = .ok r
      ∧ Reported schemas opts revealKeys r := by
  obtain ⟨discs, header, hissued⟩ := issueSDJWT_eq_ok h
  obtain ⟨_, htext⟩ := hselective
  obtain ⟨_, htext'⟩ := halways
  have hclaims := decoded_of_decodeAny htext
  have halways := decoded_of_decodeAny htext'
  obtain ⟨raw, hraw, hget⟩ := hissued.exists_raw halways
  have hcomputed : ∀ k ∈ reserved, raw.get k
      = ((opts.computedClaims schemas (discs.map (·.2)) now).get k).bind norm := fun k hk =>
    hissued.get_raw_computed hraw hk (hvisible k hk)
  obtain ⟨hiss, hsub, -, hexpClaim, -, hsd, hvct⟩ :=
    computedClaims_get schemas opts (discs.map (·.2)) now
  have hissRaw : strOrEmpty (raw.get "iss") = coerce opts.issuerDID := by
    rw [hcomputed _ (by decide), hiss]
    rfl
  have hdecoded : ∀ d ∈ tok.selected revealKeys, d.IsDecoded 9999 := fun d hd =>
    hissued.isDecoded horder hclaims (mem_filter.mp hd).1
  have hlisted : ∀ d ∈ tok.selected revealKeys, encodeB64 (C.sha256 d.encText) ∈ sdDigests raw := by
    intro d hd
    rw [hissued.sdDigests_raw (by rw [hcomputed _ (by decide), hsd]; rfl)]
    exact hissued.listed (mem_filter.mp hd).1
  refine ⟨_, verify_eq_ok.mpr ⟨⟨tok.jwt, (tok.selected revealKeys).map Disclosure.encText, []⟩, raw,
    pub, _, false, ?parse, hraw, ?issuer, ?resolve, ?signature, ?notExpired,
    discloseSegments_encText (by decide) empty hdecoded hlisted, rfl, rfl⟩, ?reported⟩
  case parse =>
    rw [hissued.present_eq]
    exact parseSDJWT_presentation _ hissued.tilde_not_mem_jwt (by simp) (.inl rfl)
  case issuer =>
    rw [hissRaw]
    exact coerce_ne_nil hissued.issuerDID
  case resolve => rw [hissRaw, hresolve]
  case signature =>
    rw [hissued.jwt, verifySDJWTSig_jwtText _ _ _ (resolveSigningKey_length hresolve),
      if_pos (hkey _)]
  case notExpired =>
    obtain ⟨f, hf, hval⟩ := norm_int (natAbs_unix_validity_le opts now)
    rw [isExpired, hcomputed _ (by decide), hexpClaim, Option.bind_some, hf]
    simp [numericDate, hval, hexp]
  case reported =>
    refine ⟨hissued.setAll_selected horder revealKeys, filterKeys_raw hget halways hvisible,
      hissRaw, ?_, ?_, rfl⟩
    · simp only [verifyResult]
      rw [hcomputed _ (by decide), hsub]
      rfl
    · simp only [verifyResult]
      rw [hcomputed _ (by decide), hvct]
      split <;> rfl

end IssuedToken

theorem verify_present_sample : ∃ tok r, Sample.issue empty = .ok tok
    ∧ verify Crypto.standIn Sample.resolver 0 (tok.present ["name"]) [] [] = .ok r
    ∧ Reported empty (Sample.options empty) ["name"] r := by
  have hrun : (Sample.issue empty).isOk = true := by decide +kernel
  obtain ⟨tok, htok⟩ := isOk_iff.mp hrun
  have hselective := decodeAny_text Sample.decoded_selectiveClaims (by decide)
  have halways : Decoded 1 (.obj (empty : Map Value).entries) :=
    .obj .nil (by decide) (fun e he => nomatch he)
  obtain ⟨r, hr, hreported⟩ := verify_present htok (Perm.refl _) ⟨_, hselective⟩
    ⟨_, decodeAny_text halways (by decide)⟩ (fun _ _ => rfl) Sample.resolveSigningKey_issuer
    Sample.keyPair_issuer 0 (by decide) ["name"]
  exact ⟨tok, r, htok, hr, hreported⟩

end TptIdentity.Vc
