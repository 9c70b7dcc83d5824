import TptIdentity.SdJwtSpec

/-!
# Key binding

An accepted presentation that had to be key-bound is signed by the embedded key, for the nonce
and the audience (`verify_keyBound`). `presentWithKeyBinding` hashes the text without its final
tilde, and the verifier with it, so it is never accepted (`verify_presentWithKeyBinding`).
-/

namespace TptIdentity.Vc

open Go List Res

/-! ## The verifier's checks -/

structure HolderKey (claims : Map Value) (pub : Bytes) : Prop where
  jwk : ∃ cnf jwk x, claims.get "cnf" = some (.obj cnf)
    ∧ assoc (str "jwk") cnf = some (.obj jwk)
    ∧ assoc (str "kty") jwk = some (.str (str "OKP"))
    ∧ assoc (str "x") jwk = some (.str x) ∧ decodeB64 x = .ok pub
  length : pub.length = Ed25519.publicKeySize

theorem eq_some_of_strOrEmpty {v : Option Value} {s : Bytes} (hs : s ≠ [])
    (h : strOrEmpty v = s) : v = some (.str s) := by
  unfold strOrEmpty at h
  split at h
  · rw [h]
  · exact absurd h.symm hs

variable {pub nonce aud : Bytes} {C : Crypto}

theorem extractHolderKey_eq_some {claims : Map Value}
    (h : extractHolderKey claims = .ok (some pub)) : HolderKey claims pub := by
  unfold extractHolderKey at h
  split at h
  · next cnf hcnf =>
    split at h
    · next jwk hjwk =>
      obtain ⟨hkty, h⟩ := ite_err_eq_ok.mp h
      have hkty := eq_some_of_strOrEmpty (by decide) (not_not.mp hkty)
      split at h
      · next x hx =>
        obtain ⟨raw, hraw, h⟩ := bind_eq_ok.mp h
        rw [wrapErr_eq_ok] at hraw
        obtain ⟨hlen, h⟩ := ite_err_eq_ok.mp h
        obtain rfl := Option.some.inj (ok.inj h)
        exact ⟨⟨cnf, jwk, x, hcnf, hjwk, hkty, hx, hraw⟩, not_not.mp hlen⟩
      · cases h
    · cases h
  · cases h

structure KbVerified (C : Crypto) (parsed : ParsedSDJWT) (pub nonce aud : Bytes)
    (kb : Map Value) : Prop where
  payload : parseSDJWTPayload parsed.kbToken = .ok kb
  signature : verifySDJWTSig C parsed.kbToken pub = .ok ()
  nonce : nonce ≠ [] → kb.get "nonce" = some (.str nonce)
  aud : aud ≠ [] → kb.get "aud" = some (.str aud)
  sdHash : strOrEmpty (kb.get "sd_hash") = sdHashOf C parsed

variable {parsed : ParsedSDJWT}

theorem verifyKBJWT_eq_ok (h : verifyKBJWT C parsed (some pub) nonce aud = .ok ()) :
    ∃ kb, KbVerified C parsed pub nonce aud kb := by
  obtain ⟨kb, hkb, h⟩ := bind_eq_ok.mp h
  rw [wrapErr_eq_ok] at hkb
  obtain ⟨hnonce, h⟩ := ite_err_eq_ok.mp h
  obtain ⟨haud, h⟩ := ite_err_eq_ok.mp h
  obtain ⟨hhash, h⟩ := ite_err_eq_ok.mp h
  refine ⟨kb, hkb, wrapErr_eq_ok.mp h, fun hn => ?_, fun ha => ?_, not_not.mp hhash⟩
  · exact eq_some_of_strOrEmpty hn (not_not.mp fun hne => hnonce ⟨hn, hne⟩)
  · exact eq_some_of_strOrEmpty ha (not_not.mp fun hne => haud ⟨ha, hne⟩)

theorem checkKeyBinding_eq_ok {rawClaims : Map Value} {kbVerified : Bool}
    (h : checkKeyBinding C parsed rawClaims nonce aud = .ok kbVerified) :
    (kbVerified ∧ parsed.kbToken ≠ [] ∧ ∃ pub kb, HolderKey rawClaims pub
        ∧ KbVerified C parsed pub nonce aud kb)
      ∨ (kbVerified = false ∧ parsed.kbToken = [] ∧ nonce = [] ∧ aud = []) := by
  unfold checkKeyBinding at h
  split at h
  · next hkb =>
    split at h
    · next pub hpub =>
      obtain ⟨⟨⟩, hverify, h⟩ := bind_eq_ok.mp h
      obtain ⟨kb, hkb'⟩ := verifyKBJWT_eq_ok (wrapErr_eq_ok.mp hverify)
      exact .inl ⟨(ok.inj h).symm, hkb, pub, kb, extractHolderKey_eq_some hpub, hkb'⟩
    · cases h
    · cases h
  · next hkb =>
    obtain ⟨hexp, h⟩ := ite_err_eq_ok.mp h
    rw [not_or, not_not, not_not] at hexp
    exact .inr ⟨(ok.inj h).symm, not_not.mp hkb, hexp.1, hexp.2⟩

/-! ## Anti-replay -/

def sdHashInput (parsed : ParsedSDJWT) : Bytes :=
  [tilde].intercalate (parsed.jwt :: parsed.disclosures) ++ [tilde]

structure KeyBound (C : Crypto) (R : Resolver) (token nonce audience : Bytes)
    (parsed : ParsedSDJWT) : Prop where
  parse : parseSDJWT token = .ok parsed
  segment : parsed.kbToken ∈ (token.splitOn tilde).tail
  holder : ∃ rawClaims issuerPub holderPub kb, parseSDJWTPayload parsed.jwt = .ok rawClaims
      ∧ resolveSigningKey R (strOrEmpty (rawClaims.get (str "iss"))) = .ok issuerPub
      ∧ verifySDJWTSig C parsed.jwt issuerPub = .ok ()
      ∧ HolderKey rawClaims holderPub
      ∧ KbVerified C parsed holderPub nonce audience kb

theorem tilde_not_mem_parsed {token : Bytes} (h : parseSDJWT token = .ok parsed) :
    ∀ p ∈ parsed.jwt :: parsed.disclosures, tilde ∉ p := by
  obtain ⟨jwt, parts, hsplit, rfl⟩ := parseSDJWT_eq_ok h
  have hmem : ∀ p ∈ jwt :: parts, tilde ∉ p := fun p hp =>
    not_mem_of_mem_splitOn (hsplit ▸ hp)
  rw [parseSegments_jwt, parseSegments_disclosures]
  intro p hp
  rcases List.mem_cons.mp hp with rfl | hp
  · exact hmem _ mem_cons_self
  · rw [nil_append] at hp
    exact hmem p (mem_cons_of_mem _ (List.mem_filter.mp hp).1)

theorem kbToken_mem {token : Bytes} {parsed : ParsedSDJWT} (h : parseSDJWT token = .ok parsed)
    (hkb : parsed.kbToken ≠ []) : parsed.kbToken ∈ (token.splitOn tilde).tail := by
  obtain ⟨jwt, parts, hsplit, rfl⟩ := parseSDJWT_eq_ok h
  rw [parseSegments_kbToken] at hkb ⊢
  rw [hsplit, tail_cons]
  cases hlast : (parts.filter fun s => s.count dot = 2).getLast? with
  | none => rw [hlast] at hkb; exact absurd rfl hkb
  | some kb => exact (List.mem_filter.mp (mem_of_getLast? hlast)).1

theorem sdHashInput_inj {token token' : Bytes} {parsed' : ParsedSDJWT}
    (h : parseSDJWT token = .ok parsed) (h' : parseSDJWT token' = .ok parsed')
    (heq : sdHashInput parsed = sdHashInput parsed') :
    parsed.jwt = parsed'.jwt ∧ parsed.disclosures = parsed'.disclosures := by
  have hjoin := append_cancel_right heq
  exact List.cons.inj (intercalate_inj (tilde_not_mem_parsed h) (tilde_not_mem_parsed h')
    (by simp) (by simp) hjoin)

/-- If a nonce or an audience is expected, an accepted token is bound to the holder's key, and the
binding fits no other issuer token or choice of disclosures. -/
theorem verify_keyBound {R : Resolver} {now : Int64} {token nonce audience : Bytes}
    {r : SDJWTVerifyResult} (hexpect : nonce ≠ [] ∨ audience ≠ [])
    (h : verify C R now token nonce audience = .ok r) :
    ∃ parsed, KeyBound C R token nonce audience parsed ∧ r.keyBindingVerified = true
      ∧ ∀ (R' : Resolver) (now' : Int64) (token' nonce' audience' : Bytes)
          (r' : SDJWTVerifyResult) (parsed' : ParsedSDJWT),
          verify C R' now' token' nonce' audience' = .ok r' →
          parseSDJWT token' = .ok parsed' → parsed'.kbToken = parsed.kbToken →
          C.CollisionFree {sdHashInput parsed, sdHashInput parsed'} →
          parsed'.jwt = parsed.jwt ∧ parsed'.disclosures = parsed.disclosures := by
  obtain ⟨parsed, rawClaims, pub, disclosed, kbVerified, hv⟩ := verify_eq_ok.mp h
  rcases checkKeyBinding_eq_ok hv.keyBinding with
    ⟨rfl, hkb, holderPub, kb, hholder, hkbv⟩ | ⟨-, -, hn, ha⟩
  · refine ⟨parsed, ⟨hv.parse, kbToken_mem hv.parse hkb, rawClaims, pub, holderPub, kb, hv.payload,
      hv.resolve, hv.signature, hholder, hkbv⟩, by rw [hv.result]; rfl, ?_⟩
    intro R' now' token' nonce' audience' r' parsed' h' hparse' htok hfree
    obtain ⟨parsed₂, rawClaims', pub', disclosed', kbVerified', hv'⟩ := verify_eq_ok.mp h'
    obtain rfl : parsed' = parsed₂ := ok.inj (hparse'.symm.trans hv'.parse)
    rcases checkKeyBinding_eq_ok hv'.keyBinding with
      ⟨-, -, holderPub', kb', -, hkbv'⟩ | ⟨-, hnil, -, -⟩
    · -- the two KB-JWTs have one payload, hence one `sd_hash`
      have hpayload := hkbv'.payload
      rw [htok, hkbv.payload] at hpayload
      obtain rfl := ok.inj hpayload
      have hhash : sdHashOf C parsed = sdHashOf C parsed' := hkbv.sdHash.symm.trans hkbv'.sdHash
      have hinput : sdHashInput parsed = sdHashInput parsed' :=
        hfree (.inl rfl) (.inr rfl) (encodeB64_injective hhash)
      obtain ⟨hjwt, hdisc⟩ := sdHashInput_inj hv.parse hv'.parse hinput
      exact ⟨hjwt.symm, hdisc.symm⟩
    · exact absurd (htok.symm.trans hnil) hkb
  · rcases hexpect with h | h
    · exact absurd hn h
    · exact absurd ha h

def Sample.keyBoundToken (nonce aud : Bytes) : Res Bytes := do
  let tok ← Sample.issue (Map.empty.set "cnf" Sample.cnf)
  let presentation := tok.present ["name"]
  let kbJWT ← signSDJWT Crypto.standIn
    (((Map.empty.set "nonce" (.str nonce)).set "aud" (.str aud)).set "sd_hash"
      (.str (encodeB64 (Crypto.standIn.sha256 presentation)))) Sample.holderKey "holder"
    "kb+jwt"
  return presentation ++ kbJWT

theorem verify_keyBound_sample : ∃ token r parsed, Sample.keyBoundToken "n1" "shop" = .ok token
      ∧ verify Crypto.standIn Sample.resolver 0 token "n1" "shop" = .ok r
      ∧ KeyBound Crypto.standIn Sample.resolver token (str "n1") (str "shop") parsed := by
  have hrun : (Sample.keyBoundToken "n1" "shop" >>= fun token =>
      verify Crypto.standIn Sample.resolver 0 token "n1" "shop").isOk = true := by
    decide +kernel
  obtain ⟨r, hr⟩ := isOk_iff.mp hrun
  obtain ⟨token, htoken, hr⟩ := bind_eq_ok.mp hr
  obtain ⟨parsed, hbound, -, -⟩ := verify_keyBound (.inl (by decide)) hr
  exact ⟨token, r, parsed, htoken, hr, hbound⟩

/-! ## The holder's side -/

section HolderSide

variable {C : Crypto} {schemas : Schema.Registry} {opts : SDJWTIssueOptions}
  {order : List (Bytes × Value)} {now : Int64} {tok : SDJWTToken}
  {discs : List (Disclosure × Bytes)} {header : Bytes}

def trimmedPresentation (tok : SDJWTToken) (revealKeys : List Bytes) : Bytes :=
  trimSuffix (tok.present revealKeys) [tilde]

theorem kbClaims_sdHash {kb : Map Value} {revealKeys : List Bytes}
    (hsup : supportedMembers (tok.kbClaims C revealKeys nonce aud now).entries)
    (h : unmarshalMap (Value.obj (tok.kbClaims C revealKeys nonce aud now).entries).text = .ok kb) :
    strOrEmpty (kb.get "sd_hash")
      = encodeB64 (C.sha256 (trimmedPresentation tok revealKeys)) := by
  have hdigest := coerce_eq_self (validUtf8_encodeB64
    (C.sha256 (trimmedPresentation tok revealKeys)))
  rw [get_ascii_of_unmarshalMap hsup h (by decide +kernel), SDJWTToken.kbClaims, Map.get_set,
    if_pos rfl, Option.bind_some, norm_str]
  exact hdigest

theorem Issued.parse_keyBound (h : Issued C schemas opts order now tok discs header)
    (revealKeys : List Bytes) (header' payload' sig' : Bytes) :
    parseSDJWT (tok.present revealKeys ++ jwtText header' payload' sig')
      = .ok ⟨tok.jwt, (tok.selected revealKeys).map Disclosure.encText,
          jwtText header' payload' sig'⟩ := by
  rw [h.present_eq, append_assoc, singleton_append]
  exact parseSDJWT_presentation _ h.tilde_not_mem_jwt (tilde_not_mem_jwtText _ _ _)
    (.inr (count_dot_jwtText ..))

theorem Issued.sdHashOf_present (h : Issued C schemas opts order now tok discs header)
    (revealKeys : List Bytes) (kbToken : Bytes) :
    sdHashOf C ⟨tok.jwt, (tok.selected revealKeys).map Disclosure.encText, kbToken⟩
      = encodeB64 (C.sha256 (tok.present revealKeys)) := by
  rw [h.present_eq]
  rfl

theorem Issued.present_eq_trimmed (h : Issued C schemas opts order now tok discs header)
    (revealKeys : List Bytes) :
    tok.present revealKeys = trimmedPresentation tok revealKeys ++ [tilde] := by
  rw [trimmedPresentation, h.present_eq, trimSuffix_append]

/-- No presentation with key binding is accepted: the holder signs the hash of another text than the
verifier compares. -/
theorem verify_presentWithKeyBinding {rnd : Rand}
    (h : issueSDJWT C schemas opts order now rnd = .ok tok) (revealKeys : List Bytes)
    (hfree : C.CollisionFree {tok.present revealKeys, trimmedPresentation tok revealKeys})
    (R : Resolver) (holderKey holderKID nonce aud : Bytes) (now₁ now₂ : Int64) :
    ∀ p r, tok.presentWithKeyBinding C revealKeys holderKey holderKID nonce aud now₁ = .ok p →
      verify C R now₂ p nonce aud ≠ .ok r := by
  intro p r hp hverify
  obtain ⟨discs, header, hissued⟩ := issueSDJWT_eq_ok h
  obtain ⟨kbJWT, hkb, hp⟩ := bind_eq_ok.mp hp
  obtain ⟨-, hsup, kbHeader, rfl⟩ := signSDJWT_eq_ok (wrapErr_eq_ok.mp hkb)
  obtain rfl := ok.inj hp
  obtain ⟨parsed, rawClaims, pub, disclosed, kbVerified, hv⟩ := verify_eq_ok.mp hverify
  obtain rfl := ok.inj (hv.parse.symm.trans (hissued.parse_keyBound revealKeys _ _ _))
  rcases checkKeyBinding_eq_ok hv.keyBinding with ⟨-, -, holderPub, kb, -, hkbv⟩ | ⟨-, hnil, -, -⟩
  · -- both digests are known, and their inputs differ by the tilde
    have hpayload := hkbv.payload
    rw [parseSDJWTPayload_jwtText] at hpayload
    have hhash := (kbClaims_sdHash hsup hpayload).symm.trans hkbv.sdHash
    rw [hissued.sdHashOf_present] at hhash
    have heq := hfree (.inr rfl) (.inl rfl) (encodeB64_injective hhash)
    rw [hissued.present_eq_trimmed] at heq
    exact absurd heq (by simp)
  · exact absurd hnil (jwtText_ne_nil _ _ _)

end HolderSide

theorem Sample.collisionFree {always : Map Value} {tok : SDJWTToken}
    (h : Sample.issue always = .ok tok) (revealKeys : List Bytes) :
    Crypto.standIn.CollisionFree {tok.present revealKeys, trimmedPresentation tok revealKeys} := by
  obtain ⟨discs, header, hissued⟩ := issueSDJWT_eq_ok h
  rw [hissued.present_eq_trimmed]
  exact Crypto.standIn_collisionFree _ _

def Sample.presented (nonce aud : Bytes) : Res Bytes := do
  let tok ← Sample.issue (Map.empty.set "cnf" Sample.cnf)
  tok.presentWithKeyBinding Crypto.standIn ["name"] Sample.holderKey "holder" nonce aud 0

theorem verify_presentWithKeyBinding_sample : ∃ tok p,
    Sample.issue (Map.empty.set "cnf" Sample.cnf) = .ok tok
      ∧ tok.presentWithKeyBinding Crypto.standIn ["name"] Sample.holderKey "holder"
          "n1" "shop" 0 = .ok p
      ∧ ∀ r, verify Crypto.standIn Sample.resolver 0 p "n1" "shop" ≠ .ok r := by
  have hrun : (Sample.presented "n1" "shop").isOk = true := by decide +kernel
  obtain ⟨p, hp⟩ := isOk_iff.mp hrun
  obtain ⟨tok, htok, hp⟩ := bind_eq_ok.mp hp
  have hfree := Sample.collisionFree htok ["name"]
  exact ⟨tok, p, htok, hp, fun r => verify_presentWithKeyBinding htok ["name"] hfree
    Sample.resolver _ _ _ _ 0 0 p r hp⟩

theorem verify_presented_rejected :
    resolveSigningKey Sample.resolver Sample.issuerDID = .ok (List.replicate 32 1)
      ∧ Crypto.standIn.ed25519.KeyPair Sample.issuerKey (List.replicate 32 1)
      ∧ Crypto.standIn.ed25519.KeyPair Sample.holderKey (List.replicate 32 2)
      ∧ (∀ tok, Sample.issue (Map.empty.set "cnf" Sample.cnf) = .ok tok →
          Crypto.standIn.CollisionFree {tok.present ["name"], trimmedPresentation tok ["name"]})
      ∧ (Sample.presented "n1" "shop" >>= fun p =>
          verify Crypto.standIn Sample.resolver 0 p "n1" "shop").error?
        = some (.wrap "sdjwt: kb-jwt: %w" []
            (.new "sd_hash mismatch — presentation was tampered" [])) :=
  ⟨Sample.resolveSigningKey_issuer, Sample.keyPair_issuer, Sample.keyPair_holder,
    fun _ htok => Sample.collisionFree htok _, by decide +kernel⟩

end TptIdentity.Vc
