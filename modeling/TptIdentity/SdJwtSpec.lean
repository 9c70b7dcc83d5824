import TptIdentity.GoJsonMap
import TptIdentity.SdJwtModel

/-!
# One specification per SD-JWT function

The shape of a signed token (`jwtText`), inversions of issuance and of verification
(`issueSDJWT_eq_ok`, `verify_eq_ok`), and the parser on a presentation
(`parseSDJWT_presentation`).
-/

namespace TptIdentity.Vc

open Go List Res

/-! ## Compact tokens -/

def jwtText (header payload sig : Bytes) : Bytes :=
  encodeB64 header ++ dot :: (encodeB64 payload ++ dot :: encodeB64 sig)

def signingInput (header payload : Bytes) : Bytes := encodeB64 header ++ dot :: encodeB64 payload

variable {key token : Bytes} {now : Int64} (header s payload sig : Bytes)

theorem dot_not_mem_encodeB64 : dot ∉ encodeB64 s := not_mem_encodeB64 (by decide) s

theorem tilde_not_mem_encodeB64 : tilde ∉ encodeB64 s :=
  not_mem_encodeB64 (by decide) s

theorem splitN_jwtText :
    splitN dot 3 (jwtText header payload sig)
      = [encodeB64 header, encodeB64 payload, encodeB64 sig] :=
  splitN_three.mpr ⟨rfl, dot_not_mem_encodeB64 _, dot_not_mem_encodeB64 _⟩

theorem tilde_not_mem_jwtText : tilde ∉ jwtText header payload sig := by
  have hdot : tilde ≠ dot := by decide
  simp [jwtText, tilde_not_mem_encodeB64, hdot]

theorem count_dot_jwtText : (jwtText header payload sig).count dot = 2 := by
  have h : ∀ s, (encodeB64 s).count dot = 0 :=
    fun s => count_eq_zero.mpr (dot_not_mem_encodeB64 s)
  simp [jwtText, h]

theorem jwtText_ne_nil : jwtText header payload sig ≠ [] := by
  simp [jwtText]

theorem parseSDJWTPayload_jwtText :
    parseSDJWTPayload (jwtText header payload sig) = unmarshalMap payload := by
  simp [parseSDJWTPayload, splitN_jwtText, decodeB64_encodeB64]

variable {C : Crypto} {jwt : Bytes} {d : Disclosure} {rnd : Rand}

theorem verifySDJWTSig_jwtText {pub : Bytes} (hpub : pub.length = Ed25519.publicKeySize) :
    verifySDJWTSig C (jwtText header payload sig) pub
      = if C.ed25519.verify pub (signingInput header payload) sig then .ok ()
        else .err (.new "invalid signature" []) := by
  rw [verifySDJWTSig, splitN_jwtText]
  simp only [decodeB64_encodeB64, wrapErr_ok, ok_bind, Ed25519.verifyWith, if_pos hpub]
  rfl

theorem signSDJWT_eq_ok {claims : Map Value} {kid typ : Bytes}
    (h : signSDJWT C claims key kid typ = .ok jwt) :
    key.length = Ed25519.privateKeySize ∧ supportedMembers claims.entries
      ∧ ∃ header, jwt = jwtText header (Value.obj claims.entries).text
          (C.ed25519.sign key (signingInput header (Value.obj claims.entries).text)) := by
  obtain ⟨headerJSON, -, h⟩ := bind_eq_ok.mp h
  obtain ⟨payloadJSON, hpayload, h⟩ := bind_eq_ok.mp h
  obtain ⟨sig, hsig, h⟩ := bind_eq_ok.mp h
  obtain ⟨hlen, rfl⟩ := Ed25519.signWith_eq_ok.mp hsig
  unfold marshal at hpayload
  split at hpayload
  · next hsup =>
    obtain rfl := ok.inj hpayload
    obtain rfl := ok.inj h
    refine ⟨hlen, hsup, headerJSON, ?_⟩
    simp [jwtText, signingInput]
  · cases hpayload

/-! ## Disclosures -/

theorem Disclosure.supported_toArray (d : Disclosure) :
    d.toArray.supported = d.value.supported := by
  simp [Disclosure.toArray, Value.supported, supportedElems]

theorem Disclosure.encode_eq_ok {enc : Bytes} :
    d.encode = .ok enc ↔ d.value.supported ∧ enc = encodeB64 d.toArray.text := by
  unfold Disclosure.encode marshal
  rw [d.supported_toArray]
  by_cases h : d.value.supported
  · simp [h, eq_comm]
  · simp [h]

theorem Disclosure.digest_eq_ok {digest : Bytes} :
    d.digest C = .ok digest ↔ d.value.supported
      ∧ digest = encodeB64 (C.sha256 (encodeB64 d.toArray.text)) := by
  unfold Disclosure.digest
  rw [bind_eq_ok]
  constructor
  · rintro ⟨enc, henc, h⟩
    obtain ⟨hsup, rfl⟩ := Disclosure.encode_eq_ok.mp henc
    exact ⟨hsup, (ok.inj h).symm⟩
  · rintro ⟨hsup, rfl⟩
    exact ⟨_, Disclosure.encode_eq_ok.mpr ⟨hsup, rfl⟩, rfl⟩

theorem newDisclosure_eq_ok {i : Nat} {value : Value} (h : newDisclosure rnd i key value = .ok d) :
    d.key = key ∧ d.value = value ∧ ∃ salt, d.salt = encodeB64 salt := by
  obtain ⟨salt, -, h⟩ := bind_eq_ok.mp h
  obtain rfl := ok.inj h
  exact ⟨rfl, rfl, salt, rfl⟩

structure DiscloseClaim (C : Crypto) (claim : Bytes × Value) (d : Disclosure × Bytes) : Prop where
  key : d.1.key = claim.1
  value : d.1.value = claim.2
  salt : ∃ salt, d.1.salt = encodeB64 salt
  supported : claim.2.supported = true
  digest : d.2 = encodeB64 (C.sha256 (encodeB64 d.1.toArray.text))

theorem discloseClaims_eq_ok : ∀ {claims : List (Bytes × Value)}
    {i : Nat} {discs : List (Disclosure × Bytes)}, discloseClaims C rnd i claims = .ok discs →
    Forall₂ (DiscloseClaim C) claims discs
  | [], _, _, h => by
    obtain rfl := ok.inj h
    exact .nil
  | (k, v) :: claims, i, discs, h => by
    obtain ⟨d, hd, h⟩ := bind_eq_ok.mp h
    obtain ⟨digest, hdigest, h⟩ := bind_eq_ok.mp h
    obtain ⟨rest, hrest, h⟩ := bind_eq_ok.mp h
    obtain rfl := ok.inj h
    obtain ⟨hkey, hvalue, hsalt⟩ := newDisclosure_eq_ok hd
    obtain ⟨hsup, rfl⟩ := Disclosure.digest_eq_ok.mp hdigest
    exact .cons ⟨hkey, hvalue, hsalt, hvalue ▸ hsup, rfl⟩ (discloseClaims_eq_ok hrest)

/-! ## Issuance -/

structure Issued (C : Crypto) (schemas : Schema.Registry) (opts : SDJWTIssueOptions)
    (order : List (Bytes × Value)) (now : Int64) (tok : SDJWTToken)
    (discs : List (Disclosure × Bytes)) (header : Bytes) : Prop where
  not_didKey : hasPrefix opts.issuerDID "did:key:" = false
  issuerDID : opts.issuerDID ≠ []
  subjectDID : opts.subjectDID ≠ []
  disclosed : Forall₂ (DiscloseClaim C) order discs
  disclosures : tok.disclosures = discs.map (·.1)
  supported : supportedMembers (opts.payload schemas (discs.map (·.2)) now).entries = true
  jwt : tok.jwt = jwtText header
    (Value.obj (opts.payload schemas (discs.map (·.2)) now).entries).text
    (C.ed25519.sign (opts.issuerKey.getD []) (signingInput header
      (Value.obj (opts.payload schemas (discs.map (·.2)) now).entries).text))

theorem issueSDJWT_eq_ok {schemas : Schema.Registry} {opts : SDJWTIssueOptions}
    {order : List (Bytes × Value)} {tok : SDJWTToken}
    (h : issueSDJWT C schemas opts order now rnd = .ok tok) :
    ∃ discs header, Issued C schemas opts order now tok discs header := by
  obtain ⟨hkey, h⟩ := ite_err_eq_ok.mp h
  obtain ⟨hissuer, h⟩ := ite_err_eq_ok.mp h
  obtain ⟨hsubject, h⟩ := ite_err_eq_ok.mp h
  obtain ⟨-, -, h⟩ := bind_eq_ok.mp h
  obtain ⟨discs, hdiscs, h⟩ := bind_eq_ok.mp h
  obtain ⟨jwt, hjwt, h⟩ := bind_eq_ok.mp h
  obtain rfl := ok.inj h
  obtain ⟨-, hsup, header, hjwt⟩ := signSDJWT_eq_ok (wrapErr_eq_ok.mp hjwt)
  exact ⟨discs, header, by simpa using hkey, fun h0 => hissuer (.inl h0), hsubject,
    discloseClaims_eq_ok hdiscs, rfl, hsup, hjwt⟩

/-! ## Verification -/

structure Verified (C : Crypto) (R : Resolver) (now : Int64) (token nonce audience : Bytes)
    (r : SDJWTVerifyResult) (parsed : ParsedSDJWT) (rawClaims : Map Value) (pub : Bytes)
    (disclosed : Map Value) (kbVerified : Bool) : Prop where
  parse : parseSDJWT token = .ok parsed
  payload : parseSDJWTPayload parsed.jwt = .ok rawClaims
  issuer : strOrEmpty (rawClaims.get "iss") ≠ []
  resolve : resolveSigningKey R (strOrEmpty (rawClaims.get "iss")) = .ok pub
  signature : verifySDJWTSig C parsed.jwt pub = .ok ()
  notExpired : isExpired rawClaims now = false
  disclose : discloseSegments C (sdDigests rawClaims) parsed.disclosures Map.empty = .ok disclosed
  keyBinding : checkKeyBinding C parsed rawClaims nonce audience = .ok kbVerified
  result : r = verifyResult rawClaims disclosed kbVerified

theorem verify_eq_ok {R : Resolver} {nonce audience : Bytes} {r : SDJWTVerifyResult} :
    verify C R now token nonce audience = .ok r ↔ ∃ parsed rawClaims pub disclosed kbVerified,
      Verified C R now token nonce audience r parsed rawClaims pub disclosed kbVerified := by
  unfold verify
  constructor
  · intro h
    obtain ⟨parsed, hparse, h⟩ := bind_eq_ok.mp h
    obtain ⟨rawClaims, hpayload, h⟩ := bind_eq_ok.mp h
    obtain ⟨hiss, h⟩ := ite_err_eq_ok.mp h
    obtain ⟨pub, hpub, h⟩ := bind_eq_ok.mp h
    obtain ⟨⟨⟩, hsig, h⟩ := bind_eq_ok.mp h
    obtain ⟨hexp, h⟩ := ite_err_eq_ok.mp h
    obtain ⟨disclosed, hdisc, h⟩ := bind_eq_ok.mp h
    obtain ⟨kbVerified, hkb, h⟩ := bind_eq_ok.mp h
    rw [wrapErr_eq_ok] at hpayload hpub hsig
    exact ⟨parsed, rawClaims, pub, disclosed, kbVerified, hparse, hpayload, hiss, hpub, hsig,
      by simpa using hexp, hdisc, hkb, (ok.inj h).symm⟩
  · rintro ⟨parsed, rawClaims, pub, disclosed, kbVerified, h⟩
    simp [h.parse, h.payload, h.issuer, h.resolve, h.signature, h.notExpired, h.disclose,
      h.keyBinding, h.result]

/-! ## Parsing -/

variable (parts : List Bytes) (p : ParsedSDJWT)

theorem parseSegments_jwt : (parseSegments parts p).jwt = p.jwt := by
  induction parts generalizing p with
  | nil => rfl
  | cons s parts ih =>
    unfold parseSegments
    split
    · exact ih p
    · split <;> rw [ih]

theorem parseSegments_disclosures :
    (parseSegments parts p).disclosures
      = p.disclosures ++ parts.filter fun s => s ≠ [] ∧ s.count dot ≠ 2 := by
  induction parts generalizing p with
  | nil => simp [parseSegments]
  | cons s parts ih =>
    unfold parseSegments
    by_cases hs : s = []
    · simp [hs, ih]
    · by_cases hdots : s.count dot = 2
      · simp [hs, hdots, ih]
      · simp [hs, hdots, ih]

theorem parseSegments_kbToken :
    (parseSegments parts p).kbToken
      = ((parts.filter fun s => s.count dot = 2).getLast?).getD p.kbToken := by
  induction parts generalizing p with
  | nil => rfl
  | cons s parts ih =>
    unfold parseSegments
    by_cases hs : s = []
    · subst hs
      simp [ih]
    · by_cases hdots : s.count dot = 2
      · simp [hs, hdots, ih, getLast?_cons]
      · simp [hs, hdots, ih]

theorem parseSDJWT_eq_ok {parsed : ParsedSDJWT} (h : parseSDJWT token = .ok parsed) :
    ∃ jwt parts, token.splitOn tilde = jwt :: parts
      ∧ parsed = parseSegments parts ⟨jwt, [], []⟩ := by
  obtain ⟨-, h⟩ := ite_err_eq_ok.mp h
  split at h
  · next jwt p parts hsplit => exact ⟨jwt, p :: parts, hsplit, (ok.inj h).symm⟩
  · cases h

theorem parseSDJWT_intercalate {parts : List Bytes} (hjwt : tilde ∉ jwt)
    (hparts : ∀ p ∈ parts, tilde ∉ p) (hne : parts ≠ []) :
    parseSDJWT ([tilde].intercalate (jwt :: parts)) = .ok (parseSegments parts ⟨jwt, [], []⟩) := by
  have hmem : ∀ p ∈ jwt :: parts, tilde ∉ p := by
    intro p hp
    rcases mem_cons.mp hp with rfl | hp
    · exact hjwt
    · exact hparts p hp
  have hsplit := splitOn_intercalate tilde hmem (by simp)
  obtain ⟨p, parts, rfl⟩ := exists_cons_of_ne_nil hne
  have hnil : [tilde].intercalate (jwt :: p :: parts) ≠ [] := by
    simp
  rw [parseSDJWT, if_neg hnil, hsplit]

theorem parseSDJWT_segments {kb : Bytes} {discs : List Bytes} (hjwt : tilde ∉ jwt)
    (hdiscs : ∀ d ∈ discs, d ≠ [] ∧ tilde ∉ d ∧ d.count dot ≠ 2) (hkb : tilde ∉ kb)
    (hdots : kb = [] ∨ kb.count dot = 2) :
    parseSDJWT ([tilde].intercalate (jwt :: discs) ++ tilde :: kb) = .ok ⟨jwt, discs, kb⟩ := by
  have hparts : ∀ p ∈ discs ++ [kb], tilde ∉ p := by
    intro p hp
    rcases mem_append.mp hp with hp | hp
    · exact (hdiscs p hp).2.1
    · exact mem_singleton.mp hp ▸ hkb
  have hnone : discs.filter (fun s => s.count dot = 2) = [] :=
    filter_eq_nil_iff.mpr fun p hp => by simp [hdiscs p hp]
  rw [← intercalate_concat tilde kb (by simp), cons_append,
    parseSDJWT_intercalate hjwt hparts (by simp)]
  congr 1
  have h1 := parseSegments_jwt (discs ++ [kb]) ⟨jwt, [], []⟩
  have h2 := parseSegments_disclosures (discs ++ [kb]) ⟨jwt, [], []⟩
  have h3 := parseSegments_kbToken (discs ++ [kb]) ⟨jwt, [], []⟩
  rw [filter_append, hnone] at h3
  generalize parseSegments (discs ++ [kb]) ⟨jwt, [], []⟩ = q at h1 h2 h3 ⊢
  cases q
  rcases hdots with rfl | hdots
  · simp_all
  · simp_all

/-! ## Presentations of issued tokens -/

def Disclosure.encText (d : Disclosure) : Bytes := encodeB64 d.toArray.text

theorem Disclosure.encText_ne_nil (d : Disclosure) : d.encText ≠ [] :=
  encodeB64_ne_nil (by simp [Disclosure.toArray, Value.text])

theorem Disclosure.count_dot_encText (d : Disclosure) : d.encText.count dot = 0 :=
  count_eq_zero.mpr (dot_not_mem_encodeB64 _)

theorem parseSDJWT_presentation {last : Bytes} (discs : List Disclosure) (hjwt : tilde ∉ jwt)
    (hlast : tilde ∉ last) (hdots : last = [] ∨ last.count dot = 2) :
    parseSDJWT ([tilde].intercalate (jwt :: discs.map Disclosure.encText) ++ tilde :: last)
      = .ok ⟨jwt, discs.map Disclosure.encText, last⟩ := by
  refine parseSDJWT_segments hjwt (fun p hp => ?_) hlast hdots
  obtain ⟨d, -, rfl⟩ := mem_map.mp hp
  refine ⟨d.encText_ne_nil, tilde_not_mem_encodeB64 _, ?_⟩
  rw [d.count_dot_encText]
  exact Nat.zero_ne_add_one 1

section IssuedToken

variable {C : Crypto} {schemas : Schema.Registry} {opts : SDJWTIssueOptions}
  {order : List (Bytes × Value)} {now : Int64} {tok : SDJWTToken}
  {discs : List (Disclosure × Bytes)} {header : Bytes}

theorem Issued.claim_of_mem (h : Issued C schemas opts order now tok discs header)
    {d : Disclosure} (hd : d ∈ tok.disclosures) :
    ∃ claim ∈ order, ∃ digest, DiscloseClaim C claim (d, digest) := by
  rw [h.disclosures] at hd
  obtain ⟨⟨d', digest⟩, hmem, rfl⟩ := mem_map.mp hd
  obtain ⟨claim, hclaim, hdisc⟩ := exists_of_mem_forall₂ h.disclosed _ hmem
  exact ⟨claim, hclaim, digest, hdisc⟩

theorem Issued.tilde_not_mem_jwt (h : Issued C schemas opts order now tok discs header) :
    tilde ∉ tok.jwt := by
  rw [h.jwt]
  exact tilde_not_mem_jwtText _ _ _

theorem Issued.present_eq (h : Issued C schemas opts order now tok discs header)
    (revealKeys : List Bytes) :
    tok.present revealKeys = [tilde].intercalate
      (tok.jwt :: (tok.selected revealKeys).map Disclosure.encText) ++ [tilde] := by
  have henc : (tok.selected revealKeys).map (fun d => d.encode.getD [])
      = (tok.selected revealKeys).map Disclosure.encText := by
    refine map_congr_left fun d hd => ?_
    obtain ⟨claim, -, digest, hclaim⟩ := h.claim_of_mem (mem_filter.mp hd).1
    have hsup : d.value.supported := hclaim.value ▸ hclaim.supported
    rw [Disclosure.encode_eq_ok.mpr ⟨hsup, rfl⟩]
    rfl
  rw [SDJWTToken.present, SDJWTToken.serializeWith, henc]

end IssuedToken

/-! ## A sample setting

One issuer, one holder and one credential, for evaluating the model with
the stand-in primitives. -/

namespace Sample

def issuerDID : Bytes := "did:web:example.com"

def subjectDID : Bytes := "did:key:alice"

def issuerKey : Bytes := replicate 64 1

def holderKey : Bytes := replicate 64 2

def resolver : Resolver where
  resolve did :=
    if did = issuerDID then
      .ok ⟨[⟨"key-1", "Ed25519VerificationKey2020", some "z", false⟩]⟩
    else .err (.new "not found" [])
  multibaseDecode _ := .ok (0xed :: 0x01 :: replicate 32 1)

def rand : Rand := Rand.of fun i j => UInt8.ofNat (16 * i + j)

def cnf : Value :=
  .obj [("jwk", .obj [("kty", .str "OKP"), ("x", .str (encodeB64 (replicate 32 2)))])]

def selectiveClaims : Map Value :=
  (Map.empty.set "name" (.str "Alice")).set "over18" (.bool true)

def options (alwaysVisible : Map Value) : SDJWTIssueOptions where
  issuerDID := issuerDID
  issuerKey := some issuerKey
  verificationMethodID := "did:web:example.com#key-1"
  subjectDID := subjectDID
  schemaID := []
  selectiveClaims := selectiveClaims
  alwaysVisibleClaims := alwaysVisible
  validFor := 0

def issue (alwaysVisible : Map Value) : Res SDJWTToken :=
  issueSDJWT Crypto.standIn Map.empty (options alwaysVisible) selectiveClaims.entries 0 rand

theorem resolveSigningKey_issuer : resolveSigningKey resolver issuerDID
    = .ok (replicate 32 1) := by decide

theorem keyPair_issuer : Crypto.standIn.ed25519.KeyPair issuerKey (replicate 32 1) :=
  fun _ => rfl

theorem keyPair_holder : Crypto.standIn.ed25519.KeyPair holderKey (replicate 32 2) :=
  fun _ => rfl

end Sample

end TptIdentity.Vc
