import TptIdentity.BridgeModel
import TptIdentity.DidMethods

/-!
# Keys in documents

Signing keys come back from a document for every method (`signing_key_survives`). The encryption
key of a did:peer is base64url behind the `z` of base58btc (`peer_encKey_iff`).
`keyDID_canonical_iff` says when a did:key is the text of its key.
-/

namespace TptIdentity.Did

open Go List Res

/-! ## Signing keys -/

theorem uvarint_ed : uvarint 0xed = [0xed, 0x01] := by rfl

variable {mb key did : Bytes} {doc : Document} {opts : CreateOptions} {room : Nat} (x : Nat)

theorem decodeMultibaseEd25519_of_decode {R : Vc.Resolver}
    (h : R.multibaseDecode mb = .ok (0xed :: 0x01 :: key))
    (hlen : key.length = Ed25519.publicKeySize) : Vc.decodeMultibaseEd25519 R mb = .ok key :=
  Vc.decodeMultibaseEd25519_eq_ok.mpr
    ⟨_, by rw [Vc.multibaseKeyBytes, h], hlen, Vc.stripsTo_ed25519 key⟩

theorem extractEd25519Key_documentOf {R : Vc.Resolver}
    (h : Vc.decodeMultibaseEd25519 R mb = .ok key) (did sigKeyID : Bytes)
    (enc : Option (Bytes × Bytes)) (now : Option Time) :
    Vc.extractEd25519Key R (documentOf did sigKeyID mb enc now).toVc sigKeyID = .ok key := by
  refine Vc.extractEd25519Key_eq_ok.mpr
    ⟨⟨sigKeyID, "Ed25519VerificationKey2020", some mb, false⟩, mb, ?_, rfl, rfl, rfl, h⟩
  exact find?_cons_of_pos (by simp)

variable {M : Multibase}

theorem toMultibase_of_encode {enc : Bytes} (h : M.encode (0xed :: 0x01 :: key) = .ok enc) :
    toMultibase M key 0xed = enc := by
  rw [toMultibase, uvarint_ed]
  simp [h]

theorem Multibase.Lossless.decode_toMultibase (hM : M.Lossless) (key : Bytes) :
    M.decode (toMultibase M key 0xed) = .ok (0xed :: 0x01 :: key) := by
  cases henc : M.encode (0xed :: 0x01 :: key) with
  | ok enc =>
    rw [toMultibase_of_encode henc]
    exact hM.base58btc _ _ (by simp) henc
  | err e =>
    simp only [toMultibase, uvarint_ed, cons_append, nil_append, henc]
    exact hM.base64url _
  | panics r =>
    simp only [toMultibase, uvarint_ed, cons_append, nil_append, henc]
    exact hM.base64url _

namespace KeyMethod

theorem encodeKeyDID_eq_ok {pub : Bytes} :
    encodeKeyDID M pub = .ok did
      ↔ ∃ mb, M.encode (0xed :: 0x01 :: pub) = .ok mb ∧ did = "did:key:" ++ mb := by
  unfold encodeKeyDID
  rw [bind_eq_ok]
  refine exists_congr fun mb => ?_
  rw [wrapErr_eq_ok, pure_eq_ok, ok.injEq, eq_comm (a := did)]

theorem resolve_eq_ok :
    resolve M did = .ok doc ↔ ∃ mb raw, did = "did:key:" ++ mb ∧ M.decode mb = .ok raw
      ∧ 3 ≤ raw.length ∧ (Vc.decodeUvarint raw).1 = 0xed
      ∧ (raw.drop (Vc.decodeUvarint raw).2).length = Ed25519.publicKeySize
      ∧ doc = keyDocument M did (raw.drop (Vc.decodeUvarint raw).2) [] := by
  unfold resolve
  constructor
  · intro h
    obtain ⟨hstart, h⟩ := ite_err_eq_ok.mp h
    obtain ⟨raw, hraw, h⟩ := bind_eq_ok.mp h
    obtain ⟨hlen, h⟩ := ite_err_eq_ok.mp h
    obtain ⟨hcodec, h⟩ := ite_err_eq_ok.mp h
    obtain ⟨hkey, h⟩ := ite_err_eq_ok.mp h
    rw [Bool.not_eq_true', Bool.not_eq_false] at hstart
    obtain ⟨mb, rfl⟩ := isPrefixOf_iff_prefix.mp hstart
    rw [trimPrefix_append, wrapErr_eq_ok] at hraw
    exact ⟨mb, raw, rfl, hraw, Nat.le_of_not_lt hlen, not_not.mp hcodec, not_not.mp hkey,
      (ok.inj h).symm⟩
  · rintro ⟨mb, raw, rfl, hraw, hlen, hcodec, hkey, rfl⟩
    have hstart : hasPrefix ("did:key:" ++ mb) "did:key:" = true :=
      isPrefixOf_iff_prefix.mpr (prefix_append _ _)
    rw [length_drop] at hkey
    simp [hstart, hraw, Nat.not_lt.mpr hlen, hcodec, hkey]

theorem resolve_encodeKeyDID {pub : Bytes} (hM : ∀ enc, M.encode (0xed :: 0x01 :: pub) = .ok enc →
      M.decode enc = .ok (0xed :: 0x01 :: pub)) (hlen : pub.length = Ed25519.publicKeySize)
    (h : encodeKeyDID M pub = .ok did) : resolve M did = .ok (keyDocument M did pub []) := by
  obtain ⟨mb, hmb, rfl⟩ := encodeKeyDID_eq_ok.mp h
  refine resolve_eq_ok.mpr ⟨mb, 0xed :: 0x01 :: pub, rfl, hM mb hmb, ?_, rfl, hlen, rfl⟩
  simp only [length_cons, hlen, Ed25519.publicKeySize]
  decide

end KeyMethod

theorem createKeyDID_eq (srv : Bridge.Server) (decode : Bytes → Res Bytes) (domain pub : Bytes) :
    Bridge.createKeyDID srv pub
      = KeyMethod.create ⟨srv.multibaseEncode, decode⟩ ⟨domain, pub, []⟩ >>= fun r =>
        .ok (r.1, r.2.value) := by
  have hdid : Bridge.encodeKeyDID srv pub
      = KeyMethod.encodeKeyDID ⟨srv.multibaseEncode, decode⟩ pub := rfl
  have hdoc : ∀ did, Bridge.keyDocument srv did pub
      = (KeyMethod.keyDocument ⟨srv.multibaseEncode, decode⟩ did pub []).value := fun _ => rfl
  unfold Bridge.createKeyDID KeyMethod.create
  by_cases hlen : pub.length = 32
  · simp only [hlen, ne_eq, not_true_eq_false, if_false, Ed25519.publicKeySize, hdid, hdoc]
    cases KeyMethod.encodeKeyDID ⟨srv.multibaseEncode, decode⟩ pub with
    | ok did => rfl
    | err e => rfl
    | panics r => rfl
  · simp [hlen, Ed25519.publicKeySize]

theorem Method.create_eq_ok {docs : Map Document} {now : Time} {m : Method}
    (h : m.create M docs now opts = .ok (did, doc)) :
    ∃ sigKeyID mb enc t, doc = documentOf did sigKeyID mb enc t
      ∧ (mb = toMultibase M opts.signingPub 0xed
        ∨ mb = "u" ++ encodeB64 (0xed :: 0x01 :: opts.signingPub)) := by
  cases m with
  | key =>
    obtain ⟨-, h⟩ := ite_err_eq_ok.mp h
    obtain ⟨did', hdid, h⟩ := bind_eq_ok.mp h
    obtain ⟨rfl, rfl⟩ := Prod.mk.inj (ok.inj h)
    exact ⟨_, _, _, _, rfl, .inl rfl⟩
  | peer =>
    obtain ⟨⟨did', doc', docs'⟩, hcreate, h⟩ := bind_eq_ok.mp h
    obtain ⟨rfl, rfl⟩ := Prod.mk.inj (ok.inj h)
    obtain ⟨-, hcreate⟩ := ite_err_eq_ok.mp hcreate
    obtain ⟨rfl, hdoc⟩ := Prod.mk.inj (ok.inj hcreate)
    obtain ⟨rfl, -⟩ := Prod.mk.inj hdoc
    exact ⟨_, _, _, _, rfl, .inr rfl⟩
  | web =>
    obtain ⟨-, h⟩ := ite_err_eq_ok.mp h
    obtain ⟨-, h⟩ := ite_err_eq_ok.mp h
    obtain ⟨rfl, rfl⟩ := Prod.mk.inj (ok.inj h)
    exact ⟨_, _, _, _, rfl, .inl rfl⟩

theorem Method.create_succeeds (hlen : opts.signingPub.length = 32) (hdomain : opts.domain ≠ [])
    (hmb : M.encode (0xed :: 0x01 :: opts.signingPub) = .ok mb) (docs : Map Document) (now : Time)
    (m : Method) : (m.create M docs now opts).isOk := by
  have hsize : opts.signingPub.length = Ed25519.publicKeySize := hlen
  have hne : opts.signingPub ≠ [] := ne_nil_of_length_pos (by omega)
  cases m with
  | key => simp [Method.create, KeyMethod.create, hsize, KeyMethod.encodeKeyDID, hmb, isOk]
  | peer => simp [Method.create, PeerMethod.create, hsize, isOk]
  | web => simp [Method.create, WebMethod.create, hdomain, hne, isOk]

/-- The signing key is read back from the document of every DID method. -/
theorem signing_key_survives (M : Multibase) (hM : M.Lossless) (R : Vc.Resolver)
    (hR : R.multibaseDecode = M.decode) (m : Method) (docs : Map Document) (now : Time)
    (opts : CreateOptions) (hlen : opts.signingPub.length = 32) (did : Bytes) (doc : Document)
    (h : m.create M docs now opts = .ok (did, doc)) :
    (∃ vmID, doc.assertionMethod = [vmID]
        ∧ Vc.extractEd25519Key R doc.toVc vmID = .ok opts.signingPub)
      ∧ (m = .key → ∃ doc', KeyMethod.resolve M did = .ok doc'
        ∧ doc'.verificationMethod.head? = doc.verificationMethod.head?
        ∧ doc'.assertionMethod = doc.assertionMethod) := by
  constructor
  · obtain ⟨sigKeyID, mb, enc, t, rfl, hmb⟩ := Method.create_eq_ok h
    have hdecode : M.decode mb = .ok (0xed :: 0x01 :: opts.signingPub) := by
      rcases hmb with rfl | rfl
      · exact hM.decode_toMultibase _
      · exact hM.base64url _
    rw [← hR] at hdecode
    exact ⟨sigKeyID, rfl,
      extractEd25519Key_documentOf (decodeMultibaseEd25519_of_decode hdecode hlen) ..⟩
  · rintro rfl
    obtain ⟨-, h⟩ := ite_err_eq_ok.mp h
    obtain ⟨did', hdid, h⟩ := bind_eq_ok.mp h
    obtain ⟨rfl, rfl⟩ := Prod.mk.inj (ok.inj h)
    exact ⟨_, KeyMethod.resolve_encodeKeyDID
      (fun enc henc => hM.base58btc _ enc (by simp) henc) hlen hdid, rfl, rfl⟩

theorem signing_key_sample : ∃ did doc,
    Method.key.create .go Map.empty (.utc 0) ⟨[], replicate 32 7, replicate 32 9⟩
        = .ok (did, doc)
      ∧ (∃ vmID, doc.assertionMethod = [vmID]
        ∧ Vc.extractEd25519Key ⟨fun _ => .ok ⟨[]⟩, Multibase.go.decode⟩ doc.toVc vmID
          = .ok (replicate 32 7))
      ∧ ∃ doc', KeyMethod.resolve .go did = .ok doc'
        ∧ doc'.verificationMethod.head? = doc.verificationMethod.head?
        ∧ doc'.assertionMethod = doc.assertionMethod := by
  obtain ⟨hread, hresolve⟩ := signing_key_survives .go Multibase.go_lossless
    ⟨fun _ => .ok ⟨[]⟩, Multibase.go.decode⟩ rfl .key Map.empty (.utc 0)
    ⟨[], replicate 32 7, replicate 32 9⟩ rfl _ _ rfl
  exact ⟨_, _, rfl, hread, hresolve rfl⟩

/-! ## Encryption keys of a did:peer -/

def notBase58 : Bytes := "0OIl-_"

theorem base58Val_eq_none_iff : ∀ v < 64, base58Val (b64Char v) = none ↔ b64Char v ∈ notBase58 := by
  decide +kernel

theorem decodeBase58_encodeB64_eq_none {s : Bytes} :
    decodeBase58 (encodeB64 s) = none ↔ ∃ c ∈ encodeB64 s, c ∈ notBase58 := by
  rw [decodeBase58_eq_none]
  refine exists_congr fun c => and_congr_right fun hc => ?_
  obtain ⟨v, hv, rfl⟩ := mem_map.mp hc
  exact base58Val_eq_none_iff v (sextets_lt s v hv)

/-- A text of 46 base58 characters is too small a number for the bytes of a key: the first
byte alone is larger. -/
theorem decodeBase58_ne_key {t raw : Bytes} (ht : t.length = 46) (hraw : 34 ≤ raw.length)
    (hstart : raw.take 2 = [0xec, 0x01]) : decodeBase58 t ≠ some raw := by
  intro h
  obtain ⟨rest, rfl⟩ : ∃ rest, raw = 0xec :: rest := by
    cases raw with
    | nil => cases hstart
    | cons b rest => exact ⟨rest, congrArg (· :: rest) (cons.inj hstart).1⟩
  have hlt := ofDigitsBE_decodeBase58_lt h
  rw [ht, map_cons, ofDigitsBE, reverse_cons, Nat.ofDigits_append,
    Nat.ofDigits_singleton, length_reverse, length_map] at hlt
  have hpow : 256 ^ 33 ≤ 256 ^ rest.length :=
    Nat.pow_le_pow_right (by decide) (Nat.le_of_succ_le_succ hraw)
  have hbyte : (0xec : UInt8).toNat = 236 := rfl
  rw [hbyte] at hlt
  omega

theorem decodeX25519Multibase_iff (hM : M.Base58btc) (hlen : key.length = 32) :
    decodeX25519Multibase M ("z" ++ encodeB64 (0xec :: 0x01 :: key)) = .ok key
      ↔ ∃ c ∈ encodeB64 (0xec :: 0x01 :: key), c ∈ notBase58 := by
  rw [← decodeBase58_encodeB64_eq_none]
  have htext : (encodeB64 (0xec :: 0x01 :: key)).length = 46 := by
    rw [length_encodeB64, length_cons, length_cons, hlen]
  have hdecoded := decodeB64_encodeB64 (0xec :: 0x01 :: key)
  generalize encodeB64 (0xec :: 0x01 :: key) = t at htext hdecoded ⊢
  have hmb : "z" ++ t = 122 :: t := rfl
  have hshort : ¬ (122 :: t).length < 2 := by
    rw [length_cons, htext]
    decide
  rw [hmb, decodeX25519Multibase, if_neg hshort, bind_eq_ok]
  constructor
  · rintro ⟨raw, hraw, h⟩
    obtain ⟨hkey, -⟩ := ite_err_eq_ok.mp h
    rw [not_or, not_lt, not_not] at hkey
    by_contra hsome
    obtain ⟨raw', hraw'⟩ := Option.ne_none_iff_exists'.mp hsome
    have hne : t ≠ [] := ne_nil_of_length_pos (by omega)
    rw [x25519KeyBytes, hM.decode_some t raw' hne hraw'] at hraw
    obtain rfl := ok.inj hraw
    exact decodeBase58_ne_key htext hkey.1 hkey.2 hraw'
  · intro hnone
    obtain ⟨e, he⟩ := hM.decode_none t hnone
    refine ⟨0xec :: 0x01 :: key, ?_, ?_⟩
    · rw [x25519KeyBytes, he]
      exact wrapErr_eq_ok.mpr hdecoded
    · simp [hlen, take_of_length_le]

/-- The encryption key survives exactly if its text is no base58, so that the fallback reads it. -/
theorem peer_encKey_iff (M : Multibase) (hM : M.Base58btc) (docs : Map Document)
    (opts : CreateOptions) (hsig : opts.signingPub.length = 32) (henc : opts.encPub.length = 32) :
    ∃ did doc docs' kid, PeerMethod.create docs opts = .ok (did, doc, docs')
      ∧ doc.keyAgreement = [kid]
      ∧ (extractX25519KeyFromDoc M doc kid = .ok opts.encPub
        ↔ ∃ c ∈ encodeB64 (0xec :: 0x01 :: opts.encPub), c ∈ notBase58) := by
  have hsize : ¬ opts.signingPub.length ≠ Ed25519.publicKeySize := not_not.mpr hsig
  refine ⟨_, _, _, _, by simp only [PeerMethod.create, if_neg hsize, if_pos henc]; rfl, rfl, ?_⟩
  rw [← decodeX25519Multibase_iff hM henc, extractX25519KeyFromDoc]
  generalize "did:peer:0" ++ ("u" ++ encodeB64 (0xed :: 0x01 :: opts.signingPub)) = did
  have hids : did ++ "#key-1" ≠ did ++ "#key-2" := by
    intro h
    exact absurd (append_cancel_left h) (by decide)
  simp [documentOf, hids]

theorem peer_encKey_sample : ∃ did doc docs' kid,
    PeerMethod.create Map.empty ⟨[], replicate 32 7, replicate 32 0xff⟩
        = .ok (did, doc, docs')
      ∧ doc.keyAgreement = [kid]
      ∧ extractX25519KeyFromDoc .go doc kid = .ok (replicate 32 0xff) := by
  obtain ⟨did, doc, docs', kid, hcreate, hkid, hread⟩ := peer_encKey_iff .go Multibase.go_base58btc
    Map.empty ⟨[], replicate 32 7, replicate 32 0xff⟩ rfl rfl
  exact ⟨did, doc, docs', kid, hcreate, hkid, hread.mpr (by decide +kernel)⟩

theorem peer_encKey_lost : ∃ did doc docs' kid,
    PeerMethod.create Map.empty ⟨[], replicate 32 7, replicate 32 0x55⟩
        = .ok (did, doc, docs')
      ∧ doc.keyAgreement = [kid] ∧ (extractX25519KeyFromDoc .go doc kid).isOk = false :=
  ⟨_, _, _, _, rfl, rfl, by decide +kernel⟩

/-! ## The text of a did:key -/

/-- A resolved identifier is the canonical one of its key exactly if it is base58btc with the
two-byte prefix. -/
theorem keyDID_canonical_iff (M : Multibase) (hM : M.Base58btc) (R : Vc.Resolver)
    (hR : R.multibaseDecode = M.decode) (did : Bytes) (doc : Document)
    (h : KeyMethod.resolve M did = .ok doc) :
    (∀ vmID ∈ doc.assertionMethod, ∃ key, Vc.extractEd25519Key R doc.toVc vmID = .ok key
        ∧ KeyMethod.encodeKeyDID M key = .ok did)
      ↔ ∃ t key, did = "did:key:z" ++ t ∧ M.decode (122 :: t) = .ok (0xed :: 0x01 :: key) := by
  obtain ⟨mb, raw, rfl, hraw, -, -, hlen, rfl⟩ := KeyMethod.resolve_eq_ok.mp h
  generalize hpub : raw.drop (Vc.decodeUvarint raw).2 = pub at hlen
  have hencode := hM.encode_eq (0xed :: 0x01 :: pub)
  have hextract : ∀ did sigKeyID enc now, Vc.extractEd25519Key R
      (documentOf did sigKeyID (toMultibase M pub 0xed) enc now).toVc sigKeyID = .ok pub := by
    refine extractEd25519Key_documentOf (decodeMultibaseEd25519_of_decode ?_ hlen)
    rw [hR, toMultibase_of_encode hencode]
    exact hM.decode_of_encode (by simp) hencode
  constructor
  · intro hcanonical
    obtain ⟨key, hkey, hdid⟩ := hcanonical _ (mem_singleton.mpr rfl)
    obtain rfl := ok.inj ((hextract _ _ _ _).symm.trans hkey)
    obtain ⟨mb', hmb', heq⟩ := KeyMethod.encodeKeyDID_eq_ok.mp hdid
    obtain rfl := append_cancel_left heq
    obtain rfl := ok.inj (hencode.symm.trans hmb')
    exact ⟨_, pub, rfl, hM.decode_of_encode (by simp) hencode⟩
  · rintro ⟨t, key, hdid, hdecode⟩ vmID hvmID
    obtain rfl := mem_singleton.mp hvmID
    obtain rfl : mb = 122 :: t := append_cancel_left hdid
    obtain rfl := ok.inj (hraw.symm.trans hdecode)
    obtain rfl : key = pub := (Vc.stripsTo_ed25519 key).drop_eq.symm.trans hpub
    exact ⟨key, hextract _ _ _ _,
      KeyMethod.encodeKeyDID_eq_ok.mpr ⟨_, hM.encode_of_decode hdecode (by simp), rfl⟩⟩

namespace Sample

def pub : Bytes := replicate 32 7

def reader : Vc.Resolver := ⟨fun _ => .ok ⟨[]⟩, Multibase.go.decode⟩

def keyOf (did : Bytes) : Res Bytes := do
  let doc ← KeyMethod.resolve .go did
  Vc.extractEd25519Key reader doc.toVc (doc.assertionMethod.headD [])

end Sample

open Sample

theorem keyDID_canonical_sample : ∃ did doc, KeyMethod.resolve .go did = .ok doc
    ∧ ∀ vmID ∈ doc.assertionMethod, ∃ key, Vc.extractEd25519Key reader doc.toVc vmID = .ok key
      ∧ KeyMethod.encodeKeyDID .go key = .ok did := by
  have hdecode := Multibase.go_base58btc.decode_of_encode (by simp)
    (Multibase.go_base58btc.encode_eq (0xed :: 0x01 :: pub))
  have hresolve := KeyMethod.resolve_encodeKeyDID
    (fun enc henc => Multibase.go_base58btc.decode_of_encode (by simp) henc)
    (show pub.length = Ed25519.publicKeySize from rfl)
    (KeyMethod.encodeKeyDID_eq_ok.mpr ⟨_, Multibase.go_base58btc.encode_eq _, rfl⟩)
  exact ⟨_, _, hresolve, (keyDID_canonical_iff .go Multibase.go_base58btc reader rfl _ _
    hresolve).mpr ⟨_, pub, rfl, hdecode⟩⟩

theorem keyDID_three_texts :
    KeyMethod.encodeKeyDID .go pub
        = .ok ("did:key:z" ++ encodeBase58 (0xed :: 0x01 :: pub))
      ∧ keyOf ("did:key:z" ++ encodeBase58 (0xed :: 0x01 :: pub)) = .ok pub
      ∧ keyOf ("did:key:u" ++ encodeB64 (0xed :: 0x01 :: pub)) = .ok pub
      ∧ keyOf ("did:key:z" ++ encodeBase58 (0xed :: 0x81 :: 0x00 :: pub))
        = .ok pub
      ∧ "did:key:z" ++ encodeBase58 (0xed :: 0x81 :: 0x00 :: pub)
        ≠ "did:key:z" ++ encodeBase58 (0xed :: 0x01 :: pub) := by
  decide +kernel

/-! ## Keys of another kind -/

/-- Exactly the Ed25519 keys are taken from bytes that are not 32 bytes behind another varint, or
behind none. -/
theorem takesEd25519_iff (R : Vc.Resolver) (mb : Bytes) :
    (∀ key, Vc.decodeMultibaseEd25519 R mb = .ok key ↔
      key.length = Ed25519.publicKeySize ∧ Vc.multibaseKeyBytes R mb = .ok (0xed :: 0x01 :: key))
      ↔ ∀ raw, Vc.multibaseKeyBytes R mb = .ok raw →
        (∀ high last key, raw = high ++ last :: key → (∀ c ∈ high, 0x80 ≤ c.toNat) →
          last.toNat < 0x80 → key.length = Ed25519.publicKeySize → high = [0xed] ∧ last = 0x01)
        ∧ (raw.length = Ed25519.publicKeySize → ∃ c ∈ raw, c.toNat < 0x80) := by
  constructor
  · intro h raw hraw
    have hed : ∀ key, key.length = Ed25519.publicKeySize → Vc.StripsTo raw key →
        raw = 0xed :: 0x01 :: key := by
      intro key hlen hstrip
      obtain ⟨-, hok⟩ := (h key).mp (Vc.decodeMultibaseEd25519_eq_ok.mpr ⟨raw, hraw, hlen, hstrip⟩)
      exact ok.inj (hraw.symm.trans hok)
    constructor
    · rintro high last key rfl hhigh hlast hlen
      have heq := hed key hlen (Or.inl ⟨high, last, rfl, hhigh, hlast⟩)
      have hfront : high ++ [last] ++ key = [0xed] ++ [0x01] ++ key := by simpa using heq
      obtain ⟨hhigh, hlast⟩ := append_inj' (append_cancel_right hfront) rfl
      exact ⟨hhigh, singleton_inj.mp hlast⟩
    · intro hlen
      by_contra! hall
      have heq := congrArg length (hed raw hlen (Or.inr ⟨rfl, hall⟩))
      rw [length_cons, length_cons] at heq
      omega
  · intro h key
    rw [Vc.decodeMultibaseEd25519_eq_ok]
    constructor
    · rintro ⟨raw, hraw, hlen, ⟨high, last, rfl, hhigh, hlast⟩ | ⟨rfl, hall⟩⟩
      · obtain ⟨rfl, rfl⟩ := (h _ hraw).1 high last key rfl hhigh hlast hlen
        exact ⟨hlen, hraw⟩
      · obtain ⟨c, hc, hlow⟩ := (h _ hraw).2 hlen
        exact absurd (hall c hc) (not_le.mpr hlow)
    · rintro ⟨hlen, hraw⟩
      exact ⟨_, hraw, hlen, Vc.stripsTo_ed25519 key⟩

theorem takes_x25519 :
    Vc.multibaseKeyBytes reader (toMultibase .go pub 0xec)
        = .ok (0xec :: 0x01 :: pub)
      ∧ Vc.decodeMultibaseEd25519 reader (toMultibase .go pub 0xec)
        = .ok pub
      ∧ Vc.decodeMultibaseEd25519 reader ("u" ++ encodeB64 (replicate 32 0x80))
        = .ok (replicate 32 0x80) := by
  decide +kernel

/-! ## Varints -/

/-- `uvarint` with `room` bytes of its buffer left, and `none` for a write past its end. -/
def fillUvarint : Nat → Nat → Option Bytes
  | 0, _ => none
  | room + 1, x =>
    if 0x80 ≤ x then (fillUvarint room (x >>> 7)).map (UInt8.ofNat (x ||| 0x80) :: ·)
    else some [UInt8.ofNat x]

theorem room_shift {x : Nat} (hbig : 0x80 ≤ x) (hx : x < 128 ^ (room + 1)) :
    0 < room ∧ x >>> 7 < 128 ^ room := by
  refine ⟨Nat.pos_of_ne_zero ?_, ?_⟩
  · rintro rfl
    omega
  · rw [Nat.shiftRight_eq_div_pow]
    exact Nat.div_lt_of_lt_mul (by rwa [Nat.pow_succ'] at hx)

theorem fillUvarint_eq : ∀ {x : Nat}, 0 < room → x < 128 ^ room →
    fillUvarint room x = some (uvarintLoop room x) := by
  induction room with
  | zero => omega
  | succ room ih =>
    intro x _ hx
    rw [fillUvarint, uvarintLoop]
    split
    · next hbig =>
      obtain ⟨hpos, hlt⟩ := room_shift hbig hx
      rw [ih hpos hlt, Option.map_some]
    · rfl

theorem toNat_continued : (UInt8.ofNat (x ||| 0x80)).toNat = x % 128 + 128 := by
  have hbyte : ∀ y < 256, y ||| 0x80 = y % 128 + 128 := by decide +kernel
  rw [UInt8.toNat_ofNat', Nat.or_mod_two_pow, hbyte _ (Nat.mod_lt _ (by decide))]
  omega

theorem shiftLeft_groups (s : Nat) : x <<< s = (x % 128) <<< s ||| (x >>> 7) <<< (s + 7) := by
  have hx : x = (x >>> 7) <<< 7 ||| x % 128 := by
    rw [← Nat.shiftLeft_add_eq_or_of_lt (Nat.mod_lt _ (by decide)), Nat.shiftLeft_eq,
      Nat.shiftRight_eq_div_pow, Nat.div_add_mod']
  conv_lhs => rw [hx]
  rw [Nat.shiftLeft_or_distrib, Nat.or_comm, ← Nat.shiftLeft_add, Nat.add_comm 7]

theorem decodeUvarintLoop_uvarintLoop (rest : Bytes) : ∀ {x s : Nat},
    0 < room → x < 128 ^ room → x <<< s < 2 ^ 64 → ∀ i acc,
    Vc.decodeUvarintLoop i s acc (uvarintLoop room x ++ rest)
      = (acc ||| x <<< s, i + (uvarintLoop room x).length) := by
  induction room with
  | zero => omega
  | succ room ih =>
    intro x s _ hx hs i acc
    rw [uvarintLoop]
    split
    · next hbig =>
      obtain ⟨hpos, hlt⟩ := room_shift hbig hx
      have hgroups := shiftLeft_groups x s
      have hlow : (x % 128) <<< s < 2 ^ 64 :=
        (hgroups ▸ Nat.left_le_or : (x % 128) <<< s ≤ x <<< s).trans_lt hs
      have hhigh : (x >>> 7) <<< (s + 7) < 2 ^ 64 :=
        (hgroups ▸ Nat.right_le_or : (x >>> 7) <<< (s + 7) ≤ x <<< s).trans_lt hs
      have hmask : (x % 128 + 128) &&& 0x7f = x % 128 := by
        rw [Nat.and_two_pow_sub_one_eq_mod _ 7]
        omega
      rw [cons_append, Vc.decodeUvarintLoop, toNat_continued, if_neg (by omega), hmask,
        Nat.mod_eq_of_lt hlow, ih hpos hlt hhigh, hgroups, Nat.or_assoc, length_cons]
      congr 1
      omega
    · next hsmall =>
      have hbyte : (UInt8.ofNat x).toNat = x := by
        rw [UInt8.toNat_ofNat']
        omega
      rw [singleton_append, Vc.decodeUvarintLoop, hbyte, if_pos (by omega), Nat.mod_eq_of_lt hs,
        length_singleton]

/-- A varint is read back, whatever follows it. -/
theorem decodeUvarint_uvarint (x : UInt64) (rest : Bytes) :
    fillUvarint 10 x.toNat = some (uvarint x.toNat)
      ∧ Vc.decodeUvarint (uvarint x.toNat ++ rest) = (x.toNat, (uvarint x.toNat).length) := by
  have hlt : x.toNat < 128 ^ 10 := by
    have := x.toNat_lt
    omega
  refine ⟨fillUvarint_eq (by decide) hlt, ?_⟩
  have hread := decodeUvarintLoop_uvarintLoop rest (s := 0) (by decide) hlt x.toNat_lt 0 0
  rwa [Nat.zero_or, Nat.shiftLeft_zero, Nat.zero_add] at hread

end TptIdentity.Did
