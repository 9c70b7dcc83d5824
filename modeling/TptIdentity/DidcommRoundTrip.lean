import TptIdentity.DidcommModel

/-!
# Packed envelopes are unpacked

Sender and recipient derive the same key with exchanged roles (`recipientKEK_senderKEK`), so
unpacking a packed envelope returns the message and the sender (`unpack_packEnvelope`).
-/

namespace TptIdentity.Didcomm

open Go List Res

/-! ## JSON -/

variable {k : JwkOKP} {ephPriv ephPub recipPub cek : Array32} {apu apv : Bytes}

theorem JwkOKP.decode_toValue (hkty : validUtf8 k.kty) (hcrv : validUtf8 k.crv)
    (hx : validUtf8 k.x) :
    decodeStruct JwkOKP.assign k.toValue.wire JwkOKP.zero = some k := by
  rw [JwkOKP.toValue, decodeStruct_wire]
  simp +decide [JwkOKP.assign, decodeStr_wire, hkty, hcrv, hx]

theorem JweRecipHeader.decode_toValue {h : JweRecipHeader} (hepk : h.epk = some k)
    (hkid : validUtf8 h.kid) (hk : decodeStruct JwkOKP.assign k.toValue.wire JwkOKP.zero
      = some k) :
    decodeStruct JweRecipHeader.assign h.toValue.wire JweRecipHeader.zero = some h := by
  have hptr : ∀ old, decodePtr (decodeStruct JwkOKP.assign) JwkOKP.zero k.toValue.wire old
      = (decodeStruct JwkOKP.assign k.toValue.wire (old.getD JwkOKP.zero)).map some := by
    intro old
    rfl
  obtain ⟨kid, epk⟩ := h
  obtain rfl : epk = some k := hepk
  rw [JweRecipHeader.toValue, decodeStruct_wire]
  simp +decide [JweRecipHeader.assign, JweRecipHeader.zero, decodeStr_wire, hkid, hptr, hk]

structure JweRecip.Readable (e : JweRecip) : Prop where
  kid : validUtf8 e.header.kid = true
  epk : ∃ k, e.header.epk = some k ∧ validUtf8 k.kty = true ∧ validUtf8 k.crv = true
    ∧ validUtf8 k.x = true
  encryptedKey : validUtf8 e.encryptedKey = true

theorem JweRecip.decode_toValue {e : JweRecip} (h : e.Readable) :
    decodeStruct JweRecip.assign e.toValue.wire JweRecip.zero = some e := by
  obtain ⟨k, hepk, hkty, hcrv, hx⟩ := h.epk
  have hheader := JweRecipHeader.decode_toValue hepk h.kid (JwkOKP.decode_toValue hkty hcrv hx)
  have hkey := h.encryptedKey
  rw [JweRecip.toValue, decodeStruct_wire]
  simp +decide [JweRecip.assign, JweRecip.zero, decodeStr_wire, hheader, hkey]

theorem JweRecip.writable (e : JweRecip) : e.toValue.Writable 3 := by
  obtain ⟨⟨kid, epk⟩, key⟩ := e
  cases epk with
  | none => exact ⟨rfl, Nat.le_succ 2⟩
  | some k => exact ⟨rfl, Nat.le_refl 3⟩

theorem Envelope.writable (e : Envelope) : e.toValue.Writable 5 := by
  refine writable_obj ?_
  simp only [forall_mem_cons]
  exact ⟨writable_str 4 _, writable_arr (forall_mem_map.mpr fun r _ => r.writable),
    writable_str 4 _, writable_str 4 _, writable_str 4 _, forall_mem_nil _⟩

theorem Envelope.unmarshal_text {protB64 iv ct tag : Bytes} {rs : List JweRecip}
    (hprot : validUtf8 protB64) (hrs : ∀ e ∈ rs, e.Readable) (hiv : validUtf8 iv)
    (hct : validUtf8 ct) (htag : validUtf8 tag) :
    Envelope.unmarshal (Envelope.toValue ⟨protB64, Slice.ofList rs, iv, ct, tag⟩).text
      = .ok ⟨protB64, Slice.ofList rs, iv, ct, tag⟩ := by
  have hslice : decodeSlice (decodeStruct JweRecip.assign) JweRecip.zero
      (Value.arr (rs.map JweRecip.toValue)).wire (Slice.ofList []) = some (Slice.ofList rs) :=
    decodeSlice_wire (forall₂_map_left_iff.mpr
      (forall₂_same.mpr fun e he => JweRecip.decode_toValue (hrs e he)))
  refine unmarshalInto_text (Envelope.writable _) (by decide) ?_
  rw [Envelope.toValue, decodeStruct_wire, Slice.toList_ofList]
  simp +decide [Envelope.assign, Envelope.zero, decodeStr_wire, hprot, hslice, hiv, hct, htag]

def ProtectedHeader.fields (h : ProtectedHeader) : Fields :=
  [("typ", some (.str h.typ)), ("alg", some (.str h.alg)), ("enc", some (.str h.enc)),
    ("skid", omitted h.skid), ("apu", omitted h.apu), ("apv", omitted h.apv)]

theorem ProtectedHeader.toValue_eq (h : ProtectedHeader) : h.toValue = .obj h.fields.members := by
  simp only [toValue, fields, Fields.members_cons, Fields.members_nil, omitEmpty_eq,
    append_assoc, append_nil]
  rfl

theorem ProtectedHeader.writable (h : ProtectedHeader) : h.toValue.Writable 1 := by
  rw [toValue_eq]
  refine writable_fields ?_
  simp only [fields, forall_mem_cons, Option.mem_some_iff, forall_eq']
  exact ⟨writable_str 0 _, writable_str 0 _, writable_str 0 _, writable_omitted 0 _,
    writable_omitted 0 _, writable_omitted 0 _, forall_mem_nil _⟩

theorem ProtectedHeader.unmarshal_text {h : ProtectedHeader} (htyp : validUtf8 h.typ)
    (halg : validUtf8 h.alg) (henc : validUtf8 h.enc)
    (hskid : validUtf8 h.skid) (hapu : validUtf8 h.apu)
    (hapv : validUtf8 h.apv) : ProtectedHeader.unmarshal h.toValue.text = .ok h := by
  have hwritable := h.writable
  rw [toValue_eq] at hwritable ⊢
  have hcoerced : h = ⟨coerce h.typ, coerce h.alg, coerce h.enc, coerce h.skid, coerce h.apu,
      coerce h.apv⟩ := by
    rw [coerce_eq_self htyp, coerce_eq_self halg, coerce_eq_self henc, coerce_eq_self hskid,
      coerce_eq_self hapu, coerce_eq_self hapv]
  refine unmarshalInto_fields hwritable (by decide) ?_
  nth_rewrite 2 [hcoerced]
  refine reads_field (decodeStr_wire_str [] _) ?_
  refine reads_field (decodeStr_wire_str [] _) ?_
  refine reads_field (decodeStr_wire_str [] _) ?_
  refine reads_field (readsAs_omitted _) ?_
  refine reads_field (readsAs_omitted _) ?_
  exact reads_field (readsAs_omitted _) (reads_nil _)

/-! ## Key agreement -/

variable {recipKeyFn : Bytes → Except Err Array32} {recipPriv : Array32} {r : Recipient}

section Agreement

variable {P : JoseCrypto} {hdr : ProtectedHeader}

theorem recipientKEK_senderKEK (hP : P.Lawful) {senderPriv : Option Array32}
    {senderPub kek : Array32}
    (halg : hdr.alg = if senderPriv.isSome then algAuthcrypt else algAnoncrypt)
    (heph : P.IsKeyPair ephPriv ephPub) (hrecip : P.IsKeyPair recipPriv recipPub)
    (hsender : ∀ priv, senderPriv = some priv → P.IsKeyPair priv senderPub)
    (h : senderKEK P hdr senderPriv ephPriv recipPub = .ok kek) :
    recipientKEK P hdr senderPub recipPriv ephPub = some kek := by
  obtain ⟨ze, hze, hze'⟩ := hP.agree _ _ _ _ heph hrecip
  cases senderPriv with
  | none =>
    have halg : hdr.alg = algAnoncrypt := halg
    simp only [senderKEK, ecdhESKEKSender, hze, ok_bind] at h
    rw [recipientKEK, if_pos halg]
    simp only [ecdhESKEKRecipient, hze', ok_bind, h, toOption_ok]
  | some priv =>
    have halg : hdr.alg = algAuthcrypt := halg
    obtain ⟨zs, hzs, hzs'⟩ := hP.agree _ _ _ _ (hsender priv rfl) hrecip
    simp only [senderKEK, ecdh1PUKEKSender, hze, hzs, ok_bind] at h
    rw [recipientKEK, if_neg (by rw [halg]; decide), if_pos halg]
    simp only [ecdh1PUKEKRecipient, hze', hzs', ok_bind, h, toOption_ok]

theorem partyInfo_encodeB64 (x : Bytes) (format : String) :
    partyInfo (encodeB64 x) format = .ok x := by
  unfold partyInfo
  cases x with
  | nil => rfl
  | cons c x => rw [if_pos (encodeB64_ne_nil (by simp)), decodeB64_encodeB64, wrapErr_ok]

theorem concatKDF_ok (z alg apu apv : Bytes) :
    ∃ kek, concatKDF P z alg (encodeB64 apu) (encodeB64 apv) = .ok kek := by
  simp only [concatKDF, kdfInput, partyInfo_encodeB64, ok_bind]
  exact ⟨_, rfl⟩

theorem senderKEK_ok (hP : P.Lawful) (hapu : hdr.apu = encodeB64 apu)
    (hapv : hdr.apv = encodeB64 apv) (senderPriv : Option Array32)
    (heph : P.IsKeyPair ephPriv ephPub) (hrecip : P.IsKeyPair recipPriv recipPub) :
    ∃ kek, senderKEK P hdr senderPriv ephPriv recipPub = .ok kek := by
  obtain ⟨ze, hze, -⟩ := hP.agree _ _ _ _ heph hrecip
  cases senderPriv with
  | none =>
    simp only [senderKEK, ecdhESKEKSender, hze, ok_bind, hapv]
    exact concatKDF_ok ze.val hdr.alg [] apv
  | some priv =>
    obtain ⟨pub, hpub⟩ := hP.hasPublicKey priv
    obtain ⟨zs, hzs, -⟩ := hP.agree _ _ _ _ hpub hrecip
    simp only [senderKEK, ecdh1PUKEKSender, hze, hzs, ok_bind, hapu, hapv]
    exact concatKDF_ok (ze.val ++ zs.val) hdr.alg apu apv

theorem aesKeyWrap_ok (kek cek : Array32) :
    ∃ wrapped, aesKeyWrap P kek.val cek.val = .ok wrapped := by
  have hkey : keySizeError kek.val = none := if_pos (.inr (.inr kek.property))
  rw [aesKeyWrap, if_neg (by rw [cek.property]; decide), hkey]
  exact ⟨_, rfl⟩

/-! ## The loop over the recipients -/

structure PackedFor (P : JoseCrypto) (hdr : ProtectedHeader) (senderPriv : Option Array32)
    (cek : Array32) (r : Recipient) (e : JweRecip) : Prop where
  kid : e.header.kid = r.kid
  wraps : ∃ ephPriv ephPub kek wrapped, P.IsKeyPair ephPriv ephPub
    ∧ e.header.epk = some ⟨"OKP", "X25519", encodeB64 ephPub.val⟩
    ∧ senderKEK P hdr senderPriv ephPriv r.pubKey = .ok kek
    ∧ aesKeyWrap P kek.val cek.val = .ok wrapped ∧ e.encryptedKey = encodeB64 wrapped

variable {rnd : Rand}

theorem packRecipient_ok (hP : P.Lawful) (hrnd : ∀ i, rnd.fails i = none)
    (hapu : hdr.apu = encodeB64 apu) (hapv : hdr.apv = encodeB64 apv) (senderPriv : Option Array32)
    (cek : Array32) (i : Nat) (hr : P.IsKeyPair recipPriv r.pubKey) :
    ∃ e, packRecipient P hdr senderPriv cek rnd i r = .ok e
      ∧ PackedFor P hdr senderPriv cek r e := by
  have hread : ∃ priv, rnd.read32 i = .ok priv := by
    rw [Rand.read32, hrnd i]
    exact ⟨_, rfl⟩
  obtain ⟨priv, hpriv⟩ := hread
  obtain ⟨ephPub, hpub⟩ := hP.hasPublicKey (clamp priv)
  obtain ⟨kek, hkek⟩ := senderKEK_ok hP hapu hapv senderPriv hpub hr
  obtain ⟨wrapped, hwrapped⟩ := @aesKeyWrap_ok P kek cek
  have hgen : generateX25519 P rnd i = .ok (clamp priv, ephPub) := by
    rw [JoseCrypto.IsKeyPair] at hpub
    simp [generateX25519, hpriv, hpub]
  refine ⟨⟨⟨r.kid, some ⟨"OKP", "X25519", encodeB64 ephPub.val⟩⟩, encodeB64 wrapped⟩, ?_,
    rfl, clamp priv, ephPub, kek, wrapped, hpub, rfl, hkek, hwrapped, rfl⟩
  simp [packRecipient, hgen, hkek, hwrapped]

theorem packRecipients_ok (hP : P.Lawful) (hrnd : ∀ i, rnd.fails i = none) {apu apv : Bytes}
    (hapu : hdr.apu = encodeB64 apu) (hapv : hdr.apv = encodeB64 apv)
    (senderPriv : Option Array32) (cek : Array32) : ∀ (i : Nat) {rs : List Recipient},
    (∀ r ∈ rs, ∃ priv, P.IsKeyPair priv r.pubKey) →
    ∃ es, packRecipients P hdr senderPriv cek rnd i rs = .ok es
      ∧ Forall₂ (PackedFor P hdr senderPriv cek) rs es
  | _, [], _ => ⟨[], rfl, .nil⟩
  | i, r :: rs, h => by
    obtain ⟨priv, hpriv⟩ := h r mem_cons_self
    obtain ⟨e, he, hpacked⟩ := packRecipient_ok hP hrnd hapu hapv senderPriv cek i hpriv
    obtain ⟨es, hes, hall⟩ := packRecipients_ok hP hrnd hapu hapv senderPriv cek (i + 1)
      fun r' hr' => h r' (mem_cons_of_mem _ hr')
    exact ⟨e :: es, by simp [packRecipients, he, hes], .cons hpacked hall⟩

variable {senderPriv : Option Array32} {cek : Array32}

theorem PackedFor.readable {e : JweRecip} (h : PackedFor P hdr senderPriv cek r e)
    (hkid : validUtf8 r.kid) : e.Readable := by
  obtain ⟨ephPriv, ephPub, kek, wrapped, -, hepk, -, -, hkey⟩ := h.wraps
  have hokp : validUtf8 "OKP" = true ∧ validUtf8 "X25519" = true := by decide
  refine ⟨h.kid ▸ hkid, ⟨_, hepk, hokp.1, hokp.2, ?_⟩, ?_⟩
  · exact validUtf8_encodeB64 _
  · exact hkey ▸ validUtf8_encodeB64 _

theorem PackedFor.unwrapCEK (hP : P.Lawful) {e : JweRecip} (h : PackedFor P hdr senderPriv cek r e)
    (halg : hdr.alg = if senderPriv.isSome then algAuthcrypt else algAnoncrypt)
    {senderPub : Array32} (hsender : ∀ priv, senderPriv = some priv → P.IsKeyPair priv senderPub)
    (hrecip : P.IsKeyPair recipPriv r.pubKey) (hkey : recipKeyFn r.kid = .ok recipPriv) :
    unwrapCEK P hdr senderPub recipKeyFn e = some cek := by
  obtain ⟨ephPriv, ephPub, kek, wrapped, heph, hepk, hkek, hwrapped, henc⟩ := h.wraps
  have hderived := recipientKEK_senderKEK hP halg heph hrecip hsender hkek
  have hcek := aesKeyUnwrap_aesKeyWrap (blockInverse_of_lawful hP _) hwrapped
  have heph32 : decode32 (encodeB64 ephPub.val) = some ephPub := by
    simp [decode32, decodeB64_encodeB64]
  simp [Didcomm.unwrapCEK, h.kid, hkey, Except.toOption, hepk, heph32, hderived, henc,
    decodeB64_encodeB64, hcek]

end Agreement

/-! ## Round trip -/

section RoundTrip

variable {P : JoseCrypto}

theorem findSome?_eq_some_of_forall {A B : Type} {f : A → Option B} {l : List A} {a : A} {b : B}
    (ha : a ∈ l) (hfa : f a = some b) (hall : ∀ x ∈ l, ∀ y, f x = some y → y = b) :
    l.findSome? f = some b := by
  cases h : l.findSome? f with
  | none =>
    have := findSome?_eq_none_iff.mp h a ha
    rw [hfa] at this
    cases this
  | some y =>
    obtain ⟨x, hx, hy⟩ := exists_of_findSome?_eq_some h
    rw [hall x hx y hy]

variable {senderPriv : Option Array32} {recipients : List Recipient} {hdr : ProtectedHeader}
  {es : List JweRecip}

theorem findSome?_unwrapCEK (hP : P.Lawful) {senderPub : Array32}
    (hpacked : Forall₂ (PackedFor P hdr senderPriv cek) recipients es)
    (hkids : (recipients.map (·.kid)).Nodup)
    (halg : hdr.alg = if senderPriv.isSome then algAuthcrypt else algAnoncrypt)
    (hsender : ∀ priv, senderPriv = some priv → P.IsKeyPair priv senderPub) (hr : r ∈ recipients)
    (hpair : P.IsKeyPair recipPriv r.pubKey) (hown : recipKeyFn r.kid = .ok recipPriv)
    (hother : ∀ kid, kid ≠ r.kid → ∃ e, recipKeyFn kid = .error e) :
    es.findSome? (unwrapCEK P hdr senderPub recipKeyFn) = some cek := by
  have hunwrap : ∀ {e}, PackedFor P hdr senderPriv cek r e →
      unwrapCEK P hdr senderPub recipKeyFn e = some cek := fun he =>
    he.unwrapCEK hP halg hsender hpair hown
  obtain ⟨e, he, hre⟩ := exists_of_mem_forall₂ hpacked.flip r hr
  refine findSome?_eq_some_of_forall he (hunwrap hre) fun e' he' c hc => ?_
  obtain ⟨r', hr', hre'⟩ := exists_of_mem_forall₂ hpacked e' he'
  by_cases hkid : r'.kid = r.kid
  · obtain rfl := inj_on_of_nodup_map hkids hr' hr hkid
    exact Option.some.inj (hc.symm.trans (hunwrap hre'))
  · obtain ⟨err, herr⟩ := hother _ hkid
    rw [Didcomm.unwrapCEK, hre'.kid, herr] at hc
    cases hc

theorem unmarshal_packHeader {senderKID : Bytes} (hutf8 : senderPriv.isSome → validUtf8 senderKID) :
    ProtectedHeader.unmarshal (packHeader P recipients senderKID senderPriv).toValue.text
      = .ok (packHeader P recipients senderKID senderPriv) := by
  have htyp : validUtf8 mediaTypeEncrypted := by decide
  have henc : validUtf8 encXC20P := by decide
  cases senderPriv with
  | none =>
    have halg : validUtf8 algAnoncrypt := by decide
    exact ProtectedHeader.unmarshal_text htyp halg henc rfl rfl (validUtf8_encodeB64 _)
  | some priv =>
    have halg : validUtf8 algAuthcrypt := by decide
    exact ProtectedHeader.unmarshal_text htyp halg henc (hutf8 rfl) (validUtf8_encodeB64 _)
      (validUtf8_encodeB64 _)

theorem resolveSender_packHeader {senderKID : Bytes}
    {senderPubFn : Option (Bytes → Except Err Array32)}
    (hsender : ∀ priv, senderPriv = some priv → senderKID ≠ [] ∧ validUtf8 senderKID
      ∧ ∃ f pub, senderPubFn = some f ∧ f senderKID = .ok pub ∧ P.IsKeyPair priv pub) :
    ∃ pub, resolveSender senderPubFn (packHeader P recipients senderKID senderPriv).skid = .ok pub
      ∧ ∀ priv, senderPriv = some priv → P.IsKeyPair priv pub := by
  cases senderPriv with
  | none => exact ⟨default, rfl, fun _ h => nomatch h⟩
  | some priv =>
    obtain ⟨hne, -, f, pub, rfl, hpub, hpair⟩ := hsender priv rfl
    refine ⟨pub, ?_, fun _ h => Option.some.inj h ▸ hpair⟩
    have hskid : (packHeader P recipients senderKID (some priv)).skid = senderKID := rfl
    rw [hskid, resolveSender, if_pos hne]
    simp only [hpub]

def envelopeOf (P : JoseCrypto) (hdr : ProtectedHeader) (es : List JweRecip) (cek : Array32)
    (iv msg : Bytes) : Envelope :=
  let protB64 := encodeB64 hdr.toValue.text
  let sealed := P.aeadSeal cek iv msg protB64
  let tagOff := sealed.length - JoseCrypto.overhead
  ⟨protB64, Slice.ofList es, encodeB64 iv, encodeB64 (sealed.take tagOff),
    encodeB64 (sealed.drop tagOff)⟩

theorem unmarshal_envelopeOf {iv msg : Bytes} (hreadable : ∀ e ∈ es, e.Readable) :
    Envelope.unmarshal (envelopeOf P hdr es cek iv msg).toValue.text
      = .ok (envelopeOf P hdr es cek iv msg) :=
  Envelope.unmarshal_text (validUtf8_encodeB64 _) hreadable (validUtf8_encodeB64 _)
    (validUtf8_encodeB64 _) (validUtf8_encodeB64 _)

theorem unpack_envelopeOf (hP : P.Lawful) {senderPub : Array32} {iv : Bytes} (msg : Bytes)
    {senderPubFn : Option (Bytes → Except Err Array32)}
    (hprot : ProtectedHeader.unmarshal hdr.toValue.text = .ok hdr)
    (hreadable : ∀ e ∈ es, e.Readable)
    (hresolve : resolveSender senderPubFn hdr.skid = .ok senderPub)
    (hfind : es.findSome? (unwrapCEK P hdr senderPub recipKeyFn) = some cek)
    (hiv : iv.length = JoseCrypto.nonceSizeX) :
    unpack P (envelopeOf P hdr es cek iv msg).toValue.text recipKeyFn senderPubFn
      = .ok (msg, hdr.skid) := by
  have hopen := hP.aead_inv cek iv msg (encodeB64 hdr.toValue.text) hiv
  rw [unpack, unmarshal_envelopeOf hreadable]
  simp only [wrapErr_ok, ok_bind, envelopeOf, decodeB64_encodeB64, hprot, hresolve,
    Slice.toList_ofList, hfind, decryptContent, JoseCrypto.openWith, if_pos hiv,
    take_append_drop, hopen]
  rfl

/-- Every recipient unpacks what was packed: the message, and the sender if there is one. -/
theorem unpack_packEnvelope (hP : P.Lawful) {rnd : Rand} (hrnd : ∀ i, rnd.fails i = none)
    (msg : Bytes) {recipients : List Recipient} (hkids : (recipients.map (·.kid)).Nodup)
    (hutf8 : ∀ r ∈ recipients, validUtf8 r.kid = true)
    (hkeys : ∀ r ∈ recipients, ∃ priv, P.IsKeyPair priv r.pubKey)
    {senderKID : Bytes} {senderPriv : Option Array32}
    {senderPubFn : Option (Bytes → Except Err Array32)}
    (hsender : ∀ priv, senderPriv = some priv → senderKID ≠ [] ∧ validUtf8 senderKID = true
      ∧ ∃ f pub, senderPubFn = some f ∧ f senderKID = .ok pub ∧ P.IsKeyPair priv pub)
    {r : Recipient} (hr : r ∈ recipients) {recipPriv : Array32}
    (hpair : P.IsKeyPair recipPriv r.pubKey) {recipKeyFn : Bytes → Except Err Array32}
    (hown : recipKeyFn r.kid = .ok recipPriv)
    (hother : ∀ kid, kid ≠ r.kid → ∃ e, recipKeyFn kid = .error e) :
    ∃ envelope, packEnvelope P msg recipients senderKID senderPriv rnd = .ok envelope
      ∧ unpack P envelope recipKeyFn senderPubFn
        = .ok (msg, if senderPriv.isSome then senderKID else []) := by
  have hskidUtf8 : senderPriv.isSome → validUtf8 senderKID = true := by
    intro hsome
    obtain ⟨priv, hpriv⟩ := Option.isSome_iff_exists.mp hsome
    exact (hsender priv hpriv).2.1
  have hprot := @unmarshal_packHeader P senderPriv recipients senderKID hskidUtf8
  obtain ⟨senderPub, hresolve, hpub⟩ := @resolveSender_packHeader P _ recipients _ _ hsender
  have hapu : (packHeader P recipients senderKID senderPriv).apu
      = encodeB64 (if senderPriv.isSome then senderKID else []) := by
    cases senderPriv <;> rfl
  -- the sender's side runs to its end
  obtain ⟨cek, hcek⟩ : ∃ cek, rnd.read32 0 = .ok cek := by
    rw [Rand.read32, hrnd 0]
    exact ⟨_, rfl⟩
  obtain ⟨es, hes, hpacked⟩ := packRecipients_ok hP hrnd hapu rfl senderPriv cek 1 hkeys
  obtain ⟨iv, hiv, hivlen⟩ : ∃ iv, rnd.read (recipients.length + 1) JoseCrypto.nonceSizeX = .ok iv
      ∧ iv.length = JoseCrypto.nonceSizeX := by
    rw [Rand.read, hrnd]
    exact ⟨_, rfl, by simp⟩
  have hlen : recipients.length ≠ 0 := fun h => by
    rw [length_eq_zero_iff.mp h] at hr
    cases hr
  have hreadable : ∀ e ∈ es, e.Readable := by
    intro e he
    obtain ⟨r', hr', hre⟩ := exists_of_mem_forall₂ hpacked e he
    exact hre.readable (hutf8 r' hr')
  have hfind := findSome?_unwrapCEK hP hpacked hkids rfl hpub hr hpair hown hother
  have hmarshal := marshal_eq_ok (packHeader P recipients senderKID senderPriv).writable.supported
  refine ⟨(envelopeOf P (packHeader P recipients senderKID senderPriv) es cek iv msg).toValue.text,
    ?_, unpack_envelopeOf hP msg hprot hreadable hresolve hfind hivlen⟩
  simp only [packEnvelope, if_neg hlen, hmarshal, wrapErr_ok, ok_bind, hcek, hes, hiv]
  exact marshal_eq_ok (Envelope.writable _).supported

end RoundTrip

theorem unpack_packEnvelope_sample : ∃ envelope, packEnvelope JoseCrypto.standIn "hi"
        [⟨"bob", ⟨replicate 32 2, rfl⟩⟩, ⟨"carol", ⟨replicate 32 3, rfl⟩⟩]
        "alice" (some ⟨replicate 32 1, rfl⟩) (Rand.of fun _ _ => 7) = .ok envelope
      ∧ unpack JoseCrypto.standIn envelope
          (fun kid => if kid = "carol" then .ok ⟨replicate 32 3, rfl⟩
            else .error (.new "unknown key" []))
          (some fun _ => .ok ⟨replicate 32 1, rfl⟩) = .ok ("hi", "alice") := by
  refine unpack_packEnvelope JoseCrypto.standIn_lawful (fun _ => rfl) "hi" (by decide)
    (by decide) (fun r _ => ⟨r.pubKey, JoseCrypto.standIn_isKeyPair _⟩) ?_
    (r := ⟨"carol", ⟨replicate 32 3, rfl⟩⟩) (by simp) (JoseCrypto.standIn_isKeyPair _)
    (if_pos rfl) fun kid hkid => ⟨_, if_neg hkid⟩
  intro priv hpriv
  obtain rfl := Option.some.inj hpriv
  exact ⟨by decide, by decide, _, _, rfl, rfl, JoseCrypto.standIn_isKeyPair _⟩

end TptIdentity.Didcomm
