import TptIdentity.DidcommRoundTrip

/-!
# Whom an envelope authenticates

`Unpack` returns the `skid` of the header as the sender, but which key agreement it runs depends
on `alg` (`unpack_sender_iff`). With the other algorithm anyone can pack in any name
(`unpack_forge`).
-/

namespace TptIdentity.Didcomm

open Go List Res Option

/-! ## What a successful call did -/

structure Unwrapped (P : JoseCrypto) (envelope : Bytes) (recipKeyFn : Bytes → Except Err Array32)
    (senderPubFn : Option (Bytes → Except Err Array32)) (hdr : ProtectedHeader) (r : JweRecip)
    (senderPub recipPriv ephPub kek : Array32) : Prop where
  header : ∃ env protJSON, Envelope.unmarshal envelope = .ok env
    ∧ decodeB64 env.protectedB64 = .ok protJSON ∧ ProtectedHeader.unmarshal protJSON = .ok hdr
    ∧ ∃ before after, env.recipients.toList = before ++ r :: after
      ∧ ∀ r' ∈ before, unwrapCEK P hdr senderPub recipKeyFn r' = none
  sender : resolveSender senderPubFn hdr.skid = .ok senderPub
  recipient : recipKeyFn r.header.kid = .ok recipPriv
  ephemeral : ∃ epk, r.header.epk = some epk ∧ decode32 epk.x = some ephPub
  derived : recipientKEK P hdr senderPub recipPriv ephPub = some kek
  unwraps : ∃ encKey cek : Bytes, decodeB64 r.encryptedKey = .ok encKey
    ∧ aesKeyUnwrap P kek.val encKey = .ok cek ∧ cek.length = 32

variable {recipKeyFn : Bytes → Except Err Array32}

theorem unwrapCEK_eq_some {P : JoseCrypto} {hdr : ProtectedHeader} {senderPub cek : Array32}
    {r : JweRecip} (h : unwrapCEK P hdr senderPub recipKeyFn r = some cek) :
    ∃ recipPriv epk ephPub kek encKey, recipKeyFn r.header.kid = .ok recipPriv
      ∧ r.header.epk = some epk ∧ decode32 epk.x = some ephPub
      ∧ recipientKEK P hdr senderPub recipPriv ephPub = some kek
      ∧ decodeB64 r.encryptedKey = .ok encKey ∧ aesKeyUnwrap P kek.val encKey = .ok cek.val := by
  obtain ⟨recipPriv, hpriv, h⟩ := bind_eq_some_iff.mp h
  obtain ⟨epk, hepk, h⟩ := bind_eq_some_iff.mp h
  obtain ⟨ephPub, heph, h⟩ := bind_eq_some_iff.mp h
  obtain ⟨kek, hkek, h⟩ := bind_eq_some_iff.mp h
  have hkey : recipKeyFn r.header.kid = .ok recipPriv := by
    cases hfn : recipKeyFn r.header.kid with
    | ok k => rw [hfn] at hpriv; exact congrArg _ (some.inj hpriv)
    | error e => rw [hfn] at hpriv; cases hpriv
  obtain ⟨encKey, henc, h⟩ := bind_eq_some_iff.mp h
  obtain ⟨b, hb, h⟩ := bind_eq_some_iff.mp h
  refine ⟨recipPriv, epk, ephPub, kek, encKey, hkey, hepk, heph, hkek, toOption_eq_some.mp henc, ?_⟩
  rw [toOption_eq_some.mp hb, Array32.ofBytes_eq_some h]

variable {senderPubFn : Option (Bytes → Except Err Array32)}

theorem unpack_eq_ok {P : JoseCrypto} {envelope msg skid : Bytes}
    (h : unpack P envelope recipKeyFn senderPubFn = .ok (msg, skid)) :
    ∃ hdr r senderPub recipPriv ephPub kek,
      Unwrapped P envelope recipKeyFn senderPubFn hdr r senderPub recipPriv ephPub kek
        ∧ hdr.skid = skid := by
  obtain ⟨env, henv, h⟩ := bind_eq_ok.mp h
  obtain ⟨protJSON, hprot, h⟩ := bind_eq_ok.mp h
  obtain ⟨hdr, hhdr, h⟩ := bind_eq_ok.mp h
  obtain ⟨senderPub, hsender, h⟩ := bind_eq_ok.mp h
  rw [wrapErr_eq_ok] at henv hprot hhdr
  split at h
  · cases h
  · next cek hfind =>
    obtain ⟨msg', -, h⟩ := bind_eq_ok.mp h
    obtain ⟨rfl, rfl⟩ := Prod.mk.inj (ok.inj h)
    obtain ⟨before, r, after, hlist, hr, hbefore⟩ := findSome?_eq_some_iff.mp hfind
    obtain ⟨recipPriv, epk, ephPub, kek, encKey, hpriv, hepk, heph, hkek, henc, hcek⟩ :=
      unwrapCEK_eq_some hr
    exact ⟨hdr, r, senderPub, recipPriv, ephPub, kek,
      ⟨⟨env, protJSON, henv, hprot, hhdr, before, after, hlist, hbefore⟩, hsender, hpriv,
        ⟨epk, hepk, heph⟩, hkek, encKey, cek.val, henc, hcek, cek.property⟩, rfl⟩

theorem resolveSender_eq_ok {skid : Bytes} {pub : Array32} (hskid : skid ≠ [])
    (h : resolveSender senderPubFn skid = .ok pub) :
    ∃ f, senderPubFn = some f ∧ f skid = .ok pub := by
  unfold resolveSender at h
  rw [if_pos hskid] at h
  split at h
  · cases h
  · next f =>
    split at h
    · next p hp => exact ⟨f, rfl, hp.trans (congrArg _ (ok.inj h))⟩
    · cases h

/-! ## The derived keys -/

section Derivation

variable {P : JoseCrypto} {hdr : ProtectedHeader} {senderPub recipPriv ephPub kek : Array32}

def kdfInputs (P : JoseCrypto) (hdr : ProtectedHeader) (senderPub recipPriv ephPub : Array32) :
    Set Bytes :=
  {x | (∃ z, P.x25519 recipPriv ephPub = .ok z ∧ kdfInput z.val hdr.alg [] hdr.apv = .ok x)
    ∨ ∃ ze zs, P.x25519 recipPriv ephPub = .ok ze ∧ P.x25519 recipPriv senderPub = .ok zs
      ∧ kdfInput (ze.val ++ zs.val) hdr.alg hdr.apu hdr.apv = .ok x}

theorem ecdhESKEKRecipient_eq_ok
    (h : ecdhESKEKRecipient P recipPriv ephPub hdr.alg hdr.apv = .ok kek) :
    ∃ z x, P.x25519 recipPriv ephPub = .ok z ∧ kdfInput z.val hdr.alg [] hdr.apv = .ok x
      ∧ kek = P.sha256 x := by
  obtain ⟨z, hz, h⟩ := bind_eq_ok.mp h
  obtain ⟨x, hx, h⟩ := bind_eq_ok.mp h
  exact ⟨z, x, hz, hx, (ok.inj h).symm⟩

theorem ecdh1PUKEKRecipient_eq_ok
    (h : ecdh1PUKEKRecipient P ephPub recipPriv senderPub hdr.alg hdr.apu hdr.apv = .ok kek) :
    ∃ ze zs x, P.x25519 recipPriv ephPub = .ok ze ∧ P.x25519 recipPriv senderPub = .ok zs
      ∧ kdfInput (ze.val ++ zs.val) hdr.alg hdr.apu hdr.apv = .ok x ∧ kek = P.sha256 x := by
  obtain ⟨ze, hze, h⟩ := bind_eq_ok.mp h
  obtain ⟨zs, hzs, h⟩ := bind_eq_ok.mp h
  obtain ⟨x, hx, h⟩ := bind_eq_ok.mp h
  exact ⟨ze, zs, x, hze, hzs, hx, (ok.inj h).symm⟩

theorem kdfInput_eq_ok {z alg apuB64 apvB64 x : Bytes}
    (h : kdfInput z alg apuB64 apvB64 = .ok x) : ∃ apu apv,
      partyInfo apuB64 "concat-kdf: decode apu: %w" = .ok apu
      ∧ partyInfo apvB64 "concat-kdf: decode apv: %w" = .ok apv ∧ x = kdfBytes z alg apu apv := by
  obtain ⟨apu, hapu, h⟩ := bind_eq_ok.mp h
  obtain ⟨apv, hapv, h⟩ := bind_eq_ok.mp h
  exact ⟨apu, apv, hapu, hapv, (ok.inj h).symm⟩

theorem length_kdfBytes (z alg apu apv : Bytes) : (kdfBytes z alg apu apv).length
    = 20 + z.length + alg.length + apu.length + apv.length := by
  simp only [kdfBytes, length_append, length_uint32Bytes]
  omega

theorem kdfInput_ne {ze zs alg apuB64 apvB64 x y : Bytes} (hzs : zs ≠ [])
    (hx : kdfInput ze alg [] apvB64 = .ok x) (hy : kdfInput (ze ++ zs) alg apuB64 apvB64 = .ok y) :
    x ≠ y := by
  obtain ⟨apu, apv, hapu, hapv, hx⟩ := kdfInput_eq_ok hx
  obtain ⟨apu', apv', -, hapv', hy⟩ := kdfInput_eq_ok hy
  have hnil : [] = apu := ok.inj hapu
  have hsame : apv = apv' := ok.inj (hapv.symm.trans hapv')
  have hpos := length_pos_of_ne_nil hzs
  intro heq
  have hlen := congrArg length heq
  rw [hx, hy, length_kdfBytes, length_kdfBytes, length_append, ← hnil, hsame, length_nil] at hlen
  omega

theorem ecdh1PU_of_auth (hkek : recipientKEK P hdr senderPub recipPriv ephPub = some kek)
    (hauth : hdr.alg = algAuthcrypt) :
    ecdh1PUKEKRecipient P ephPub recipPriv senderPub hdr.alg hdr.apu hdr.apv = .ok kek := by
  have hanon : hdr.alg ≠ algAnoncrypt := fun h => absurd (h.symm.trans hauth) (by decide)
  rw [recipientKEK, if_neg hanon, if_pos hauth] at hkek
  exact toOption_eq_some.mp hkek

theorem auth_of_ecdh1PU (hkek : recipientKEK P hdr senderPub recipPriv ephPub = some kek)
    (hfree : P.CollisionFree (kdfInputs P hdr senderPub recipPriv ephPub))
    (h1pu : ecdh1PUKEKRecipient P ephPub recipPriv senderPub hdr.alg hdr.apu hdr.apv = .ok kek) :
    hdr.alg = algAuthcrypt := by
  by_contra hauth
  rw [recipientKEK, if_neg hauth] at hkek
  split at hkek
  · obtain ⟨z, x, hz, hx, hkek⟩ := ecdhESKEKRecipient_eq_ok (toOption_eq_some.mp hkek)
    obtain ⟨ze, zs, y, hze, hzs, hy, hkek'⟩ := ecdh1PUKEKRecipient_eq_ok h1pu
    obtain rfl := ok.inj (hz.symm.trans hze)
    have heq := hfree (.inl ⟨z, hz, hx⟩) (.inr ⟨z, zs, hze, hzs, hy⟩) (hkek.symm.trans hkek')
    have hne : zs.val ≠ [] := fun h => by
      have := zs.property
      rw [h] at this
      cases this
    exact kdfInput_ne hne hx hy heq
  · cases hkek

end Derivation

/-- The key of a message with a sender is derived from the sender's public key exactly if the header
names ECDH-1PU. Only the direction from the key to the algorithm needs that SHA-256 does not
collide. -/
theorem unpack_sender_iff {P : JoseCrypto} {envelope msg skid : Bytes}
    {recipKeyFn : Bytes → Except Err Array32} {senderPubFn : Option (Bytes → Except Err Array32)}
    (h : unpack P envelope recipKeyFn senderPubFn = .ok (msg, skid)) (hskid : skid ≠ []) :
    ∃ hdr r senderPub recipPriv ephPub kek,
      Unwrapped P envelope recipKeyFn senderPubFn hdr r senderPub recipPriv ephPub kek
      ∧ hdr.skid = skid ∧ (∃ f, senderPubFn = some f ∧ f skid = .ok senderPub)
      ∧ (hdr.alg = algAuthcrypt →
          ecdh1PUKEKRecipient P ephPub recipPriv senderPub hdr.alg hdr.apu hdr.apv = .ok kek)
      ∧ (P.CollisionFree (kdfInputs P hdr senderPub recipPriv ephPub) →
          ecdh1PUKEKRecipient P ephPub recipPriv senderPub hdr.alg hdr.apu hdr.apv = .ok kek →
          hdr.alg = algAuthcrypt) := by
  obtain ⟨hdr, r, senderPub, recipPriv, ephPub, kek, hunwrapped, rfl⟩ := unpack_eq_ok h
  exact ⟨hdr, r, senderPub, recipPriv, ephPub, kek, hunwrapped, rfl,
    resolveSender_eq_ok hskid hunwrapped.sender, ecdh1PU_of_auth hunwrapped.derived,
    auth_of_ecdh1PU hunwrapped.derived⟩

theorem unpack_sender_iff_sample : ∃ envelope hdr r senderPub recipPriv ephPub kek,
    unpack JoseCrypto.standIn envelope (fun _ => .ok ⟨replicate 32 2, rfl⟩)
        (some fun _ => .ok ⟨replicate 32 1, rfl⟩) = .ok ("hi", "alice")
      ∧ Unwrapped JoseCrypto.standIn envelope (fun _ => .ok ⟨replicate 32 2, rfl⟩)
        (some fun _ => .ok ⟨replicate 32 1, rfl⟩) hdr r senderPub recipPriv ephPub kek
      ∧ hdr.skid = "alice" := by
  have hrun : (packEnvelope JoseCrypto.standIn "hi"
      [⟨"bob", ⟨replicate 32 2, rfl⟩⟩] "alice" (some ⟨replicate 32 1, rfl⟩)
      (Rand.of fun _ _ => 7) >>= fun envelope =>
        unpack JoseCrypto.standIn envelope (fun _ => .ok ⟨replicate 32 2, rfl⟩)
          (some fun _ => .ok ⟨replicate 32 1, rfl⟩)) = .ok ("hi", "alice") := by
    decide +kernel
  obtain ⟨envelope, -, hunpack⟩ := bind_eq_ok.mp hrun
  obtain ⟨hdr, r, senderPub, recipPriv, ephPub, kek, hunwrapped, hskid, -⟩ :=
    unpack_sender_iff hunpack (by decide)
  exact ⟨envelope, hdr, r, senderPub, recipPriv, ephPub, kek, hunpack, hunwrapped, hskid⟩

/-! ## Forging a sender -/

def forgedHeader (skid : Bytes) : ProtectedHeader :=
  ⟨mediaTypeEncrypted, algAnoncrypt, encXC20P, skid, [], []⟩

/-- An envelope in the name of `skid`, made without any key of that sender. -/
def forge (P : JoseCrypto) (skid msg : Bytes) (r : Recipient) (cek : Array32) (iv : Bytes)
    (rnd : Rand) : Res Bytes := do
  let e ← packRecipient P (forgedHeader skid) none cek rnd 0 r
  return (envelopeOf P (forgedHeader skid) [e] cek iv msg).toValue.text

theorem unmarshal_forgedHeader {skid : Bytes} (hskid : validUtf8 skid) :
    ProtectedHeader.unmarshal (forgedHeader skid).toValue.text = .ok (forgedHeader skid) := by
  have hconst : validUtf8 mediaTypeEncrypted ∧ validUtf8 algAnoncrypt
      ∧ validUtf8 encXC20P := by decide
  exact ProtectedHeader.unmarshal_text hconst.1 hconst.2.1 hconst.2.2 hskid rfl rfl

theorem unpack_forge {P : JoseCrypto} (hP : P.Lawful) {rnd : Rand} (hrnd : ∀ i, rnd.fails i = none)
    {skid iv : Bytes} (msg : Bytes) (cek : Array32) (hskid : validUtf8 skid)
    (hiv : iv.length = JoseCrypto.nonceSizeX) {r : Recipient} (hkid : validUtf8 r.kid)
    {recipPriv : Array32} (hpair : P.IsKeyPair recipPriv r.pubKey)
    (hown : recipKeyFn r.kid = .ok recipPriv) :
    ∃ e, PackedFor P (forgedHeader skid) none cek r e
      ∧ forge P skid msg r cek iv rnd
        = .ok (envelopeOf P (forgedHeader skid) [e] cek iv msg).toValue.text
      ∧ ∀ f senderPub, f skid = .ok senderPub →
        unpack P (envelopeOf P (forgedHeader skid) [e] cek iv msg).toValue.text recipKeyFn (some f)
          = .ok (msg, skid) := by
  have hapu : (forgedHeader skid).apu = encodeB64 [] := rfl
  have hapv : (forgedHeader skid).apv = encodeB64 [] := rfl
  obtain ⟨e, he, hpacked⟩ := packRecipient_ok hP hrnd hapu hapv none cek 0 hpair
  refine ⟨e, hpacked, by simp [forge, he], fun f senderPub hf => ?_⟩
  have hresolve : ∃ pub, resolveSender (some f) (forgedHeader skid).skid = .ok pub := by
    unfold resolveSender
    split
    · exact ⟨senderPub, by simp only [forgedHeader, hf]⟩
    · exact ⟨default, rfl⟩
  obtain ⟨pub, hpub⟩ := hresolve
  have hunwrap : unwrapCEK P (forgedHeader skid) pub recipKeyFn e = some cek :=
    hpacked.unwrapCEK hP rfl (fun _ h => nomatch h) hpair hown
  refine unpack_envelopeOf hP msg (unmarshal_forgedHeader hskid) ?_ hpub ?_ hiv
  · intro e' he'
    rw [mem_singleton.mp he']
    exact hpacked.readable hkid
  · simp [hunwrap]

theorem Unwrapped.header_eq {P : JoseCrypto} {hdr hdr₀ : ProtectedHeader} {es : List JweRecip}
    {cek : Array32} {iv msg : Bytes} {r : JweRecip} {senderPub recipPriv ephPub kek : Array32}
    (hprot : ProtectedHeader.unmarshal hdr₀.toValue.text = .ok hdr₀)
    (hreadable : ∀ e ∈ es, e.Readable)
    (h : Unwrapped P (envelopeOf P hdr₀ es cek iv msg).toValue.text recipKeyFn senderPubFn hdr r
      senderPub recipPriv ephPub kek) : hdr = hdr₀ := by
  obtain ⟨env, protJSON, henv, hjson, hhdr, -⟩ := h.header
  obtain rfl := ok.inj (henv.symm.trans (unmarshal_envelopeOf hreadable))
  obtain rfl := ok.inj ((decodeB64_encodeB64 _).symm.trans hjson)
  exact ok.inj (hhdr.symm.trans hprot)

/-- It is accepted whatever the public key of the named sender is. -/
theorem forged_sender_accepted : ∃ envelope, forge JoseCrypto.standIn "alice" "pay mallory"
        ⟨"bob", ⟨replicate 32 2, rfl⟩⟩ ⟨replicate 32 5, rfl⟩ (replicate 24 6)
        (Rand.of fun _ _ => 7) = .ok envelope
      ∧ ∀ alicePub : Array32,
          unpack JoseCrypto.standIn envelope (fun _ => .ok ⟨replicate 32 2, rfl⟩)
              (some fun _ => .ok alicePub) = .ok ("pay mallory", "alice")
          ∧ ∀ hdr r senderPub recipPriv ephPub kek,
            Unwrapped JoseCrypto.standIn envelope (fun _ => .ok ⟨replicate 32 2, rfl⟩)
              (some fun _ => .ok alicePub) hdr r senderPub recipPriv ephPub kek →
            ecdh1PUKEKRecipient JoseCrypto.standIn ephPub recipPriv senderPub hdr.alg
              hdr.apu hdr.apv
              ≠ .ok kek := by
  obtain ⟨e, hpacked, hforge, hunpack⟩ := @unpack_forge
    (fun _ => .ok ⟨replicate 32 2, rfl⟩) JoseCrypto.standIn
    JoseCrypto.standIn_lawful (Rand.of fun _ _ => 7) (fun _ => rfl) "alice"
    (replicate 24 6) "pay mallory" ⟨replicate 32 5, rfl⟩ (by decide) rfl
    ⟨"bob", ⟨replicate 32 2, rfl⟩⟩ (by decide) _ (JoseCrypto.standIn_isKeyPair _) rfl
  refine ⟨_, hforge, fun alicePub => ⟨hunpack _ alicePub rfl, ?_⟩⟩
  intro hdr r senderPub recipPriv ephPub kek hunwrapped h1pu
  have hreadable : ∀ e' ∈ [e], e'.Readable := fun e' he' =>
    mem_singleton.mp he' ▸ hpacked.readable (by decide)
  obtain rfl := hunwrapped.header_eq (unmarshal_forgedHeader (by decide)) hreadable
  have halg : (forgedHeader "alice").alg = algAnoncrypt := rfl
  have hderived := hunwrapped.derived
  rw [recipientKEK, if_pos halg, toOption_eq_some] at hderived
  obtain ⟨z, x, -, hx, hkek⟩ := ecdhESKEKRecipient_eq_ok hderived
  obtain ⟨ze, zs, y, -, -, hy, hkek'⟩ := ecdh1PUKEKRecipient_eq_ok h1pu
  -- the stand-in hash is the length, and the inputs have 66 and 98 bytes
  obtain rfl : kdfBytes z.val algAnoncrypt [] [] = x := ok.inj hx
  obtain rfl : kdfBytes (ze.val ++ zs.val) algAnoncrypt [] [] = y := ok.inj hy
  have hlen := congrArg Subtype.val (hkek.symm.trans hkek')
  simp only [JoseCrypto.standIn, length_kdfBytes, length_append, z.property, ze.property,
    zs.property] at hlen
  exact absurd hlen (by decide)

/-! ## The framing of the key derivation -/

theorem uint32Bytes_inj {m n : Nat} (hm : m < 2 ^ 32) (hn : n < 2 ^ 32)
    (h : uint32Bytes m = uint32Bytes n) : m = n := by
  have hnat := congrArg beNat h
  rw [uint32Bytes, uint32Bytes, beNat_beBytes, beNat_beBytes] at hnat
  omega

/-- A field behind its length ends where the other one does. -/
theorem field_inj {a a' r r' : Bytes} (ha : a.length < 2 ^ 32) (ha' : a'.length < 2 ^ 32)
    (h : uint32Bytes a.length ++ (a ++ r) = uint32Bytes a'.length ++ (a' ++ r')) :
    a = a' ∧ r = r' := by
  obtain ⟨hlen, hrest⟩ := append_inj h (by simp)
  exact append_inj hrest (uint32Bytes_inj ha ha' hlen)

/-- The framing of the KDF input is injective. -/
theorem kdfInput_injective {z z' alg alg' apuB64 apuB64' apvB64 apvB64' apu apu' apv apv' : Bytes}
    (hz : z.length = z'.length) (halg : alg.length < 2 ^ 32) (halg' : alg'.length < 2 ^ 32)
    (hapu : partyInfo apuB64 "concat-kdf: decode apu: %w" = .ok apu)
    (hapu' : partyInfo apuB64' "concat-kdf: decode apu: %w" = .ok apu')
    (hapv : partyInfo apvB64 "concat-kdf: decode apv: %w" = .ok apv)
    (hapv' : partyInfo apvB64' "concat-kdf: decode apv: %w" = .ok apv')
    (hu : apu.length < 2 ^ 32) (hu' : apu'.length < 2 ^ 32) (hv : apv.length < 2 ^ 32)
    (hv' : apv'.length < 2 ^ 32)
    (h : kdfInput z alg apuB64 apvB64 = kdfInput z' alg' apuB64' apvB64') :
    z = z' ∧ alg = alg' ∧ apu = apu' ∧ apv = apv' := by
  simp only [kdfInput, hapu, hapv, hapu', hapv'] at h
  have hbytes : kdfBytes z alg apu apv = kdfBytes z' alg' apu' apv' := ok.inj h
  simp only [kdfBytes, append_assoc] at hbytes
  obtain ⟨hz, hfields⟩ := append_inj (append_cancel_left hbytes) hz
  obtain ⟨halg, hparties⟩ := field_inj halg halg' hfields
  obtain ⟨hapu, hlast⟩ := field_inj hu hu' hparties
  exact ⟨hz, halg, hapu, (field_inj hv hv' hlast).1⟩

/-- Two texts of one party info, the second with unused bits that are set. -/
theorem kdfInput_injective_loose :
    kdfInput [7] algAuthcrypt "YQ" [] = kdfInput [7] algAuthcrypt "YR" []
      ∧ ∀ apu apu' : Bytes, partyInfo "YQ" "concat-kdf: decode apu: %w" = .ok apu →
        partyInfo "YR" "concat-kdf: decode apu: %w" = .ok apu' → apu = apu' := by
  have h : kdfInput [7] algAuthcrypt "YQ" [] = kdfInput [7] algAuthcrypt "YR" [] := by
    decide +kernel
  have hlen : ∀ {text apu : Bytes}, partyInfo text "concat-kdf: decode apu: %w" = .ok apu →
      partyInfo text "concat-kdf: decode apu: %w" = .ok "a" → apu.length < 2 ^ 32 := by
    intro text apu hapu ha
    obtain rfl := ok.inj (hapu.symm.trans ha)
    decide
  refine ⟨h, fun apu apu' hapu hapu' => ?_⟩
  exact (kdfInput_injective rfl (by decide) (by decide) hapu hapu' rfl rfl
    (hlen hapu (by decide +kernel)) (hlen hapu' (by decide +kernel)) (by decide) (by decide)
    h).2.2.1

end TptIdentity.Didcomm
