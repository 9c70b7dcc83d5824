import TptIdentity.DidcommModel

/-!
# When unpacking panics

`Unpack` hands the nonce to the AEAD as it was decoded. It returns exactly if an envelope whose
content key is found has a nonce of 24 bytes (`unpack_returns_iff`).
-/

namespace Go

/-! ## Calls that return -/

theorem returns_decodeB64 (s : Bytes) : (decodeB64 s).returns := by
  unfold decodeB64
  split
  · rfl
  · rfl

theorem returns_unmarshalInto {S : Type} (decode : Json → S → Option S) (zero : S) (s : Bytes) :
    (unmarshalInto decode zero s).returns := by
  unfold unmarshalInto
  split
  · rfl
  · split
    · rfl
    · rfl

/-- Key agreement returns on 32-byte keys, and `Open` when the nonce has its size. -/
structure JoseCrypto.Total (P : JoseCrypto) : Prop where
  x25519 : ∀ priv pub, (P.x25519 priv pub).returns = true
  aeadOpen : ∀ key nonce ciphertext aad, nonce.length = nonceSizeX →
    (P.aeadOpen key nonce ciphertext aad).returns = true

theorem JoseCrypto.standIn_total : standIn.Total where
  x25519 _ _ := rfl
  aeadOpen _ _ _ _ _ := rfl

theorem JoseCrypto.Total.returns_openWith {P : JoseCrypto} (hP : P.Total) (key : Array32)
    (nonce ciphertext aad : Bytes) :
    (P.openWith key nonce ciphertext aad).returns ↔ nonce.length = nonceSizeX := by
  unfold JoseCrypto.openWith
  by_cases hlen : nonce.length = nonceSizeX
  · rw [if_pos hlen]
    exact iff_of_true (hP.aeadOpen key nonce ciphertext aad hlen) hlen
  · rw [if_neg hlen]
    exact iff_of_false Bool.false_ne_true hlen

end Go

namespace TptIdentity.Didcomm

open Go Res

variable {P : JoseCrypto}

/-! ## The steps of unpacking -/

theorem returns_resolveSender (senderPubFn : Option (Bytes → Except Err Array32)) (skid : Bytes) :
    (resolveSender senderPubFn skid).returns := by
  unfold resolveSender
  split
  · cases senderPubFn with
    | none => rfl
    | some f =>
      simp only
      split
      · rfl
      · rfl
  · rfl

def Unwraps (P : JoseCrypto) (env : Envelope) (recipKeyFn : Bytes → Except Err Array32)
    (senderPubFn : Option (Bytes → Except Err Array32)) (cek : Array32) : Prop :=
  ∃ protJSON hdr senderPub, decodeB64 env.protectedB64 = .ok protJSON
    ∧ ProtectedHeader.unmarshal protJSON = .ok hdr
    ∧ resolveSender senderPubFn hdr.skid = .ok senderPub
    ∧ env.recipients.toList.findSome? (unwrapCEK P hdr senderPub recipKeyFn) = some cek

/-- The nonce has the size that the AEAD wants, unless the content is no base64. -/
def Envelope.NonceSized (env : Envelope) : Prop :=
  ∀ iv ct tag, decodeB64 env.iv = .ok iv → decodeB64 env.ciphertext = .ok ct →
    decodeB64 env.tag = .ok tag → iv.length = JoseCrypto.nonceSizeX

theorem returns_decryptContent (hP : P.Total) (env : Envelope) (cek : Array32) :
    (decryptContent P env cek).returns ↔ env.NonceSized := by
  simp only [decryptContent, returns_bind, returns_wrapErr, returns_decodeB64,
    wrapErr_eq_ok, true_and, hP.returns_openWith, Envelope.NonceSized]
  constructor
  · intro h iv ct tag hiv hct htag
    exact h iv hiv ct hct tag htag
  · intro h iv hiv ct hct tag htag
    exact h iv ct tag hiv hct htag

/-! ## Unpacking as a whole -/

/-- `Unpack` returns exactly if it does not get to decrypting, or the nonce has 24 bytes. -/
theorem unpack_returns_iff (hP : P.Total) (envelope : Bytes)
    (recipKeyFn : Bytes → Except Err Array32)
    (senderPubFn : Option (Bytes → Except Err Array32)) :
    (unpack P envelope recipKeyFn senderPubFn).returns = true ↔
      ∀ env cek, Envelope.unmarshal envelope = .ok env →
        Unwraps P env recipKeyFn senderPubFn cek → env.NonceSized := by
  have henvelope : ∀ s, (Envelope.unmarshal s).returns = true := returns_unmarshalInto _ _
  have hheader : ∀ s, (ProtectedHeader.unmarshal s).returns = true := returns_unmarshalInto _ _
  simp only [unpack, returns_bind, returns_wrapErr, wrapErr_eq_ok, henvelope, hheader,
    returns_decodeB64, returns_resolveSender, true_and]
  constructor
  · rintro h env cek henv ⟨protJSON, hdr, senderPub, hprot, hhdr, hsender, hfind⟩
    have hcontent := h env henv protJSON hprot hdr hhdr senderPub hsender
    rw [hfind] at hcontent
    exact (returns_decryptContent hP env cek).mp (returns_bind.mp hcontent).1
  · intro h env henv protJSON hprot hdr hhdr senderPub hsender
    cases hfind : env.recipients.toList.findSome? (unwrapCEK P hdr senderPub recipKeyFn) with
    | none => rfl
    | some cek =>
      have hsized := h env cek henv ⟨protJSON, hdr, senderPub, hprot, hhdr, hsender, hfind⟩
      exact returns_bind.mpr
        ⟨(returns_decryptContent hP env cek).mpr hsized, fun _ _ => rfl⟩

/-! ## Two nonces -/

def withNonce (iv : Bytes) : Envelope where
  protectedB64 := encodeB64 "\x7b\"alg\":\"ECDH-ES+A256KW\"\x7d"
  recipients := Slice.ofList [⟨⟨"bob", some ⟨[], [], encodeB64 (9 :: List.replicate 31 0)⟩⟩,
    encodeB64 ((aesKeyWrap .standIn (List.replicate 32 0) (List.replicate 32 0)).getD [])⟩]
  iv := encodeB64 iv
  ciphertext := []
  tag := []

def nonceChecked (envelope : Bytes) : Bool :=
  (Envelope.unmarshal envelope).toOption.all fun env =>
    (decodeB64 env.iv).toOption.all fun iv => iv.length == JoseCrypto.nonceSizeX

theorem nonceSized_of_nonceChecked {envelope : Bytes} {env : Envelope}
    (h : nonceChecked envelope) (henv : Envelope.unmarshal envelope = .ok env) :
    env.NonceSized := by
  intro iv ct tag hiv _ _
  rw [nonceChecked, henv, toOption_ok, Option.all_some, hiv, toOption_ok, Option.all_some] at h
  exact eq_of_beq h

theorem unpack_returns_withNonce :
    (unpack .standIn (withNonce (List.replicate 24 0)).toValue.text (fun _ => .ok default)
      none).returns = true :=
  (unpack_returns_iff JoseCrypto.standIn_total _ _ _).mpr fun _ _ henv _ =>
    nonceSized_of_nonceChecked (by decide +kernel) henv

theorem unpack_panics_short_nonce :
    unpack .standIn (withNonce []).toValue.text (fun _ => .ok default) none
      = .panics "chacha20poly1305: bad nonce length passed to Open" := by
  decide +kernel

end TptIdentity.Didcomm
