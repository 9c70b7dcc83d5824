import Mathlib.Data.Set.Function
import TptIdentity.GoBinary

/-!
# Cryptographic primitives

The primitives are parameters, and what a theorem assumes of them is a hypothesis. The argument
checks of Go's packages are modelled around them.
-/

namespace Go

open List UInt8

structure Ed25519 where
  sign : Bytes → Bytes → Bytes
  verify : Bytes → Bytes → Bytes → Bool

variable {E : Ed25519} {msg sig : Bytes} (sha256 : Bytes → Bytes)

namespace Ed25519

def publicKeySize : Nat := 32

def privateKeySize : Nat := 64

def signWith (E : Ed25519) (priv msg : Bytes) : Res Bytes :=
  if priv.length = privateKeySize then .ok (E.sign priv msg)
  else .panics "ed25519: bad private key length"

def verifyWith (E : Ed25519) (pub msg sig : Bytes) : Res Bool :=
  if pub.length = publicKeySize then .ok (E.verify pub msg sig)
  else .panics "ed25519: bad public key length"

theorem signWith_eq_ok {priv : Bytes} :
    E.signWith priv msg = .ok sig
      ↔ priv.length = privateKeySize ∧ sig = E.sign priv msg := by
  unfold signWith
  split
  · next hlen => simp [hlen, eq_comm]
  · next hlen => simp [hlen]

theorem verifyWith_eq_ok {pub : Bytes} {valid : Bool} :
    E.verifyWith pub msg sig = .ok valid
      ↔ pub.length = publicKeySize ∧ valid = E.verify pub msg sig := by
  unfold verifyWith
  split
  · next hlen => simp [hlen, eq_comm]
  · next hlen => simp [hlen]

def KeyPair (E : Ed25519) (priv pub : Bytes) : Prop :=
  ∀ msg, E.verify pub msg (E.sign priv msg) = true

/-- A signature is valid for at most one of the messages in `S`. -/
def OneMessage (E : Ed25519) (pub : Bytes) (S : Set Bytes) : Prop :=
  ∀ sig, {msg ∈ S | E.verify pub msg sig = true}.Subsingleton

end Ed25519

structure Crypto where
  sha256 : Bytes → Bytes
  ed25519 : Ed25519

def Crypto.standIn : Crypto where
  sha256 b := [ofNat b.length]
  ed25519 := ⟨fun priv _ => priv.take 32, fun pub _ sig => sig = pub⟩

def Crypto.CollisionFree (C : Crypto) (S : Set Bytes) : Prop := Set.InjOn C.sha256 S

theorem Crypto.standIn_collisionFree (s : Bytes) (c : UInt8) :
    Crypto.standIn.CollisionFree {s ++ [c], s} := by
  have hne : ofNat (s ++ [c]).length ≠ ofNat s.length := by
    intro h
    have := congrArg toNat h
    simp only [length_append, length_singleton, toNat_ofNat'] at this
    omega
  rintro x (rfl | rfl) y (rfl | rfl) h
  · rfl
  · exact absurd (List.cons.inj h).1 hne
  · exact absurd (List.cons.inj h).1 (Ne.symm hne)
  · rfl

/-! ## HMAC -/

def sha256BlockSize : Nat := 64

def hmacBlock (key : Bytes) : Bytes :=
  let key := if sha256BlockSize < key.length then sha256 key else key
  key ++ List.replicate (sha256BlockSize - key.length) 0

def hmacSHA256 (key msg : Bytes) : Bytes :=
  let block := hmacBlock sha256 key
  sha256 (block.map (· ^^^ 0x5c) ++ sha256 (block.map (· ^^^ 0x36) ++ msg))

/-! ## Encryption -/

/-- SHA-256, X25519 with its base point, the AES block functions of a key, and `Seal` and `Open`
of XChaCha20-Poly1305 (key, nonce, text, additional data). -/
structure JoseCrypto where
  sha256 : Bytes → Array32
  x25519 : Array32 → Array32 → Res Array32
  basepoint : Array32
  aesEncrypt : Bytes → Bytes → Bytes
  aesDecrypt : Bytes → Bytes → Bytes
  aeadSeal : Array32 → Bytes → Bytes → Bytes → Bytes
  aeadOpen : Array32 → Bytes → Bytes → Bytes → Res Bytes

variable (P : JoseCrypto)

namespace JoseCrypto

def blockSize : Nat := 16

def nonceSizeX : Nat := 24

def overhead : Nat := 16

def openWith (key : Array32) (nonce ciphertext aad : Bytes) : Res Bytes :=
  if nonce.length = nonceSizeX then P.aeadOpen key nonce ciphertext aad
  else .panics "chacha20poly1305: bad nonce length passed to Open"

def IsKeyPair (priv pub : Array32) : Prop := P.x25519 priv P.basepoint = .ok pub

/-- Two key pairs agree on a secret, and the AES block functions and the AEAD invert. -/
structure Lawful (P : JoseCrypto) : Prop where
  hasPublicKey : ∀ priv, ∃ pub, P.IsKeyPair priv pub
  agree : ∀ a b A B, P.IsKeyPair a A → P.IsKeyPair b B →
    ∃ z, P.x25519 a B = .ok z ∧ P.x25519 b A = .ok z
  aes_length : ∀ key b, b.length = blockSize → (P.aesEncrypt key b).length = blockSize
  aes_inv : ∀ key b, b.length = blockSize → P.aesDecrypt key (P.aesEncrypt key b) = b
  aead_inv : ∀ key nonce msg aad, nonce.length = nonceSizeX →
    P.aeadOpen key nonce (P.aeadSeal key nonce msg aad) aad = .ok msg

def CollisionFree (S : Set Bytes) : Prop := Set.InjOn P.sha256 S

def standIn : JoseCrypto where
  sha256 b := ⟨List.replicate 32 (ofNat b.length), by simp⟩
  x25519 a b := .ok ⟨List.zipWith (· + ·) a.val b.val, by simp [a.property, b.property]⟩
  basepoint := ⟨List.replicate 32 0, length_zero32⟩
  aesEncrypt _ b := b
  aesDecrypt _ b := b
  aeadSeal _ _ msg _ := msg ++ List.replicate overhead 0
  aeadOpen _ _ ciphertext _ := .ok (ciphertext.take (ciphertext.length - overhead))

theorem standIn_isKeyPair (priv : Array32) : standIn.IsKeyPair priv priv := by
  refine congrArg Res.ok (Subtype.ext (ext_getElem ?_ fun i h1 h2 => ?_))
  · simp [standIn, priv.property]
  · simp only [standIn, getElem_zipWith, getElem_replicate, UInt8.add_zero]

theorem standIn_lawful : standIn.Lawful where
  hasPublicKey priv := ⟨priv, standIn_isKeyPair priv⟩
  agree a b A B hA hB := by
    obtain rfl := Res.ok.inj (hA.symm.trans (standIn_isKeyPair a))
    obtain rfl := Res.ok.inj (hB.symm.trans (standIn_isKeyPair b))
    refine ⟨_, rfl, congrArg Res.ok (Subtype.ext ?_)⟩
    exact zipWith_comm_of_comm UInt8.add_comm
  aes_length _ _ h := h
  aes_inv _ _ _ := rfl
  aead_inv key nonce msg aad _ := by simp [standIn, overhead]

end JoseCrypto

end Go
